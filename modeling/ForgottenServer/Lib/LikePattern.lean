import Mathlib

/-! # `LIKE` patterns

A pattern with a symbol for any one letter, a symbol for any word and an escape symbol. A word is
found literally when each of its special symbols stands behind an escape symbol. -/

namespace LikePattern

/-- The special symbols of a pattern. -/
structure Symbols (α : Type) where
  one : α
  many : α
  escape : α

inductive Token (α : Type) where
  | letter (a : α)
  | one
  | many

variable {α : Type} [DecidableEq α] (sym : Symbols α)

def Symbols.isSpecial (a : α) : Bool := a = sym.escape || a = sym.many || a = sym.one

/-- An escape symbol at the end stands for itself. -/
def tokens : List α → List (Token α)
  | [] => []
  | [a] => if a = sym.many then [.many] else if a = sym.one then [.one] else [.letter a]
  | a :: b :: pattern =>
    if a = sym.escape then .letter b :: tokens pattern
    else if a = sym.many then .many :: tokens (b :: pattern)
    else if a = sym.one then .one :: tokens (b :: pattern)
    else .letter a :: tokens (b :: pattern)

def matchTokens : List (Token α) → List α → Bool
  | [], word => word.isEmpty
  | .letter a :: ts, word => match word with
    | [] => false
    | b :: word => a = b && matchTokens ts word
  | .one :: ts, word => match word with
    | [] => false
    | _ :: word => matchTokens ts word
  | .many :: ts, word => word.tails.any fun rest => matchTokens ts rest

def like (pattern word : List α) : Bool := matchTokens (tokens sym pattern) word

/-- An escape symbol in front of every special symbol. -/
def escape (word : List α) : List α := word.flatMap fun a => if sym.isSpecial a then [sym.escape, a] else [a]

variable {sym}

theorem escape_append (word word' : List α) : escape sym (word ++ word') = escape sym word ++ escape sym word' :=
  List.flatMap_append

theorem escape_of_plain {word : List α} (h : ∀ a ∈ word, sym.isSpecial a = false) : escape sym word = word := by
  induction word with
  | nil => rfl
  | cons a word ih =>
    have hword := ih fun b hb => h b (List.mem_cons_of_mem _ hb)
    rw [escape, List.flatMap_cons, h a List.mem_cons_self, ← escape, hword]
    rfl

theorem tokens_escape (word : List α) {pattern : List α} (hne : pattern ≠ []) :
    tokens sym (escape sym word ++ pattern) = word.map .letter ++ tokens sym pattern := by
  induction word with
  | nil => rfl
  | cons a word ih =>
    have hcons : ∃ b rest, escape sym word ++ pattern = b :: rest :=
      List.exists_cons_of_ne_nil fun h => hne (List.append_eq_nil_iff.mp h).2
    obtain ⟨b, rest, hrest⟩ := hcons
    rw [hrest] at ih
    rw [escape, List.flatMap_cons, ← escape, List.append_assoc, hrest]
    by_cases hspecial : sym.isSpecial a = true
    · rw [if_pos hspecial, List.cons_append, List.cons_append, List.nil_append, tokens, if_pos rfl, ih]
      rfl
    · have hplain := hspecial
      simp only [Symbols.isSpecial, Bool.or_eq_true, decide_eq_true_eq, not_or] at hplain
      obtain ⟨⟨hescape, hmany⟩, hone⟩ := hplain
      rw [if_neg hspecial, List.cons_append, List.nil_append, tokens, if_neg hescape, if_neg hmany, if_neg hone, ih]
      rfl

theorem matchTokens_letters (letters word : List α) (ts : List (Token α)) :
    matchTokens (letters.map .letter ++ ts) word = true ↔
      ∃ rest, word = letters ++ rest ∧ matchTokens ts rest = true := by
  induction letters generalizing word with
  | nil => simp
  | cons a letters ih =>
    cases word with
    | nil => simp [matchTokens]
    | cons b word =>
      rw [List.map_cons, List.cons_append, matchTokens, Bool.and_eq_true, decide_eq_true_eq, ih]
      constructor
      · intro h
        obtain ⟨rfl, rest, rfl, h⟩ := h
        exact ⟨rest, rfl, h⟩
      · intro h
        obtain ⟨rest, hword, h⟩ := h
        obtain ⟨rfl, rfl⟩ := List.cons.inj hword
        exact ⟨rfl, rest, rfl, h⟩

theorem matchTokens_many (word : List α) : matchTokens [.many] word = true := by
  rw [matchTokens, List.any_eq_true]
  exact ⟨[], (List.mem_tails _ _).mpr List.nil_suffix, rfl⟩

/-- An escaped word followed by the symbol for any word finds what begins with the word. -/
theorem like_escape_iff (start word : List α) :
    like sym (escape sym start ++ [sym.many]) word = true ↔ start <+: word := by
  rw [like, tokens_escape start (List.cons_ne_nil _ _), tokens, if_pos rfl, matchTokens_letters]
  constructor
  · intro h
    obtain ⟨rest, rfl, -⟩ := h
    exact List.prefix_append _ _
  · intro h
    obtain ⟨rest, rfl⟩ := h
    exact ⟨rest, rfl, matchTokens_many rest⟩

end LikePattern
