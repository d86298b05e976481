import Mathlib

/-! # Tries with marked nodes

A node has a mark and children under distinct letters. The words of a trie are the paths to
its marked nodes. In a trie without dead branches every node but the root is on the way to a
word. -/

inductive Trie (α : Type) where
  | node (mark : Bool) (children : List (α × Trie α))

namespace Trie

variable {α : Type}

def mark : Trie α → Bool
  | node b _ => b

def children : Trie α → List (α × Trie α)
  | node _ cs => cs

def letters (t : Trie α) : List α := t.children.map Prod.fst

variable [DecidableEq α]

def child (t : Trie α) (c : α) : Option (Trie α) := t.children.lookup c

/-- The child under `c`, if any, becomes its image. -/
def modifyChild (t : Trie α) (c : α) (f : Trie α → Trie α) : Trie α :=
  node t.mark (t.children.map fun e => if e.1 = c then (e.1, f e.2) else e)

/-- The node at the end of a path. -/
def descend (t : Trie α) : List α → Option (Trie α)
  | [] => some t
  | c :: p => (t.child c).bind fun n => n.descend p

def modifyAt (t : Trie α) : List α → (Trie α → Trie α) → Trie α
  | [], f => f t
  | c :: p, f => t.modifyChild c fun n => n.modifyAt p f

/-- Mark and letters of the node at the end of a path. -/
def look (t : Trie α) (p : List α) : Option (Bool × List α) :=
  (t.descend p).map fun n => (n.mark, n.letters)

def Present (t : Trie α) (p : List α) : Prop := (t.look p).isSome

/-- `p` is a word of `t`. -/
def Holds (t : Trie α) (p : List α) : Prop := ∃ cs, t.look p = some (true, cs)

/-- No node has two children under one letter. -/
def Distinct (t : Trie α) : Prop := ∀ p b cs, t.look p = some (b, cs) → cs.Nodup

/-- No branch is dead: below every node but the root there is a word. -/
def Live (t : Trie α) : Prop := ∀ p, p ≠ [] → t.Present p → ∃ s, t.Holds s ∧ p <+: s

variable {t n : Trie α} {c d : α} {p q s : List α}

/-! ## One level -/

theorem child_isSome_iff : (t.child c).isSome ↔ c ∈ t.letters := by
  rw [child, letters, ← Option.ne_none_iff_isSome, Ne, List.lookup_eq_none_iff]
  simp only [List.mem_map, bne_iff_ne, ne_eq, not_forall, not_not, Prod.exists, exists_and_right,
    exists_eq_right]
  grind

theorem letters_modifyChild (f : Trie α → Trie α) : (t.modifyChild c f).letters = t.letters := by
  rw [letters, modifyChild, children, List.map_map, letters]
  refine List.map_congr_left fun e _ => ?_
  simp only [Function.comp]
  split <;> rfl

theorem child_modifyChild (f : Trie α → Trie α) :
    (t.modifyChild c f).child d = if d = c then (t.child c).map f else t.child d := by
  rw [child, modifyChild, children, child, child]
  induction t.children with
  | nil => simp
  | cons e es ih =>
    obtain ⟨a, m⟩ := e
    rw [List.map_cons, List.lookup_cons, List.lookup_cons, List.lookup_cons]
    grind

theorem look_nil (t : Trie α) : t.look [] = some (t.mark, t.letters) := rfl

theorem look_cons (t : Trie α) (c : α) (p : List α) :
    t.look (c :: p) = (t.child c).bind fun n => n.look p := by
  rw [look, descend]
  cases t.child c <;> rfl

theorem look_append (t : Trie α) (p q : List α) :
    t.look (p ++ q) = (t.descend p).bind fun n => n.look q := by
  induction p generalizing t with
  | nil => rfl
  | cons c p ih =>
    rw [List.cons_append, look_cons, descend]
    cases t.child c with
    | none => rfl
    | some n => exact ih n

/-! ## Paths -/

theorem present_iff_descend : t.Present p ↔ ∃ n, t.descend p = some n := by
  rw [Present, look, Option.isSome_map, Option.isSome_iff_exists]

theorem Holds.present (h : t.Holds p) : t.Present p := by
  obtain ⟨cs, hcs⟩ := h
  rw [Present, hcs]
  rfl

theorem Present.of_prefix (h : t.Present q) (hpq : p <+: q) : t.Present p := by
  obtain ⟨r, rfl⟩ := hpq
  rw [Present, look_append] at h
  rw [present_iff_descend]
  cases hn : t.descend p with
  | none =>
    rw [hn] at h
    cases h
  | some n => exact ⟨n, rfl⟩

/-- The words below a node are the words of its subtree. -/
theorem holds_append (h : t.descend p = some n) : t.Holds (p ++ q) ↔ n.Holds q := by
  rw [Holds, Holds, look_append, h, Option.bind_some]

theorem present_append (h : t.descend p = some n) : t.Present (p ++ q) ↔ n.Present q := by
  rw [Present, Present, look_append, h, Option.bind_some]

theorem mem_letters_iff (h : t.descend p = some n) : c ∈ n.letters ↔ t.Present (p ++ [c]) := by
  rw [present_append h, ← child_isSome_iff, Present, look_cons]
  cases n.child c <;> simp [look_nil]

theorem Distinct.descend (h : t.Distinct) (hn : t.descend p = some n) : n.Distinct := by
  intro q b cs hq
  refine h (p ++ q) b cs ?_
  rw [look_append, hn, Option.bind_some, hq]

theorem Live.descend (h : t.Live) (hn : t.descend p = some n) : n.Live := by
  intro q hq hpresent
  obtain ⟨s, hs, r, rfl⟩ := h (p ++ q) (by simp [hq]) ((present_append hn).mpr hpresent)
  rw [List.append_assoc, holds_append hn] at hs
  exact ⟨q ++ r, hs, r, rfl⟩

/-! ## Changes at the end of a path -/

/-- A change at the end of `p` is seen below `p` only. -/
theorem look_modifyAt {f : Trie α → Trie α} (h : ¬p <+: q) : (t.modifyAt p f).look q = t.look q := by
  induction p generalizing t q with
  | nil => exact absurd (List.nil_prefix) h
  | cons c p ih =>
    rw [modifyAt]
    cases q with
    | nil => rw [look_nil, look_nil, letters_modifyChild]; rfl
    | cons d q =>
      rw [look_cons, look_cons, child_modifyChild]
      by_cases hd : d = c
      · subst hd
        rw [if_pos rfl]
        cases t.child d with
        | none => rfl
        | some n => exact ih fun hpq => h ((List.cons_prefix_cons).mpr ⟨rfl, hpq⟩)
      · rw [if_neg hd]

theorem look_modifyAt_append {f : Trie α → Trie α} (h : t.descend p = some n) :
    (t.modifyAt p f).look (p ++ q) = (f n).look q := by
  induction p generalizing t with
  | nil =>
    cases h
    rfl
  | cons c p ih =>
    rw [descend] at h
    rw [modifyAt, List.cons_append, look_cons, child_modifyChild, if_pos rfl]
    cases hc : t.child c with
    | none =>
      rw [hc] at h
      cases h
    | some m =>
      rw [hc] at h
      exact ih h

def setMark (b : Bool) (t : Trie α) : Trie α := node b t.children

def eraseChild (c : α) (t : Trie α) : Trie α := node t.mark (t.children.filter fun e => e.1 ≠ c)

theorem look_setMark_cons (b : Bool) (t : Trie α) (c : α) (p : List α) :
    (t.setMark b).look (c :: p) = t.look (c :: p) := by
  rw [look_cons, look_cons]
  rfl

theorem letters_eraseChild : (t.eraseChild c).letters = t.letters.filter (· ≠ c) := by
  rw [letters, eraseChild, children, letters, List.filter_map]
  rfl

theorem child_eraseChild : (t.eraseChild c).child d = if d = c then none else t.child d := by
  rw [child, eraseChild, children, child]
  induction t.children with
  | nil => simp
  | cons e es ih =>
    obtain ⟨a, m⟩ := e
    rw [List.filter_cons, List.lookup_cons]
    by_cases ha : a = c
    · subst ha
      rw [if_neg (by simp), ih]
      grind
    · rw [if_pos (by simpa using ha), List.lookup_cons]
      grind

/-- Marking a node changes its mark only. -/
theorem look_markAt (b : Bool) (h : t.descend p = some n) :
    (t.modifyAt p (setMark b)).look q = if q = p then some (b, n.letters) else t.look q := by
  by_cases hpq : p <+: q
  · obtain ⟨r, rfl⟩ := hpq
    rw [look_modifyAt_append h]
    cases r with
    | nil => rw [List.append_nil, if_pos rfl]; rfl
    | cons c r => rw [if_neg (by simp), look_setMark_cons, look_append, h, Option.bind_some]
  · rw [look_modifyAt hpq, if_neg]
    rintro rfl
    exact hpq List.prefix_rfl

theorem present_markAt (b : Bool) (h : t.descend p = some n) :
    (t.modifyAt p (setMark b)).Present q ↔ t.Present q := by
  rw [Present, Present, look_markAt b h]
  split
  · rename_i heq
    rw [heq, look, h]
    exact Iff.rfl
  · exact Iff.rfl

theorem holds_unmarkAt (h : t.descend p = some n) :
    (t.modifyAt p (setMark false)).Holds q ↔ t.Holds q ∧ q ≠ p := by
  rw [Holds, Holds, look_markAt false h]
  split
  · rename_i heq
    simp [heq]
  · rename_i heq
    exact ⟨fun hq => ⟨hq, heq⟩, fun hq => hq.1⟩

theorem Distinct.markAt (ht : t.Distinct) (b : Bool) (h : t.descend p = some n) :
    (t.modifyAt p (setMark b)).Distinct := by
  intro q b' cs hq
  rw [look_markAt b h] at hq
  split at hq
  · cases hq
    exact ht p n.mark n.letters (by rw [look, h]; rfl)
  · exact ht q b' cs hq

/-- Erasing a child leaves every mark outside of it. -/
theorem look_eraseAt (h : t.descend p = some n) :
    (t.modifyAt p (eraseChild c)).look q =
      if p ++ [c] <+: q then none
      else (t.look q).map fun e => (e.1, if q = p then e.2.filter (· ≠ c) else e.2) := by
  by_cases hpq : p <+: q
  · obtain ⟨r, rfl⟩ := hpq
    rw [look_modifyAt_append h, look_append, h, Option.bind_some]
    cases r with
    | nil =>
      have hlonger : ¬p ++ [c] <+: p ++ [] := by
        intro h'
        have hlen := h'.length_le
        simp at hlen
      rw [if_neg hlonger, look_nil, look_nil, letters_eraseChild]
      simp [eraseChild, mark]
    | cons d r =>
      have hstarts : p ++ [c] <+: p ++ d :: r ↔ d = c := by
        rw [List.prefix_append_right_inj, List.cons_prefix_cons]
        simp [eq_comm]
      rw [look_cons, child_eraseChild, look_cons]
      by_cases hd : d = c
      · rw [if_pos hd, if_pos (hstarts.mpr hd)]
        rfl
      · rw [if_neg hd, if_neg fun h' => hd (hstarts.mp h')]
        simp
  · have hne : q ≠ p := by
      rintro rfl
      exact hpq List.prefix_rfl
    rw [look_modifyAt hpq, if_neg fun hpc => hpq ((List.prefix_append p [c]).trans hpc)]
    simp [hne]

theorem present_eraseAt (h : t.descend p = some n) :
    (t.modifyAt p (eraseChild c)).Present q ↔ t.Present q ∧ ¬p ++ [c] <+: q := by
  rw [Present, Present, look_eraseAt h]
  split <;> simp_all

theorem holds_eraseAt (h : t.descend p = some n) :
    (t.modifyAt p (eraseChild c)).Holds q ↔ t.Holds q ∧ ¬p ++ [c] <+: q := by
  rw [Holds, Holds, look_eraseAt h]
  split
  · simp_all
  · rename_i hq
    cases hl : t.look q with
    | none => simp
    | some e => simp [hq, Prod.ext_iff]

theorem Distinct.eraseAt (ht : t.Distinct) (h : t.descend p = some n) :
    (t.modifyAt p (eraseChild c)).Distinct := by
  intro q b cs hq
  rw [look_eraseAt h] at hq
  split at hq
  · cases hq
  · obtain ⟨e, he, heq⟩ := Option.map_eq_some_iff.mp hq
    cases heq
    have hnodup := ht q e.1 e.2 he
    split
    · exact hnodup.filter _
    · exact hnodup

end Trie
