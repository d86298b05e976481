import Mathlib

/-! # Splitting at the leftmost occurrences

`split sep s` cuts `s` at the first `sep`, and goes on behind it. It is the one list of parts that joins to `s` and in
which no `sep` is found before its place. -/

namespace LeftmostSplit

variable {α : Type} {sep part : List α}

/-- The first `sep` of `part ++ sep` is the one behind `part`. -/
def Free (sep part : List α) : Prop := ∀ i < part.length, ¬ sep <+: (part ++ sep).drop i

theorem Free.not_infix (hfree : Free sep part) (hsep : sep ≠ []) : ¬ sep <:+: part := by
  rintro ⟨l, r, rfl⟩
  refine hfree l.length ?_ ?_
  · have hpos := List.length_pos_iff.mpr hsep
    simp only [List.length_append]
    omega
  · rw [List.append_assoc, List.append_assoc, List.drop_left]
    exact List.prefix_append _ _

/-- No `sep` is found in the parts, not even across a join. -/
def Separable (sep : List α) : List (List α) → Prop
  | [] => False
  | [part] => ¬ sep <:+: part
  | part :: parts => Free sep part ∧ Separable sep parts

theorem separable_cons {parts : List (List α)} (h : parts ≠ []) :
    Separable sep (part :: parts) ↔ Free sep part ∧ Separable sep parts := by
  cases parts with
  | nil => exact absurd rfl h
  | cons next parts => rfl

theorem Separable.not_infix (hsep : sep ≠ []) {parts : List (List α)} (h : Separable sep parts) (hpart : part ∈ parts) :
    ¬ sep <:+: part := by
  induction parts with
  | nil => cases hpart
  | cons first parts ih =>
    by_cases hnil : parts = []
    · subst hnil
      rw [List.mem_singleton.mp hpart]
      exact h
    · obtain ⟨hfree, hparts⟩ := (separable_cons hnil).mp h
      obtain rfl | hpart := List.mem_cons.mp hpart
      · exact hfree.not_infix hsep
      · exact ih hparts hpart

/-- The length of a join. -/
theorem length_intercalate (sep : List α) {parts : List (List α)} (h : parts ≠ []) :
    (sep.intercalate parts).length + sep.length = (parts.map List.length).sum + parts.length * sep.length := by
  induction parts with
  | nil => exact absurd rfl h
  | cons part parts ih =>
    by_cases hnil : parts = []
    · simp [hnil]
    · rw [List.intercalate_cons_of_ne_nil hnil]
      have := ih hnil
      simp only [List.length_append, List.map_cons, List.sum_cons, List.length_cons, Nat.add_mul, Nat.one_mul]
      omega

theorem intercalate_replicate_nil (c : α) (k : Nat) :
    [c].intercalate (List.replicate (k + 1) []) = List.replicate k c := by
  induction k with
  | zero => rfl
  | succ k ih =>
    have hne : List.replicate (k + 1) ([] : List α) ≠ [] := List.cons_ne_nil _ _
    rw [List.replicate_succ, List.intercalate_cons_of_ne_nil hne, ih]
    rfl

theorem separable_replicate_nil (hsep : sep ≠ []) (k : Nat) : Separable sep (List.replicate (k + 1) []) := by
  induction k with
  | zero => exact fun h => hsep (List.infix_nil.mp h)
  | succ k ih =>
    have hne : List.replicate (k + 1) ([] : List α) ≠ [] := List.cons_ne_nil _ _
    exact (separable_cons hne).mpr ⟨fun i hi => absurd hi (Nat.not_lt_zero i), ih⟩

/-! ## At most so many cuts -/

/-- What is behind the first `n` parts stays joined. -/
def atMost (sep : List α) (n : Nat) (parts : List (List α)) : List (List α) :=
  if n < parts.length then parts.take n ++ [sep.intercalate (parts.drop n)] else parts

theorem atMost_singleton (sep : List α) (n : Nat) (part : List α) : atMost sep n [part] = [part] := by
  rw [atMost]
  split
  · rename_i hlt
    obtain rfl : n = 0 := Nat.lt_one_iff.mp hlt
    rw [List.take_zero, List.drop_zero, List.intercalate_singleton, List.nil_append]
  · rfl

theorem atMost_zero {parts : List (List α)} (h : parts ≠ []) : atMost sep 0 parts = [sep.intercalate parts] := by
  rw [atMost, if_pos (List.length_pos_iff.mpr h)]
  rfl

theorem atMost_succ (n : Nat) (parts : List (List α)) :
    atMost sep (n + 1) (part :: parts) = part :: atMost sep n parts := by
  simp only [atMost, List.length_cons, Nat.succ_lt_succ_iff, List.take_succ_cons, List.drop_succ_cons]
  split <;> rfl

theorem length_atMost_le (sep : List α) (n : Nat) (parts : List (List α)) : (atMost sep n parts).length ≤ n + 1 := by
  rw [atMost]
  split
  · simp
  · omega

theorem intercalate_atMost (sep : List α) (n : Nat) (parts : List (List α)) :
    sep.intercalate (atMost sep n parts) = sep.intercalate parts := by
  induction parts generalizing n with
  | nil => rfl
  | cons part parts ih =>
    by_cases hnil : parts = []
    · rw [hnil, atMost_singleton]
    · cases n with
      | zero => rw [atMost_zero (List.cons_ne_nil _ _), List.intercalate_singleton]
      | succ n =>
        have hne : atMost sep n parts ≠ [] := by
          rw [atMost]
          split
          · exact List.append_ne_nil_of_right_ne_nil _ (List.cons_ne_nil _ _)
          · exact hnil
        rw [atMost_succ, List.intercalate_cons_of_ne_nil hnil, List.intercalate_cons_of_ne_nil hne, ih]

/-! ## The first occurrence -/

variable [DecidableEq α] {s rest : List α}

/-- Where `sep` begins for the first time. -/
def firstAt (sep : List α) : List α → Option Nat
  | [] => if sep = [] then some 0 else none
  | c :: s => if sep <+: c :: s then some 0 else (firstAt sep s).map (· + 1)

theorem firstAt_eq_some {i : Nat} : firstAt sep s = some i ↔
    i ≤ s.length ∧ sep <+: s.drop i ∧ ∀ j < i, ¬ sep <+: s.drop j := by
  induction s generalizing i with
  | nil =>
    rw [firstAt]
    split
    · rename_i hsep
      subst hsep
      constructor
      · intro h
        cases h
        exact ⟨le_rfl, List.nil_prefix, fun j hj => absurd hj (Nat.not_lt_zero j)⟩
      · rintro ⟨hle, -, -⟩
        rw [Nat.le_zero.mp hle]
    · rename_i hsep
      constructor
      · intro h
        cases h
      · rintro ⟨-, hprefix, -⟩
        rw [List.drop_nil, List.prefix_nil] at hprefix
        exact absurd hprefix hsep
  | cons c s ih =>
    rw [firstAt]
    split
    · rename_i hhere
      constructor
      · intro h
        cases h
        exact ⟨Nat.zero_le _, hhere, fun j hj => absurd hj (Nat.not_lt_zero j)⟩
      · rintro ⟨-, -, hfirst⟩
        cases i with
        | zero => rfl
        | succ i => exact absurd hhere (hfirst 0 i.succ_pos)
    · rename_i hhere
      rw [Option.map_eq_some_iff]
      constructor
      · rintro ⟨i, hi, rfl⟩
        obtain ⟨hle, hprefix, hfirst⟩ := ih.mp hi
        refine ⟨Nat.succ_le_succ hle, hprefix, fun j hj => ?_⟩
        cases j with
        | zero => exact hhere
        | succ j => exact hfirst j (Nat.lt_of_succ_lt_succ hj)
      · rintro ⟨hle, hprefix, hfirst⟩
        cases i with
        | zero => exact absurd hprefix hhere
        | succ i =>
          exact ⟨i, ih.mpr ⟨Nat.le_of_succ_le_succ hle, hprefix, fun j hj => hfirst (j + 1) (Nat.succ_lt_succ hj)⟩, rfl⟩

theorem firstAt_eq_none : firstAt sep s = none ↔ ¬ sep <:+: s := by
  induction s with
  | nil =>
    rw [firstAt, List.infix_nil]
    split <;> simp [*]
  | cons c s ih =>
    rw [firstAt, List.infix_cons_iff]
    split
    · rename_i hhere
      exact ⟨fun h => absurd h (Option.some_ne_none 0), fun h => absurd (Or.inl hhere) h⟩
    · rename_i hhere
      rw [Option.map_eq_none_iff, ih]
      exact ⟨fun h => not_or.mpr ⟨hhere, h⟩, fun h => (not_or.mp h).2⟩

theorem firstAt_append (hfree : Free sep part) (rest : List α) :
    firstAt sep (part ++ sep ++ rest) = some part.length := by
  refine firstAt_eq_some.mpr ⟨by simp, ?_, fun j hj hprefix => hfree j hj ?_⟩
  · rw [List.append_assoc, List.drop_left]
    exact List.prefix_append sep rest
  · have hle : j ≤ (part ++ sep).length := by
      rw [List.length_append]
      omega
    have hlong : sep.length ≤ ((part ++ sep).drop j).length := by
      rw [List.length_drop, List.length_append]
      omega
    rw [List.drop_append_of_le_length hle] at hprefix
    exact List.prefix_of_prefix_length_le hprefix (List.prefix_append _ rest) hlong

/-- What stands before the first `sep`, and what stands behind it. -/
theorem exists_of_firstAt {i : Nat} (h : firstAt sep s = some i) :
    s = s.take i ++ sep ++ s.drop (i + sep.length) ∧ Free sep (s.take i) ∧ (s.take i).length = i := by
  obtain ⟨hle, ⟨rest, hrest⟩, hfirst⟩ := firstAt_eq_some.mp h
  have hlength : (s.take i).length = i := List.length_take_of_le hle
  have hsplit : s = s.take i ++ sep ++ s.drop (i + sep.length) := by
    rw [← List.drop_drop, ← hrest, List.drop_left, List.append_assoc, hrest, List.take_append_drop]
  refine ⟨hsplit, fun j hj hprefix => hfirst j (hlength ▸ hj) ?_, hlength⟩
  rw [hsplit, List.drop_append_of_le_length (by rw [List.length_append]; omega)]
  exact hprefix.trans (List.prefix_append _ _)

/-! ## The parts -/

def split (sep s : List α) : List (List α) :=
  if _hsep : sep = [] then [s] else
    match _hfirst : firstAt sep s with
    | none => [s]
    | some i => s.take i :: split sep (s.drop (i + sep.length))
termination_by s.length
decreasing_by
  have hpos := List.length_pos_iff.mpr _hsep
  have hlength := congrArg List.length (exists_of_firstAt _hfirst).1
  simp only [List.length_append, List.length_drop] at hlength ⊢
  omega

theorem split_last (h : ¬ sep <:+: s) : split sep s = [s] := by
  rw [split]
  split
  · rfl
  · rw [firstAt_eq_none.mpr h]

theorem split_cut (hsep : sep ≠ []) (hfree : Free sep part) :
    split sep (part ++ sep ++ rest) = part :: split sep rest := by
  rw [split, dif_neg hsep, firstAt_append hfree]
  simp only [← List.length_append, List.drop_left]
  rw [List.append_assoc, List.take_left]

/-- A string is one part, or it begins with a part and goes on behind the `sep`. -/
theorem induction (hsep : sep ≠ []) {motive : List α → Prop} (last : ∀ s, ¬ sep <:+: s → motive s)
    (cut : ∀ part rest, Free sep part → motive rest → motive (part ++ sep ++ rest)) (s : List α) : motive s := by
  induction hn : s.length using Nat.strong_induction_on generalizing s with
  | _ n ih =>
    cases hfirst : firstAt sep s with
    | none => exact last s (firstAt_eq_none.mp hfirst)
    | some i =>
      obtain ⟨hsplit, hfree, -⟩ := exists_of_firstAt hfirst
      have hpos := List.length_pos_iff.mpr hsep
      have hlength := congrArg List.length hsplit
      simp only [List.length_append] at hlength
      rw [hsplit]
      exact cut _ _ hfree (ih _ (by omega) _ rfl)

theorem split_ne_nil (sep s : List α) : split sep s ≠ [] := by
  rw [split]
  split
  · exact List.cons_ne_nil _ _
  · split <;> exact List.cons_ne_nil _ _

theorem intercalate_split (sep s : List α) : sep.intercalate (split sep s) = s := by
  by_cases hsep : sep = []
  · rw [split, dif_pos hsep, List.intercalate_singleton]
  · induction s using induction hsep with
    | last s h => rw [split_last h, List.intercalate_singleton]
    | cut part rest hfree ih =>
      rw [split_cut hsep hfree, List.intercalate_cons_of_ne_nil (split_ne_nil sep rest), ih]

/-! ## Which parts these are -/

theorem separable_split (hsep : sep ≠ []) (s : List α) : Separable sep (split sep s) := by
  induction s using induction hsep with
  | last s h =>
    rw [split_last h]
    exact h
  | cut part rest hfree ih =>
    rw [split_cut hsep hfree]
    exact (separable_cons (split_ne_nil sep rest)).mpr ⟨hfree, ih⟩

/-- The parts of a join are those that were joined. -/
theorem split_intercalate (hsep : sep ≠ []) {parts : List (List α)} (h : Separable sep parts) :
    split sep (sep.intercalate parts) = parts := by
  induction parts with
  | nil => exact absurd h id
  | cons part parts ih =>
    by_cases hnil : parts = []
    · subst hnil
      rw [List.intercalate_singleton]
      exact split_last h
    · obtain ⟨hfree, hparts⟩ := (separable_cons hnil).mp h
      rw [List.intercalate_cons_of_ne_nil hnil, split_cut hsep hfree, ih hparts]

/-! ## Other joins -/

theorem length_split_le (hsep : sep ≠ []) (s : List α) : (split sep s).length ≤ s.length + 1 := by
  have hlength := length_intercalate sep (split_ne_nil sep s)
  rw [intercalate_split] at hlength
  have hpos := List.length_pos_iff.mpr hsep
  by_contra hmany
  have hmul : (s.length + 2) * sep.length ≤ (split sep s).length * sep.length := Nat.mul_le_mul_right _ (by omega)
  have hletters : s.length * 1 ≤ s.length * sep.length := Nat.mul_le_mul_left _ hpos
  rw [Nat.add_mul] at hmul
  omega

/-- There are more parts than letters only where every letter is a `sep`. -/
theorem eq_replicate_of_length_lt (hsep : sep ≠ []) (hs : s ≠ []) (h : s.length < (split sep s).length) :
    ∃ c, sep = [c] ∧ s = List.replicate s.length c := by
  have hlength := length_intercalate sep (split_ne_nil sep s)
  rw [intercalate_split] at hlength
  have hpos := List.length_pos_iff.mpr hs
  have hsepPos := List.length_pos_iff.mpr hsep
  have hmany : (s.length + 1) * sep.length ≤ (split sep s).length * sep.length := Nat.mul_le_mul_right _ h
  obtain ⟨c, rfl⟩ : ∃ c, sep = [c] := by
    refine List.length_eq_one_iff.mp (Nat.le_antisymm (Nat.le_of_mul_le_mul_left ?_ hpos) hsepPos)
    rw [Nat.add_mul] at hmany
    linarith [Nat.zero_le ((split sep s).map List.length).sum]
  have hempty : ∀ part ∈ split [c] s, part = [] := by
    intro part hpart
    have hle := List.le_sum_of_mem (List.mem_map_of_mem (f := List.length) hpart)
    simp only [List.length_singleton, Nat.mul_one] at hlength hmany
    exact List.length_eq_zero_iff.mp (by omega)
  have hsame : s = [c].intercalate (List.replicate (s.length + 1) []) := by
    conv_lhs => rw [← intercalate_split [c] s, List.eq_replicate_iff.mpr ⟨rfl, hempty⟩]
    congr 2
    have hsum : ((split [c] s).map List.length).sum = 0 :=
      List.sum_eq_zero fun n hn => by
        obtain ⟨part, hpart, rfl⟩ := List.mem_map.mp hn
        rw [hempty part hpart, List.length_nil]
    simp only [List.length_singleton, Nat.mul_one] at hlength
    omega
  exact ⟨c, rfl, hsame.trans (intercalate_replicate_nil c s.length)⟩

/-- With another string between the parts the string is the same only where there is nothing to replace. -/
theorem intercalate_split_eq_iff (sep with' s : List α) :
    with'.intercalate (split sep s) = s ↔ sep = [] ∨ ¬ sep <:+: s ∨ sep = with' := by
  constructor
  · intro hsame
    refine or_iff_not_imp_left.mpr fun hsep => or_iff_not_imp_left.mpr fun hfound => ?_
    obtain ⟨i, hi⟩ := Option.ne_none_iff_exists'.mp fun hnone => hfound (firstAt_eq_none.mp hnone)
    obtain ⟨hs, hfree, -⟩ := exists_of_firstAt hi
    have hparts : split sep s = s.take i :: split sep (s.drop (i + sep.length)) := by
      conv_lhs => rw [hs]
      exact split_cut hsep hfree
    have hmany : 1 < (split sep s).length := by
      rw [hparts, List.length_cons]
      exact Nat.succ_lt_succ (List.length_pos_iff.mpr (split_ne_nil _ _))
    have hlength : sep.length = with'.length := by
      have hjoined := length_intercalate with' (split_ne_nil sep s)
      have hsource := length_intercalate sep (split_ne_nil sep s)
      rw [hsame] at hjoined
      rw [intercalate_split] at hsource
      obtain ⟨k, hk⟩ := Nat.exists_eq_add_of_lt hmany
      have heq : (k + 1) * sep.length = (k + 1) * with'.length := by
        rw [hk] at hjoined hsource
        linarith
      exact Nat.eq_of_mul_eq_mul_left k.succ_pos heq
    rw [hparts, List.intercalate_cons_of_ne_nil (split_ne_nil _ _), List.append_assoc] at hsame
    rw [List.append_assoc] at hs
    exact (List.append_inj_left (List.append_cancel_left (hsame.trans hs)) hlength.symm).symm
  · rintro (hsep | hnot | rfl)
    · rw [split, dif_pos hsep, List.intercalate_singleton]
    · rw [split_last hnot, List.intercalate_singleton]
    · exact intercalate_split sep s

end LeftmostSplit
