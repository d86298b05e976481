import Mathlib

/-! # Sets of flags in a word

A word stands for the set of its bits, and a flag is a word with one bit. -/

namespace Flags

variable {w : ℕ}

/-- A flag. -/
def Single (t : BitVec w) : Prop := ∃ i < w, t = BitVec.twoPow w i

/-- The flag `t` is in the set. -/
def Has (t bits : BitVec w) : Prop := t &&& bits ≠ 0

/-- The set of some flags. -/
def union (ts : List (BitVec w)) : BitVec w := ts.foldr (· ||| ·) 0

variable {t u x y : BitVec w}

theorem has_twoPow_iff {i : ℕ} (hi : i < w) : Has (BitVec.twoPow w i) x ↔ x.getLsbD i = true := by
  rw [Has, BitVec.twoPow_and]
  split
  · rename_i h
    simp only [h, iff_true]
    intro hzero
    have hbit := congrArg (fun b => b.getLsbD i) hzero
    simp [hi] at hbit
  · rename_i h
    exact iff_of_false (fun hne => hne rfl) h

theorem Single.has_self (ht : Single t) : Has t t := by
  obtain ⟨i, hi, rfl⟩ := ht
  rw [has_twoPow_iff hi, BitVec.getLsbD_twoPow]
  simp [hi]

theorem Single.has_iff_eq (ht : Single t) (hu : Single u) : Has t u ↔ t = u := by
  obtain ⟨i, hi, rfl⟩ := ht
  obtain ⟨j, hj, rfl⟩ := hu
  rw [has_twoPow_iff hi, BitVec.getLsbD_twoPow]
  constructor
  · intro h
    simp only [Bool.and_eq_true, decide_eq_true_eq] at h
    rw [h.2]
  · intro h
    rw [← BitVec.getLsbD_twoPow, ← h, BitVec.getLsbD_twoPow]
    simp [hi]

theorem not_has_zero : ¬Has t 0 := by simp [Has]

theorem Single.has_or (ht : Single t) : Has t (x ||| y) ↔ Has t x ∨ Has t y := by
  obtain ⟨i, hi, rfl⟩ := ht
  simp [has_twoPow_iff hi]

theorem Single.has_and_not (ht : Single t) (hu : Single u) : Has t (x &&& ~~~u) ↔ Has t x ∧ t ≠ u := by
  rw [ne_eq, ← ht.has_iff_eq hu]
  obtain ⟨i, hi, rfl⟩ := ht
  simp [has_twoPow_iff hi, hi]

/-- The test `(t & x) == t` of a mask. -/
theorem Single.and_eq_self_iff (ht : Single t) : t &&& x = t ↔ Has t x := by
  obtain ⟨i, hi, rfl⟩ := ht
  constructor
  · intro h
    have hself := (Single.has_self ⟨i, hi, rfl⟩ : Has (BitVec.twoPow w i) (BitVec.twoPow w i))
    rw [Has, BitVec.and_self] at hself
    rw [Has, h]
    exact hself
  · intro h
    rw [has_twoPow_iff hi] at h
    rw [BitVec.twoPow_and, if_pos h]

theorem eq_of_has (h : ∀ t : BitVec w, Single t → (Has t x ↔ Has t y)) : x = y := by
  refine BitVec.eq_of_getLsbD_eq fun i hi => ?_
  have hbit := h (BitVec.twoPow w i) ⟨i, hi, rfl⟩
  rw [has_twoPow_iff hi, has_twoPow_iff hi] at hbit
  exact Bool.eq_iff_iff.mpr hbit

theorem Single.has_union (ht : Single t) {ts : List (BitVec w)} (hts : ∀ u ∈ ts, Single u) :
    Has t (union ts) ↔ t ∈ ts := by
  induction ts with
  | nil => exact iff_of_false not_has_zero List.not_mem_nil
  | cons u ts ih =>
    have hrest := ih fun v hv => hts v (List.mem_cons_of_mem u hv)
    rw [union, List.foldr_cons, ht.has_or, ht.has_iff_eq (hts u List.mem_cons_self), List.mem_cons]
    exact or_congr Iff.rfl hrest

end Flags
