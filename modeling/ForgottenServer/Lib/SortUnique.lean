import Mathlib

/-! # Sorting without repetitions

`std::sort` and then `std::unique`: what has been sorted holds every value in one place, and `List.destutter` keeps the
first of them. -/

namespace SortUnique

variable {α : Type}

theorem mem_destutter'_ne [DecidableEq α] (l : List α) : ∀ a c : α, c ∈ l.destutter' (· ≠ ·) a ↔ c ∈ a :: l := by
  induction l with
  | nil => exact fun a c => Iff.rfl
  | cons b l ih =>
    intro a c
    by_cases hab : a = b
    · subst hab
      rw [List.destutter'_cons_neg _ (by simp), ih]
      simp
    · rw [List.destutter'_cons_pos _ hab, List.mem_cons, ih, ← List.mem_cons]

theorem mem_destutter [DecidableEq α] (l : List α) (c : α) : c ∈ l.destutter (· ≠ ·) ↔ c ∈ l := by
  cases l with
  | nil => exact Iff.rfl
  | cons a l => exact mem_destutter'_ne l a c

variable [LinearOrder α]

theorem pairwise_destutter {l : List α} (hl : l.Pairwise (· ≤ ·)) : (l.destutter (· ≠ ·)).Pairwise (· < ·) := by
  have hle : (l.destutter (· ≠ ·)).IsChain (· ≤ ·) := (hl.sublist (List.destutter_sublist _ l)).isChain
  have hne : (l.destutter (· ≠ ·)).IsChain (· ≠ ·) := List.isChain_destutter _ l
  have hlt : (l.destutter (· ≠ ·)).IsChain (· < ·) := by
    rw [List.isChain_iff_getElem] at hle hne ⊢
    exact fun i hi => lt_of_le_of_ne (hle i hi) (hne i hi)
  exact hlt.pairwise

theorem nodup_destutter {l : List α} (hl : l.Pairwise (· ≤ ·)) : (l.destutter (· ≠ ·)).Nodup :=
  (pairwise_destutter hl).imp ne_of_lt

def sortUnique (l : List α) : List α := (l.mergeSort (fun a b => decide (a ≤ b))).destutter (· ≠ ·)

@[simp] theorem mem_sortUnique {l : List α} {a : α} : a ∈ sortUnique l ↔ a ∈ l := by
  rw [sortUnique, mem_destutter, List.mem_mergeSort]

theorem nodup_sortUnique (l : List α) : (sortUnique l).Nodup := nodup_destutter (List.pairwise_mergeSort' (· ≤ ·) _)

end SortUnique
