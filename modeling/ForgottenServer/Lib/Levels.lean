import Mathlib

/-! # Levels and what they cost

`req l` is what the level `l` costs. `reached req base level` is what the levels behind `base` up to `level` cost. -/

namespace Levels

variable (req : Nat → Nat)

def reached (base level : Nat) : Nat := ∑ l ∈ Finset.Ioc base level, req l

variable {req} {base mid level : Nat}

@[simp] theorem reached_self : reached req base base = 0 := by simp [reached]

theorem reached_succ (h : base ≤ level) : reached req base (level + 1) = reached req base level + req (level + 1) := by
  unfold reached
  rw [Finset.sum_Ioc_succ_top h]

theorem reached_split (req : Nat → Nat) (h : base ≤ mid) (h' : mid ≤ level) :
    reached req base level = reached req base mid + reached req mid level :=
  (Finset.sum_Ioc_consecutive req h h').symm

theorem reached_eq_zero (h : level ≤ base) : reached req base level = 0 := by
  unfold reached
  rw [Finset.Ioc_eq_empty (by omega), Finset.sum_empty]

/-- The first level behind `base` is the least that any higher level costs. -/
theorem req_le_reached (req : Nat → Nat) (h : base < level) : req (base + 1) ≤ reached req base level := by
  unfold reached
  exact Finset.single_le_sum (fun _ _ => Nat.zero_le _) (Finset.mem_Ioc.mpr ⟨Nat.lt_succ_self base, h⟩)

end Levels
