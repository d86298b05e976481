import Mathlib

/-! # Logical clocks

A logical clock follows the readings of another clock, and goes one past its last stamp when
the reading is not ahead. Its stamps never repeat, and it runs ahead of the readings by one
step for each stamp at most. -/

namespace LogicalClock

variable {α : Type*} [LinearOrder α] [SuccOrder α]

/-- The clock after the reading `reading 0` up to `reading (k - 1)`. -/
def stamp (start : α) (reading : ℕ → α) : ℕ → α
  | 0 => start
  | k + 1 => max (Order.succ (stamp start reading k)) (reading k)

variable {start : α} {reading : ℕ → α}

theorem stamp_lt [NoMaxOrder α] {i k : ℕ} (h : i < k) : stamp start reading i < stamp start reading k := by
  have hstep : ∀ n, stamp start reading n < stamp start reading (n + 1) :=
    fun n => (Order.lt_succ _).trans_le (le_max_left _ _)
  exact strictMono_nat_of_lt_succ hstep h

theorem stamp_le {bound : α} {n : ℕ} (hstart : start ≤ bound) (hread : ∀ k < n, reading k ≤ bound) :
    stamp start reading n ≤ Order.succ^[n] bound := by
  induction n with
  | zero => exact hstart
  | succ n ih =>
    have hbefore := ih fun k hk => hread k (by omega)
    have hgrow : bound ≤ Order.succ^[n] bound := Order.le_succ_iterate n bound
    rw [Function.iterate_succ_apply', stamp]
    refine max_le (Order.succ_le_succ hbefore) ?_
    exact ((hread n (by omega)).trans hgrow).trans (Order.le_succ _)

end LogicalClock
