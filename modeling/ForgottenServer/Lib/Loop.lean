import Mathlib

/-! # Loops with fuel

`turn` is the body of a loop: it goes on from a new state or stops with a result. It is `none` where the body itself does
not end. -/

namespace Loop

inductive Turn (σ ρ : Type) where
  | again (s : σ)
  | stop (r : ρ)

variable {σ ρ : Type} (turn : σ → Option (Turn σ ρ))

/-- The result of the loop, if it stops within `fuel` turns. -/
def run : Nat → σ → Option ρ
  | 0, _ => none
  | fuel + 1, s => do
    match ← turn s with
    | .again s => run fuel s
    | .stop r => some r

variable {turn}

theorem run_again {s s' : σ} (h : turn s = some (.again s')) (fuel : Nat) :
    run turn (fuel + 1) s = run turn fuel s' := by
  rw [run, h]
  rfl

theorem run_stop {s : σ} {r : ρ} (h : turn s = some (.stop r)) (fuel : Nat) : run turn (fuel + 1) s = some r := by
  rw [run, h]
  rfl

/-- More fuel does not change a result. -/
theorem run_mono {s : σ} {r : ρ} {fuel : Nat} (h : run turn fuel s = some r) {more : Nat} (hle : fuel ≤ more) :
    run turn more s = some r := by
  induction fuel generalizing s more with
  | zero => cases h
  | succ fuel ih =>
    obtain ⟨more, rfl⟩ := Nat.exists_eq_add_of_le' (Nat.le_trans (Nat.le_add_left 1 _) hle)
    cases hturn : turn s with
    | none =>
      rw [run, hturn] at h
      cases h
    | some next =>
      cases next with
      | again s' =>
        rw [run_again hturn] at h ⊢
        exact ih h (Nat.le_of_succ_le_succ hle)
      | stop r' =>
        rw [run_stop hturn] at h ⊢
        exact h

/-- A loop whose turns keep an invariant and make a measure less stops, and its result is what a last turn promises. -/
theorem exists_run {β : Type} [LT β] [WellFoundedLT β] (inv : σ → Prop) (post : ρ → Prop) (measure : σ → β)
    (hturn : ∀ s, inv s → (∃ s', turn s = some (.again s') ∧ inv s' ∧ measure s' < measure s) ∨
      ∃ r, turn s = some (.stop r) ∧ post r) {s : σ} (hs : inv s) :
    ∃ fuel r, run turn fuel s = some r ∧ post r := by
  induction hm : measure s using WellFoundedLT.induction generalizing s with
  | _ m ih =>
    obtain ⟨s', hagain, hs', hlt⟩ | ⟨r, hstop, hr⟩ := hturn s hs
    · obtain ⟨fuel, r, hrun, hr⟩ := ih (measure s') (hm ▸ hlt) hs' rfl
      exact ⟨fuel + 1, r, by rw [run_again hagain, hrun], hr⟩
    · exact ⟨1, r, run_stop hstop 0, hr⟩

end Loop
