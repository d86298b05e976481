import Mathlib

/-! # Runs of a machine

`step` answers every event in every state. `Along step ok s es`: each event of the run
`es` from `s` meets a condition on itself and on the state before it. -/

namespace Runs

variable {S E : Type} (step : S → E → S)

def Along (ok : S → E → Prop) : S → List E → Prop
  | _, [] => True
  | s, e :: es => ok s e ∧ Along ok (step s e) es

namespace Along

variable {step} {ok P : S → E → Prop}

/-- An invariant that every allowed step keeps, and that makes every allowed step good,
makes every allowed run good, and holds where the run ends. -/
theorem of_invariant (inv : S → Prop)
    (hstep : ∀ s e, inv s → ok s e → inv (step s e) ∧ P s e) (es : List E) :
    ∀ s, inv s → Along step ok s es → Along step P s es ∧ inv (es.foldl step s) := by
  induction es with
  | nil =>
    intro s hinv _
    exact ⟨trivial, hinv⟩
  | cons e es ih =>
    intro s hinv hrun
    obtain ⟨hnext, hgood⟩ := hstep s e hinv hrun.1
    obtain ⟨hrest, hend⟩ := ih (step s e) hnext hrun.2
    exact ⟨⟨hgood, hrest⟩, hend⟩

theorem and (es : List E) : ∀ s, Along step ok s es → Along step P s es → Along step (fun s e => ok s e ∧ P s e) s es := by
  induction es with
  | nil => exact fun _ _ _ => trivial
  | cons e es ih => exact fun s hok hP => ⟨⟨hok.1, hP.1⟩, ih _ hok.2 hP.2⟩

/-- Where the invariant makes the condition on a step equivalent to another, the conditions on whole runs are. -/
theorem iff_of_invariant (inv : S → Prop) (hinv : ∀ s e, inv s → ok s e → inv (step s e))
    (hiff : ∀ s e, inv s → (ok s e ↔ P s e)) (es : List E) :
    ∀ s, inv s → (Along step ok s es ↔ Along step P s es) := by
  induction es with
  | nil => exact fun s _ => Iff.rfl
  | cons e es ih =>
    intro s hs
    constructor
    · intro ⟨hok, hrest⟩
      exact ⟨(hiff s e hs).mp hok, (ih _ (hinv s e hs hok)).mp hrest⟩
    · intro ⟨hgood, hrest⟩
      have hok := (hiff s e hs).mpr hgood
      exact ⟨hok, (ih _ (hinv s e hs hok)).mpr hrest⟩

end Along

end Runs
