import ForgottenServer.Lib.Climb
import ForgottenServer.World.Store

/-! # Teleports

A creature that comes onto a tile with a teleport goes on to the place that the teleport leads to, and there may be another
one. Before it goes, `Teleport::addThing` follows the teleports to see if they run in a circle. -/

namespace ForgottenServer.Teleports
open World Climb

/-- The tiles that there are, and where the teleport on each of them leads. -/
structure Ground where
  hasTile : Position → Bool
  teleport : Position → Option Position

namespace Ground

variable (ground : Ground)

/-- The loop of `addThing`: do the teleports run in a circle? -/
def runsInCircle : Nat → List Position → Position → Option Bool
  | 0, _, _ => none
  | fuel + 1, lastPositions, nextPos =>
    if nextPos ∈ lastPositions then some true
    else if !ground.hasTile nextPos then some false
    else
      match ground.teleport nextPos with
      | none => some false
      | some destPos => runsInCircle fuel (lastPositions ++ [nextPos]) destPos

/-- `Teleport::addThing` of a creature: the tile that it goes to, if it does. -/
def addThing (fuel : Nat) (pos destPos : Position) : Option (Option Position) :=
  if !ground.hasTile destPos then some none
  else
    match ground.teleport destPos with
    | none => some (some destPos)
    | some nextPos =>
      (ground.runsInCircle fuel [pos] nextPos).map fun circle => if circle then none else some destPos

/-- `Tile::postAddNotification` of a creature: where it is in the end. -/
def postAddNotification : Nat → Position → Option Position
  | 0, _ => none
  | fuel + 1, pos =>
    match ground.teleport pos with
    | none => some pos
    | some destPos =>
      (ground.addThing fuel pos destPos).bind fun moved => moved.elim (some pos) (postAddNotification fuel)

/-- The tile that the teleport of a tile leads to. -/
def next (pos : Position) : Option Position := (ground.teleport pos).filter fun destPos => ground.hasTile destPos

/-- The teleports lead on from one place to the other. -/
inductive Leads : Position → Position → Prop where
  | refl (pos : Position) : Leads pos pos
  | step {pos destPos last : Position} (h : ground.next pos = some destPos) (rest : Leads destPos last) : Leads pos last

variable {ground} {pos destPos last : Position}

theorem Leads.trans {pos' : Position} (h : ground.Leads pos destPos) (h' : ground.Leads destPos pos') :
    ground.Leads pos pos' := by
  induction h with
  | refl => exact h'
  | step hnext _ ih => exact .step hnext (ih h')

/-- A climb meets everything that the teleports lead to. -/
theorem Leads.above {l : List Position} (h : ground.Leads pos last) (habove : Above ground.next pos l) :
    ∃ l', Above ground.next last l' ∧ l' <:+ l := by
  induction h generalizing l with
  | refl => exact ⟨l, habove, List.suffix_rfl⟩
  | step hnext _ ih =>
    cases habove with
    | top hnone =>
      rw [hnone] at hnext
      cases hnext
    | step hsome above =>
      obtain rfl := Option.some.inj (hnext.symm.trans hsome)
      obtain ⟨l', hl', hsuffix⟩ := ih above
      exact ⟨l', hl', hsuffix.trans (List.suffix_cons _ _)⟩

/-- In a circle there is no end. -/
theorem not_ends_circle (hnext : ground.next pos = some destPos) (h : ground.Leads destPos pos) :
    ¬ Ends ground.next pos := by
  intro hends
  obtain ⟨l, hl⟩ := hends
  cases hl with
  | top hnone =>
    rw [hnone] at hnext
    cases hnext
  | @step _ _ l hsome above =>
    obtain rfl := Option.some.inj (hnext.symm.trans hsome)
    obtain ⟨l', hl', hsuffix⟩ := h.above above
    rw [hl'.unique (.step hsome above)] at hsuffix
    exact absurd hsuffix.length_le (by simp)

theorem ends_next (hnext : ground.next pos = some destPos) : Ends ground.next pos ↔ Ends ground.next destPos := by
  constructor
  · intro h
    obtain ⟨l, hl⟩ := h
    cases hl with
    | top hnone =>
      rw [hnone] at hnext
      cases hnext
    | step hsome above =>
      obtain rfl := Option.some.inj (hnext.symm.trans hsome)
      exact ⟨_, above⟩
  · intro h
    obtain ⟨l, hl⟩ := h
    exact ⟨_, .step hnext hl⟩

theorem ends_of_next (hnext : ground.next pos = none) : Ends ground.next pos := ⟨[pos], .top hnext⟩

theorem next_eq_some (hteleport : ground.teleport pos = some destPos) (htile : ground.hasTile destPos = true) :
    ground.next pos = some destPos := by
  rw [next, hteleport, Option.filter_some_pos htile]

theorem next_eq_none (hteleport : ground.teleport pos = some destPos) (htile : ¬ ground.hasTile destPos = true) :
    ground.next pos = none := by
  rw [next, hteleport, Option.filter_some_neg (Bool.eq_false_iff.mpr htile)]

/-- There are finitely many positions. -/
instance : Finite Position := by
  refine Finite.of_injective (fun pos : Position => (pos.x.toFin, pos.y.toFin, pos.z.toFin)) fun pos pos' h => ?_
  cases pos
  cases pos'
  simp only [Prod.mk.injEq, UInt16.toFin_inj, UInt8.toFin_inj] at h
  obtain ⟨rfl, rfl, rfl⟩ := h
  rfl

theorem length_le_positions {positions : List Position} (h : positions.Nodup) :
    positions.length ≤ Nat.card Position := by
  have := Fintype.ofFinite Position
  rw [Nat.card_eq_fintype_card]
  exact h.length_le_card

/-- The loop ends, and finds a circle exactly where the teleports never end. `pos` is where it stands. -/
theorem runsInCircle_spec (fuel : Nat) : ∀ {lastPositions : List Position} {pos nextPos : Position},
    lastPositions.Nodup → (∀ last ∈ lastPositions, ground.hasTile last = true ∧ ground.Leads last pos) →
    ground.teleport pos = some nextPos → Nat.card Position < fuel + lastPositions.length →
    ∃ circle, ground.runsInCircle fuel lastPositions nextPos = some circle ∧
      (circle = true ↔ ¬ Ends ground.next pos) := by
  induction fuel with
  | zero =>
    intro lastPositions pos nextPos hnodup _ _ hfuel
    have hlength := length_le_positions hnodup
    omega
  | succ fuel ih =>
    intro lastPositions pos nextPos hnodup hleads hteleport hfuel
    rw [runsInCircle]
    by_cases hmem : nextPos ∈ lastPositions
    · rw [if_pos hmem]
      obtain ⟨htile, hback⟩ := hleads nextPos hmem
      exact ⟨true, rfl, iff_of_true rfl (not_ends_circle (next_eq_some hteleport htile) hback)⟩
    rw [if_neg hmem]
    by_cases htile : ground.hasTile nextPos = true
    · have hnext := next_eq_some hteleport htile
      rw [if_neg (by simpa using htile)]
      cases hon : ground.teleport nextPos with
      | none =>
        refine ⟨false, rfl, iff_of_false Bool.false_ne_true (not_not.mpr ((ends_next hnext).mpr (ends_of_next ?_)))⟩
        rw [next, hon]
        rfl
      | some destPos =>
        have hfresh : (lastPositions ++ [nextPos]).Nodup := by
          rw [List.nodup_append_comm]
          exact List.nodup_cons.mpr ⟨hmem, hnodup⟩
        have hback (last : Position) (hlast : last ∈ lastPositions ++ [nextPos]) :
            ground.hasTile last = true ∧ ground.Leads last nextPos := by
          obtain hlast | hlast := List.mem_append.mp hlast
          · obtain ⟨htile', hback⟩ := hleads last hlast
            exact ⟨htile', hback.trans (.step hnext (.refl nextPos))⟩
          · obtain rfl := List.mem_singleton.mp hlast
            exact ⟨htile, .refl last⟩
        obtain ⟨circle, hcircle, hiff⟩ := ih hfresh hback hon (by
          rw [List.length_append, List.length_singleton]
          omega)
        exact ⟨circle, hcircle, hiff.trans (not_congr (ends_next hnext).symm)⟩
    · rw [if_pos (by simpa using htile)]
      exact ⟨false, rfl, iff_of_false Bool.false_ne_true (not_not.mpr (ends_of_next (next_eq_none hteleport htile)))⟩

/-- A creature goes exactly where the teleports have an end, and there is a tile. -/
theorem addThing_spec (fuel : Nat) (htile : ground.hasTile pos = true) (hteleport : ground.teleport pos = some destPos)
    (hfuel : Nat.card Position < fuel) : ∃ moved, ground.addThing fuel pos destPos = some moved ∧
      (Ends ground.next pos → moved = ground.next pos) ∧ (¬ Ends ground.next pos → moved = none) := by
  unfold addThing
  by_cases hdest : ground.hasTile destPos = true
  · have hnext := next_eq_some hteleport hdest
    rw [if_neg (by simpa using hdest), hnext]
    cases hon : ground.teleport destPos with
    | none =>
      refine ⟨some destPos, rfl, fun _ => rfl, fun hends => absurd ((ends_next hnext).mpr (ends_of_next ?_)) hends⟩
      rw [next, hon]
      rfl
    | some nextPos =>
      obtain ⟨circle, hcircle, hiff⟩ := runsInCircle_spec fuel (List.nodup_singleton pos) (fun last hlast => by
        obtain rfl := List.mem_singleton.mp hlast
        exact ⟨htile, .step hnext (.refl destPos)⟩) hon (by rw [List.length_singleton]; omega)
      refine ⟨if circle then none else some destPos, by simp only [hcircle, Option.map_some], fun hends => ?_,
        fun hends => ?_⟩
      · exact if_neg fun hc => hiff.mp hc ((ends_next hnext).mp hends)
      · exact if_pos (hiff.mpr fun hends' => hends ((ends_next hnext).mpr hends'))
  · rw [if_pos (by simpa using hdest), next_eq_none hteleport hdest]
    exact ⟨none, rfl, fun _ => rfl, fun _ => rfl⟩

/-- From one teleport to the next, up to the end. -/
theorem postAddNotification_ends {l : List Position} (h : Above ground.next pos l) (htile : ground.hasTile pos = true)
    {fuel : Nat} (hfuel : Nat.card Position + l.length < fuel) :
    ∃ last, ground.postAddNotification fuel pos = some last ∧ l.getLast? = some last := by
  induction h generalizing fuel with
  | @top pos hnone =>
    obtain ⟨fuel, rfl⟩ := Nat.exists_eq_add_of_lt (Nat.zero_lt_of_lt hfuel)
    refine ⟨pos, ?_, rfl⟩
    rw [Nat.zero_add, postAddNotification]
    cases hteleport : ground.teleport pos with
    | none => rfl
    | some destPos =>
      obtain ⟨moved, hmoved, hends, _⟩ := addThing_spec fuel htile hteleport (by
        rw [List.length_singleton] at hfuel
        omega)
      simp only
      rw [hmoved, hends (ends_of_next hnone), hnone]
      rfl
  | @step pos destPos l hnext above ih =>
    obtain ⟨fuel, rfl⟩ := Nat.exists_eq_add_of_lt (Nat.zero_lt_of_lt hfuel)
    rw [List.length_cons] at hfuel
    obtain ⟨hteleport, hdest⟩ := Option.filter_eq_some_iff.mp hnext
    have hrest : Nat.card Position + l.length < fuel := by omega
    obtain ⟨last, hlast, hend⟩ := ih hdest hrest
    refine ⟨last, ?_, ?_⟩
    · rw [Nat.zero_add, postAddNotification, hteleport]
      obtain ⟨moved, hmoved, hends, _⟩ := addThing_spec fuel htile hteleport (by omega)
      simp only
      rw [hmoved, hends ⟨_, .step hnext above⟩, hnext]
      exact hlast
    · rw [List.getLast?_cons, hend]
      rfl

/-- Where a creature comes onto a tile, the teleports always come to rest. If they lead to an end, the creature is at this
end; if they run in a circle, it is where it came. -/
theorem postAddNotification_rests (ground : Ground) {pos : Position} (htile : ground.hasTile pos = true) :
    ∃ last bound, (∀ fuel, bound ≤ fuel → ground.postAddNotification fuel pos = some last) ∧
      (∀ l, Above ground.next pos l → l.getLast? = some last) ∧ (¬ Ends ground.next pos → last = pos) := by
  by_cases hends : Ends ground.next pos
  · obtain ⟨l, hl⟩ := hends
    obtain ⟨last, _, hlast⟩ := postAddNotification_ends hl htile (Nat.lt_succ_self _)
    refine ⟨last, Nat.card Position + l.length + 1, fun fuel hfuel => ?_, fun l' hl' => ?_, fun h => absurd ⟨l, hl⟩ h⟩
    · obtain ⟨last', hrests, hlast'⟩ := postAddNotification_ends hl htile (Nat.lt_of_succ_le hfuel)
      rw [hrests, ← hlast', hlast]
    · rw [hl'.unique hl, hlast]
  · refine ⟨pos, Nat.card Position + 2, fun fuel hfuel => ?_, fun l hl => absurd ⟨l, hl⟩ hends, fun _ => rfl⟩
    obtain ⟨fuel, rfl⟩ := Nat.exists_eq_add_of_le' (Nat.le_trans (Nat.le_add_left 1 _) hfuel)
    rw [postAddNotification]
    cases hteleport : ground.teleport pos with
    | none => rfl
    | some destPos =>
      obtain ⟨moved, hmoved, _, hstays⟩ := addThing_spec fuel htile hteleport (by omega)
      simp only
      rw [hmoved, hstays hends]
      rfl

/-- Two teleports in a row, and one that leads to itself. -/
def hall : Ground where
  hasTile := fun pos => pos.z = 7
  teleport := fun pos => if pos.x < 3 then some ⟨pos.x + 1, pos.y, pos.z⟩ else if pos.x = 9 then some pos else none

theorem postAddNotification_rests_hall : ∃ last bound,
    (∀ fuel, bound ≤ fuel → hall.postAddNotification fuel ⟨1, 1, 7⟩ = some last) ∧
      (∀ l, Above hall.next ⟨1, 1, 7⟩ l → l.getLast? = some last) ∧
        (¬ Ends hall.next ⟨1, 1, 7⟩ → last = ⟨1, 1, 7⟩) :=
  postAddNotification_rests hall rfl

end Ground

end ForgottenServer.Teleports
