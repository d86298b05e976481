import ForgottenServer.World.SightLine

/-! # The sight between two positions on one floor

On the floor of both, `isSightClear` accepts a clear walk in one of the two directions. One floor above it only looks at
the walk from the first position to the second one. -/

namespace ForgottenServer.Sight

open World (Position)

theorem getDistanceX_comm (p q : Position) : getDistanceX p q = getDistanceX q p := by
  rw [getDistanceX, getDistanceX, offset_swap, Int.natAbs_neg]

theorem getDistanceY_comm (p q : Position) : getDistanceY p q = getDistanceY q p := by
  rw [getDistanceY, getDistanceY, offset_swap, Int.natAbs_neg]

theorem checkBetween_ends (map : Map) (p q : Position) (z : UInt8) : ∃ clear, checkBetween map p q z = some clear :=
  checkSightLine_ends map p.x p.y q.x q.y z

/-- The tiles above both positions are clear. -/
def roofsClear (map : Map) (p q : Position) (z : UInt8) : Bool :=
  isTileClear map p.x p.y z true && isTileClear map q.x q.y z true

theorem roofsClear_comm (map : Map) (p q : Position) (z : UInt8) : roofsClear map p q z = roofsClear map q p z :=
  Bool.and_comm _ _

/-- `isFloorClear` with the answers of the walks. -/
theorem isFloorClear_eq {map : Map} {p q : Position} {there back above : Bool} (sameFloor : Bool)
    (hthere : checkBetween map p q p.z = some there) (hback : checkBetween map q p p.z = some back)
    (habove : checkBetween map p q (p.z - 1) = some above) :
    isFloorClear map p q sameFloor =
      some (there || back || (!sameFloor && (p.z = 0 || (roofsClear map p q (p.z - 1) && above)))) := by
  simp only [isFloorClear, hthere, hback, habove, roofsClear, Option.bind_eq_bind, Option.bind_some]
  cases there <;> cases back <;> cases sameFloor <;> by_cases hz : p.z = 0 <;>
    cases isTileClear map p.x p.y (p.z - 1) true <;> cases isTileClear map q.x q.y (p.z - 1) true <;> simp [hz]

/-- The sight is the same in both directions if and only if the walks one floor above are not asked, or both are clear
or both are not. -/
theorem isSightClear_comm_iff (map : Map) (x0 y0 x1 y1 : UInt16) (z : UInt8) (sameFloor : Bool) :
    isSightClear map ⟨x0, y0, z⟩ ⟨x1, y1, z⟩ sameFloor = isSightClear map ⟨x1, y1, z⟩ ⟨x0, y0, z⟩ sameFloor ↔
      (getDistanceX ⟨x0, y0, z⟩ ⟨x1, y1, z⟩ < 2 ∧ getDistanceY ⟨x0, y0, z⟩ ⟨x1, y1, z⟩ < 2) ∨
      checkSightLine map x0 y0 x1 y1 z = some true ∨ checkSightLine map x1 y1 x0 y0 z = some true ∨
      sameFloor = true ∨ z = 0 ∨
      isTileClear map x0 y0 (z - 1) true = false ∨ isTileClear map x1 y1 (z - 1) true = false ∨
      (checkSightLine map x0 y0 x1 y1 (z - 1) = some true ↔ checkSightLine map x1 y1 x0 y0 (z - 1) = some true) := by
  obtain ⟨there, hthere⟩ := checkBetween_ends map ⟨x0, y0, z⟩ ⟨x1, y1, z⟩ z
  obtain ⟨back, hback⟩ := checkBetween_ends map ⟨x1, y1, z⟩ ⟨x0, y0, z⟩ z
  obtain ⟨above, habove⟩ := checkBetween_ends map ⟨x0, y0, z⟩ ⟨x1, y1, z⟩ (z - 1)
  obtain ⟨above', habove'⟩ := checkBetween_ends map ⟨x1, y1, z⟩ ⟨x0, y0, z⟩ (z - 1)
  have hfloor := isFloorClear_eq sameFloor hthere hback habove
  have hfloor' := isFloorClear_eq sameFloor hback hthere habove'
  rw [isSightClear, isSightClear, if_pos rfl, if_pos rfl, getDistanceX_comm ⟨x1, y1, z⟩, getDistanceY_comm ⟨x1, y1, z⟩]
  by_cases hnear : getDistanceX ⟨x0, y0, z⟩ ⟨x1, y1, z⟩ < 2 ∧ getDistanceY ⟨x0, y0, z⟩ ⟨x1, y1, z⟩ < 2
  · simp only [hnear, and_self, if_true, true_or]
  · rw [if_neg hnear, if_neg hnear, hfloor, hfloor', roofsClear_comm map ⟨x1, y1, z⟩]
    simp only [checkBetween] at hthere hback habove habove'
    rw [hthere, hback, habove, habove']
    simp only [hnear, false_or, roofsClear]
    cases there <;> cases back <;> cases sameFloor <;> cases above <;> cases above' <;>
      cases isTileClear map x0 y0 (z - 1) true <;> cases isTileClear map x1 y1 (z - 1) true <;>
      by_cases hz : z = 0 <;> simp [hz]

/-- Walls on the floor, and one on the floor above where only one of the two walks goes. -/
def battlement : Map := fun x y z =>
  if x = 101 ∧ (z = 7 ∨ z = 6 ∧ y = 100) then some { items := [⟨true⟩] } else none

/-- A sight that is clear in one direction only. -/
theorem isSightClear_battlement :
    isSightClear battlement ⟨100, 100, 7⟩ ⟨102, 101, 7⟩ false = some false ∧
    isSightClear battlement ⟨102, 101, 7⟩ ⟨100, 100, 7⟩ false = some true := by
  decide

end ForgottenServer.Sight
