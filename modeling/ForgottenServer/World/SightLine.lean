import ForgottenServer.World.Store
import ForgottenServer.Lib.DigitalLine

/-! # The line of sight

`checkSightLine` walks from one cell to another one along the line between them and stops at the first tile that is not
clear. The deviations from the line are computed with `int32_t`, which wraps here. -/

namespace ForgottenServer.Sight

open World (Position)

/-- What a line of sight reads of an item: `items[id].blockProjectile`. -/
structure Item where
  blockProjectile : Bool

structure Tile where
  ground : Option Item := none
  items : List Item := []

/-- `Tile::hasProperty(CONST_PROP_BLOCKPROJECTILE)` -/
def Tile.hasProperty (tile : Tile) : Bool := tile.ground.any (·.blockProjectile) || tile.items.any (·.blockProjectile)

/-- `Map::getTile` of `g_game.map`. -/
abbrev Map := UInt16 → UInt16 → UInt8 → Option Tile

def isTileClear (map : Map) (x y : UInt16) (z : UInt8) (blockFloor : Bool) : Bool :=
  match map x y z with
  | none => true
  | some tile => if blockFloor && tile.ground.isSome then false else !tile.hasProperty

/-! ## `checkSightLine` -/

/-- `(x, y)` -/
abbrev Cell := UInt16 × UInt16

def int32 (n : Int) : Int := n.bmod (2 ^ 32)

def absInt32 (n : Int) : Int := int32 n.natAbs

/-- The local variables of `checkSightLine` that the loop does not change. -/
structure Line where
  destination : Cell
  mx : Int
  my : Int
  A : Int
  B : Int
  C : Int

/-- The direction from one coordinate to another one. -/
def sign (start destination : UInt16) : Int := if start < destination then 1 else if start = destination then 0 else -1

def offset (p q : UInt16) : Int := (p.toNat : Int) - q.toNat

def line (x0 y0 x1 y1 : UInt16) : Line where
  destination := (x1, y1)
  mx := sign x0 x1
  my := sign y0 y1
  A := offset y1 y0
  B := offset x0 x1
  C := int32 (-int32 (int32 (offset y1 y0 * x1.toNat) + int32 (offset x0 x1 * y1.toNat)))

namespace Line

variable (l : Line)

/-- `A * x + B * y + C` -/
def value (x y : Int) : Int := int32 (int32 (int32 (l.A * x) + int32 (l.B * y)) + l.C)

def moveHor (start : Cell) : Int := absInt32 (l.value (start.1.toNat + l.mx) start.2.toNat)

def moveVer (start : Cell) : Int := absInt32 (l.value start.1.toNat (start.2.toNat + l.my))

def moveCross (start : Cell) : Int := absInt32 (l.value (start.1.toNat + l.mx) (start.2.toNat + l.my))

/-- The condition under which the loop moves in `y`. -/
def MovesY (start : Cell) : Prop :=
  start.2 ≠ l.destination.2 ∧
    (start.1 = l.destination.1 ∨ l.moveHor start > l.moveVer start ∨ l.moveHor start > l.moveCross start)

instance (start : Cell) : Decidable (l.MovesY start) := inferInstanceAs (Decidable (_ ∧ _))

def nextY (start : Cell) : UInt16 := if l.MovesY start then UInt16.ofInt (start.2.toNat + l.my) else start.2

/-- The condition under which the loop moves in `x`. It reads the `y` that the loop may have changed. -/
def MovesX (start : Cell) : Prop :=
  start.1 ≠ l.destination.1 ∧
    (l.nextY start = l.destination.2 ∨ l.moveVer start > l.moveHor start ∨ l.moveVer start > l.moveCross start)

instance (start : Cell) : Decidable (l.MovesX start) := inferInstanceAs (Decidable (_ ∧ _))

def nextX (start : Cell) : UInt16 := if l.MovesX start then UInt16.ofInt (start.1.toNat + l.mx) else start.1

def next (start : Cell) : Cell := (l.nextX start, l.nextY start)

/-- The loop, with what a tile has to be. `none` is a loop that has not ended. -/
def walk (clear : Cell → Bool) : Nat → Cell → Option Bool
  | 0, _ => none
  | fuel + 1, start =>
    if start = l.destination then some true
    else if clear (l.next start) then walk clear fuel (l.next start)
    else some false

end Line

/-- The turns after which a loop is given up here. -/
def turns : Nat := 2 ^ 17

def checkSightLine (map : Map) (x0 y0 x1 y1 : UInt16) (z : UInt8) : Option Bool :=
  if x0 = x1 ∧ y0 = y1 then some true
  else (line x0 y0 x1 y1).walk (fun cell => isTileClear map cell.1 cell.2 z false) turns (x0, y0)

/-! ## `isSightClear` -/

def getDistanceX (p q : Position) : Nat := (offset p.x q.x).natAbs

def getDistanceY (p q : Position) : Nat := (offset p.y q.y).natAbs

def getDistanceZ (p q : Position) : Nat := ((p.z.toNat : Int) - q.z.toNat).natAbs

/-- `checkSightLine` between two positions, on a floor. -/
def checkBetween (map : Map) (fromPos toPos : Position) (z : UInt8) : Option Bool :=
  checkSightLine map fromPos.x fromPos.y toPos.x toPos.y z

/-- The sight on the floor of both. -/
def isFloorClear (map : Map) (fromPos toPos : Position) (sameFloor : Bool) : Option Bool := do
  let clear ← checkBetween map fromPos toPos fromPos.z
  let sightClear ← if clear then some true else checkBetween map toPos fromPos fromPos.z
  if sightClear || sameFloor then return sightClear
  if fromPos.z = 0 then return true
  let newZ := fromPos.z - 1
  if isTileClear map fromPos.x fromPos.y newZ true && isTileClear map toPos.x toPos.y newZ true then
    checkBetween map fromPos toPos newZ
  else return false

def isSightClear (map : Map) (fromPos toPos : Position) (sameFloor : Bool) : Option Bool :=
  if fromPos.z = toPos.z then
    if getDistanceX fromPos toPos < 2 ∧ getDistanceY fromPos toPos < 2 then some true
    else isFloorClear map fromPos toPos sameFloor
  else if sameFloor then some false
  else if (fromPos.z < 8 ∧ 7 < toPos.z) ∨ (7 < fromPos.z ∧ toPos.z < 8) then some false
  else if toPos.z < fromPos.z then
    if 1 < getDistanceZ fromPos toPos then some false
    else if isTileClear map fromPos.x fromPos.y (fromPos.z - 1) true then checkBetween map fromPos toPos (fromPos.z - 1)
    else some false
  else if (List.range' fromPos.z.toNat (toPos.z.toNat - fromPos.z.toNat)).all fun z =>
      isTileClear map toPos.x toPos.y (UInt8.ofNat z) true then checkBetween map fromPos toPos fromPos.z
  else some false

/-! ## The cells of a walk -/

theorem int32_eq {n : Int} (hlow : -2 ^ 31 ≤ n) (hhigh : n < 2 ^ 31) : int32 n = n :=
  Int.bmod_eq_of_le (by omega) (by omega)

theorem absInt32_eq {n : Int} (hlow : -2 ^ 31 < n) (hhigh : n < 2 ^ 31) : absInt32 n = n.natAbs :=
  int32_eq (by omega) (by omega)

/-- The deviation of a point from the line, without wrapping. -/
def deviation (x0 y0 x1 y1 : UInt16) (x y : Int) : Int := offset y1 y0 * (x - x1.toNat) + offset x0 x1 * (y - y1.toNat)

theorem line_value (x0 y0 x1 y1 : UInt16) (x y : Int) :
    (line x0 y0 x1 y1).value x y = int32 (deviation x0 y0 x1 y1 x y) := by
  simp only [line, Line.value, int32, deviation, Int.bmod_add_bmod, Int.add_bmod_bmod, Int.bmod_neg_bmod]
  congr 1
  ring

theorem sign_cases (start destination : UInt16) :
    (sign start destination = 1 ∧ start.toNat < destination.toNat) ∨
    (sign start destination = 0 ∧ start = destination) ∨
    (sign start destination = -1 ∧ destination.toNat < start.toNat) := by
  rw [sign]
  split
  · next hlt => exact .inl ⟨rfl, hlt⟩
  · next hlt =>
    split
    · next heq => exact .inr (.inl ⟨rfl, heq⟩)
    · next hne =>
      refine .inr (.inr ⟨rfl, ?_⟩)
      have : start.toNat ≠ destination.toNat := fun h => hne (UInt16.toNat_inj.mp h)
      rw [UInt16.lt_iff_toNat_lt] at hlt
      omega

theorem sign_mul_natAbs (start destination : UInt16) :
    sign start destination * (offset destination start).natAbs = offset destination start := by
  rw [offset]
  obtain ⟨hs, hlt⟩ | ⟨hs, heq⟩ | ⟨hs, hlt⟩ := sign_cases start destination
  · rw [hs]; omega
  · rw [hs, heq]; omega
  · rw [hs]; omega

/-- The coordinate from which `left` steps lead to the destination. -/
structure Before (start destination : UInt16) (left : Int) (x : UInt16) : Prop where
  eq : (x.toNat : Int) = destination.toNat - sign start destination * left
  nonneg : 0 ≤ left
  le : left ≤ (offset destination start).natAbs

namespace Before

variable {start destination x : UInt16} {left : Int}

theorem first (start destination : UInt16) :
    Before start destination (offset destination start).natAbs start := by
  refine ⟨?_, by omega, le_refl _⟩
  rw [sign_mul_natAbs, offset]
  omega

theorem eq_iff (h : Before start destination left x) : x = destination ↔ left = 0 := by
  have heq := h.eq
  have hle := h.le
  rw [offset] at hle
  rw [← UInt16.toNat_inj]
  obtain ⟨hs, hlt⟩ | ⟨hs, hsame⟩ | ⟨hs, hlt⟩ := sign_cases start destination
  · rw [hs] at heq; omega
  · rw [hs] at heq
    rw [hsame] at hle
    have := h.nonneg
    omega
  · rw [hs] at heq; omega

/-- A coordinate that is not there yet is on one side of the destination. -/
theorem sign_ne (h : Before start destination left x) (hleft : left ≠ 0) :
    sign start destination = 1 ∨ sign start destination = -1 := by
  have hle := h.le
  have hnonneg := h.nonneg
  rw [offset] at hle
  obtain ⟨hs, -⟩ | ⟨-, hsame⟩ | ⟨hs, -⟩ := sign_cases start destination
  · exact .inl hs
  · rw [hsame] at hle
    omega
  · exact .inr hs

theorem left_eq (h : Before start destination left x) : left = (offset destination x).natAbs := by
  have heq := h.eq
  have hle := h.le
  have hnonneg := h.nonneg
  rw [offset] at hle ⊢
  obtain ⟨hs, -⟩ | ⟨hs, hsame⟩ | ⟨hs, -⟩ := sign_cases start destination
  · rw [hs] at heq; omega
  · rw [hs] at heq
    rw [hsame] at hle
    omega
  · rw [hs] at heq; omega

theorem move (h : Before start destination left x) (hleft : left ≠ 0) :
    Before start destination (left - 1) (UInt16.ofInt (x.toNat + sign start destination)) ∧
    ((UInt16.ofInt (x.toNat + sign start destination)).toNat : Int) = x.toNat + sign start destination := by
  have heq := h.eq
  have hle := h.le
  have hnonneg := h.nonneg
  have hx := x.toNat_lt
  have hstart := start.toNat_lt
  have hdestination := destination.toNat_lt
  have hval : ((UInt16.ofInt (x.toNat + sign start destination)).toNat : Int) = x.toNat + sign start destination := by
    rw [UInt16.ofInt, UInt16.toNat_ofNat']
    rw [offset] at hle
    obtain ⟨hs, hlt⟩ | ⟨hs, hsame⟩ | ⟨hs, hlt⟩ := sign_cases start destination
    · rw [hs] at heq ⊢; omega
    · rw [hs] at heq ⊢; omega
    · rw [hs] at heq ⊢; omega
  refine ⟨⟨?_, by omega, by omega⟩, hval⟩
  rw [hval, heq]
  ring

end Before

/-- A cell of the walk, from which `u` columns and `v` rows are left. -/
structure At (x0 y0 x1 y1 : UInt16) (cell : Cell) (u v : Int) : Prop where
  x : Before x0 x1 u cell.1
  y : Before y0 y1 v cell.2
  near : DigitalLine.Near (offset x1 x0).natAbs (offset y1 y0).natAbs u v

theorem natAbs_offset_lt (p q : UInt16) : (offset p q).natAbs < 2 ^ 16 := by
  have := p.toNat_lt
  have := q.toNat_lt
  rw [offset]
  omega

theorem offset_swap (p q : UInt16) : offset p q = -offset q p := by rw [offset, offset]; ring

/-- The deviation of the cell that `u` columns and `v` rows before the destination. -/
theorem deviation_before (x0 y0 x1 y1 : UInt16) (u v : Int) :
    deviation x0 y0 x1 y1 (x1.toNat - sign x0 x1 * u) (y1.toNat - sign y0 y1 * v) =
      sign x0 x1 * sign y0 y1 *
        DigitalLine.deviation (offset x1 x0).natAbs (offset y1 y0).natAbs u v := by
  rw [deviation, offset_swap x0 x1, ← sign_mul_natAbs x0 x1, ← sign_mul_natAbs y0 y1, sign_mul_natAbs,
    sign_mul_natAbs, DigitalLine.deviation]
  nth_rewrite 1 [← sign_mul_natAbs y0 y1]
  nth_rewrite 1 [← sign_mul_natAbs x0 x1]
  ring

theorem At.start (x0 y0 x1 y1 : UInt16) :
    At x0 y0 x1 y1 (x0, y0) (offset x1 x0).natAbs (offset y1 y0).natAbs :=
  ⟨.first x0 x1, .first y0 y1, .start (by omega) (by omega)⟩

section

variable {x0 y0 x1 y1 : UInt16} {cell : Cell} {u v : Int}

theorem At.bounds (h : At x0 y0 x1 y1 cell u v) :
    (DigitalLine.deviation (offset x1 x0).natAbs (offset y1 y0).natAbs u v).natAbs < 2 ^ 16 := by
  have hlow := h.near.low
  have hhigh := h.near.high
  have hw := natAbs_offset_lt x1 x0
  have hh := natAbs_offset_lt y1 y0
  omega

/-- No value near the line wraps. -/
theorem line_value_natAbs {x y : Int} {e : Nat} (h : (deviation x0 y0 x1 y1 x y).natAbs = e) (he : e < 2 ^ 20) :
    absInt32 ((line x0 y0 x1 y1).value x y) = e := by
  rw [line_value, int32_eq (by omega) (by omega), absInt32_eq (by omega) (by omega), h]

theorem natAbs_sign_mul {m n e : Int} (hm : m = 1 ∨ m = -1) (hn : n = 1 ∨ n = -1) : (m * n * e).natAbs = e.natAbs := by
  obtain rfl | rfl := hm <;> obtain rfl | rfl := hn <;> simp

/-- Where columns and rows are left, the loop compares the deviations of the three cells. -/
theorem At.moves (h : At x0 y0 x1 y1 cell u v) (hu : u ≠ 0) (hv : v ≠ 0) :
    (line x0 y0 x1 y1).moveHor cell = DigitalLine.column (offset x1 x0).natAbs (offset y1 y0).natAbs u v ∧
    (line x0 y0 x1 y1).moveVer cell = DigitalLine.row (offset x1 x0).natAbs (offset y1 y0).natAbs u v ∧
    (line x0 y0 x1 y1).moveCross cell = DigitalLine.cross (offset x1 x0).natAbs (offset y1 y0).natAbs u v := by
  have hx := h.x.eq
  have hy := h.y.eq
  have hsx := h.x.sign_ne hu
  have hsy := h.y.sign_ne hv
  have hbound := h.bounds
  have hw := natAbs_offset_lt x1 x0
  have hh := natAbs_offset_lt y1 y0
  have hnextX : (cell.1.toNat : Int) + sign x0 x1 = x1.toNat - sign x0 x1 * (u - 1) := by rw [hx]; ring
  have hnextY : (cell.2.toNat : Int) + sign y0 y1 = y1.toNat - sign y0 y1 * (v - 1) := by rw [hy]; ring
  refine ⟨?_, ?_, ?_⟩
  · refine line_value_natAbs ?_ ?_
    · show (deviation x0 y0 x1 y1 (cell.1.toNat + sign x0 x1) cell.2.toNat).natAbs = _
      rw [hnextX, hy, deviation_before, natAbs_sign_mul hsx hsy, DigitalLine.deviation_column, DigitalLine.column]
    · rw [DigitalLine.column]; omega
  · refine line_value_natAbs ?_ ?_
    · show (deviation x0 y0 x1 y1 cell.1.toNat (cell.2.toNat + sign y0 y1)).natAbs = _
      rw [hnextY, hx, deviation_before, natAbs_sign_mul hsx hsy, DigitalLine.deviation_row, DigitalLine.row]
    · rw [DigitalLine.row]; omega
  · refine line_value_natAbs ?_ ?_
    · show (deviation x0 y0 x1 y1 (cell.1.toNat + sign x0 x1) (cell.2.toNat + sign y0 y1)).natAbs = _
      rw [hnextX, hnextY, deviation_before, natAbs_sign_mul hsx hsy, DigitalLine.deviation_column,
        DigitalLine.deviation_row, DigitalLine.cross]
      congr 1
      ring
    · rw [DigitalLine.cross]; omega

/-- One coordinate of a turn: it stays or goes one step towards the destination. -/
def Toward (destination x x' : UInt16) : Prop :=
  x' = x ∨ (x.toNat < destination.toNat ∧ x'.toNat = x.toNat + 1) ∨
    (destination.toNat < x.toNat ∧ x'.toNat + 1 = x.toNat)

theorem Before.toward {start destination x : UInt16} {left : Int} (h : Before start destination left x)
    (hleft : left ≠ 0) : Toward destination x (UInt16.ofInt (x.toNat + sign start destination)) := by
  have hval := (h.move hleft).2
  have heq := h.eq
  have hnonneg := h.nonneg
  refine .inr ?_
  obtain hs | hs := h.sign_ne hleft <;> rw [hs] at hval heq ⊢
  · exact .inl ⟨by omega, by omega⟩
  · exact .inr ⟨by omega, by omega⟩

theorem At.movesY_iff (h : At x0 y0 x1 y1 cell u v) :
    (line x0 y0 x1 y1).MovesY cell ↔ DigitalLine.RowDue (offset x1 x0).natAbs (offset y1 y0).natAbs u v := by
  have hy : cell.2 = (line x0 y0 x1 y1).destination.2 ↔ v = 0 := h.y.eq_iff
  have hx : cell.1 = (line x0 y0 x1 y1).destination.1 ↔ u = 0 := h.x.eq_iff
  rw [Line.MovesY, DigitalLine.RowDue, ne_eq, hy, hx]
  refine and_congr_right fun hv => or_congr_right' fun hu => ?_
  obtain ⟨hhor, hver, hcross⟩ := h.moves hu hv
  rw [hhor, hver, hcross]
  omega

/-- The row of the next cell. -/
theorem At.nextY (h : At x0 y0 x1 y1 cell u v) :
    Before y0 y1 (DigitalLine.rowsLeft (offset x1 x0).natAbs (offset y1 y0).natAbs u v) ((line x0 y0 x1 y1).nextY cell) ∧
    Toward y1 cell.2 ((line x0 y0 x1 y1).nextY cell) := by
  rw [Line.nextY, DigitalLine.rowsLeft]
  simp only [h.movesY_iff]
  split
  · next hdue => exact ⟨(h.y.move hdue.1).1, h.y.toward hdue.1⟩
  · exact ⟨h.y, .inl rfl⟩

theorem At.movesX_iff (h : At x0 y0 x1 y1 cell u v) :
    (line x0 y0 x1 y1).MovesX cell ↔ DigitalLine.ColumnDue (offset x1 x0).natAbs (offset y1 y0).natAbs u v
      (DigitalLine.rowsLeft (offset x1 x0).natAbs (offset y1 y0).natAbs u v) := by
  have hy : (line x0 y0 x1 y1).nextY cell = (line x0 y0 x1 y1).destination.2 ↔ _ := h.nextY.1.eq_iff
  have hx : cell.1 = (line x0 y0 x1 y1).destination.1 ↔ u = 0 := h.x.eq_iff
  rw [Line.MovesX, DigitalLine.ColumnDue, ne_eq, hy, hx]
  refine and_congr_right fun hu => or_congr_right' fun hrows => ?_
  have hv : v ≠ 0 := by
    rintro rfl
    exact hrows (if_neg fun hdue => hdue.1 rfl)
  obtain ⟨hhor, hver, hcross⟩ := h.moves hu hv
  rw [hhor, hver, hcross]
  omega

/-- The column of the next cell. -/
theorem At.nextX (h : At x0 y0 x1 y1 cell u v) :
    Before x0 x1 (DigitalLine.columnsLeft (offset x1 x0).natAbs (offset y1 y0).natAbs u v
      (DigitalLine.rowsLeft (offset x1 x0).natAbs (offset y1 y0).natAbs u v)) ((line x0 y0 x1 y1).nextX cell) ∧
    Toward x1 cell.1 ((line x0 y0 x1 y1).nextX cell) := by
  rw [Line.nextX, DigitalLine.columnsLeft]
  simp only [h.movesX_iff]
  split
  · next hdue => exact ⟨(h.x.move hdue.1).1, h.x.toward hdue.1⟩
  · exact ⟨h.x, .inl rfl⟩

/-- A cell of the walk is the destination or there is less left at the next one. -/
theorem At.next (h : At x0 y0 x1 y1 cell u v) (hne : cell ≠ (x1, y1)) :
    ∃ u' v', At x0 y0 x1 y1 ((line x0 y0 x1 y1).next cell) u' v' ∧ u' + v' < u + v := by
  have hleft : u ≠ 0 ∨ v ≠ 0 := by
    by_contra hzero
    push Not at hzero
    exact hne (Prod.ext (h.x.eq_iff.mpr hzero.1) (h.y.eq_iff.mpr hzero.2))
  obtain ⟨hnear, hless⟩ := h.near.step hleft
  exact ⟨_, _, ⟨h.nextX.1, h.nextY.1, hnear⟩, hless⟩

end

/-! ## The walk -/

/-- One turn of the loop: the cell moves in `x`, in `y` or in both, by one towards the destination. -/
structure Turn (x0 y0 x1 y1 : UInt16) (cell cell' : Cell) : Prop where
  running : cell ≠ (x1, y1)
  next : cell' = (line x0 y0 x1 y1).next cell
  moves : cell' ≠ cell
  towardX : Toward x1 cell.1 cell'.1
  towardY : Toward y1 cell.2 cell'.2

theorem At.turn {x0 y0 x1 y1 : UInt16} {cell : Cell} {u v : Int} (h : At x0 y0 x1 y1 cell u v) (hne : cell ≠ (x1, y1)) :
    Turn x0 y0 x1 y1 cell ((line x0 y0 x1 y1).next cell) := by
  refine ⟨hne, rfl, fun hsame => ?_, h.nextX.2, h.nextY.2⟩
  obtain ⟨u', v', hnext, hless⟩ := h.next hne
  have hu := hnext.x.left_eq
  have hv := hnext.y.left_eq
  rw [hsame, ← h.x.left_eq] at hu
  rw [hsame, ← h.y.left_eq] at hv
  omega

/-- The loop visits some cells up to the destination, unless it meets one before that is not clear. -/
theorem walk_cells {x0 y0 x1 y1 : UInt16} (fuel : Nat) {cell : Cell} {u v : Int} (h : At x0 y0 x1 y1 cell u v)
    (hfuel : u + v < fuel) :
    ∃ cells : List Cell,
      List.IsChain (Turn x0 y0 x1 y1) (cell :: cells) ∧ (cell :: cells).getLast (by simp) = (x1, y1) ∧
      cells.length ≤ u + v ∧ (∀ c ∈ cell :: cells, ∃ u v, At x0 y0 x1 y1 c u v) ∧
      ∀ clear, (line x0 y0 x1 y1).walk clear fuel cell = some (cells.all clear) := by
  induction fuel generalizing cell u v with
  | zero =>
    have := h.x.nonneg
    have := h.y.nonneg
    omega
  | succ fuel ih =>
    by_cases hend : cell = (x1, y1)
    · refine ⟨[], .singleton _, hend, ?_, by simpa using ⟨u, v, h⟩, fun clear => if_pos hend⟩
      have := h.x.nonneg
      have := h.y.nonneg
      simp
      omega
    · obtain ⟨u', v', hnext, hless⟩ := h.next hend
      obtain ⟨cells, hchain, hlast, hlength, hat, hwalk⟩ := ih hnext (by omega)
      refine ⟨(line x0 y0 x1 y1).next cell :: cells, .cons_cons (h.turn hend) hchain, ?_, ?_, ?_, fun clear => ?_⟩
      · rw [List.getLast_cons (by simp)]
        exact hlast
      · simp only [List.length_cons]
        omega
      · intro c hc
        obtain rfl | hc := List.mem_cons.mp hc
        · exact ⟨u, v, h⟩
        · exact hat c hc
      · rw [Line.walk, if_neg (show cell ≠ (line x0 y0 x1 y1).destination from hend), hwalk clear, List.all_cons]
        cases clear ((line x0 y0 x1 y1).next cell) <;> rfl

/-! ## No value overflows -/

/-- `n` is a value of `int32_t`. -/
def IsInt32 (n : Int) : Prop := -2 ^ 31 ≤ n ∧ n < 2 ^ 31

/-- No part of `A * x + B * y + C` overflows. -/
structure Line.Fits (l : Line) (x y : Int) : Prop where
  left : IsInt32 (l.A * x)
  right : IsInt32 (l.B * y)
  sum : IsInt32 (l.A * x + l.B * y)
  all : IsInt32 (l.A * x + l.B * y + l.C)

theorem natAbs_mul_le {a b : Int} {m n : Nat} (ha : a.natAbs ≤ m) (hb : b.natAbs ≤ n) : (a * b).natAbs ≤ m * n := by
  rw [Int.natAbs_mul]
  exact Nat.mul_le_mul ha hb

section

variable {x0 y0 x1 y1 : UInt16} (hx : (offset x1 x0).natAbs ≤ 16000) (hy : (offset y1 y0).natAbs ≤ 16000)
include hx hy

/-- The products are below 2^30. -/
theorem line_products {x y : Int} (hcx : x.natAbs ≤ 2 ^ 16) (hcy : y.natAbs ≤ 2 ^ 16) :
    (offset y1 y0 * x).natAbs ≤ 16000 * 2 ^ 16 ∧ (offset x0 x1 * y).natAbs ≤ 16000 * 2 ^ 16 := by
  refine ⟨natAbs_mul_le hy hcx, natAbs_mul_le ?_ hcy⟩
  rw [offset_swap, Int.natAbs_neg]
  exact hx

theorem line_C : (line x0 y0 x1 y1).C = -(offset y1 y0 * x1.toNat + offset x0 x1 * y1.toNat) := by
  have := x1.toNat_lt
  have := y1.toNat_lt
  obtain ⟨hA, hB⟩ := line_products hx hy (x := x1.toNat) (y := y1.toNat) (by omega) (by omega)
  rw [line, int32_eq (n := offset y1 y0 * x1.toNat) (by omega) (by omega),
    int32_eq (n := offset x0 x1 * y1.toNat) (by omega) (by omega),
    int32_eq (n := offset y1 y0 * x1.toNat + offset x0 x1 * y1.toNat) (by omega) (by omega),
    int32_eq (by omega) (by omega)]

theorem line_exact (x y : Int) :
    (line x0 y0 x1 y1).A * x + (line x0 y0 x1 y1).B * y + (line x0 y0 x1 y1).C = deviation x0 y0 x1 y1 x y := by
  rw [line_C hx hy, deviation, line]
  ring

/-- The cells that the loop looks at are no more than one step away from the walk. -/
theorem At.fits {cell : Cell} {u v : Int} (h : At x0 y0 x1 y1 cell u v) {dx dy : Int} (hdx : dx.natAbs ≤ 1)
    (hdy : dy.natAbs ≤ 1) : (line x0 y0 x1 y1).Fits (cell.1.toNat + dx) (cell.2.toNat + dy) := by
  have hu := h.x.left_eq
  have hv := h.y.left_eq
  have hcols := h.x.le
  have hrows := h.y.le
  have hcx := cell.1.toNat_lt
  have hcy := cell.2.toNat_lt
  rw [offset] at hu hv
  obtain ⟨hA, hB⟩ := line_products hx hy (x := cell.1.toNat + dx) (y := cell.2.toNat + dy) (by omega) (by omega)
  have hA' : (offset y1 y0 * (cell.1.toNat + dx - x1.toNat)).natAbs ≤ 16000 * 16001 := natAbs_mul_le hy (by omega)
  have hB' : (offset x0 x1 * (cell.2.toNat + dy - y1.toNat)).natAbs ≤ 16000 * 16001 := by
    refine natAbs_mul_le ?_ (by omega)
    rw [offset_swap, Int.natAbs_neg]
    exact hx
  refine ⟨⟨?_, ?_⟩, ⟨?_, ?_⟩, ⟨?_, ?_⟩, ?_⟩
  · show -2 ^ 31 ≤ offset y1 y0 * (cell.1.toNat + dx)
    omega
  · show offset y1 y0 * (cell.1.toNat + dx) < 2 ^ 31
    omega
  · show -2 ^ 31 ≤ offset x0 x1 * (cell.2.toNat + dy)
    omega
  · show offset x0 x1 * (cell.2.toNat + dy) < 2 ^ 31
    omega
  · show -2 ^ 31 ≤ offset y1 y0 * (cell.1.toNat + dx) + offset x0 x1 * (cell.2.toNat + dy)
    omega
  · show offset y1 y0 * (cell.1.toNat + dx) + offset x0 x1 * (cell.2.toNat + dy) < 2 ^ 31
    omega
  · rw [line_exact hx hy, deviation]
    refine ⟨?_, ?_⟩ <;> omega

end

theorem natAbs_sign_le (start destination : UInt16) : (sign start destination).natAbs ≤ 1 := by
  obtain ⟨hs, -⟩ | ⟨hs, -⟩ | ⟨hs, -⟩ := sign_cases start destination <;> rw [hs] <;> decide

/-- The walk hugs the line. -/
theorem At.deviation_le {x0 y0 x1 y1 : UInt16} {cell : Cell} {u v : Int} (h : At x0 y0 x1 y1 cell u v) :
    (deviation x0 y0 x1 y1 cell.1.toNat cell.2.toNat).natAbs ≤ max (offset x1 x0).natAbs (offset y1 y0).natAbs := by
  have hlow := h.near.low
  have hhigh := h.near.high
  have hsigns := natAbs_mul_le (natAbs_sign_le x0 x1) (natAbs_sign_le y0 y1)
  rw [h.x.eq, h.y.eq, deviation_before]
  refine (natAbs_mul_le hsigns (le_refl _)).trans ?_
  omega

/-- The loop ends after at most `|dx| + |dy|` turns, no value in it overflows, and it finds the line clear if and only
if all cells that it can visit are clear. These are cells between the start and the destination and, unless the walk
starts there, the destination. -/
theorem checkSightLine_hugs (map : Map) (x0 y0 x1 y1 : UInt16) (z : UInt8) (hx : (offset x1 x0).natAbs ≤ 16000)
    (hy : (offset y1 y0).natAbs ≤ 16000) :
    ∃ cells : List Cell,
      List.IsChain (Turn x0 y0 x1 y1) ((x0, y0) :: cells) ∧
      ((x0, y0) :: cells).getLast (List.cons_ne_nil _ _) = (x1, y1) ∧
      ((x0, y0) ≠ (x1, y1) → (x1, y1) ∈ cells) ∧
      cells.length ≤ (offset x1 x0).natAbs + (offset y1 y0).natAbs ∧
      (∀ c ∈ (x0, y0) :: cells, ∀ dx dy : Int, dx.natAbs ≤ 1 → dy.natAbs ≤ 1 →
        (line x0 y0 x1 y1).Fits (c.1.toNat + dx) (c.2.toNat + dy)) ∧
      (∀ c ∈ cells, ((line x0 y0 x1 y1).A * c.1.toNat + (line x0 y0 x1 y1).B * c.2.toNat +
        (line x0 y0 x1 y1).C).natAbs ≤ max (offset x1 x0).natAbs (offset y1 y0).natAbs) ∧
      checkSightLine map x0 y0 x1 y1 z = some (cells.all fun c => isTileClear map c.1 c.2 z false) := by
  have hw := natAbs_offset_lt x1 x0
  have hh := natAbs_offset_lt y1 y0
  obtain ⟨cells, hchain, hlast, hlength, hat, hwalk⟩ :=
    walk_cells turns (At.start x0 y0 x1 y1) (by rw [turns]; omega)
  refine ⟨cells, hchain, hlast, fun hne => ?_, by omega, fun c hc dx dy hdx hdy => ?_, fun c hc => ?_, ?_⟩
  · have hmem := List.getLast_mem (List.cons_ne_nil (x0, y0) cells)
    rw [hlast] at hmem
    exact (List.mem_cons.mp hmem).resolve_left (Ne.symm hne)
  · obtain ⟨u, v, hc⟩ := hat c hc
    exact hc.fits hx hy hdx hdy
  · obtain ⟨u, v, hc⟩ := hat c (List.mem_cons_of_mem _ hc)
    rw [line_exact hx hy]
    exact hc.deviation_le
  · rw [checkSightLine]
    split
    · next hsame =>
      have hnil : cells = [] := List.length_eq_zero_iff.mp (by
        rw [hsame.1, hsame.2, offset, offset] at hlength
        omega)
      rw [hnil]
      rfl
    · exact hwalk _

/-- A walk of two columns and one row. -/
theorem checkSightLine_hugs_knight :
    ∃ cells : List Cell,
      List.IsChain (Turn 100 100 102 101) ((100, 100) :: cells) ∧
      ((100, 100) :: cells).getLast (List.cons_ne_nil _ _) = (102, 101) ∧
      (((100, 100) : Cell) ≠ (102, 101) → (102, 101) ∈ cells) ∧
      cells.length ≤ (offset 102 100).natAbs + (offset 101 100).natAbs ∧
      (∀ c ∈ (100, 100) :: cells, ∀ dx dy : Int, dx.natAbs ≤ 1 → dy.natAbs ≤ 1 →
        (line 100 100 102 101).Fits (c.1.toNat + dx) (c.2.toNat + dy)) ∧
      (∀ c ∈ cells, ((line 100 100 102 101).A * c.1.toNat + (line 100 100 102 101).B * c.2.toNat +
        (line 100 100 102 101).C).natAbs ≤ max (offset 102 100).natAbs (offset 101 100).natAbs) ∧
      checkSightLine (fun _ _ _ => none) 100 100 102 101 7 =
        some (cells.all fun c => isTileClear (fun _ _ _ => none) c.1 c.2 7 false) :=
  checkSightLine_hugs (fun _ _ _ => none) 100 100 102 101 7 (by decide) (by decide)

/-- Every tile has a wall. -/
def walls : Map := fun _ _ _ => some { items := [⟨true⟩] }

/-- From a cell to itself the sight is clear, even if the cell is not. -/
theorem checkSightLine_same :
    checkSightLine walls 100 100 100 100 7 = some true ∧ isTileClear walls 100 100 7 false = false := by
  exact ⟨rfl, rfl⟩

/-- The loop always ends. -/
theorem checkSightLine_ends (map : Map) (x0 y0 x1 y1 : UInt16) (z : UInt8) :
    ∃ clear, checkSightLine map x0 y0 x1 y1 z = some clear := by
  have hw := natAbs_offset_lt x1 x0
  have hh := natAbs_offset_lt y1 y0
  obtain ⟨cells, -, -, -, -, hwalk⟩ := walk_cells turns (At.start x0 y0 x1 y1) (by rw [turns]; omega)
  rw [checkSightLine]
  split
  · exact ⟨true, rfl⟩
  · exact ⟨_, hwalk _⟩

end ForgottenServer.Sight
