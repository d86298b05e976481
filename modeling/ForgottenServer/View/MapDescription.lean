import ForgottenServer.Lib.GapCoding
import ForgottenServer.World.Spectators

/-! # The description of the map

`GetMapDescription` and `GetFloorDescription` write the tiles of a region of the map, floor by floor and column by
column, with the number of fields without a tile between them. What a message says of a tile is the tile itself. -/

namespace ForgottenServer.View
open ForgottenServer.World GapCoding

/-- A field as the source counts it, before it is cast to a position of the map. -/
structure Field where
  x : Int
  y : Int
  z : Int
  deriving DecidableEq, Repr

/-- The casts to `uint16_t` and `uint8_t`. -/
def Field.position (field : Field) : Position := ⟨UInt16.ofInt field.x, UInt16.ofInt field.y, UInt8.ofInt field.z⟩

def fieldOf (pos : Position) : Field := ⟨pos.getX, pos.getY, pos.getZ⟩

variable {T : Type}

/-! ## The messages -/

/-- One turn of the loops of `GetFloorDescription`. -/
def describeField (getTile : Position → Option T) (out : Int × List (Piece T)) (field : Field) : Int × List (Piece T) :=
  match getTile field.position with
  | some tile => (0, (if out.1 ≥ 0 then out.2 ++ [.gap (out.1 % 256).toNat] else out.2) ++ [.cell tile])
  | none => if out.1 = 0xFE then (-1, out.2 ++ [.gap 0xFF]) else (out.1 + 1, out.2)

/-- The fields of a floor, in the order of the loops. -/
def floorFields (x y z width height offset : Int) : List Field :=
  (List.range width.toNat).flatMap fun (nx : Nat) => (List.range height.toNat).map fun (ny : Nat) =>
    ⟨x + nx + offset, y + ny + offset, z⟩

def GetFloorDescription (getTile : Position → Option T) (x y z width height offset : Int)
    (out : Int × List (Piece T)) : Int × List (Piece T) :=
  (floorFields x y z width height offset).foldl (describeField getTile) out

/-- What is left to say after the last floor. -/
def finish (out : Int × List (Piece T)) : List (Piece T) :=
  if out.1 ≥ 0 then out.2 ++ [.gap (out.1 % 256).toNat] else out.2

/-- The floors of the loop of `GetMapDescription`. -/
def mapFloors (z : Int) : List Int :=
  if z > 7 then (List.range (min (World.MAP_MAX_LAYERS - 1 : Int) (z + 2) - (z - 2) + 1).toNat).map fun (i : Nat) => z - 2 + i
  else [7, 6, 5, 4, 3, 2, 1, 0]

def GetMapDescription (getTile : Position → Option T) (x y z width height : Int) : List (Piece T) :=
  finish ((mapFloors z).foldl (fun out nz => GetFloorDescription getTile x y nz width height (z - nz) out) (-1, []))

/-! ## What they say -/

/-- The gap that `skip` stands for. -/
def gapOf (skip : Int) : Option Nat := if skip < 0 then none else some skip.toNat

/-- What was written is what the sender of the gaps writes. -/
structure Written (getTile : Position → Option T) (fields : List Field) (out : Int × List (Piece T)) : Prop where
  lower : -1 ≤ out.1
  upper : out.1 ≤ 0xFE
  sent : sendAll 0xFF none (fields.map fun field => getTile field.position) = (gapOf out.1, out.2)

theorem written_nil (getTile : Position → Option T) : Written getTile [] (-1, []) :=
  ⟨le_rfl, (by decide : (-1 : Int) ≤ 0xFE), rfl⟩

theorem gapOf_neg : gapOf (-1) = none := rfl

theorem gapOf_nonneg {skip : Int} (h : 0 ≤ skip) : gapOf skip = some skip.toNat := if_neg (by omega)

theorem byte_skip {skip : Int} (hlower : 0 ≤ skip) (hupper : skip ≤ 0xFE) : (skip % 256).toNat = skip.toNat := by
  rw [Int.emod_eq_of_lt hlower (by omega)]

/-- A turn of the loops writes what the sender of the gaps writes for one more cell. -/
theorem written_describeField {getTile : Position → Option T} {fields : List Field} {out : Int × List (Piece T)}
    (h : Written getTile fields out) (field : Field) :
    Written getTile (fields ++ [field]) (describeField getTile out field) := by
  obtain ⟨skip, msg⟩ := out
  obtain ⟨hlower, hupper, hsent⟩ := h
  simp only at hlower hupper hsent
  have hnext : sendAll 0xFF none ((fields ++ [field]).map fun field => getTile field.position) =
      ((send 0xFF (gapOf skip) (getTile field.position)).1, msg ++ (send 0xFF (gapOf skip) (getTile field.position)).2) := by
    rw [List.map_append, sendAll_append, hsent]
    simp only [List.map_cons, List.map_nil, sendAll, List.append_nil]
  unfold describeField
  cases htile : getTile field.position with
  | some tile =>
    rw [htile] at hnext
    refine ⟨(by decide : (-1 : Int) ≤ 0), (by decide : (0 : Int) ≤ 0xFE), hnext.trans ?_⟩
    by_cases hopen : 0 ≤ skip
    · simp only [gapOf_nonneg hopen, send, ge_iff_le, if_pos hopen, byte_skip hopen hupper, List.append_assoc,
        List.cons_append, List.nil_append]
      rfl
    · have hskip : skip = -1 := by omega
      subst hskip
      simp only [gapOf_neg, send, ge_iff_le, if_neg hopen]
      rfl
  | none =>
    rw [htile] at hnext
    simp only
    by_cases hfull : skip = 0xFE
    · subst hfull
      rw [if_pos rfl]
      exact ⟨le_rfl, (by decide : (-1 : Int) ≤ 0xFE), hnext.trans rfl⟩
    · rw [if_neg hfull]
      refine ⟨by omega, by omega, hnext.trans ?_⟩
      by_cases hopen : 0 ≤ skip
      · have hsucc : (skip + 1).toNat = skip.toNat + 1 := by omega
        have hshort : ¬ skip.toNat + 1 = 0xFF := by omega
        simp only [gapOf_nonneg hopen, gapOf_nonneg (show 0 ≤ skip + 1 by omega), send, if_neg hshort, hsucc,
          List.append_nil]
      · have hskip : skip = -1 := by omega
        subst hskip
        simp only [gapOf_neg, send, List.append_nil]
        rfl

theorem written_foldl {getTile : Position → Option T} (more : List Field) :
    ∀ {fields : List Field} {out : Int × List (Piece T)}, Written getTile fields out →
      Written getTile (fields ++ more) (more.foldl (describeField getTile) out) := by
  induction more with
  | nil =>
    intro fields out h
    rwa [List.append_nil]
  | cons field more ih =>
    intro fields out h
    have hnext := ih (written_describeField h field)
    rwa [List.append_assoc, List.singleton_append] at hnext

/-- Floors, each with its columns and its offset. -/
theorem written_floors {getTile : Position → Option T} (floors : List Int) (region : Int → List Field) :
    ∀ {fields : List Field} {out : Int × List (Piece T)}, Written getTile fields out →
      Written getTile (fields ++ floors.flatMap region)
        (floors.foldl (fun out nz => (region nz).foldl (describeField getTile) out) out) := by
  induction floors with
  | nil =>
    intro fields out h
    rwa [List.flatMap_nil, List.append_nil]
  | cons nz floors ih =>
    intro fields out h
    have hnext := ih (written_foldl (region nz) h)
    rwa [List.append_assoc, ← List.flatMap_cons] at hnext

theorem finish_eq {getTile : Position → Option T} {fields : List Field} {out : Int × List (Piece T)}
    (h : Written getTile fields out) :
    finish out = encode 0xFF none (fields.map fun field => getTile field.position) := by
  obtain ⟨skip, msg⟩ := out
  obtain ⟨hlower, hupper, hsent⟩ := h
  rw [encode, hsent]
  unfold finish
  by_cases hopen : 0 ≤ skip
  · simp only [ge_iff_le, if_pos hopen, gapOf_nonneg hopen, byte_skip hopen hupper, close]
  · have hskip : skip = -1 := by simp only at hlower; omega
    subst hskip
    simp only [ge_iff_le, if_neg hopen, gapOf_neg, close, List.append_nil]

/-- The fields that a description of the map is about. -/
def mapFields (x y z width height : Int) : List Field :=
  (mapFloors z).flatMap fun nz => floorFields x y nz width height (z - nz)

/-- Some floors are described as their fields in a row. -/
theorem finish_floors (getTile : Position → Option T) (floors : List Int) (region : Int → List Field) :
    finish (floors.foldl (fun out nz => (region nz).foldl (describeField getTile) out) (-1, [])) =
      encode 0xFF none ((floors.flatMap region).map fun field => getTile field.position) :=
  finish_eq (written_floors floors region (written_nil getTile))

theorem GetMapDescription_eq (getTile : Position → Option T) (x y z width height : Int) :
    GetMapDescription getTile x y z width height =
      encode 0xFF none ((mapFields x y z width height).map fun field => getTile field.position) :=
  finish_floors getTile (mapFloors z) fun nz => floorFields x y nz width height (z - nz)

/-! ## The fields -/

theorem length_floorFields (x y z width height offset : Int) :
    (floorFields x y z width height offset).length = width.toNat * height.toNat := by
  simp [floorFields, List.length_flatMap]

theorem length_mapFields (x y z width height : Int) :
    (mapFields x y z width height).length = (mapFloors z).length * (width.toNat * height.toNat) := by
  simp [mapFields, List.length_flatMap, length_floorFields]

theorem mem_floorFields {x y z width height offset : Int} {field : Field} :
    field ∈ floorFields x y z width height offset ↔
      field.z = z ∧ (x + offset ≤ field.x ∧ field.x < x + offset + width) ∧
        y + offset ≤ field.y ∧ field.y < y + offset + height := by
  unfold floorFields
  simp only [List.mem_flatMap, List.mem_map, List.mem_range]
  constructor
  · rintro ⟨nx, hx, ny, hy, rfl⟩
    refine ⟨rfl, ⟨?_, ?_⟩, ?_, ?_⟩ <;> simp only <;> omega
  · intro ⟨hz, ⟨hx, hx'⟩, hy, hy'⟩
    refine ⟨(field.x - x - offset).toNat, by omega, (field.y - y - offset).toNat, by omega, ?_⟩
    obtain ⟨fx, fy, fz⟩ := field
    simp only [Field.mk.injEq] at *
    exact ⟨by omega, by omega, hz.symm⟩

theorem mem_mapFloors {z nz : Int} :
    nz ∈ mapFloors z ↔ z > 7 ∧ z - 2 ≤ nz ∧ nz ≤ z + 2 ∧ nz ≤ 15 ∨ z ≤ 7 ∧ 0 ≤ nz ∧ nz ≤ 7 := by
  have hlayers : ((World.MAP_MAX_LAYERS : Nat) : Int) = 16 := rfl
  unfold mapFloors
  rw [hlayers]
  split
  · simp only [List.mem_map, List.mem_range]
    constructor
    · rintro ⟨i, hi, rfl⟩
      omega
    · intro h
      exact ⟨(nz - (z - 2)).toNat, by omega, by omega⟩
  · simp only [List.mem_cons, List.not_mem_nil, or_false]
    omega

theorem mem_mapFields {x y z width height : Int} {field : Field} :
    field ∈ mapFields x y z width height ↔
      field.z ∈ mapFloors z ∧ (x + (z - field.z) ≤ field.x ∧ field.x < x + (z - field.z) + width) ∧
        y + (z - field.z) ≤ field.y ∧ field.y < y + (z - field.z) + height := by
  unfold mapFields
  simp only [List.mem_flatMap, mem_floorFields]
  constructor
  · rintro ⟨nz, hnz, hz, hx, hy⟩
    subst hz
    exact ⟨hnz, hx, hy⟩
  · intro ⟨hz, hx, hy⟩
    exact ⟨field.z, hz, rfl, hx, hy⟩

theorem position_fieldOf (pos : Position) : (fieldOf pos).position = pos := by
  obtain ⟨x, y, z⟩ := pos
  have hx := x.toNat_lt
  have hy := y.toNat_lt
  have hz := z.toNat_lt
  have hx' : UInt16.ofInt (x.toNat : Int) = x := by
    apply UInt16.toNat_inj.mp
    simp only [UInt16.ofInt, UInt16.toNat_ofNat']
    omega
  have hy' : UInt16.ofInt (y.toNat : Int) = y := by
    apply UInt16.toNat_inj.mp
    simp only [UInt16.ofInt, UInt16.toNat_ofNat']
    omega
  have hz' : UInt8.ofInt (z.toNat : Int) = z := by
    apply UInt8.toNat_inj.mp
    simp only [UInt8.ofInt, UInt8.toNat_ofNat']
    omega
  simp only [fieldOf, Field.position, Position.getX, Position.getY, Position.getZ, hx', hy', hz']

/-- A receiver that knows the size of a region and its floor gets the tile of every field back, however many fields are
without one, and stops where the description ends. -/
theorem receive_GetMapDescription (getTile : Position → Option T) (x y z width height : Int) (rest : List (Piece T)) :
    receive ((mapFloors z).length * (width.toNat * height.toNat)) 0
        (GetMapDescription getTile x y z width height ++ rest) =
      some ((mapFields x y z width height).map fun field => getTile field.position, rest) := by
  have hreceived := receive_encode (show 0 < 0xFF by decide)
    ((mapFields x y z width height).map fun field => getTile field.position) rest
  rwa [List.length_map, length_mapFields, ← GetMapDescription_eq] at hreceived

end ForgottenServer.View
