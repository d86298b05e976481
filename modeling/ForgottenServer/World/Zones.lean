import Mathlib
import ForgottenServer.Lib.Runs
import ForgottenServer.Lib.SortUnique
import ForgottenServer.World.Store

/-! # Zones

`State`: the zone objects by their addresses, `g_zones`, `g_positionZones` and the zone ids of the tiles. The registry
of zones and the index of positions are changed together by `registerPositionZones` and `unregisterPosition`. A
multimap is the values of each key, in the order in which they have been emplaced. -/

namespace ForgottenServer.Zones

open World (Position)
open SortUnique

/-- Zone ids have 16 bits. -/
abbrev ZoneId := Fin (2 ^ 16)

structure Zone where
  id : ZoneId
  positions : List Position
  deriving DecidableEq

/-- The zone ids of a tile, which `setZoneIds` sorts. -/
structure Tile where
  zoneIds : List ZoneId
  sorted : zoneIds.Pairwise (· < ·)

structure State where
  objects : Nat → Zone
  allocated : Nat
  zones : ZoneId → Option Nat
  positionZones : Position → List ZoneId
  tiles : Position → Option Tile

def Zone.addPosition (zone : Zone) (position : Position) : Zone :=
  if position ∈ zone.positions then zone else { zone with positions := zone.positions ++ [position] }

def Zone.removePosition (zone : Zone) (position : Position) : Zone :=
  { zone with positions := zone.positions.filter (· ≠ position) }

theorem lt_of_mem_dropWhile {zoneIds : List ZoneId} (h : zoneIds.Pairwise (· < ·)) {zoneId : ZoneId}
    (hnew : (zoneIds.dropWhile (· < zoneId)).head? ≠ some zoneId) :
    ∀ other ∈ zoneIds.dropWhile (· < zoneId), zoneId < other := by
  have hsorted := h.sublist (List.dropWhile_sublist (· < zoneId))
  cases hdrop : zoneIds.dropWhile (· < zoneId) with
  | nil => simp
  | cons first rest =>
    have hnot := List.head?_dropWhile_not (· < zoneId) zoneIds
    rw [hdrop] at hnot hnew hsorted
    have hfirst : zoneId < first := by
      refine lt_of_le_of_ne (by simpa using hnot) ?_
      intro hsame
      exact hnew (congrArg some hsame.symm)
    intro other hother
    obtain rfl | hother := List.mem_cons.mp hother
    · exact hfirst
    · exact hfirst.trans ((List.pairwise_cons.mp hsorted).1 other hother)

theorem sorted_insert {zoneIds : List ZoneId} (h : zoneIds.Pairwise (· < ·)) {zoneId : ZoneId}
    (hnew : (zoneIds.dropWhile (· < zoneId)).head? ≠ some zoneId) :
    (zoneIds.takeWhile (· < zoneId) ++ zoneId :: zoneIds.dropWhile (· < zoneId)).Pairwise (· < ·) := by
  have habove := lt_of_mem_dropWhile h hnew
  have hbelow : ∀ other ∈ zoneIds.takeWhile (· < zoneId), other < zoneId := fun other hother => by
    simpa using List.mem_takeWhile_imp hother
  rw [List.pairwise_append, List.pairwise_cons]
  refine ⟨h.sublist (List.takeWhile_sublist _), ⟨habove, h.sublist (List.dropWhile_sublist _)⟩, ?_⟩
  intro a ha b hb
  obtain rfl | hb := List.mem_cons.mp hb
  · exact hbelow a ha
  · exact (hbelow a ha).trans (habove b hb)

/-- The id is inserted where `std::lower_bound` finds its place, unless it is there. -/
def Tile.addZoneId (tile : Tile) (zoneId : ZoneId) : Tile :=
  if zoneId = 0 then tile
  else if hnew : (tile.zoneIds.dropWhile (· < zoneId)).head? ≠ some zoneId then
    { zoneIds := tile.zoneIds.takeWhile (· < zoneId) ++ zoneId :: tile.zoneIds.dropWhile (· < zoneId)
      sorted := sorted_insert tile.sorted hnew }
  else tile

def normalizeZoneIds (zoneIds : List ZoneId) : List ZoneId := sortUnique (zoneIds.filter (· ≠ 0))

/-- The zone that is registered with the id, or a new one. -/
def getOrCreateZone (s : State) (id : ZoneId) : State × Option Nat :=
  if id = 0 then (s, none)
  else
    match s.zones id with
    | some zone => (s, some zone)
    | none =>
      ({ s with
          objects := Function.update s.objects s.allocated { id, positions := [] }
          allocated := s.allocated + 1
          zones := Function.update s.zones id (some s.allocated) },
        some s.allocated)

def getZonesByPosition (s : State) (position : Position) : List ZoneId := sortUnique (s.positionZones position)

/-- One turn of `unregisterPosition`. -/
def removeFrom (position : Position) (s : State) (zoneId : ZoneId) : State :=
  match s.zones zoneId with
  | none => s
  | some zone =>
    let s := { s with objects := Function.update s.objects zone ((s.objects zone).removePosition position) }
    if (s.objects zone).positions = [] then { s with zones := Function.update s.zones zoneId none } else s

def unregisterPosition (s : State) (position : Position) : State :=
  let previousZoneIds := s.positionZones position
  if previousZoneIds = [] then s
  else
    previousZoneIds.foldl (removeFrom position)
      { s with positionZones := Function.update s.positionZones position [] }

/-- One turn of `registerPositionZones`. -/
def addTo (position : Position) (s : State) (zoneId : ZoneId) : State :=
  match getOrCreateZone s zoneId with
  | (s, none) => s
  | (s, some zone) =>
    { s with
      objects := Function.update s.objects zone ((s.objects zone).addPosition position)
      positionZones := Function.update s.positionZones position (s.positionZones position ++ [zoneId]) }

def registerPositionZones (s : State) (position : Position) (zoneIds : List ZoneId) : State :=
  (normalizeZoneIds zoneIds).foldl (addTo position) (unregisterPosition s position)

/-- One turn of `createZone`. -/
def registerRequested (id : ZoneId) (s : State) (position : Position) : State :=
  let zoneIds := getZonesByPosition s position ++ [id]
  match s.tiles position with
  | some tile =>
    let tile := tile.addZoneId id
    registerPositionZones { s with tiles := Function.update s.tiles position (some tile) } position tile.zoneIds
  | none => registerPositionZones s position zoneIds

/-- The state after the call, and the zone that it returns. -/
def createZone (s : State) (id : ZoneId) (positions : List Position) : State × Option Nat :=
  if id = 0 then (s, none)
  else
    match s.zones id with
    | some existingZone => (s, some existingZone)
    | none =>
      if positions = [] then (s, none)
      else
        let (s, zone) := getOrCreateZone s id
        (positions.foldl (registerRequested id) s, zone)

/-- The calls, and what the map does to a tile between them. -/
inductive Event where
  | createZone (id : ZoneId) (positions : List Position)
  | registerPositionZones (position : Position) (zoneIds : List ZoneId)
  | unregisterPosition (position : Position)
  | setTile (position : Position) (tile : Option Tile)

def after (s : State) : Event → State
  | .createZone id positions => (createZone s id positions).1
  | .registerPositionZones position zoneIds => registerPositionZones s position zoneIds
  | .unregisterPosition position => unregisterPosition s position
  | .setTile position tile => { s with tiles := Function.update s.tiles position tile }

/-- Nothing is registered. -/
def empty (tiles : Position → Option Tile) : State where
  objects := fun _ => { id := 0, positions := [] }
  allocated := 0
  zones := fun _ => none
  positionZones := fun _ => []
  tiles := tiles

/-! ## What is asked of it -/

/-- What is registered with an id: the address of the object, and the object. -/
def cell (s : State) (zoneId : ZoneId) : Option (Nat × Zone) :=
  (s.zones zoneId).map fun zone => (zone, s.objects zone)

/-- The positions of what is registered, none where nothing is. -/
def positionsOf (registered : Option (Nat × Zone)) : List Position :=
  (registered.map fun zone => zone.2.positions).getD []

/-- The registry and the index hold the same pairs, each of them once. -/
structure Linked (s : State) : Prop where
  pairs : ∀ zoneId position, position ∈ positionsOf (cell s zoneId) ↔ zoneId ∈ s.positionZones position
  onceInZone : ∀ zoneId, (positionsOf (cell s zoneId)).Nodup
  onceInIndex : ∀ position, (s.positionZones position).Nodup

/-- Besides, no registered zone is empty. -/
structure Consistent (s : State) : Prop extends Linked s where
  nonempty : ∀ zoneId zone, s.zones zoneId = some zone → (s.objects zone).positions ≠ []

/-- The call creates a zone. -/
def Creates (s : State) (id : ZoneId) (positions : List Position) : Prop :=
  id ≠ 0 ∧ s.zones id = none ∧ positions ≠ []

/-- The zone that the call returns is the registered one and holds all the positions. -/
def ReturnsRegistered (s : State) (id : ZoneId) (positions : List Position) : Prop :=
  ∃ zone, (createZone s id positions).2 = some zone ∧ (createZone s id positions).1.zones id = some zone ∧
    ∀ position ∈ positions, position ∈ ((createZone s id positions).1.objects zone).positions

/-- The registry is consistent after the step, and a zone that it creates is the registered one. -/
def Good (s : State) (e : Event) : Prop :=
  Consistent (after s e) ∧
    ∀ id positions, e = .createZone id positions → Creates s id positions → ReturnsRegistered s id positions

/-- A list of positions that creates a zone does not start with one of them twice. -/
def StartsOnce (s : State) (e : Event) : Prop :=
  ∀ id positions, e = .createZone id positions → Creates s id positions →
    ¬ ∃ position rest, positions = position :: position :: rest

/-! ## What a turn does to what is registered -/

/-- Without the position, and without the object when it was the last one. -/
def dropFrom (position : Position) : Option (Nat × Zone) → Option (Nat × Zone)
  | none => none
  | some (zone, object) =>
    if (object.removePosition position).positions = [] then none else some (zone, object.removePosition position)

/-- With the position, in a new object where there is none. -/
def putIn (position : Position) (fresh : Nat) (id : ZoneId) : Option (Nat × Zone) → Option (Nat × Zone)
  | none => some (fresh, { id, positions := [position] })
  | some (zone, object) => some (zone, object.addPosition position)

/-- Two ids have two objects, which have been allocated. -/
structure Addresses (s : State) : Prop where
  distinct : ∀ zoneId other zone, s.zones zoneId = some zone → s.zones other = some zone → zoneId = other
  below : ∀ zoneId zone, s.zones zoneId = some zone → zone < s.allocated

section Turns

variable {s : State} {zoneId other : ZoneId} {position : Position}

theorem cell_of_zones {zone : Nat} (h : s.zones zoneId = some zone) : cell s zoneId = some (zone, s.objects zone) := by
  rw [cell, h]
  rfl

theorem cell_eq_none : cell s zoneId = none ↔ s.zones zoneId = none := Option.map_eq_none_iff

theorem zones_of_cell {zone : Nat} {object : Zone} (h : cell s zoneId = some (zone, object)) :
    s.zones zoneId = some zone ∧ s.objects zone = object := by
  obtain ⟨_, hzone, hpair⟩ := Option.map_eq_some_iff.mp h
  obtain ⟨rfl, rfl⟩ := Prod.mk.inj hpair
  exact ⟨hzone, rfl⟩

theorem dropFrom_dropFrom (position : Position) (registered : Option (Nat × Zone)) :
    dropFrom position (dropFrom position registered) = dropFrom position registered := by
  cases registered with
  | none => rfl
  | some registered =>
    obtain ⟨zone, object⟩ := registered
    have htwice : (object.removePosition position).removePosition position = object.removePosition position := by
      simp [Zone.removePosition, List.filter_filter]
    by_cases hempty : (object.removePosition position).positions = []
    · have hdrop : dropFrom position (some (zone, object)) = none := if_pos hempty
      rw [hdrop]
      rfl
    · have hdrop : dropFrom position (some (zone, object)) = some (zone, object.removePosition position) :=
        if_neg hempty
      rw [hdrop]
      simp only [dropFrom, htwice, if_neg hempty]

/-- The object of an id is nobody else's. -/
theorem cell_setObject (h : Addresses s) {zone : Nat} (hzone : s.zones zoneId = some zone) (object : Zone)
    (other : ZoneId) :
    cell { s with objects := Function.update s.objects zone object } other =
      if other = zoneId then some (zone, object) else cell s other := by
  unfold cell
  split
  · rename_i hsame
    rw [hsame, hzone]
    simp
  · rename_i hother
    cases hcell : s.zones other with
    | none => rfl
    | some address =>
      have hne : address ≠ zone := by
        intro hsame
        exact hother (h.distinct _ _ _ (hsame ▸ hcell) hzone)
      simp [Function.update_of_ne hne]

theorem cell_unregister (zoneId other : ZoneId) :
    cell { s with zones := Function.update s.zones zoneId none } other =
      if other = zoneId then none else cell s other := by
  unfold cell
  split
  · rename_i hsame
    rw [hsame]
    simp
  · rename_i hother
    simp [Function.update_of_ne hother]

theorem Addresses.unregister (h : Addresses s) (zoneId : ZoneId) :
    Addresses { s with zones := Function.update s.zones zoneId none } := by
  have hold : ∀ other zone, Function.update s.zones zoneId none other = some zone → s.zones other = some zone := by
    intro other zone hzone
    rw [Function.update_apply] at hzone
    split at hzone
    · cases hzone
    · exact hzone
  exact ⟨fun a b zone ha hb => h.distinct a b zone (hold a zone ha) (hold b zone hb),
    fun a zone ha => h.below a zone (hold a zone ha)⟩

/-- A turn of `unregisterPosition` changes the object of its id and its registration. -/
theorem removeFrom_spec (h : Addresses s) (position : Position) (zoneId : ZoneId) :
    Addresses (removeFrom position s zoneId) ∧
      (removeFrom position s zoneId).allocated = s.allocated ∧
      (removeFrom position s zoneId).positionZones = s.positionZones ∧
      (removeFrom position s zoneId).tiles = s.tiles ∧
      ∀ other, cell (removeFrom position s zoneId) other =
        if other = zoneId then dropFrom position (cell s other) else cell s other := by
  unfold removeFrom
  cases hzone : s.zones zoneId with
  | none =>
    refine ⟨h, rfl, rfl, rfl, fun other => ?_⟩
    dsimp only
    split
    · rename_i hsame
      rw [hsame, cell_eq_none.mpr hzone]
      rfl
    · rfl
  | some zone =>
    have hobject := cell_setObject h hzone ((s.objects zone).removePosition position)
    have hdrop := cell_of_zones hzone
    dsimp only
    split
    · rename_i hempty
      rw [Function.update_self] at hempty
      have hunregister := h.unregister zoneId
      refine ⟨⟨hunregister.distinct, hunregister.below⟩, rfl, rfl, rfl, fun other => ?_⟩
      refine (cell_unregister (s := { s with objects := Function.update s.objects zone _ }) zoneId other).trans ?_
      rw [hobject]
      split
      · rename_i hsame
        rw [hsame, hdrop]
        exact (if_pos hempty).symm
      · rfl
    · rename_i hsome
      rw [Function.update_self] at hsome
      refine ⟨⟨h.distinct, h.below⟩, rfl, rfl, rfl, fun other => ?_⟩
      rw [hobject]
      split
      · rename_i hsame
        rw [hsame, hdrop]
        exact (if_neg hsome).symm
      · rfl

/-- With a new object that is registered with the id. -/
def created (s : State) (id : ZoneId) : State :=
  { s with
    objects := Function.update s.objects s.allocated { id, positions := [] }
    allocated := s.allocated + 1
    zones := Function.update s.zones id (some s.allocated) }

theorem getOrCreateZone_none (hid : zoneId ≠ 0) (hnone : s.zones zoneId = none) :
    getOrCreateZone s zoneId = (created s zoneId, some s.allocated) := by
  rw [getOrCreateZone, if_neg hid, hnone]
  rfl

theorem getOrCreateZone_some {zone : Nat} (hid : zoneId ≠ 0) (hzone : s.zones zoneId = some zone) :
    getOrCreateZone s zoneId = (s, some zone) := by
  rw [getOrCreateZone, if_neg hid, hzone]

theorem created_addresses (h : Addresses s) (zoneId : ZoneId) : Addresses (created s zoneId) := by
  have hcases : ∀ other zone, (created s zoneId).zones other = some zone →
      other = zoneId ∧ zone = s.allocated ∨ s.zones other = some zone ∧ zone < s.allocated := by
    intro other zone hzone
    change Function.update s.zones zoneId (some s.allocated) other = some zone at hzone
    rw [Function.update_apply] at hzone
    split at hzone
    · rename_i hsame
      exact .inl ⟨hsame, (Option.some.inj hzone).symm⟩
    · exact .inr ⟨hzone, h.below _ _ hzone⟩
  constructor
  · intro a b zone ha hb
    obtain ⟨ha, hzone⟩ | ⟨ha, hzone⟩ := hcases a zone ha
    · obtain ⟨hb, _⟩ | ⟨_, hzone'⟩ := hcases b zone hb
      · rw [ha, hb]
      · omega
    · obtain ⟨_, hzone'⟩ | ⟨hb, _⟩ := hcases b zone hb
      · omega
      · exact h.distinct a b zone ha hb
  · intro a zone ha
    change zone < s.allocated + 1
    obtain ⟨_, hzone⟩ | ⟨_, hzone⟩ := hcases a zone ha <;> omega

theorem cell_created (h : Addresses s) (zoneId other : ZoneId) :
    cell (created s zoneId) other =
      if other = zoneId then some (s.allocated, { id := zoneId, positions := [] }) else cell s other := by
  unfold cell created
  split
  · rename_i hsame
    rw [hsame]
    simp
  · rename_i hother
    dsimp only
    rw [Function.update_of_ne hother]
    cases hcell : s.zones other with
    | none => rfl
    | some zone =>
      have hne : zone ≠ s.allocated := (h.below _ _ hcell).ne
      simp [Function.update_of_ne hne]

/-- A turn of `registerPositionZones` puts the position in the zone of its id and the pair in the index. -/
theorem addTo_spec (h : Addresses s) (position : Position) (hid : zoneId ≠ 0) :
    Addresses (addTo position s zoneId) ∧ s.allocated ≤ (addTo position s zoneId).allocated ∧
      (addTo position s zoneId).tiles = s.tiles ∧
      (addTo position s zoneId).positionZones =
        Function.update s.positionZones position (s.positionZones position ++ [zoneId]) ∧
      ∀ other, cell (addTo position s zoneId) other =
        if other = zoneId then putIn position s.allocated zoneId (cell s other) else cell s other := by
  have hsome : ∀ (t : State) (zone : Nat), Addresses t → t.zones zoneId = some zone → ∀ other,
      cell { t with
        objects := Function.update t.objects zone ((t.objects zone).addPosition position)
        positionZones := Function.update t.positionZones position (t.positionZones position ++ [zoneId]) } other =
        if other = zoneId then some (zone, (t.objects zone).addPosition position) else cell t other :=
    fun t zone ht hzone other => cell_setObject ht hzone ((t.objects zone).addPosition position) other
  unfold addTo
  cases hzone : s.zones zoneId with
  | none =>
    have hcreated := created_addresses h zoneId
    have hregistered : (created s zoneId).zones zoneId = some s.allocated := Function.update_self ..
    rw [getOrCreateZone_none hid hzone]
    refine ⟨⟨hcreated.distinct, hcreated.below⟩, Nat.le_succ _, rfl, rfl, fun other => ?_⟩
    refine (hsome _ _ hcreated hregistered other).trans ?_
    split
    · rename_i hsame
      rw [hsame, cell_eq_none.mpr hzone]
      simp [created, putIn, Zone.addPosition]
    · rename_i hother
      rw [cell_created h, if_neg hother]
  | some zone =>
    rw [getOrCreateZone_some hid hzone]
    refine ⟨⟨h.distinct, h.below⟩, le_rfl, rfl, rfl, fun other => ?_⟩
    refine (hsome _ _ h hzone other).trans ?_
    split
    · rename_i hsame
      rw [hsame, cell_of_zones hzone]
      rfl
    · rfl

end Turns

/-! ## What a call does to what is registered -/

section Calls

variable {s : State}

theorem removeLoop_spec (position : Position) (zoneIds : List ZoneId) : ∀ s, Addresses s →
    Addresses (zoneIds.foldl (removeFrom position) s) ∧
      (zoneIds.foldl (removeFrom position) s).allocated = s.allocated ∧
      (zoneIds.foldl (removeFrom position) s).positionZones = s.positionZones ∧
      (zoneIds.foldl (removeFrom position) s).tiles = s.tiles ∧
      ∀ other, cell (zoneIds.foldl (removeFrom position) s) other =
        if other ∈ zoneIds then dropFrom position (cell s other) else cell s other := by
  induction zoneIds with
  | nil => exact fun s h => ⟨h, rfl, rfl, rfl, fun other => (if_neg (List.not_mem_nil)).symm⟩
  | cons zoneId zoneIds ih =>
    intro s h
    obtain ⟨haddr, halloc, hindex, htiles, hcell⟩ := removeFrom_spec h position zoneId
    obtain ⟨haddr', halloc', hindex', htiles', hcell'⟩ := ih _ haddr
    refine ⟨haddr', halloc'.trans halloc, hindex'.trans hindex, htiles'.trans htiles, fun other => ?_⟩
    rw [List.foldl_cons, hcell', hcell]
    by_cases hsame : other = zoneId
    · by_cases hmem : other ∈ zoneIds
      · rw [if_pos hmem, if_pos hsame, dropFrom_dropFrom, if_pos (List.mem_cons_of_mem _ hmem)]
      · rw [if_neg hmem, if_pos hsame, if_pos (List.mem_cons.mpr (.inl hsame))]
    · simp [hsame]

/-- `unregisterPosition` takes the position out of the zones that the index has for it. -/
theorem unregisterPosition_spec (h : Addresses s) (position : Position) :
    Addresses (unregisterPosition s position) ∧
      (unregisterPosition s position).allocated = s.allocated ∧
      (unregisterPosition s position).positionZones = Function.update s.positionZones position [] ∧
      (unregisterPosition s position).tiles = s.tiles ∧
      ∀ other, cell (unregisterPosition s position) other =
        if other ∈ s.positionZones position then dropFrom position (cell s other) else cell s other := by
  unfold unregisterPosition
  dsimp only
  split
  · rename_i hnone
    have hindex : Function.update s.positionZones position [] = s.positionZones := by
      rw [← hnone, Function.update_eq_self]
    exact ⟨h, rfl, hindex.symm, rfl, fun other => by rw [hnone, if_neg List.not_mem_nil]⟩
  · exact removeLoop_spec position (s.positionZones position)
      { s with positionZones := Function.update s.positionZones position [] } ⟨h.distinct, h.below⟩

theorem addLoop_spec (position : Position) (zoneIds : List ZoneId) : ∀ s, Addresses s → zoneIds.Nodup → 0 ∉ zoneIds →
    Addresses (zoneIds.foldl (addTo position) s) ∧ s.allocated ≤ (zoneIds.foldl (addTo position) s).allocated ∧
      (zoneIds.foldl (addTo position) s).tiles = s.tiles ∧
      (zoneIds.foldl (addTo position) s).positionZones =
        Function.update s.positionZones position (s.positionZones position ++ zoneIds) ∧
      (∀ other ∉ zoneIds, cell (zoneIds.foldl (addTo position) s) other = cell s other) ∧
      ∀ other ∈ zoneIds, ∃ fresh, s.allocated ≤ fresh ∧
        cell (zoneIds.foldl (addTo position) s) other = putIn position fresh other (cell s other) := by
  induction zoneIds with
  | nil =>
    intro s h _ _
    refine ⟨h, le_rfl, rfl, ?_, fun _ _ => rfl, fun other hother => absurd hother List.not_mem_nil⟩
    rw [List.append_nil, Function.update_eq_self]
    rfl
  | cons zoneId zoneIds ih =>
    intro s h hnodup hzero
    rw [List.nodup_cons] at hnodup
    rw [List.mem_cons, not_or] at hzero
    obtain ⟨haddr, halloc, htiles, hindex, hcell⟩ := addTo_spec h position (Ne.symm hzero.1)
    obtain ⟨haddr', halloc', htiles', hindex', hkept, hput⟩ := ih _ haddr hnodup.2 hzero.2
    refine ⟨haddr', halloc.trans halloc', htiles'.trans htiles, ?_, ?_, ?_⟩
    · rw [List.foldl_cons, hindex', hindex, Function.update_self, Function.update_idem, List.append_assoc]
      rfl
    · intro other hother
      rw [List.mem_cons, not_or] at hother
      rw [List.foldl_cons, hkept other hother.2, hcell, if_neg hother.1]
    · intro other hother
      obtain rfl | hother := List.mem_cons.mp hother
      · refine ⟨s.allocated, le_rfl, ?_⟩
        rw [List.foldl_cons, hkept other hnodup.1, hcell, if_pos rfl]
      · have hne : other ≠ zoneId := fun hsame => hnodup.1 (hsame ▸ hother)
        obtain ⟨fresh, hfresh, hcell'⟩ := hput other hother
        refine ⟨fresh, halloc.trans hfresh, ?_⟩
        rw [List.foldl_cons, hcell', hcell, if_neg hne]

/-- What is left of what is registered with an id when the position is unregistered. -/
def unregistered (s : State) (position : Position) (zoneId : ZoneId) : Option (Nat × Zone) :=
  if zoneId ∈ s.positionZones position then dropFrom position (cell s zoneId) else cell s zoneId

/-- What is left has the object that there was. -/
theorem zone_of_unregistered {position : Position} {zoneId : ZoneId} {zone : Nat} {object : Zone}
    (h : unregistered s position zoneId = some (zone, object)) : ∃ old, cell s zoneId = some (zone, old) := by
  unfold unregistered at h
  split at h
  · cases hold : cell s zoneId with
    | none => simp [hold, dropFrom] at h
    | some registered =>
      simp only [hold, dropFrom] at h
      split at h
      · cases h
      · rw [← (Prod.mk.inj (Option.some.inj h)).1]
        exact ⟨registered.2, rfl⟩
  · exact ⟨object, h⟩

/-- What both calls do, where `zoneIds` are what the index has for the position afterwards. -/
structure Registers (position : Position) (zoneIds : List ZoneId) (s s' : State) : Prop where
  addresses : Addresses s'
  allocated : s.allocated ≤ s'.allocated
  index : s'.positionZones = Function.update s.positionZones position zoneIds
  kept : ∀ zoneId ∉ zoneIds, cell s' zoneId = unregistered s position zoneId
  put : ∀ zoneId ∈ zoneIds, ∃ fresh, s.allocated ≤ fresh ∧
    cell s' zoneId = putIn position fresh zoneId (unregistered s position zoneId)

theorem unregisterPosition_registers (h : Addresses s) (position : Position) :
    Registers position [] s (unregisterPosition s position) := by
  obtain ⟨haddr, halloc, hindex, _, hcell⟩ := unregisterPosition_spec h position
  exact ⟨haddr, halloc.ge, hindex, fun zoneId _ => hcell zoneId, fun _ hmem => absurd hmem List.not_mem_nil⟩

theorem nodup_normalizeZoneIds (zoneIds : List ZoneId) : (normalizeZoneIds zoneIds).Nodup := nodup_sortUnique _

theorem mem_normalizeZoneIds {zoneIds : List ZoneId} {zoneId : ZoneId} :
    zoneId ∈ normalizeZoneIds zoneIds ↔ zoneId ∈ zoneIds ∧ zoneId ≠ 0 := by
  rw [normalizeZoneIds, mem_sortUnique, List.mem_filter, decide_eq_true_eq]

theorem registerPositionZones_registers (h : Addresses s) (position : Position) (zoneIds : List ZoneId) :
    Registers position (normalizeZoneIds zoneIds) s (registerPositionZones s position zoneIds) := by
  obtain ⟨haddr, halloc, hindex, _, hcell⟩ := unregisterPosition_spec h position
  have hzero : 0 ∉ normalizeZoneIds zoneIds := fun hmem => (mem_normalizeZoneIds.mp hmem).2 rfl
  obtain ⟨haddr', halloc', _, hindex', hkept, hput⟩ :=
    addLoop_spec position (normalizeZoneIds zoneIds) _ haddr (nodup_normalizeZoneIds zoneIds) hzero
  refine ⟨haddr', halloc.symm.trans_le halloc', ?_, ?_, ?_⟩
  · exact hindex'.trans (by rw [hindex, Function.update_self, Function.update_idem, List.nil_append])
  · intro zoneId hmem
    exact (hkept zoneId hmem).trans (hcell zoneId)
  · intro zoneId hmem
    obtain ⟨fresh, hfresh, hput⟩ := hput zoneId hmem
    exact ⟨fresh, halloc.symm.trans_le hfresh, hput.trans (by rw [hcell]; rfl)⟩

/-! ## The registry and the index -/

theorem positionsOf_dropFrom (position : Position) (registered : Option (Nat × Zone)) :
    positionsOf (dropFrom position registered) = (positionsOf registered).filter (· ≠ position) := by
  cases registered with
  | none => rfl
  | some registered =>
    simp only [dropFrom]
    split
    · rename_i hempty
      exact hempty.symm
    · rfl

theorem positionsOf_putIn (position : Position) (fresh : Nat) (zoneId : ZoneId) (registered : Option (Nat × Zone)) :
    positionsOf (putIn position fresh zoneId registered) =
      if position ∈ positionsOf registered then positionsOf registered else positionsOf registered ++ [position] := by
  cases registered with
  | none => rfl
  | some registered =>
    change (registered.2.addPosition position).positions =
      if position ∈ registered.2.positions then registered.2.positions else registered.2.positions ++ [position]
    unfold Zone.addPosition
    split <;> rfl

theorem positionsOf_unregistered (h : Linked s) (position : Position) (zoneId : ZoneId) :
    positionsOf (unregistered s position zoneId) = (positionsOf (cell s zoneId)).filter (· ≠ position) := by
  unfold unregistered
  split
  · exact positionsOf_dropFrom position _
  · rename_i hnot
    rw [← h.pairs] at hnot
    refine (List.filter_eq_self.mpr ?_).symm
    intro other hother
    exact decide_eq_true (ne_of_mem_of_not_mem hother hnot)

namespace Registers

variable {s' : State} {position : Position} {zoneIds : List ZoneId}

theorem positions_put (h : Registers position zoneIds s s') (hlinked : Linked s) {zoneId : ZoneId}
    (hmem : zoneId ∈ zoneIds) :
    positionsOf (cell s' zoneId) = (positionsOf (cell s zoneId)).filter (· ≠ position) ++ [position] := by
  obtain ⟨fresh, _, hcell⟩ := h.put zoneId hmem
  rw [hcell, positionsOf_putIn, positionsOf_unregistered hlinked, if_neg (by simp)]

theorem positions_kept (h : Registers position zoneIds s s') (hlinked : Linked s) {zoneId : ZoneId}
    (hmem : zoneId ∉ zoneIds) :
    positionsOf (cell s' zoneId) = (positionsOf (cell s zoneId)).filter (· ≠ position) := by
  rw [h.kept zoneId hmem, positionsOf_unregistered hlinked]

theorem linked (h : Registers position zoneIds s s') (hlinked : Linked s) (hnodup : zoneIds.Nodup) : Linked s' := by
  have hindex : ∀ other, s'.positionZones other = if other = position then zoneIds else s.positionZones other := by
    intro other
    rw [h.index, Function.update_apply]
  refine ⟨?_, ?_, ?_⟩
  · intro zoneId other
    have hpairs := hlinked.pairs zoneId other
    rw [hindex]
    by_cases hmem : zoneId ∈ zoneIds
    · rw [h.positions_put hlinked hmem, List.mem_append, List.mem_filter, List.mem_singleton]
      by_cases hsame : other = position
      · simp [hsame, hmem]
      · simp [hsame, hpairs]
    · rw [h.positions_kept hlinked hmem, List.mem_filter]
      by_cases hsame : other = position
      · simp [hsame, hmem]
      · simp [hsame, hpairs]
  · intro zoneId
    have hfilter := (hlinked.onceInZone zoneId).filter (fun other => decide (other ≠ position))
    by_cases hmem : zoneId ∈ zoneIds
    · rw [h.positions_put hlinked hmem, List.nodup_append]
      refine ⟨hfilter, List.nodup_singleton _, ?_⟩
      intro a ha b hb hsame
      simp [hsame, List.mem_singleton.mp hb] at ha
    · rw [h.positions_kept hlinked hmem]
      exact hfilter
  · intro other
    rw [hindex]
    split
    · exact hnodup
    · exact hlinked.onceInIndex other

/-- No zone is empty afterwards, where every zone that was empty is one that gets the position. -/
theorem consistent (h : Registers position zoneIds s s') (hlinked : Linked s) (hnodup : zoneIds.Nodup)
    (hnonempty : ∀ zoneId ∉ zoneIds, ∀ registered, cell s zoneId = some registered → registered.2.positions ≠ []) :
    Consistent s' := by
  refine ⟨h.linked hlinked hnodup, ?_⟩
  intro zoneId zone hzone hempty
  have hcell := cell_of_zones hzone
  by_cases hmem : zoneId ∈ zoneIds
  · have hput := h.positions_put hlinked hmem
    rw [hcell] at hput
    simp [positionsOf, hempty] at hput
  · have hkept := h.kept zoneId hmem
    rw [hcell, unregistered] at hkept
    split at hkept
    · cases hold : cell s zoneId with
      | none => simp [hold, dropFrom] at hkept
      | some registered =>
        simp only [hold, dropFrom] at hkept
        split at hkept
        · cases hkept
        · rename_i hsome
          exact hsome ((Prod.mk.inj (Option.some.inj hkept)).2 ▸ hempty)
    · exact hnonempty zoneId hmem _ hkept.symm hempty

end Registers

/-! ## The zone that is created -/

theorem mem_addZoneId (tile : Tile) {zoneId : ZoneId} (hid : zoneId ≠ 0) :
    zoneId ∈ (tile.addZoneId zoneId).zoneIds := by
  unfold Tile.addZoneId
  rw [if_neg hid]
  split
  · simp
  · rename_i hthere
    have hhead := List.mem_of_mem_head? (Option.mem_def.mpr (not_not.mp hthere))
    exact (List.dropWhile_sublist _).subset hhead

/-- A turn of `createZone` registers the position with the id of the zone, among others. -/
theorem registerRequested_registers (h : Addresses s) {id : ZoneId} (hid : id ≠ 0) (position : Position) :
    ∃ zoneIds : List ZoneId, zoneIds.Nodup ∧ id ∈ zoneIds ∧
      Registers position zoneIds s (registerRequested id s position) := by
  unfold registerRequested
  dsimp only
  split
  · rename_i tile _
    have hregisters := registerPositionZones_registers
      (s := { s with tiles := Function.update s.tiles position (some (tile.addZoneId id)) }) ⟨h.distinct, h.below⟩
      position (tile.addZoneId id).zoneIds
    exact ⟨_, nodup_normalizeZoneIds _, mem_normalizeZoneIds.mpr ⟨mem_addZoneId tile hid, hid⟩, hregisters.addresses,
      hregisters.allocated, hregisters.index, hregisters.kept, hregisters.put⟩
  · exact ⟨_, nodup_normalizeZoneIds _, mem_normalizeZoneIds.mpr ⟨by simp, hid⟩,
      registerPositionZones_registers h position _⟩

/-- The object at the address is the registered one, and holds these positions. -/
def Holds (id : ZoneId) (zone : Nat) (done : List Position) (s : State) : Prop :=
  ∃ object, cell s id = some (zone, object) ∧ ∀ position, position ∈ object.positions ↔ position ∈ done

/-- The object at the address is not the registered one, and no new object gets its address. -/
def Lost (id : ZoneId) (zone : Nat) (s : State) : Prop := zone < s.allocated ∧ s.zones id ≠ some zone

namespace Registers

variable {s' : State} {position : Position} {zoneIds : List ZoneId} {id : ZoneId} {zone : Nat} {done : List Position}

/-- The zone keeps its object, where it has another position or none. -/
theorem holds (h : Registers position zoneIds s s') (hlinked : Linked s) (hid : id ∈ zoneIds)
    (hholds : Holds id zone done s) (hother : done = [] ∨ ∃ other ∈ done, other ≠ position) :
    Holds id zone (position :: done) s' := by
  obtain ⟨object, hcell, hdone⟩ := hholds
  obtain ⟨fresh, _, hput⟩ := h.put id hid
  have hstays : ∃ left, unregistered s position id = some (zone, left) := by
    unfold unregistered
    rw [hcell]
    split
    · rename_i hindex
      rw [← hlinked.pairs, hcell] at hindex
      have hposition : position ∈ done := (hdone position).mp hindex
      obtain ⟨other, hmem, hne⟩ := hother.resolve_left (List.ne_nil_of_mem hposition)
      have hleft : (object.removePosition position).positions ≠ [] := by
        refine List.ne_nil_of_mem (a := other) ?_
        exact List.mem_filter.mpr ⟨(hdone other).mpr hmem, decide_eq_true hne⟩
      exact ⟨_, if_neg hleft⟩
    · exact ⟨object, rfl⟩
  obtain ⟨left, hleft⟩ := hstays
  rw [hleft] at hput
  refine ⟨_, hput, fun other => ?_⟩
  have hpositions := h.positions_put hlinked hid
  rw [hput, hcell] at hpositions
  change (left.addPosition position).positions = object.positions.filter (· ≠ position) ++ [position] at hpositions
  rw [hpositions, List.mem_append, List.mem_filter, hdone, List.mem_singleton, List.mem_cons, decide_eq_true_eq]
  tauto

/-- The zone loses its object, where the position is its only one. -/
theorem lost_of_only (h : Registers position zoneIds s s') (haddr : Addresses s) (hlinked : Linked s)
    (hid : id ∈ zoneIds)
    (hholds : Holds id zone [position] s) : Lost id zone s' := by
  obtain ⟨object, hcell, hdone⟩ := hholds
  obtain ⟨fresh, hfresh, hput⟩ := h.put id hid
  have hbelow := haddr.below _ _ (zones_of_cell hcell).1
  have hindex : id ∈ s.positionZones position := by
    rw [← hlinked.pairs, hcell]
    exact (hdone position).mpr (List.mem_singleton_self _)
  have hempty : (object.removePosition position).positions = [] := by
    refine List.filter_eq_nil_iff.mpr fun other hother => ?_
    simpa using (hdone other).mp hother
  have hnone : unregistered s position id = none := by
    rw [unregistered, if_pos hindex, hcell]
    exact if_pos hempty
  rw [hnone] at hput
  refine ⟨hbelow.trans_le h.allocated, fun hsame => ?_⟩
  rw [(zones_of_cell hput).1] at hsame
  have hzone := Option.some.inj hsame
  omega

/-- An object that is lost stays so. -/
theorem lost (h : Registers position zoneIds s s') (hid : id ∈ zoneIds) (hlost : Lost id zone s) : Lost id zone s' := by
  obtain ⟨hbelow, hzone⟩ := hlost
  obtain ⟨fresh, hfresh, hput⟩ := h.put id hid
  refine ⟨hbelow.trans_le h.allocated, fun hsame => ?_⟩
  cases hleft : unregistered s position id with
  | none =>
    rw [hleft] at hput
    rw [(zones_of_cell hput).1] at hsame
    have hzone := Option.some.inj hsame
    omega
  | some registered =>
    obtain ⟨address, object⟩ := registered
    rw [hleft] at hput
    rw [(zones_of_cell hput).1] at hsame
    obtain ⟨old, hbefore⟩ := zone_of_unregistered hleft
    exact hzone ((zones_of_cell hbefore).1.trans hsame)

end Registers

/-- What every call keeps. -/
structure Kept (s : State) : Prop where
  addresses : Addresses s
  consistent : Consistent s

theorem Kept.nonempty_cell (h : Kept s) {zoneId : ZoneId} {registered : Nat × Zone}
    (hcell : cell s zoneId = some registered) : registered.2.positions ≠ [] := by
  obtain ⟨hzone, hobject⟩ := zones_of_cell hcell
  rw [← hobject]
  exact h.consistent.nonempty zoneId registered.1 hzone

theorem Registers.kept_of_nonempty {s' : State} {position : Position} {zoneIds : List ZoneId}
    (h : Registers position zoneIds s s') (hs : Kept s) (hnodup : zoneIds.Nodup) : Kept s' :=
  ⟨h.addresses, h.consistent hs.consistent.toLinked hnodup fun _ _ _ hcell => hs.nonempty_cell hcell⟩

section Created

variable {id : ZoneId} (hid : id ≠ 0)

include hid

theorem requested_kept (positions : List Position) : ∀ s, Kept s → Kept (positions.foldl (registerRequested id) s) := by
  induction positions with
  | nil => exact fun s h => h
  | cons position positions ih =>
    intro s h
    obtain ⟨zoneIds, hnodup, _, hregisters⟩ := registerRequested_registers h.addresses hid position
    exact ih _ (hregisters.kept_of_nonempty h hnodup)

theorem requested_lost {zone : Nat} (positions : List Position) : ∀ s, Addresses s → Lost id zone s →
    Lost id zone (positions.foldl (registerRequested id) s) := by
  induction positions with
  | nil => exact fun s _ h => h
  | cons position positions ih =>
    intro s haddr h
    obtain ⟨zoneIds, _, hmem, hregisters⟩ := registerRequested_registers haddr hid position
    exact ih _ hregisters.addresses (hregisters.lost hmem h)

/-- With two positions the zone keeps its object to the end. -/
theorem requested_holds {zone : Nat} (positions : List Position) : ∀ s done, Kept s → Holds id zone done s →
    (∃ position ∈ done, ∃ other ∈ done, position ≠ other) →
    ∃ held, Holds id zone held (positions.foldl (registerRequested id) s) ∧
      ∀ position ∈ positions ++ done, position ∈ held := by
  induction positions with
  | nil => exact fun s done _ h _ => ⟨done, h, fun _ hmem => hmem⟩
  | cons position positions ih =>
    intro s done hs h htwo
    obtain ⟨zoneIds, hnodup, hmem, hregisters⟩ := registerRequested_registers hs.addresses hid position
    have hother : ∃ other ∈ done, other ≠ position := by
      obtain ⟨a, ha, b, hb, hne⟩ := htwo
      by_cases hsame : a = position
      · exact ⟨b, hb, fun hsame' => hne (hsame.trans hsame'.symm)⟩
      · exact ⟨a, ha, hsame⟩
    have hholds := hregisters.holds hs.consistent.toLinked hmem h (.inr hother)
    obtain ⟨a, ha, b, hb, hne⟩ := htwo
    obtain ⟨held, hheld, hall⟩ := ih _ (position :: done) (hregisters.kept_of_nonempty hs hnodup) hholds
      ⟨a, List.mem_cons_of_mem _ ha, b, List.mem_cons_of_mem _ hb, hne⟩
    refine ⟨held, hheld, fun other hother => hall other ?_⟩
    simp only [List.mem_append, List.mem_cons] at hother ⊢
    tauto

variable (hnone : s.zones id = none)

include hnone

theorem createZone_eq {positions : List Position} (hsome : positions ≠ []) :
    createZone s id positions = (positions.foldl (registerRequested id) (created s id), some s.allocated) := by
  rw [createZone, if_neg hid, hnone]
  dsimp only
  rw [if_neg hsome, getOrCreateZone_none hid hnone]

theorem returnsRegistered_iff {positions : List Position} (hsome : positions ≠ []) :
    ReturnsRegistered s id positions ↔ ∃ held, Holds id s.allocated held (createZone s id positions).1 ∧
      ∀ position ∈ positions, position ∈ held := by
  unfold ReturnsRegistered
  rw [createZone_eq hid hnone hsome]
  constructor
  · intro ⟨zone, hzone, hregistered, hall⟩
    obtain rfl := Option.some.inj hzone
    exact ⟨_, ⟨_, cell_of_zones hregistered, fun _ => Iff.rfl⟩, hall⟩
  · intro ⟨held, ⟨object, hcell, hheld⟩, hall⟩
    obtain ⟨hregistered, hobject⟩ := zones_of_cell hcell
    refine ⟨s.allocated, rfl, hregistered, fun position hmem => ?_⟩
    rw [hobject]
    exact (hheld position).mpr (hall position hmem)

variable (hs : Kept s)

include hs

/-- The first position ends the time in which the new zone is empty. -/
theorem first_requested (position : Position) :
    Kept (registerRequested id (created s id) position) ∧
      Holds id s.allocated [position] (registerRequested id (created s id) position) := by
  have haddr := created_addresses hs.addresses id
  have hcell := cell_created hs.addresses id
  have hpositions : ∀ zoneId, positionsOf (cell (created s id) zoneId) = positionsOf (cell s zoneId) := by
    intro zoneId
    rw [hcell]
    split
    · rename_i hsame
      rw [hsame, cell_eq_none.mpr hnone]
      rfl
    · rfl
  have hlinked : Linked (created s id) := by
    refine ⟨fun zoneId other => ?_, fun zoneId => ?_, hs.consistent.onceInIndex⟩
    · rw [hpositions]
      exact hs.consistent.pairs zoneId other
    · rw [hpositions]
      exact hs.consistent.onceInZone zoneId
  obtain ⟨zoneIds, hnodup, hmem, hregisters⟩ := registerRequested_registers haddr hid position
  refine ⟨⟨hregisters.addresses, hregisters.consistent hlinked hnodup ?_⟩, ?_⟩
  · intro zoneId hnot registered hregistered
    have hne : zoneId ≠ id := by
      intro hsame
      exact hnot (hsame ▸ hmem)
    rw [hcell, if_neg hne] at hregistered
    exact hs.nonempty_cell hregistered
  · have hempty : Holds id s.allocated [] (created s id) :=
      ⟨{ id, positions := [] }, by rw [hcell, if_pos rfl], fun _ => Iff.rfl⟩
    exact hregisters.holds hlinked hmem hempty (.inl rfl)

theorem createZone_kept {positions : List Position} (hsome : positions ≠ []) : Kept (createZone s id positions).1 := by
  obtain ⟨position, rest, rfl⟩ := List.exists_cons_of_ne_nil hsome
  rw [createZone_eq hid hnone hsome]
  exact requested_kept hid rest _ (first_requested hid hnone hs position).1

/-- The zone that is returned is the registered one, unless the positions start with one of them twice. -/
theorem returnsRegistered_iff_startsOnce {positions : List Position} (hsome : positions ≠ []) :
    ReturnsRegistered s id positions ↔ ¬ ∃ position rest, positions = position :: position :: rest := by
  rw [returnsRegistered_iff hid hnone hsome, createZone_eq hid hnone hsome]
  obtain ⟨position, rest, rfl⟩ := List.exists_cons_of_ne_nil hsome
  obtain ⟨hfirst, hholds⟩ := first_requested hid hnone hs position
  cases rest with
  | nil => exact iff_of_true ⟨[position], hholds, fun _ hmem => hmem⟩ (by simp)
  | cons second rest =>
    obtain ⟨zoneIds, hnodup, hmem, hregisters⟩ := registerRequested_registers hfirst.addresses hid second
    by_cases hsame : second = position
    · subst hsame
      have hlost := hregisters.lost_of_only hfirst.addresses hfirst.consistent.toLinked hmem hholds
      have hend := requested_lost hid rest _ hregisters.addresses hlost
      refine iff_of_false ?_ (not_not.mpr ⟨second, rest, rfl⟩)
      intro ⟨held, ⟨object, hcell, _⟩, _⟩
      exact hend.2 (zones_of_cell hcell).1
    · have htwo := hregisters.holds hfirst.consistent.toLinked hmem hholds
        (.inr ⟨position, List.mem_singleton_self _, Ne.symm hsame⟩)
      obtain ⟨held, hheld, hall⟩ := requested_holds hid rest _ _ (hregisters.kept_of_nonempty hfirst hnodup) htwo
        ⟨second, by simp, position, by simp, hsame⟩
      refine iff_of_true ⟨held, hheld, fun other hother => hall other ?_⟩ ?_
      · simp only [List.mem_append, List.mem_cons] at hother ⊢
        tauto
      · intro ⟨twice, _, heq⟩
        obtain ⟨hposition, hrest⟩ := List.cons.inj heq
        exact hsame ((List.cons.inj hrest).1.trans hposition.symm)

end Created

/-- A call that creates nothing changes nothing. -/
theorem createZone_of_not_creates {id : ZoneId} {positions : List Position} (h : ¬ Creates s id positions) :
    (createZone s id positions).1 = s := by
  unfold createZone
  split
  · rfl
  · rename_i hid
    cases hzone : s.zones id with
    | some zone => rfl
    | none =>
      dsimp only
      split
      · rfl
      · rename_i hsome
        exact absurd ⟨hid, hzone, hsome⟩ h

theorem Kept.after (h : Kept s) (e : Event) : Kept (after s e) := by
  cases e with
  | createZone id positions =>
    by_cases hcreates : Creates s id positions
    · exact createZone_kept hcreates.1 hcreates.2.1 h hcreates.2.2
    · change Kept (createZone s id positions).1
      rw [createZone_of_not_creates hcreates]
      exact h
  | registerPositionZones position zoneIds =>
    exact (registerPositionZones_registers h.addresses position zoneIds).kept_of_nonempty h (nodup_normalizeZoneIds _)
  | unregisterPosition position =>
    exact (unregisterPosition_registers h.addresses position).kept_of_nonempty h List.nodup_nil
  | setTile position tile =>
    exact ⟨⟨h.addresses.distinct, h.addresses.below⟩,
      ⟨h.consistent.pairs, h.consistent.onceInZone, h.consistent.onceInIndex⟩, h.consistent.nonempty⟩

theorem Kept.good_iff (h : Kept s) (e : Event) : Good s e ↔ StartsOnce s e := by
  unfold Good StartsOnce
  rw [and_iff_right (h.after e).consistent]
  refine forall_congr' fun id => forall_congr' fun positions => forall_congr' fun _ => ?_
  refine forall_congr' fun hcreates => ?_
  exact returnsRegistered_iff_startsOnce hcreates.1 hcreates.2.1 h hcreates.2.2

theorem empty_kept (tiles : Position → Option Tile) : Kept (empty tiles) := by
  refine ⟨⟨?_, ?_⟩, ⟨?_, ?_, ?_⟩, ?_⟩
  · intro zoneId other zone hzone
    cases hzone
  · intro zoneId zone hzone
    cases hzone
  · intro zoneId position
    exact iff_of_false List.not_mem_nil List.not_mem_nil
  · exact fun _ => List.nodup_nil
  · exact fun _ => List.nodup_nil
  · intro zoneId zone hzone
    cases hzone

theorem run_kept (es : List Event) : ∀ s, Kept s → Kept (es.foldl Zones.after s) := by
  induction es with
  | nil => exact fun s h => h
  | cons e es ih => exact fun s h => ih _ (h.after e)

end Calls

/-- The registry and the index are consistent in every state that is reached, and in a run every zone that is created is
returned as the registered one with all its positions if and only if no list of positions that creates a zone starts
with one of them twice. -/
theorem zones_good_iff (tiles : Position → Option Tile) (es : List Event) :
    Consistent (es.foldl after (empty tiles)) ∧
      (Runs.Along after Good (empty tiles) es ↔ Runs.Along after StartsOnce (empty tiles) es) :=
  ⟨(run_kept es _ (empty_kept tiles)).consistent,
    Runs.Along.iff_of_invariant Kept (fun _ e h _ => h.after e) (fun _ e h => h.good_iff e) es _ (empty_kept tiles)⟩

def origin : Position := { x := 0, y := 0, z := 0 }

/-- A position that is requested twice: the zone that is returned is no longer registered. -/
theorem twice_not_good : ¬ Runs.Along after Good (empty fun _ => none) [.createZone 1 [origin, origin]] ∧
    (createZone (empty fun _ => none) 1 [origin, origin]).2 = some 0 ∧
    (createZone (empty fun _ => none) 1 [origin, origin]).1.zones 1 ≠ some 0 := by
  have hid : (1 : ZoneId) ≠ 0 := by decide
  have hreturned : (createZone (empty fun _ => none) 1 [origin, origin]).2 = some 0 := rfl
  have hlost : (createZone (empty fun _ => none) 1 [origin, origin]).1.zones 1 ≠ some 0 := by
    obtain ⟨hfirst, hholds⟩ := first_requested hid rfl (empty_kept fun _ => none) origin
    obtain ⟨_, _, hmem, hregisters⟩ := registerRequested_registers hfirst.addresses hid origin
    exact (hregisters.lost_of_only hfirst.addresses hfirst.consistent.toLinked hmem hholds).2
  refine ⟨fun h => ?_, hreturned, hlost⟩
  obtain ⟨zone, hzone, hzone', _⟩ := h.1.2 1 [origin, origin] rfl ⟨hid, rfl, List.cons_ne_nil _ _⟩
  rw [hreturned] at hzone
  obtain rfl := Option.some.inj hzone
  exact hlost hzone'

end ForgottenServer.Zones
