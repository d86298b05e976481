import Mathlib
import ForgottenServer.World.Tree
import ForgottenServer.Lib.Runs

/-! # The tiles of the map

`Map`: the leaves by their addresses, each with its floors, its neighbours to the east and to the south, and the
creatures on it. A cell of a floor has a tile or the id of a cached one, from which the tile is made when somebody asks
for it. The tiles are values of any type. -/

namespace ForgottenServer.World

structure Position where
  x : UInt16
  y : UInt16
  z : UInt8
  deriving DecidableEq, Repr

/-- `std::pair<std::shared_ptr<Tile>, uint32_t>`: the tile, and the id of the cached tile or 0. -/
structure Cell (T : Type) where
  tile : Option T := none
  cacheId : UInt32 := 0
  deriving DecidableEq

structure Floor (T : Type) where
  tiles : Fin FLOOR_SIZE → Fin FLOOR_SIZE → Cell T := fun _ _ => {}

structure Leaf (T : Type) where
  leafS : Option LeafRef := none
  leafE : Option LeafRef := none
  array : Fin MAP_MAX_LAYERS → Option (Floor T) := fun _ => none
  creatureList : List Nat := []
  playerList : List Nat := []

structure Map (T : Type) where
  root : QuadTree LeafRef 13 := fun _ _ => none
  leaves : LeafRef → Leaf T := fun _ => {}
  nextLeaf : LeafRef := 0
  cachedLeaf : Option LeafRef := none
  cachedLeafBaseX : Nat := 0
  cachedLeafBaseY : Nat := 0

/-- What the map does with tiles: `merge tile newTile` adds the things of a new tile to one that is there, and `create`
makes a tile from the cached one with an id, if there is one. -/
structure Tiles (T : Type) where
  merge : T → T → T
  create : UInt32 → Position → Option T

/-- `x & FLOOR_MASK`. -/
def offset (x : UInt16) : Fin FLOOR_SIZE := ⟨x.toNat % FLOOR_SIZE, Nat.mod_lt _ (by decide)⟩

/-- `x & ~FLOOR_MASK`. -/
def base (x : Nat) : Nat := x - x % FLOOR_SIZE

namespace Map

variable {T : Type}

def getLeaf (map : Map T) (x y : Nat) : Option LeafRef := getLeafStatic 13 map.root x y

def modifyLeaf (map : Map T) (leaf : LeafRef) (f : Leaf T → Leaf T) : Map T :=
  { map with leaves := Function.update map.leaves leaf (f (map.leaves leaf)) }

/-! ## Leaves -/

/-- A coordinate before another one, as an unsigned number. -/
def before (x : Nat) : Nat := (x + 2 ^ 32 - FLOOR_SIZE) % 2 ^ 32

/-- `leaf->leafS = other`, when both are there. -/
def setLeafS (map : Map T) : Option LeafRef → Option LeafRef → Map T
  | some leaf, some other => map.modifyLeaf leaf fun l => { l with leafS := some other }
  | _, _ => map

/-- `leaf->leafE = other`, when both are there. -/
def setLeafE (map : Map T) : Option LeafRef → Option LeafRef → Map T
  | some leaf, some other => map.modifyLeaf leaf fun l => { l with leafE := some other }
  | _, _ => map

/-- The neighbours of a new leaf. -/
def linkLeaf (map : Map T) (leaf : LeafRef) (x y : Nat) : Map T :=
  let map := map.setLeafS (map.getLeaf x (before y)) (some leaf)
  let map := map.setLeafE (map.getLeaf (before x) y) (some leaf)
  let map := map.setLeafS (some leaf) (map.getLeaf x (y + FLOOR_SIZE))
  map.setLeafE (some leaf) (map.getLeaf (x + FLOOR_SIZE) y)

/-- The leaf of the last call. -/
def cached (map : Map T) (x y : Nat) : Option LeafRef :=
  if base x = map.cachedLeafBaseX ∧ base y = map.cachedLeafBaseY then map.cachedLeaf else none

def getOrCreateLeaf (map : Map T) (x y : Nat) : LeafRef × Map T :=
  match map.cached x y with
  | some leaf => (leaf, map)
  | none =>
    let created := createLeaf map.nextLeaf 13 map.root x y
    let map := if created.newLeaf then
        linkLeaf { map with root := created.node, nextLeaf := map.nextLeaf + 1 } created.leaf x y
      else { map with root := created.node }
    (created.leaf,
      { map with cachedLeaf := some created.leaf, cachedLeafBaseX := base x, cachedLeafBaseY := base y })

/-! ## Tiles -/

/-- `createFloor`, and a change of the floor. -/
def modifyFloor (map : Map T) (leaf : LeafRef) (z : Fin MAP_MAX_LAYERS) (f : Floor T → Floor T) : Map T :=
  map.modifyLeaf leaf fun l => { l with array := Function.update l.array z (some (f ((l.array z).getD {}))) }

end Map

variable {T : Type}

def Floor.setCell (floor : Floor T) (x y : Fin FLOOR_SIZE) (cell : Cell T) : Floor T :=
  ⟨fun x' y' => if x' = x ∧ y' = y then cell else floor.tiles x' y'⟩

/-- A tile that is set where there is one is merged into it. -/
def Cell.setTile (tiles : Tiles T) (newTile : T) (cell : Cell T) : Cell T :=
  match cell.tile with
  | some tile => { cell with tile := some (tiles.merge tile newTile) }
  | none => ⟨some newTile, 0⟩

/-- `Floor::getTile`: the tile, and the cell afterwards. -/
def Cell.getTile (tiles : Tiles T) (pos : Position) (cell : Cell T) : Option T × Cell T :=
  match cell.tile with
  | some tile => (some tile, cell)
  | none =>
    if cell.cacheId = 0 then (none, cell)
    else
      let tile := tiles.create cell.cacheId pos
      (tile, ⟨tile, 0⟩)

namespace Map

/-- The floor of a position, when the leaf and the floor are there. -/
def getFloor (map : Map T) (x y : Nat) (z : Fin MAP_MAX_LAYERS) : Option (LeafRef × Floor T) :=
  match map.getLeaf x y with
  | none => none
  | some leaf => ((map.leaves leaf).array z).map fun floor => (leaf, floor)

def setTile (tiles : Tiles T) (map : Map T) (pos : Position) (newTile : T) : Map T :=
  if hz : pos.z.toNat < MAP_MAX_LAYERS then
    let found := map.getOrCreateLeaf pos.x.toNat pos.y.toNat
    found.2.modifyFloor found.1 ⟨pos.z.toNat, hz⟩ fun floor =>
      floor.setCell (offset pos.x) (offset pos.y) ((floor.tiles (offset pos.x) (offset pos.y)).setTile tiles newTile)
  else map

/-- `setBasicTile`: the id of the tile, or 0 for none. -/
def setBasicTile (map : Map T) (pos : Position) (cacheId : UInt32) : Map T :=
  if hz : pos.z.toNat < MAP_MAX_LAYERS then
    let found := map.getOrCreateLeaf pos.x.toNat pos.y.toNat
    found.2.modifyFloor found.1 ⟨pos.z.toNat, hz⟩ fun floor =>
      floor.setCell (offset pos.x) (offset pos.y) { floor.tiles (offset pos.x) (offset pos.y) with cacheId }
  else map

def setBasicFloorBlock (map : Map T) (pos : Position) (ids : Fin FLOOR_SIZE → Fin FLOOR_SIZE → UInt32) : Map T :=
  if hz : pos.z.toNat < MAP_MAX_LAYERS then
    let found := map.getOrCreateLeaf pos.x.toNat pos.y.toNat
    found.2.modifyFloor found.1 ⟨pos.z.toNat, hz⟩ fun floor =>
      ⟨fun x y => { floor.tiles x y with cacheId := ids x y }⟩
  else map

/-- What becomes of the things and the creatures of the tile is left out. -/
def removeTile (map : Map T) (pos : Position) : Map T :=
  if hz : pos.z.toNat < MAP_MAX_LAYERS then
    match map.getFloor pos.x.toNat pos.y.toNat ⟨pos.z.toNat, hz⟩ with
    | none => map
    | some (leaf, _) => map.modifyFloor leaf ⟨pos.z.toNat, hz⟩ fun floor =>
        floor.setCell (offset pos.x) (offset pos.y) {}
  else map

def getTile (tiles : Tiles T) (map : Map T) (pos : Position) : Option T × Map T :=
  if hz : pos.z.toNat < MAP_MAX_LAYERS then
    match map.getFloor pos.x.toNat pos.y.toNat ⟨pos.z.toNat, hz⟩ with
    | none => (none, map)
    | some (leaf, floor) =>
      let found := (floor.tiles (offset pos.x) (offset pos.y)).getTile tiles pos
      (found.1, map.modifyFloor leaf ⟨pos.z.toNat, hz⟩ fun floor =>
        floor.setCell (offset pos.x) (offset pos.y) found.2)
  else (none, map)

end Map

/-! ## Calls -/

inductive Op (T : Type) where
  | setTile (pos : Position) (newTile : T)
  | removeTile (pos : Position)
  | setBasicTile (pos : Position) (cacheId : UInt32)
  | setBasicFloorBlock (pos : Position) (ids : Fin FLOOR_SIZE → Fin FLOOR_SIZE → UInt32)
  | getTile (pos : Position)

def Map.step (tiles : Tiles T) (map : Map T) : Op T → Map T
  | .setTile pos newTile => map.setTile tiles pos newTile
  | .removeTile pos => map.removeTile pos
  | .setBasicTile pos cacheId => map.setBasicTile pos cacheId
  | .setBasicFloorBlock pos ids => map.setBasicFloorBlock pos ids
  | .getTile pos => (map.getTile tiles pos).2

end ForgottenServer.World
