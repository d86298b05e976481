import ForgottenServer.Login.Items
import Mathlib

/-! # Inventory and depots

The blocks `player_items` and `player_depotitems`. The `pid` of an item is its slot, the id of
the depot whose chest it is in, or a negative number for a box of a depot chest. -/

open BreadthFirst

namespace ForgottenServer

/-- `std::unordered_map` from a depot id to the list of the chest, in the order in which it is
walked through. -/
abbrev DepotChests := AList fun _ : Nat => List ItemTree

def Object.isDepotBox (o : Object) : Bool := ITEM_DEPOT_BOX_1 ≤ o.item.id && o.item.id ≤ ITEM_DEPOT_BOX_17

namespace IOLoginData

/-! ## Inventory -/

/-- `Player::checkDepotBoxes`: the boxes of a new chest. -/
def newDepotChest (env : ObjectEnv) : List ItemTree :=
  (List.range 17).filterMap fun i =>
    (Object.create env (ITEM_DEPOT_BOX_1 + UInt16.ofNat i) 0).map fun n => Rose.build n.1 n.2 []

def getDepotChest (env : ObjectEnv) (chests : DepotChests) (depotId : Nat) : List ItemTree :=
  (chests.lookup depotId).getD (newDepotChest env)

def specialPid (depotId boxIndex : Nat) : Int := -((depotId * 20 + boxIndex + 1 : Nat) : Int)

/-- An item of a chest with its `pid`, or the items of a box with theirs. -/
def chestItem (depotId : Nat) (item : ItemTree) : List (Int × ItemTree) :=
  if item.label.isDepotBox then match item with
    | .node box itemlist =>
      itemlist.map fun subItem => (specialPid depotId (box.item.id - ITEM_DEPOT_BOX_1).toNat, subItem)
    | .leaf _ => []
  else [((depotId : Int), item)]

def depotList (chests : DepotChests) : List (Int × ItemTree) :=
  chests.entries.flatMap fun e => e.2.flatMap (chestItem e.1)

def depotBlock (env : ObjectEnv) : Block DepotChests where
  skips o := o.isDepotBox
  root pid :=
    if 0 ≤ pid ∧ pid < 100 then
      some fun item chests => chests.insert pid.toNat (item :: getDepotChest env chests pid.toNat)
    else if pid < 0 then
      let townId := ((-pid - 1) / 20).toNat
      let boxIndex := ((-pid - 1) % 20).toNat
      if boxIndex < 17 then
        some fun item chests => chests.insert townId
          (addToFirst (ITEM_DEPOT_BOX_1 + UInt16.ofNat boxIndex) item (getDepotChest env chests townId))
      else some fun _ chests => chests
    else none

/-! ## What the slots show -/

variable {env : ObjectEnv}

/-- A chest with items in front of its boxes. -/
def depotChest (env : ObjectEnv) (items : List ItemTree) (boxes : Nat → List ItemTree) : List ItemTree :=
  items ++ (List.range 17).filterMap fun i =>
    (Object.create env (ITEM_DEPOT_BOX_1 + UInt16.ofNat i) 0).map fun n => Rose.build n.1 n.2 (boxes i)

variable {box : Nat → Object}

/-- The boxes and a bag are containers. -/
def depotEnv : ObjectEnv where
  items id := if ITEM_DEPOT_BOX_1 ≤ id ∧ id ≤ ITEM_DEPOT_BOX_17 ∨ id = 2853 then { id, group := .container } else { id }

def coin : Object := ⟨{ id := 3031 }, .none⟩

end IOLoginData

end ForgottenServer
