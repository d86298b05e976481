import ForgottenServer.Item.Thing
import ForgottenServer.Lib.Climb

/-! # Containers and what they hold

The objects of a forest of containers (`container.h`), under the numbers that stand for their
addresses. An object that is a container has a `Box`. A root stands at a `Place`, every other
object of the forest has a container for its parent.

The queries and the changes are those of `Container` and of its subclasses, for a call without
an actor. A query that throws gives `none`. -/

namespace ForgottenServer

abbrev Ref := Nat

/-- Where a root stands. `hasCapacity` is the answer of the player that carries it. -/
inductive Place where
  | nowhere
  | virtual
  | ground
  | creature (hasCapacity : Ref → Nat → Bool)

structure Box where
  cls : ContainerClass := .container
  maxSize : Nat
  pagination : Bool := false
  maxDepotItems : Nat := 2000

structure Heap where
  size : Nat
  thing : Ref → Thing
  box : Ref → Option Box := fun _ => none
  items : Ref → List Ref := fun _ => []
  parent : Ref → Option Ref := fun _ => none
  place : Ref → Option Place := fun _ => none

inductive ReturnValue where
  | noError | notPossible | notMoveable | needExchange | containerNotEnoughRoom | notEnoughCapacity
  | cannotPickup | thisIsImpossible | depotIsFull | itemCannotBeMovedThere
  | cannotMoveItemIsNotStoreItem | quiverAmmoOnly
  deriving DecidableEq, Repr

def FLAG_NOLIMIT : BitVec 32 := 1 <<< 0
def FLAG_CHILDISOWNER : BitVec 32 := 1 <<< 3
def FLAG_IGNORENOTMOVEABLE : BitVec 32 := 1 <<< 6
def FLAG_IGNOREAUTOSTACK : BitVec 32 := 1 <<< 7

def hasBitSet (flag flags : BitVec 32) : Bool := flags &&& flag != 0

def INDEX_WHEREEVER : Int := -1

namespace Heap

variable (env : GameEnv) (s : Heap)

/-! ## Objects -/

def type (r : Ref) : ItemType := env.items (s.thing r).id

def isStackable (r : Ref) : Bool := (s.type env r).stackable

def getStackSize (r : Ref) : Nat := if s.isStackable env r then (s.type env r).stackSize.toNat else 1

def getItemCount (r : Ref) : Nat := (s.thing r).getItemCount

/-- The attribute comes before the flag of the type. -/
def isStoreItem (r : Ref) : Bool :=
  if (s.thing r).hasAttribute (.int .storeItem) then (s.thing r).item.getIntAttr .storeItem == 1
  else (s.type env r).storeItem

def cls (c : Ref) : Option ContainerClass := (s.box c).map (·.cls)

def capacity (c : Ref) : Nat := ((s.box c).map (·.maxSize)).getD 0

/-- `getItemByIndex`; a negative index is a very large one. -/
def getItemByIndex (c : Ref) (index : Int) : Option Ref :=
  if index < 0 then none else (s.items c)[index.toNat]?

def isDepotBox (r : Ref) : Bool := ITEM_DEPOT_BOX_1 ≤ (s.thing r).id && (s.thing r).id ≤ ITEM_DEPOT_BOX_17

def isRewardCorpse (c : Ref) : Bool := (s.items c).any fun r => (s.thing r).id == ITEM_REWARD_CONTAINER

/-- Everything below a container, `getItemHoldingCount`. -/
def holdingCount : Nat → Ref → Nat
  | 0, _ => 0
  | fuel + 1, c => ((s.items c).map fun r => 1 + holdingCount fuel r).sum

def getItemHoldingCount (c : Ref) : Nat := s.holdingCount s.size c

/-! ## Parents -/

/-- The containers above an object, the nearest one first. -/
def parents (r : Ref) : List Ref := ((Climb.climb s.parent s.size r).getD []).tail

def root (r : Ref) : Ref := (s.parents r).getLastD r

def placeOf (r : Ref) : Place := (s.place (s.root r)).getD .nowhere

inductive Cylinder where
  | container (c : Ref)
  | creature (hasCapacity : Ref → Nat → Bool)

/-- `Item::getTopParent` stops below the last parent, which is a tile or the tile that a
creature stands on. A root that stands nowhere has no such parent, so that the climb stops
below the root. -/
def getTopParent (r : Ref) : Option Cylinder :=
  match s.placeOf r with
  | .creature hasCapacity => some (.creature hasCapacity)
  | .ground | .virtual => some (.container (s.root r))
  | .nowhere => match (s.parents r).dropLast.getLast? with
    | some c => some (.container c)
    | none => if (s.box r).isSome then some (.container r) else (s.parents r).head?.map .container

def isCarriedByCreature (c : Ref) : Bool := match s.placeOf c with
  | .creature _ => true
  | _ => false

def hasTile (c : Ref) : Bool := match s.placeOf c with
  | .ground | .creature _ => true
  | _ => false

def getDestinationInstanceId (c : Ref) (sourceInstanceId : UInt32) : UInt32 :=
  if s.isCarriedByCreature c || !s.hasTile c then 0 else sourceInstanceId

/-! ## Room -/

def hasCapacityLimit (c : Ref) : Bool :=
  (s.thing c).id != ITEM_GOLD_POUCH && match s.box c with
    | none => true
    | some b => !b.pagination && (b.cls == .container || b.cls == .depotBox)

def getFreeSlotsFor (c item : Ref) (count : Nat) : Nat :=
  let freeSlots := s.capacity c - (s.items c).length
  if s.parent item = some c ∧ (s.isStackable env item = false ∨ s.getItemCount item ≤ count) then freeSlots + 1
  else freeSlots

/-- The test of a stack against the item that may be added to it. -/
def canStackWith (stackItem item : Ref) : Option Bool :=
  if stackItem = item then some false else do
    let equal ← (s.thing stackItem).equals (s.thing item)
    pure (equal && decide (s.getItemCount stackItem < s.getStackSize env stackItem))

/-- The first object that meets a condition which may throw, and its place. -/
def firstM (p : Ref → Option Bool) : Nat → List Ref → Option (Option (Nat × Ref))
  | _, [] => some none
  | n, r :: rs => do
    if ← p r then pure (some (n, r)) else firstM p (n + 1) rs

def canMergeIntoExistingStack (c item : Ref) (index : Int) : Option Bool :=
  if s.isStackable env item = false then some false
  else if index = INDEX_WHEREEVER then do
    let found ← firstM (s.canStackWith env · item) 0 (s.items c)
    pure found.isSome
  else match s.getItemByIndex c index with
    | none => some false
    | some r => s.canStackWith env r item

def hasRoomForItem (c item : Ref) (index : Int) (count : Nat) : Option Bool :=
  if s.hasCapacityLimit c = false ∨ 0 < s.getFreeSlotsFor env c item count then some true
  else s.canMergeIntoExistingStack env c item index

/-! ## Queries -/

/-- `Container::queryAdd`. `ask` is the answer of the top parent. -/
def containerQueryAdd (ask : Cylinder → Option ReturnValue) (c : Ref) (index : Int) (item : Ref) (count : Nat)
    (flags : BitVec 32) : Option ReturnValue :=
  if (s.thing c).id = ITEM_BROWSEFIELD then some .notPossible
  else if hasBitSet FLAG_CHILDISOWNER flags then some .noError
  else if (s.type env item).isPickupable = false then some .cannotPickup
  else if item = c then some .thisIsImpossible
  else if s.isStoreItem env item ∧ s.cls c ≠ some .depotChest ∧ s.cls c ≠ some .storeInbox then
    some .itemCannotBeMovedThere
  else if (s.type env c).weaponType = .quiver ∧ (s.type env item).weaponType ≠ .ammo then some .quiverAmmoOnly
  else if s.isStoreItem env c ∧ ((s.parent c).bind s.cls) = some .storeInbox then
    if s.isStoreItem env item then some .itemCannotBeMovedThere else some .cannotMoveItemIsNotStoreItem
  else if item ∈ s.parents c then some .thisIsImpossible
  else do
    if !(← s.hasRoomForItem env c item index count) then pure .containerNotEnoughRoom
    else match s.getTopParent c with
      | some (.container top) => if top = c then pure .noError else ask (.container top)
      | some top => ask top
      | none => pure .noError

/-- `queryAdd` of the class of the container. -/
def classQueryAdd (ask : Cylinder → Option ReturnValue) (c : Ref) (index : Int) (item : Ref) (count : Nat)
    (flags : BitVec 32) : Option ReturnValue :=
  match s.box c with
  | some { cls := .depotChest, maxDepotItems, .. } =>
    let other := match s.getTopParent item with
      | some (.container top) => decide (top ≠ c)
      | _ => true
    let addCount :=
      if other then (if (s.box item).isSome then s.getItemHoldingCount item + 1 else 1)
      else if s.isStackable env item && s.getItemCount item != count then 1 else 0
    if !hasBitSet FLAG_NOLIMIT flags && decide (maxDepotItems < s.getItemHoldingCount c + addCount) then
      some .depotIsFull
    else s.containerQueryAdd env ask c index item count flags
  | some { cls := .inbox, .. } =>
    if !hasBitSet FLAG_NOLIMIT flags then some .containerNotEnoughRoom
    else if item = c then some .thisIsImpossible
    else if (s.type env item).isPickupable = false then some .cannotPickup
    else some .noError
  | some { cls := .rewardChest, .. } => some .noError
  | _ => s.containerQueryAdd env ask c index item count flags

/-- A top parent is asked with `FLAG_CHILDISOWNER`, which keeps it from asking any further. -/
def queryAdd (c : Ref) (index : Int) (item : Ref) (count : Nat) (flags : BitVec 32) : Option ReturnValue :=
  let ask : Cylinder → Option ReturnValue
    | .container top =>
      s.classQueryAdd env (fun _ => some .noError) top INDEX_WHEREEVER item count (flags ||| FLAG_CHILDISOWNER)
    | .creature hasCapacity =>
      if hasBitSet FLAG_NOLIMIT flags || hasCapacity item count then some .noError else some .notEnoughCapacity
  s.classQueryAdd env ask c index item count flags

/-- The room in a stack, if the container takes the item at the index of the stack. -/
def roomAt (c : Ref) (index : Int) (stackItem item : Ref) (count : Nat) (flags : BitVec 32) : Option Nat := do
  if (← s.queryAdd env c index item count flags) = .noError then
    pure (s.getStackSize env stackItem - s.getItemCount stackItem)
  else pure 0

/-- The room in a stack that the item can join. -/
def slotRoom (c : Ref) (index : Int) (stackItem item : Ref) (count : Nat) (flags : BitVec 32) : Option Nat := do
  if ← s.canStackWith env stackItem item then s.roomAt env c index stackItem item count flags else pure 0

/-- The room in all stacks of the container, for `INDEX_WHEREEVER`. -/
def stackRoom (c item : Ref) (count : Nat) (flags : BitVec 32) : Nat → List Ref → Option Nat
  | _, [] => some 0
  | slotIndex, r :: rs => do
    let room ← s.slotRoom env c slotIndex r item count flags
    let rest ← stackRoom c item count flags (slotIndex + 1) rs
    pure (room + rest)

/-- The room in the stack at the index. -/
def destRoom (c : Ref) (index : Int) (item : Ref) (count : Nat) (flags : BitVec 32) : Option Nat :=
  match s.getItemByIndex c index with
  | none => some 0
  | some destItem => do
    let equal ← (s.thing item).equals (s.thing destItem)
    if equal && decide (s.getItemCount destItem < s.getStackSize env destItem) then
      s.roomAt env c index destItem item count flags
    else pure 0

def stackSpace (c : Ref) (index : Int) (item : Ref) (count : Nat) (flags : BitVec 32) : Option Nat :=
  if index = INDEX_WHEREEVER then s.stackRoom env c item count flags 0 (s.items c)
  else s.destRoom env c index item count flags

/-- `queryMaxCount`: the answer and the count. -/
def queryMaxCount (c : Ref) (index : Int) (item : Ref) (count : Nat) (flags : BitVec 32) :
    Option (ReturnValue × Nat) :=
  if s.hasCapacityLimit c = false then some (.noError, max 1 count)
  else
    let freeSlots := s.getFreeSlotsFor env c item count
    if s.isStackable env item then do
      let n ← s.stackSpace env c index item count flags
      let maxQueryCount := (freeSlots * s.getStackSize env item + n) % 2 ^ 32
      pure (if maxQueryCount < count then .containerNotEnoughRoom else .noError, maxQueryCount)
    else some (if freeSlots = 0 then .containerNotEnoughRoom else .noError, freeSlots)

/-- `queryRemove`; a depot chest keeps its boxes. -/
def queryRemove (c item : Ref) (count : Nat) (flags : BitVec 32) : ReturnValue :=
  if s.cls c = some .depotChest ∧ s.isDepotBox item then .notPossible
  else if item ∉ s.items c then .notPossible
  else if count = 0 ∨ (s.isStackable env item ∧ s.getItemCount item < count) then .notPossible
  else if (s.type env item).moveable = false ∧ hasBitSet FLAG_IGNORENOTMOVEABLE flags = false then .notMoveable
  else .noError

/-! ## Destinations -/

/-- Where an item goes: the container, the index in it and the object found there. -/
structure Dest where
  toCylinder : Ref
  index : Int
  destItem : Option Ref := none

/-- The test of a stack in `queryDestination`. -/
def autoStacks (inst : UInt32) (stackItem item : Ref) : Option Bool :=
  if (s.thing stackItem).instanceId ≠ inst then some false else do
    let equal ← (s.thing stackItem).equalsIgnoringInstance (s.thing item)
    pure (equal && decide (s.getItemCount stackItem < s.getStackSize env stackItem))

/-- The test of the object found at the index. -/
def destStacks (d : Dest) (item : Ref) (inst : UInt32) : Option Bool :=
  match d.destItem with
  | some r => s.autoStacks env inst r item
  | none => some false

/-- The last part of `Container::queryDestination`: a stack that the item can join, first the
one at the index and then the first of the container. -/
def autoStack (d : Dest) (item : Ref) (flags : BitVec 32) (inst : UInt32) : Option Dest :=
  if hasBitSet FLAG_IGNOREAUTOSTACK flags ∨ s.isStackable env item = false ∨ s.parent item = some d.toCylinder then some d
  else do
    if ← s.destStacks env d item inst then pure d
    else match ← firstM (fun r => if r = item then some false else s.autoStacks env inst r item) 0 (s.items d.toCylinder) with
      | some (n, r) => pure { d with index := n, destItem := some r }
      | none => pure d

/-- `Container::queryDestination`. -/
def containerQueryDestination (d : Dest) (item : Ref) (flags : BitVec 32) (inst : UInt32) : Option Dest :=
  if d.index = 254 then some { toCylinder := (s.parent d.toCylinder).getD d.toCylinder, index := INDEX_WHEREEVER }
  else
    let d := if d.index = 255 ∨ (s.capacity d.toCylinder : Int) ≤ d.index then { toCylinder := d.toCylinder, index := INDEX_WHEREEVER } else d
    if d.index = INDEX_WHEREEVER then s.autoStack env d item flags inst
    else
      let d := { d with destItem := (s.getItemByIndex d.toCylinder d.index).or d.destItem }
      match d.destItem with
      | some r =>
        if (s.box r).isSome then some { toCylinder := r, index := INDEX_WHEREEVER } else s.autoStack env d item flags inst
      | none => s.autoStack env d item flags inst

/-- A depot chest sends an item to the first of its boxes that is not full. -/
def queryDestination : Nat → Dest → Ref → BitVec 32 → UInt32 → Option Dest
  | 0, d, item, flags, inst => s.containerQueryDestination env d item flags inst
  | fuel + 1, d, item, flags, inst =>
    if s.cls d.toCylinder = some .depotChest ∧ s.isDepotBox item = false ∧ d.index = INDEX_WHEREEVER then
      match (s.items d.toCylinder).find? fun r =>
          s.isDepotBox r && (s.box r).isSome && decide (s.getItemHoldingCount r < s.capacity r) with
      | some r => queryDestination fuel { toCylinder := r, index := INDEX_WHEREEVER } item flags inst
      | none => s.containerQueryDestination env d item flags inst
    else s.containerQueryDestination env d item flags inst

/-! ## Changes -/

def setThing (r : Ref) (t : Thing) : Heap := { s with thing := Function.update s.thing r t }

def setItemCount (r : Ref) (n : Nat) : Heap := s.setThing r ((s.thing r).setItemCount n)

def setInstanceID (r : Ref) (n : UInt32) : Heap := s.setThing r ((s.thing r).setInstanceID n)

/-- An object leaves a container. -/
def erase (c r : Ref) : Heap :=
  { s with items := Function.update s.items c ((s.items c).erase r), parent := Function.update s.parent r none }

/-- An object comes to the front of a container. -/
def push (c r : Ref) : Heap :=
  { s with items := Function.update s.items c (r :: s.items c), parent := Function.update s.parent r (some c) }

/-- A new object, without a parent. -/
def alloc (t : Thing) (b : Option Box) : Heap :=
  { s with size := s.size + 1, thing := Function.update s.thing s.size t, box := Function.update s.box s.size b }

/-- Nothing happens when the index is beyond the capacity. Otherwise `updateItemWeight` climbs
along the parents, after the parent of the new object is set, and may never end. -/
def addThing (c : Ref) (index : Int) (r : Ref) : Option Heap :=
  if (s.capacity c : Int) ≤ index then some s
  else
    let s := s.push c r
    if (Climb.climb s.parent s.size c).isSome then some s else none

def updateThing (c r : Ref) (itemId : UInt16) (count : Nat) : Heap :=
  if r ∉ s.items c then s
  else s.setThing r (((s.thing r).setID env itemId).setSubType env.items (BitVec.ofNat 16 count))

/-- A part of a stack is taken off its count, everything else leaves the container. -/
def removeThing (c r : Ref) (count : Nat) : Heap :=
  if r ∉ s.items c then s
  else if s.isStackable env r ∧ count ≠ s.getItemCount r then s.setItemCount r (s.getItemCount r - count)
  else s.erase c r

/-- The container that `CreateItem` makes. -/
def newBox (id : UInt16) (cls : ContainerClass) : Box where
  cls
  maxSize := if cls = .depotLocker then 4 else (env.items id).maxItems.toNat
  pagination := id == ITEM_GOLD_POUCH || id == ITEM_BROWSEFIELD

/-- `clone`, with clones of everything inside. A null pointer is `none`. -/
def clone : Nat → Heap → Ref → Option (Ref × Heap)
  | 0, _, _ => none
  | fuel + 1, s, r => do
    let (cls, t) ← (s.thing r).clone env
    let new := s.size
    let s' := s.alloc t (cls.map (newBox env t.id))
    if (s.box r).isNone then pure (new, s')
    else
      let addItem (s' : Heap) (child : Ref) : Heap := match clone fuel s' child with
        | none => s'
        | some (r', s') => { s' with items := Function.update s'.items new (s'.items new ++ [r'])
                                     parent := Function.update s'.parent r' (some new) }
      pure (new, (s.items r).foldl addItem s')

end Heap

end ForgottenServer
