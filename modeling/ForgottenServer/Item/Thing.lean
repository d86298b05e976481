import ForgottenServer.Item.Attributes

/-! # Items as objects

An item of the running game: its attributes with the order in which they were set, and the
instance of the map it belongs to. Two items that are equal can share a stack
(`Item::equalsIgnoringInstance`), and a part of a stack is a clone (`Item::clone`). -/

namespace ForgottenServer

/-- A bit of `attributeBits`. -/
inductive AttrKind where
  | int (a : IntAttr)
  | str (a : StrAttr)
  | custom
  deriving DecidableEq, Repr

/-- `attributes` is the vector of the attributes, or none for a null pointer; their values
are those of `item`. -/
structure Thing where
  item : Item
  attributes : Option (List AttrKind) := none
  instanceId : UInt32 := 0

/-- What the code reads from outside the items: the item table, the clock and the duration
that `setDefaultDuration` and `setID` draw for a type, in milliseconds. -/
structure GameEnv where
  items : Items
  now : BitVec 64 := 0
  newDuration : UInt16 → BitVec 32 := fun _ => 0

def ITEM_INBOX : UInt16 := 12902
def ITEM_DEPOT_BOX_1 : UInt16 := 22797
def ITEM_DEPOT_BOX_17 : UInt16 := 22813
def ITEM_BROWSEFIELD : UInt16 := 0xFFFF
def ITEM_REWARD_CONTAINER : UInt16 := 19202
def ITEM_GOLD_POUCH : UInt16 := 23721

/-- The classes that `Container` is or that derive from it. -/
inductive ContainerClass where
  | container | depotBox | depotLocker | depotChest | inbox | storeInbox | rewardChest
  deriving DecidableEq, Repr

namespace Thing

variable (t : Thing)

def id : UInt16 := t.item.id

def getItemCount : Nat := t.item.count.toNat

def kinds : List AttrKind := t.attributes.getD []

def hasAttribute (k : AttrKind) : Bool := t.kinds.contains k

/-! ## Attributes and their order -/

/-- `getAttr`: a new attribute goes to the end of the vector. -/
def record (k : AttrKind) : Thing :=
  { t with attributes := some (if t.hasAttribute k then t.kinds else t.kinds ++ [k]) }

def setIntAttr (a : IntAttr) (v : BitVec 64) : Thing :=
  { t.record (.int a) with item := t.item.setIntAttr a v }

/-- `removeAttribute`: the last attribute takes the place of the one that goes. -/
def removeAttribute (a : IntAttr) : Thing :=
  if t.hasAttribute (.int a) then
    let kept := match t.kinds.getLast? with
      | some last => (t.kinds.dropLast).map fun k => if k = .int a then last else k
      | none => []
    { t with attributes := some kept
             item := { t.item with ints := Function.update t.item.ints a none } }
  else t

def setItemCount (n : Nat) : Thing := { t with item := t.item.setItemCount (BitVec.ofNat 8 n) }

def setInstanceID (n : UInt32) : Thing := { t with instanceId := n }

def setDecaying (state : ItemDecayState) : Thing := t.setIntAttr .decayState (state.value.setWidth 64)

def setDuration (time : BitVec 32) : Thing := t.setIntAttr .duration ((Item.atLeastZero time).signExtend 64)

/-- `setSubType`, with the attribute it may set. -/
def setSubType (items : Items) (n : BitVec 16) : Thing :=
  let it := items t.id
  if it.isFluidContainer || it.isSplash then t.setIntAttr .fluidType (n.setWidth 64)
  else if it.stackable then t.setItemCount n.toNat
  else if it.charges != 0 then t.setIntAttr .charges (n.setWidth 64)
  else t.setItemCount n.toNat

/-- `setID`: the decay starts over. -/
def setID (env : GameEnv) (newid : UInt16) : Thing :=
  let prevIt := env.items t.id
  let it := env.items newid
  let newDuration := env.newDuration newid
  let t := { t with item := { t.item with id := newid } }
  let t := if newDuration = 0 ∧ it.stopTime = false ∧ it.decayTo < 0 then
      let t := if t.hasAttribute (.int .decayState) then t.setDecaying .decayingStopping else t
      t.removeAttribute .duration
    else t
  let t := t.removeAttribute .corpseOwner
  if newDuration ≠ 0 ∧ (prevIt.stopTime = false ∨ t.hasAttribute (.int .duration) = false) then
    (t.setDecaying .decayingPending).setDuration newDuration
  else t

/-! ## Equality -/

/-- The attributes are compared in the order of the first item. A map of custom attributes is
not an `int64_t`, so that `std::get` throws, which is `none` here. -/
def compareAttributes (t other : Thing) : List AttrKind → Option Bool
  | [] => some true
  | .str a :: ks => if t.item.strs a = other.item.strs a then compareAttributes t other ks else some false
  | .int a :: ks => if t.item.ints a = other.item.ints a then compareAttributes t other ks else some false
  | .custom :: _ => none

/-- Both items have the same attributes. -/
def sameBits (t other : Thing) : Bool :=
  t.kinds.all other.kinds.contains && other.kinds.all t.kinds.contains

def equalsIgnoringInstance (t other : Thing) : Option Bool :=
  if t.id ≠ other.id then some false
  else if !sameBits t other then some false
  else compareAttributes t other t.kinds

def equals (t other : Thing) : Option Bool :=
  if t.instanceId ≠ other.instanceId then some false else equalsIgnoringInstance t other

theorem id_eq_of_equalsIgnoringInstance {t other : Thing} (h : equalsIgnoringInstance t other = some true) :
    t.id = other.id := by
  by_contra hne
  rw [equalsIgnoringInstance, if_pos hne] at h
  cases h

/-! ## Clones -/

/-- `Item::CreateItem`: the class of the new object, if it is a container, and its item. Some
rings and boots are created as their unworn form. -/
def createItem (env : GameEnv) (type : UInt16) (count : BitVec 16) : Option (Option ContainerClass × Item) :=
  let it := env.items type
  let count := if it.stackable && count == 0 then 1 else count
  let new (type : UInt16) (count : BitVec 16) := Item.create env.items type count (env.newDuration type)
  if it.group = .deprecated ∨ it.id = 0 then none
  else if it.type = .depot then some (some .depotLocker, new type 0)
  else if it.type = .rewardChest then some (some .rewardChest, new type 0)
  else if ITEM_DEPOT_BOX_1 ≤ it.id ∧ it.id ≤ ITEM_DEPOT_BOX_17 then some (some .depotBox, new type 0)
  else if it.id = ITEM_INBOX then some (some .inbox, new type 0)
  else if it.isContainer then some (some .container, new type 0)
  else if it.type = .teleport ∨ it.type = .magicField ∨ it.type = .door ∨ it.type = .trashHolder ∨
      it.type = .mailbox ∨ it.type = .bed then some (none, new type 0)
  else if 3094 ≤ it.id ∧ it.id ≤ 3096 then some (none, new (type - 3) count)
  else if it.id = 3099 ∨ it.id = 3100 then some (none, new (type - 2) count)
  else if 3086 ≤ it.id ∧ it.id ≤ 3090 then some (none, new (type - 37) count)
  else if it.id = 3549 then some (none, new 6529 count)
  else if it.id = 6299 then some (none, new 6300 count)
  else some (none, new type count)

/-- The attributes that the constructor sets, in its order. -/
def newKinds (item : Item) : Option (List AttrKind) :=
  let kinds := [IntAttr.fluidType, .charges, .duration].filter fun a => (item.ints a).isSome
  if kinds = [] then none else some (kinds.map .int)

/-- `Item::clone`: the attributes are copied, and a decay that is under way starts over with
the time that is left. -/
def clone (env : GameEnv) : Option (Option ContainerClass × Thing) := do
  let remainingDuration := t.item.getDuration env.now
  let (cls, item) ← createItem env t.id (t.item.count.setWidth 16)
  match t.attributes with
  | none => pure (cls, { item, attributes := newKinds item })
  | some _ =>
    let new : Thing := { item := { item with ints := t.item.ints, strs := t.item.strs, custom := t.item.custom
                                             reflect := t.item.reflect, boostPercent := t.item.boostPercent }
                         attributes := t.attributes }
    let new := (new.removeAttribute .decayState).removeAttribute .durationTimestamp
    if (0 : BitVec 32).slt remainingDuration then
      pure (cls, (new.setDuration remainingDuration).setDecaying .decayingPending)
    else pure (cls, new.removeAttribute .duration)

end Thing

end ForgottenServer
