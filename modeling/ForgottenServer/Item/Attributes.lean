import Mathlib
import ForgottenServer.Item.ItemType

/-! # Items and their attributes

An item has an id, a count and a set of attributes (`item.h`). An attribute is an integer
of 64 bits, a string or the map of the custom attributes. A getter or setter with a
narrower type cuts or extends the value, as C++ converts it. -/

namespace ForgottenServer

/-- The members of `itemAttrTypes` for which `isIntAttrType` holds. -/
inductive IntAttr where
  | actionId | uniqueId | date | weight | attack | defense | extraDefense | armor | hitChance
  | shootRange | owner | duration | decayState | corpseOwner | charges | fluidType | doorId
  | durationTimestamp | wrapId | storeItem | attackSpeed | classification | tier | reduceSkillLoss
  | dropBonus
  deriving DecidableEq, Repr

/-- Those for which `isStrAttrType` holds. -/
inductive StrAttr where
  | description | text | writer | name | article | pluralName
  deriving DecidableEq, Repr

/-- `VariantAttribute`; a double is kept as its bits. -/
inductive CustomAttribute where
  | monostate
  | str (s : List UInt8)
  | int (v : BitVec 64)
  | double (v : BitVec 64)
  | bool (b : Bool)
  deriving DecidableEq

inductive ItemDecayState where
  | decayingFalse | decayingTrue | decayingPending | decayingStopping
  deriving DecidableEq, Repr

namespace ItemDecayState

def value : ItemDecayState → BitVec 8
  | decayingFalse => 0
  | decayingTrue => 1
  | decayingPending => 2
  | decayingStopping => 3

end ItemDecayState

structure Imbuement where
  imbuetype : BitVec 8 := 0
  value : BitVec 32 := 0
  duration : BitVec 32 := 0
  decaytype : BitVec 8 := 0
  baseId : BitVec 16 := 0
  deriving DecidableEq

structure Reflect where
  percent : BitVec 16 := 0
  chance : BitVec 16 := 0
  deriving DecidableEq

/-- `reflect` and `boostPercent` are maps over the combat types. -/
structure Item where
  id : UInt16
  count : BitVec 8 := 1
  ints : IntAttr → Option (BitVec 64) := fun _ => none
  strs : StrAttr → Option (List UInt8) := fun _ => none
  custom : Option (AList fun _ : List UInt8 => CustomAttribute) := none
  reflect : BitVec 16 → Option Reflect := fun _ => none
  boostPercent : BitVec 16 → Option (BitVec 16) := fun _ => none
  imbuementSlots : BitVec 16 := 0
  imbuements : List Imbuement := []

/-- `toLowerCaseString` on one byte. -/
def toLower (b : UInt8) : UInt8 := if 65 ≤ b ∧ b ≤ 90 then b + 32 else b

namespace Item

variable (item : Item)

/-! ## Getters and setters -/

def getIntAttr (type : IntAttr) : BitVec 64 := (item.ints type).getD 0

def getStrAttr (type : StrAttr) : List UInt8 := (item.strs type).getD []

/-- The attack speed is at least 100. -/
def setIntAttr (type : IntAttr) (value : BitVec 64) : Item :=
  let value := if type = .attackSpeed ∧ value.slt 100 then 100 else value
  { item with ints := Function.update item.ints type (some value) }

def setStrAttr (type : StrAttr) (value : List UInt8) : Item :=
  if value.isEmpty then item
  else { item with strs := Function.update item.strs type (some value) }

def getActionId : BitVec 16 := (item.getIntAttr .actionId).setWidth 16

def setActionId (n : BitVec 16) : Item :=
  item.setIntAttr .actionId ((if n < 100 then 100 else n).setWidth 64)

def getCharges : BitVec 16 := (item.getIntAttr .charges).setWidth 16

def setCharges (n : BitVec 16) : Item := item.setIntAttr .charges (n.setWidth 64)

def getFluidType : BitVec 16 := (item.getIntAttr .fluidType).setWidth 16

def setFluidType (n : BitVec 16) : Item := item.setIntAttr .fluidType (n.setWidth 64)

def getDate : BitVec 64 := item.getIntAttr .date

def setDate (n : BitVec 32) : Item := item.setIntAttr .date (n.signExtend 64)

def getDecaying : BitVec 8 := (item.getIntAttr .decayState).setWidth 8

def setDecaying (state : ItemDecayState) : Item := item.setIntAttr .decayState (state.value.setWidth 64)

/-- `std::max<int32_t>(0, time)`. -/
def atLeastZero (time : BitVec 32) : BitVec 32 := if time.slt 0 then 0 else time

/-- The time that is left, which runs while the item decays. -/
def getDuration (now : BitVec 64) : BitVec 32 :=
  if item.getDecaying = ItemDecayState.decayingTrue.value ∨
      item.getDecaying = ItemDecayState.decayingStopping.value then
    atLeastZero ((item.getIntAttr .durationTimestamp - now).setWidth 32)
  else (item.getIntAttr .duration).setWidth 32

def setDuration (time : BitVec 32) : Item := item.setIntAttr .duration ((atLeastZero time).signExtend 64)

/-- `addUniqueItem`: whether the game accepts the id. -/
def setUniqueId (addUniqueItem : BitVec 16 → Bool) (n : BitVec 16) : Item :=
  if (item.ints .uniqueId).isSome then item
  else if addUniqueItem n then item.setIntAttr .uniqueId (n.setWidth 64)
  else item

def setItemCount (n : BitVec 8) : Item := { item with count := n }

/-- The old value of the key makes place for the new one. -/
def setCustomAttribute (key : List UInt8) (value : CustomAttribute) : Item :=
  { item with custom := some ((item.custom.getD ∅).insert (key.map toLower) value) }

def getCustomAttribute (key : List UInt8) : Option CustomAttribute :=
  item.custom.bind fun map => map.lookup (key.map toLower)

/-- `addImbuement` for an imbuement that is loaded. -/
def addImbuement (imbuement : Imbuement) : Item :=
  if item.imbuementSlots.toNat > 0 ∧ item.imbuementSlots.toNat > item.imbuements.length then
    { item with imbuements := item.imbuements ++ [imbuement] }
  else item

/-! ## What depends on the kind of the item -/

variable (items : Items)

def getSubType : BitVec 16 :=
  let it := items item.id
  if it.isFluidContainer || it.isSplash then item.getFluidType
  else if it.stackable then item.count.setWidth 16
  else if it.charges != 0 then item.getCharges
  else item.count.setWidth 16

def setSubType (n : BitVec 16) : Item :=
  let it := items item.id
  if it.isFluidContainer || it.isSplash then item.setFluidType n
  else if it.stackable then item.setItemCount (n.setWidth 8)
  else if it.charges != 0 then item.setCharges n
  else item.setItemCount (n.setWidth 8)

end Item

namespace Item

/-- The first part of the constructor: the argument goes where the kind of the item keeps
its sub type. -/
def initSubType (it : ItemType) (count : BitVec 16) (item : Item) : Item :=
  if it.isFluidContainer || it.isSplash then item.setFluidType count
  else if it.stackable then
    if count != 0 then item.setItemCount (count.setWidth 8)
    else if it.charges != 0 then item.setItemCount (it.charges.toBitVec.setWidth 8)
    else item
  else if it.charges != 0 then
    if count != 0 then item.setCharges count else item.setCharges (it.charges.toBitVec.setWidth 16)
  else item

def initImbuementSlots (it : ItemType) (item : Item) : Item :=
  if it.imbuementSlot.toNat ≥ 65535 then item else { item with imbuementSlots := it.imbuementSlot }

def initDuration (duration : BitVec 32) (item : Item) : Item :=
  if duration != 0 then item.setDuration duration else item

/-- The constructor. `duration` is what `setDefaultDuration` draws. -/
def create (items : Items) (id : UInt16) (count : BitVec 16) (duration : BitVec 32) : Item :=
  let it := items id
  initDuration duration (initImbuementSlots it (initSubType it count { id }))

theorem initSubType_id (it : ItemType) (count : BitVec 16) (item : Item) :
    (initSubType it count item).id = item.id := by
  rw [initSubType]
  split_ifs <;> rfl

theorem create_id (items : Items) (id : UInt16) (count : BitVec 16) (duration : BitVec 32) :
    (create items id count duration).id = id := by
  simp only [create, initDuration, initImbuementSlots]
  split_ifs <;> exact initSubType_id _ _ _

end Item

end ForgottenServer
