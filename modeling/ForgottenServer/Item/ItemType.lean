import Mathlib

/-! # Item types

The rows of the item table (`items.h`) that the modelled code reads. The table is
data loaded at start, so every definition that needs it takes it as an argument. -/

namespace ForgottenServer

inductive ItemGroup where
  | none | ground | container | weapon | ammunition | armor | charges | teleport | magicField
  | writeable | key | splash | fluid | door | deprecated
  deriving DecidableEq, Repr

inductive ItemTypeKind where
  | none | depot | mailbox | trashHolder | container | door | magicField | teleport | bed | key
  | rune | podium | rewardChest | carpet
  deriving DecidableEq, Repr

inductive WeaponType where
  | none | sword | club | axe | shield | distance | wand | ammo | quiver | fist
  deriving DecidableEq, Repr

inductive AmmoType where
  | none | bolt | arrow | spear | throwingStar | throwingKnife | stone | snowball
  deriving DecidableEq, Repr

/-- `class ItemType`, with the defaults of its declaration. -/
structure ItemType where
  id : UInt16 := 0
  group : ItemGroup := .none
  type : ItemTypeKind := .none
  stackable : Bool := false
  stackSize : UInt8 := 100
  charges : UInt32 := 0
  classification : UInt32 := 0
  tier : UInt32 := 0
  attack : Int := 0
  defense : Int := 0
  extraDefense : Int := 0
  armor : Int := 0
  slotPosition : UInt16 := 0x30
  weaponType : WeaponType := .none
  ammoType : AmmoType := .none
  showDuration : Bool := false
  wearOut : Bool := false
  clockExpire : Bool := false
  expire : Bool := false
  expireStop : Bool := false
  stopTime : Bool := false
  showCharges : Bool := false
  moveable : Bool := false
  pickupable : Bool := false
  allowPickupable : Bool := false
  storeItem : Bool := false
  decayTo : Int := -1
  maxItems : UInt16 := 8
  imbuementSlot : BitVec 16 := 0
  deriving DecidableEq, Repr

namespace ItemType

def isSplash (it : ItemType) : Bool := it.group == .splash

def isFluidContainer (it : ItemType) : Bool := it.group == .fluid

def isContainer (it : ItemType) : Bool := it.group == .container

def isPickupable (it : ItemType) : Bool := it.allowPickupable || it.pickupable

end ItemType

/-- `Item::items`: every id has a row (an unknown id gets the first one). -/
abbrev Items := UInt16 → ItemType

end ForgottenServer
