import ForgottenServer.Item.Attributes
import ForgottenServer.Lib.StreamReader

/-! # The attributes of an item as bytes

`Item::serializeAttr` and `Item::readAttr` (`item.cpp`). The integer attributes that are
written when the item has them differ in tag and width only, and so do the strings. -/

open Reader LittleEndian

namespace ForgottenServer

/-- What the code reads from outside the item: the item table, the clock, the answer of
`Game::addUniqueItem` and the setting `IMBUEMENT_SYSTEM_ENABLED`. -/
structure ItemEnv where
  items : Items
  now : BitVec 64 := 0
  addUniqueItem : BitVec 16 → Bool := fun _ => true
  imbuementSystemEnabled : Bool := true

/-! ## Tags -/

def ATTR_ACTION_ID : UInt8 := 4
def ATTR_UNIQUE_ID : UInt8 := 5
def ATTR_TEXT : UInt8 := 6
def ATTR_DESC : UInt8 := 7
def ATTR_TELE_DEST : UInt8 := 8
def ATTR_DEPOT_ID : UInt8 := 10
def ATTR_RUNE_CHARGES : UInt8 := 12
def ATTR_HOUSEDOORID : UInt8 := 14
def ATTR_COUNT : UInt8 := 15
def ATTR_DURATION : UInt8 := 16
def ATTR_DECAYING_STATE : UInt8 := 17
def ATTR_WRITTENDATE : UInt8 := 18
def ATTR_WRITTENBY : UInt8 := 19
def ATTR_SLEEPERGUID : UInt8 := 20
def ATTR_SLEEPSTART : UInt8 := 21
def ATTR_CHARGES : UInt8 := 22
def ATTR_CONTAINER_ITEMS : UInt8 := 23
def ATTR_NAME : UInt8 := 24
def ATTR_ARTICLE : UInt8 := 25
def ATTR_PLURALNAME : UInt8 := 26
def ATTR_WEIGHT : UInt8 := 27
def ATTR_ATTACK : UInt8 := 28
def ATTR_DEFENSE : UInt8 := 29
def ATTR_EXTRADEFENSE : UInt8 := 30
def ATTR_ARMOR : UInt8 := 31
def ATTR_HITCHANCE : UInt8 := 32
def ATTR_SHOOTRANGE : UInt8 := 33
def ATTR_CUSTOM_ATTRIBUTES : UInt8 := 34
def ATTR_WRAPID : UInt8 := 36
def ATTR_STOREITEM : UInt8 := 37
def ATTR_ATTACK_SPEED : UInt8 := 38
def ATTR_CLASSIFICATION : UInt8 := 39
def ATTR_TIER : UInt8 := 40
def ATTR_REWARDID : UInt8 := 41
def ATTR_REFLECT : UInt8 := 42
def ATTR_BOOST : UInt8 := 43
def ATTR_IMBUESLOTS : UInt8 := 44
def ATTR_IMBUEMENTS : UInt8 := 45

/-! ## Strings -/

/-- `writeString`: a string that is too long is written as an empty one. -/
def writeString (s : List UInt8) : List UInt8 :=
  if s.length > 65535 then writeBits (0 : BitVec 16) else writeBits (BitVec.ofNat 16 s.length) ++ s

def readString {σ : Type} : Reader σ (List UInt8) := do
  let strLen ← readBits 16
  take strLen.toNat

structure StrField where
  tag : UInt8
  attr : StrAttr

namespace StrField

def text : StrField := ⟨ATTR_TEXT, .text⟩
def writtenBy : StrField := ⟨ATTR_WRITTENBY, .writer⟩
def desc : StrField := ⟨ATTR_DESC, .description⟩
def name : StrField := ⟨ATTR_NAME, .name⟩
def article : StrField := ⟨ATTR_ARTICLE, .article⟩
def pluralName : StrField := ⟨ATTR_PLURALNAME, .pluralName⟩

/-- Text, writer and description are written when they are not empty. -/
def writeNonEmpty (f : StrField) (item : Item) : List UInt8 :=
  if item.getStrAttr f.attr ≠ [] then f.tag :: writeString (item.getStrAttr f.attr) else []

/-- The names are written when the item has the attribute. -/
def writeIfPresent (f : StrField) (item : Item) : List UInt8 :=
  if (item.strs f.attr).isSome then f.tag :: writeString (item.getStrAttr f.attr) else []

def read (f : StrField) : Reader Item Unit := do
  let s ← readString
  modify (·.setStrAttr f.attr s)

end StrField

/-! ## Integers -/

structure IntField where
  tag : UInt8
  attr : IntAttr
  bits : Nat
  signed : Bool
  deriving DecidableEq

namespace IntField

def weight : IntField := ⟨ATTR_WEIGHT, .weight, 32, false⟩
def attack : IntField := ⟨ATTR_ATTACK, .attack, 32, true⟩
def attackSpeed : IntField := ⟨ATTR_ATTACK_SPEED, .attackSpeed, 32, false⟩
def classification : IntField := ⟨ATTR_CLASSIFICATION, .classification, 32, false⟩
def tier : IntField := ⟨ATTR_TIER, .tier, 32, false⟩
def defense : IntField := ⟨ATTR_DEFENSE, .defense, 32, true⟩
def extraDefense : IntField := ⟨ATTR_EXTRADEFENSE, .extraDefense, 32, true⟩
def armor : IntField := ⟨ATTR_ARMOR, .armor, 32, true⟩
def hitChance : IntField := ⟨ATTR_HITCHANCE, .hitChance, 8, true⟩
def shootRange : IntField := ⟨ATTR_SHOOTRANGE, .shootRange, 8, false⟩
def wrapId : IntField := ⟨ATTR_WRAPID, .wrapId, 16, false⟩
def storeItem : IntField := ⟨ATTR_STOREITEM, .storeItem, 8, false⟩

def saved : List IntField :=
  [weight, attack, attackSpeed, classification, tier, defense, extraDefense, armor, hitChance, shootRange,
    wrapId, storeItem]

/-- The value as the type of the field holds it. -/
def narrow (f : IntField) (v : BitVec 64) : BitVec f.bits := v.setWidth f.bits

def widen (f : IntField) (v : BitVec f.bits) : BitVec 64 := if f.signed then v.signExtend 64 else v.setWidth 64

def write (f : IntField) (item : Item) : List UInt8 :=
  if (item.ints f.attr).isSome then f.tag :: writeBits (f.narrow (item.getIntAttr f.attr)) else []

def read (f : IntField) : Reader Item Unit := do
  let v ← readBits f.bits
  modify (·.setIntAttr f.attr (f.widen v))

end IntField

/-! ## Imbuements and custom attributes -/

namespace Imbuement

/-- The base id is packed above the type of the decay. -/
def serialize (i : Imbuement) : List UInt8 :=
  let packedDecay : BitVec 32 := i.baseId.setWidth 32 <<< 16 ||| i.decaytype.setWidth 32
  writeBits (i.imbuetype.setWidth 32) ++ writeBits i.value ++ writeBits i.duration ++ writeBits packedDecay

def unserialize {σ : Type} : Reader σ Imbuement := do
  let type ← readBits 32
  let value ← readBits 32
  let duration ← readBits 32
  let packedDecay ← readBits 32
  pure { imbuetype := type.setWidth 8, value, duration, decaytype := packedDecay.setWidth 8
         baseId := (packedDecay >>> 16).setWidth 16 }

end Imbuement

namespace CustomAttribute

def serialize : CustomAttribute → List UInt8
  | monostate => [0]
  | str s => 1 :: writeString s
  | int v => 2 :: writeBits v
  | double v => 3 :: writeBits v
  | bool b => [4, if b then 1 else 0]

def unserialize {σ : Type} : Reader σ CustomAttribute := do
  let pos ← readBits 8
  if pos = 0 then pure monostate
  else if pos = 1 then do
    let s ← readString
    pure (str s)
  else if pos = 2 then do
    let v ← readBits 64
    pure (int v)
  else if pos = 3 then do
    let v ← readBits 64
    pure (double v)
  else if pos = 4 then do
    let b ← readBits 8
    pure (bool (b != 0))
  else fail

end CustomAttribute

namespace Item

/-! ## Writing -/

section Writing

variable (env : ItemEnv) (item : Item)

def getImbuementSlots : BitVec 16 := if env.imbuementSystemEnabled then item.imbuementSlots else 0

def writeCount : List UInt8 :=
  let it := env.items item.id
  if it.stackable || it.isFluidContainer || it.isSplash then
    ATTR_COUNT :: writeBits ((item.getSubType env.items).setWidth 8)
  else []

def writeCharges : List UInt8 :=
  if item.getCharges ≠ 0 then ATTR_CHARGES :: writeBits item.getCharges else []

def writeActionId : List UInt8 :=
  if (env.items item.id).moveable ∧ item.getActionId ≠ 0 then ATTR_ACTION_ID :: writeBits item.getActionId
  else []

def writeDate : List UInt8 :=
  if item.getDate ≠ 0 then ATTR_WRITTENDATE :: writeBits (item.getDate.setWidth 32) else []

def writeDuration : List UInt8 :=
  if (item.ints .duration).isSome then ATTR_DURATION :: writeBits (item.getDuration env.now) else []

def writeDecaying : List UInt8 :=
  if item.getDecaying = ItemDecayState.decayingTrue.value ∨
      item.getDecaying = ItemDecayState.decayingPending.value then
    ATTR_DECAYING_STATE :: writeBits item.getDecaying
  else []

def writeImbuementSlots : List UInt8 :=
  if item.getImbuementSlots env ≠ 0 then ATTR_IMBUESLOTS :: writeBits (item.imbuementSlots.setWidth 32) else []

def writeImbuements : List UInt8 :=
  if item.imbuements ≠ [] then
    ATTR_IMBUEMENTS :: (writeBits (BitVec.ofNat 16 item.imbuements.length) ++
      item.imbuements.flatMap Imbuement.serialize)
  else []

/-- The map is written in the order of its entries. -/
def writeCustom : List UInt8 :=
  match item.custom with
  | none => []
  | some map =>
    ATTR_CUSTOM_ATTRIBUTES :: (writeBits (BitVec.ofNat 64 map.entries.length) ++
      map.entries.flatMap fun e => writeString e.1 ++ e.2.serialize)

/-- `ITEM_ATTRIBUTE_REWARDID` is left out: it is not an integer attribute, so that
`setIntAttr` never sets it. -/
def serializeAttr : List UInt8 :=
  item.writeCount env ++
  item.writeCharges ++
  item.writeActionId env ++
  StrField.text.writeNonEmpty item ++
  item.writeDate ++
  StrField.writtenBy.writeNonEmpty item ++
  StrField.desc.writeNonEmpty item ++
  item.writeDuration env ++
  item.writeDecaying ++
  StrField.name.writeIfPresent item ++
  StrField.article.writeIfPresent item ++
  StrField.pluralName.writeIfPresent item ++
  IntField.weight.write item ++
  IntField.attack.write item ++
  IntField.attackSpeed.write item ++
  IntField.classification.write item ++
  IntField.tier.write item ++
  IntField.defense.write item ++
  item.writeImbuementSlots env ++
  item.writeImbuements ++
  IntField.extraDefense.write item ++
  IntField.armor.write item ++
  IntField.hitChance.write item ++
  IntField.shootRange.write item ++
  IntField.wrapId.write item ++
  IntField.storeItem.write item ++
  item.writeCustom

end Writing

/-! ## Reading -/

section Reading

variable (env : ItemEnv)

def readCount : Reader Item Unit := do
  let count ← readBits 8
  modify (·.setSubType env.items (count.setWidth 16))

def readCharges : Reader Item Unit := do
  let charges ← readBits 16
  modify (·.setSubType env.items charges)

/-- Every state but `DECAYING_FALSE` is pending until the item is on the map. -/
def readDecaying : Reader Item Unit := do
  let state ← readBits 8
  if state ≠ ItemDecayState.decayingFalse.value then modify (·.setDecaying .decayingPending) else pure ()

def readImbuement : Reader Item Unit := do
  let imb ← Imbuement.unserialize
  modify (·.addImbuement imb)

def readReflect : Reader Item Unit := do
  let combatType ← readBits 16
  let percent ← readBits 16
  let chance ← readBits 16
  modify fun item => { item with reflect := Function.update item.reflect combatType (some ⟨percent, chance⟩) }

def readBoost : Reader Item Unit := do
  let combatType ← readBits 16
  let percent ← readBits 16
  modify fun item => { item with boostPercent := Function.update item.boostPercent combatType (some percent) }

def readCustom : Reader Item Unit := do
  let key ← readString
  let val ← CustomAttribute.unserialize
  modify (·.setCustomAttribute key val)

def skip (n : Nat) : Reader Item Unit := do
  let _ ← take n
  pure ()

/-- Turns whose number stands in front of them. -/
def counted (bits : Nat) (m : Reader Item Unit) : Reader Item Unit := do
  let size ← readBits bits
  times size.toNat m

def readAttr (attr : UInt8) : Reader Item Unit :=
  if attr = ATTR_COUNT ∨ attr = ATTR_RUNE_CHARGES then readCount env
  else if attr = ATTR_ACTION_ID then do
    let actionId ← readBits 16
    modify (·.setActionId actionId)
  else if attr = ATTR_UNIQUE_ID then do
    let uniqueId ← readBits 16
    modify (·.setUniqueId env.addUniqueItem uniqueId)
  else if attr = ATTR_TEXT then StrField.text.read
  else if attr = ATTR_WRITTENDATE then do
    let writtenDate ← readBits 32
    modify (·.setDate writtenDate)
  else if attr = ATTR_WRITTENBY then StrField.writtenBy.read
  else if attr = ATTR_DESC then StrField.desc.read
  else if attr = ATTR_CHARGES then readCharges env
  else if attr = ATTR_DURATION then do
    let duration ← readBits 32
    modify (·.setDuration duration)
  else if attr = ATTR_DECAYING_STATE then readDecaying
  else if attr = ATTR_NAME then StrField.name.read
  else if attr = ATTR_ARTICLE then StrField.article.read
  else if attr = ATTR_PLURALNAME then StrField.pluralName.read
  else if attr = ATTR_WEIGHT then IntField.weight.read
  else if attr = ATTR_ATTACK then IntField.attack.read
  else if attr = ATTR_ATTACK_SPEED then IntField.attackSpeed.read
  else if attr = ATTR_IMBUESLOTS then do
    let slots ← readBits 32
    modify fun item => { item with imbuementSlots := slots.setWidth 16 }
  else if attr = ATTR_DEFENSE then IntField.defense.read
  else if attr = ATTR_EXTRADEFENSE then IntField.extraDefense.read
  else if attr = ATTR_ARMOR then IntField.armor.read
  else if attr = ATTR_HITCHANCE then IntField.hitChance.read
  else if attr = ATTR_SHOOTRANGE then IntField.shootRange.read
  else if attr = ATTR_WRAPID then IntField.wrapId.read
  else if attr = ATTR_STOREITEM then IntField.storeItem.read
  else if attr = ATTR_REWARDID then skip 4
  else if attr = ATTR_CLASSIFICATION then IntField.classification.read
  else if attr = ATTR_TIER then IntField.tier.read
  else if attr = ATTR_IMBUEMENTS then counted 16 readImbuement
  else if attr = ATTR_REFLECT then counted 16 readReflect
  else if attr = ATTR_BOOST then counted 16 readBoost
  else if attr = ATTR_DEPOT_ID then skip 2
  else if attr = ATTR_HOUSEDOORID then skip 1
  else if attr = ATTR_SLEEPERGUID then skip 4
  else if attr = ATTR_SLEEPSTART then skip 4
  else if attr = ATTR_TELE_DEST then skip 5
  else if attr = ATTR_CUSTOM_ATTRIBUTES then counted 64 readCustom
  else fail

/-- A tag 0 ends the attributes. -/
def unserializeAttr : Reader Item Unit := tagged 0 (readAttr env)

end Reading

end Item

end ForgottenServer
