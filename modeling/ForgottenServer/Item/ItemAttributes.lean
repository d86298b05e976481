import ForgottenServer.Item.Attributes
import ForgottenServer.Lib.VectorMap

/-! # The attributes of an item in memory

`ItemAttributes` keeps a word with a bit for every attribute that is set, and an unsorted
vector of the attributes with their values. The custom attributes are one entry of the vector,
whose value is a map with keys in lower case. -/

namespace ForgottenServer

/-- `itemAttrTypes`. -/
abbrev AttrType := BitVec 64

def ITEM_ATTRIBUTE_ACTIONID : AttrType := 1 <<< 0
def ITEM_ATTRIBUTE_UNIQUEID : AttrType := 1 <<< 1
def ITEM_ATTRIBUTE_DESCRIPTION : AttrType := 1 <<< 2
def ITEM_ATTRIBUTE_TEXT : AttrType := 1 <<< 3
def ITEM_ATTRIBUTE_DATE : AttrType := 1 <<< 4
def ITEM_ATTRIBUTE_WRITER : AttrType := 1 <<< 5
def ITEM_ATTRIBUTE_NAME : AttrType := 1 <<< 6
def ITEM_ATTRIBUTE_ARTICLE : AttrType := 1 <<< 7
def ITEM_ATTRIBUTE_PLURALNAME : AttrType := 1 <<< 8
def ITEM_ATTRIBUTE_WEIGHT : AttrType := 1 <<< 9
def ITEM_ATTRIBUTE_ATTACK : AttrType := 1 <<< 10
def ITEM_ATTRIBUTE_DEFENSE : AttrType := 1 <<< 11
def ITEM_ATTRIBUTE_EXTRADEFENSE : AttrType := 1 <<< 12
def ITEM_ATTRIBUTE_ARMOR : AttrType := 1 <<< 13
def ITEM_ATTRIBUTE_HITCHANCE : AttrType := 1 <<< 14
def ITEM_ATTRIBUTE_SHOOTRANGE : AttrType := 1 <<< 15
def ITEM_ATTRIBUTE_OWNER : AttrType := 1 <<< 16
def ITEM_ATTRIBUTE_DURATION : AttrType := 1 <<< 17
def ITEM_ATTRIBUTE_DECAYSTATE : AttrType := 1 <<< 18
def ITEM_ATTRIBUTE_CORPSEOWNER : AttrType := 1 <<< 19
def ITEM_ATTRIBUTE_CHARGES : AttrType := 1 <<< 20
def ITEM_ATTRIBUTE_FLUIDTYPE : AttrType := 1 <<< 21
def ITEM_ATTRIBUTE_DOORID : AttrType := 1 <<< 22
def ITEM_ATTRIBUTE_DURATION_TIMESTAMP : AttrType := 1 <<< 23
def ITEM_ATTRIBUTE_WRAPID : AttrType := 1 <<< 24
def ITEM_ATTRIBUTE_STOREITEM : AttrType := 1 <<< 25
def ITEM_ATTRIBUTE_ATTACK_SPEED : AttrType := 1 <<< 26
def ITEM_ATTRIBUTE_CLASSIFICATION : AttrType := 1 <<< 27
def ITEM_ATTRIBUTE_TIER : AttrType := 1 <<< 28
def ITEM_ATTRIBUTE_REDUCESKILLLOSS : AttrType := 1 <<< 32
def ITEM_ATTRIBUTE_DROPBONUS : AttrType := 1 <<< 33
def ITEM_ATTRIBUTE_CUSTOM : AttrType := 1 <<< 34

def intAttributeTypes : BitVec 64 :=
  ITEM_ATTRIBUTE_ACTIONID ||| ITEM_ATTRIBUTE_UNIQUEID ||| ITEM_ATTRIBUTE_DATE ||| ITEM_ATTRIBUTE_WEIGHT |||
  ITEM_ATTRIBUTE_ATTACK ||| ITEM_ATTRIBUTE_DEFENSE ||| ITEM_ATTRIBUTE_EXTRADEFENSE ||| ITEM_ATTRIBUTE_ARMOR |||
  ITEM_ATTRIBUTE_HITCHANCE ||| ITEM_ATTRIBUTE_SHOOTRANGE ||| ITEM_ATTRIBUTE_OWNER ||| ITEM_ATTRIBUTE_DURATION |||
  ITEM_ATTRIBUTE_DECAYSTATE ||| ITEM_ATTRIBUTE_CORPSEOWNER ||| ITEM_ATTRIBUTE_CHARGES ||| ITEM_ATTRIBUTE_FLUIDTYPE |||
  ITEM_ATTRIBUTE_DOORID ||| ITEM_ATTRIBUTE_DURATION_TIMESTAMP ||| ITEM_ATTRIBUTE_WRAPID ||| ITEM_ATTRIBUTE_STOREITEM |||
  ITEM_ATTRIBUTE_ATTACK_SPEED ||| ITEM_ATTRIBUTE_CLASSIFICATION ||| ITEM_ATTRIBUTE_TIER |||
  ITEM_ATTRIBUTE_REDUCESKILLLOSS ||| ITEM_ATTRIBUTE_DROPBONUS

/-- A constant of 32 bits. -/
def stringAttributeTypes : BitVec 32 :=
  (ITEM_ATTRIBUTE_DESCRIPTION ||| ITEM_ATTRIBUTE_TEXT ||| ITEM_ATTRIBUTE_WRITER ||| ITEM_ATTRIBUTE_NAME |||
    ITEM_ATTRIBUTE_ARTICLE ||| ITEM_ATTRIBUTE_PLURALNAME).setWidth 32

def isIntAttrType (type : AttrType) : Bool := type &&& intAttributeTypes == type

def isStrAttrType (type : AttrType) : Bool := type &&& stringAttributeTypes.setWidth 64 == type

/-- `CustomAttributeMap`. -/
abbrev CustomAttributeMap := AList fun _ : List UInt8 => CustomAttribute

/-- `Attribute::Value`. -/
inductive AttrValue where
  | monostate
  | int (v : BitVec 64)
  | str (s : List UInt8)
  | custom (map : CustomAttributeMap)

structure Attribute where
  value : AttrValue := .monostate
  type : AttrType

structure ItemAttributes where
  attributes : List Attribute := []
  attributeBits : BitVec 64 := 0
  reflect : BitVec 16 → Option Reflect := fun _ => none
  boostPercent : BitVec 16 → Option (BitVec 16) := fun _ => none

def asLowerCaseString (source : List UInt8) : List UInt8 := source.map toLower

namespace ItemAttributes

variable (s : ItemAttributes)

def hasAttribute (type : AttrType) : Bool := type &&& s.attributeBits != 0

def getExistingAttr (type : AttrType) : Option Attribute :=
  if s.hasAttribute type then s.attributes.find? fun attr => attr.type = type else none

/-- The place of the attribute in the vector, where it is put if it is not there. -/
def getAttr (type : AttrType) : ℕ × ItemAttributes :=
  match if s.hasAttribute type then s.attributes.findIdx? fun attr => attr.type = type else none with
  | some i => (i, s)
  | none => (s.attributes.length,
      { s with attributeBits := s.attributeBits ||| type, attributes := s.attributes ++ [{ type }] })

/-- A change of the value that `getAttr` gives a reference to. -/
def assign (type : AttrType) (f : AttrValue → AttrValue) : ItemAttributes :=
  let (i, s) := s.getAttr type
  { s with attributes := s.attributes.modify i fun attr => { attr with value := f attr.value } }

/-! ## Strings and integers

A getter is `none` where `std::get` throws. -/

def getStrAttr (type : AttrType) : Option (List UInt8) :=
  if isStrAttrType type then
    match s.getExistingAttr type with
    | none => some []
    | some attr => match attr.value with
      | .str v => some v
      | _ => none
  else some []

def setStrAttr (type : AttrType) (value : List UInt8) : ItemAttributes :=
  if !isStrAttrType type then s
  else if value.isEmpty then s
  else s.assign type fun _ => .str value

/-- The last attribute takes the place of the one that goes. -/
def removeAttribute (type : AttrType) : ItemAttributes :=
  if s.hasAttribute type then
    { s with attributes := VectorMap.swapRemove Attribute.type s.attributes type
             attributeBits := s.attributeBits &&& ~~~type }
  else s

def getIntAttr (type : AttrType) : Option (BitVec 64) :=
  if isIntAttrType type then
    match s.getExistingAttr type with
    | none => some 0
    | some attr => match attr.value with
      | .int v => some v
      | _ => none
  else some 0

def setIntAttr (type : AttrType) (value : BitVec 64) : ItemAttributes :=
  if !isIntAttrType type then s
  else
    let value := if type = ITEM_ATTRIBUTE_ATTACK_SPEED ∧ value.slt 100 then 100 else value
    s.assign type fun _ => .int value

def increaseIntAttr (type : AttrType) (value : BitVec 64) : Option ItemAttributes :=
  (s.getIntAttr type).map fun v => s.setIntAttr type (v + value)

/-! ## Custom attributes -/

/-- The overload for a mutable object looks the attribute up with `getAttr`, which finds the same one. -/
def getCustomAttributeMap : Option CustomAttributeMap :=
  match s.getExistingAttr ITEM_ATTRIBUTE_CUSTOM with
  | none => none
  | some attr => match attr.value with
    | .custom map => some map
    | _ => none

def getCustomAttribute (key : List UInt8) : Option CustomAttribute :=
  s.getCustomAttributeMap.bind fun map => map.lookup (asLowerCaseString key)

/-- Without its last key the map goes too. -/
def removeCustomAttribute (key : List UInt8) : Bool × ItemAttributes :=
  match s.getCustomAttributeMap with
  | none => (false, s)
  | some map =>
    let lowercaseKey := asLowerCaseString key
    if lowercaseKey ∈ map then
      let kept := map.erase lowercaseKey
      let s := s.assign ITEM_ATTRIBUTE_CUSTOM fun _ => .custom kept
      (true, if kept.entries.isEmpty then s.removeAttribute ITEM_ATTRIBUTE_CUSTOM else s)
    else (false, s)

/-- `unordered_map::emplace`: an entry that is there stays. -/
def emplace (map : CustomAttributeMap) (key : List UInt8) (value : CustomAttribute) : CustomAttributeMap :=
  if key ∈ map then map else map.insert key value

/-- The old value of the key is removed first, with the map if it was the only one. -/
def setCustomAttribute (key : List UInt8) (value : CustomAttribute) : ItemAttributes :=
  let s := if s.hasAttribute ITEM_ATTRIBUTE_CUSTOM then (s.removeCustomAttribute key).2 else s
  s.assign ITEM_ATTRIBUTE_CUSTOM fun v =>
    match v with
    | .custom map => .custom (emplace map (asLowerCaseString key) value)
    | _ => .custom (emplace ∅ (asLowerCaseString key) value)

/-! ## Calls -/

/-- A call of one of the setters. -/
inductive Call where
  | setStrAttr (type : AttrType) (value : List UInt8)
  | setIntAttr (type : AttrType) (value : BitVec 64)
  | increaseIntAttr (type : AttrType) (value : BitVec 64)
  | removeAttribute (type : AttrType)
  | setCustomAttribute (key : List UInt8) (value : CustomAttribute)
  | removeCustomAttribute (key : List UInt8)

/-- `none` where a call throws. -/
def perform : Call → Option ItemAttributes
  | .setStrAttr type value => some (s.setStrAttr type value)
  | .setIntAttr type value => some (s.setIntAttr type value)
  | .increaseIntAttr type value => s.increaseIntAttr type value
  | .removeAttribute type => some (s.removeAttribute type)
  | .setCustomAttribute key value => some (s.setCustomAttribute key value)
  | .removeCustomAttribute key => some (s.removeCustomAttribute key).2

end ItemAttributes

end ForgottenServer
