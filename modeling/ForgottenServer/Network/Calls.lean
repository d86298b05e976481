import ForgottenServer.Network.Message

/-! # Composite writes

The write functions for complex types are sequences of the primitive writes
`addByte`, `add<T>`, `addString` and `addBytes`. A call is modelled by the list of
the primitive writes it makes, in order; running it runs them one after another,
each with its own test for room. -/

namespace ForgottenServer.Network

open ByteMemory LittleEndian

/-- One primitive write. -/
inductive Write where
  | addByte (value : UInt8)
  | add (size value : Nat)
  | addString (value : List UInt8)
  | addBytes (bytes : List UInt8)
  deriving DecidableEq, Repr

def Write.run (simd : Simdutf) (m : NetworkMessage) : Write → Option NetworkMessage
  | .addByte value => m.addByte value
  | .add size value => m.add size value
  | .addString value => m.addString simd value
  | .addBytes bytes => m.addBytes bytes

def runWrites (simd : Simdutf) (m : NetworkMessage) (ws : List Write) : Option NetworkMessage :=
  ws.foldlM (Write.run simd) m

/-! ## The composite functions -/

/-- The configuration keys `addItem` reads. -/
structure Config where
  itemTierDisplay : Bool
  itemUpgradeClassification : Bool

/-- The optional arguments of `addItem`, but for `sendQuickLootFlags`, which it ignores. -/
structure ItemFlags where
  sendTier : Bool := false
  alwaysSendTier : Bool := false
  sendQuiverCount : Bool := false
  sendAstraItemState : Bool := false
  sendAstraQuiverCountU16 : Bool := false
  deriving DecidableEq, Repr

/-- What `addItem` asks of an item: `ammoCount` is the ammunition in a quiver, if
the item is a container. -/
structure SentItem where
  id : UInt16
  ammoCount : Option Nat
  itemCount : Nat
  fluidType : Nat
  tier : UInt8
  duration : Int
  subType : Nat
  charges : Nat
  hasChargesAttribute : Bool
  deriving DecidableEq, Repr

def fluidMap : List UInt8 := [0, 1, 5, 3, 6, 8, 9, 2]

/-- `fluidMap[fluid & 7]`. -/
def clientFluid (fluid : Nat) : UInt8 := fluidMap.getD (fluid % 8) 0

def boolByte (b : Bool) : UInt8 := if b then 1 else 0

def addDouble (precision : UInt8) (scaled : UInt32) : List Write :=
  [.addByte precision, .add 4 scaled.toNat]

def addPosition (x y : UInt16) (z : UInt8) : List Write :=
  [.add 2 x.toNat, .add 2 y.toNat, .addByte z]

def addItemId (items : Items) (itemId : UInt16) : List Write := [.add 2 (items itemId).id.toNat]

def isAstraItemMetadataEquipable (it : ItemType) : Bool :=
  it.weaponType != .none || it.ammoType != .none || it.attack != 0 || it.defense != 0 ||
    it.extraDefense != 0 || it.armor != 0 || (it.slotPosition &&& 0x02) != 0 ||
    (it.slotPosition &&& 0x100) != 0 || (it.slotPosition &&& 0x200) != 0 ||
    (it.slotPosition &&& 0x80) != 0 || (it.slotPosition &&& 0x01) != 0 ||
    (it.slotPosition &&& 0x08) != 0 || (it.slotPosition &&& 0x40) != 0

def getAstraItemMetadataFlags (it : ItemType) : UInt8 :=
  (if it.weaponType == .ammo then 2 else 0) ||| (if isAstraItemMetadataEquipable it then 1 else 0)

def addAstraItemMetadata (it : ItemType) : List Write :=
  [.add 2 it.slotPosition.toNat, .addByte (getAstraItemMetadataFlags it)]

/-- Whether the tier byte is sent. -/
def sendsTier (config : Config) (flags : ItemFlags) (it : ItemType) : Bool :=
  flags.sendTier && config.itemTierDisplay &&
    (flags.alwaysSendTier || (config.itemUpgradeClassification && it.classification > 0))

/-- `addItem(id, count, ...)`. -/
def addItem (items : Items) (config : Config) (flags : ItemFlags) (id : UInt16) (count : UInt8) :
    List Write :=
  let it := items id
  addItemId items id ++
    (if flags.sendAstraQuiverCountU16 && it.weaponType == .quiver then [.add 2 count.toNat]
      else if it.stackable then [.addByte count]
      else if it.isSplash || it.isFluidContainer then [.addByte (clientFluid count.toNat)]
      else []) ++
    (if sendsTier config flags it then [.addByte it.tier.toUInt8] else []) ++
    (if flags.sendAstraItemState then [.addByte 0, .addByte 0] ++ addAstraItemMetadata it else [])

/-- The charges `addItem` shows for an item. -/
def SentItem.shownCharges (item : SentItem) (it : ItemType) : Nat :=
  if it.charges != 0 then item.subType
  else if it.showCharges || item.hasChargesAttribute then item.charges
  else 0

def SentItem.hasDuration (item : SentItem) (it : ItemType) : Bool :=
  (it.showDuration || it.wearOut || it.clockExpire || it.expire || it.expireStop) &&
    item.duration > 0

/-- `addItem(item, ...)`. -/
def addItemOf (items : Items) (config : Config) (flags : ItemFlags) (item : SentItem) : List Write :=
  let it := items item.id
  let ammoCount := item.ammoCount.getD 0
  let charges := item.shownCharges it
  addItemId items item.id ++
    (if (flags.sendQuiverCount || flags.sendAstraQuiverCountU16) && it.weaponType == .quiver then
        if flags.sendAstraQuiverCountU16 then [.add 2 (min 0xFFFF ammoCount)]
        else [.addByte (UInt8.ofNat (min 0xFF ammoCount))]
      else if it.stackable then [.addByte (UInt8.ofNat (min 0xFF item.itemCount))]
      else if it.isSplash || it.isFluidContainer then [.addByte (clientFluid item.fluidType)]
      else []) ++
    (if sendsTier config flags it then [.addByte item.tier] else []) ++
    (if flags.sendAstraItemState then
        [.addByte (boolByte (item.hasDuration it))] ++
        (if item.hasDuration it then
          [.add 4 ((max 0 item.duration).toNat / 1000), .addByte (boolByte it.stopTime)] else []) ++
        [.addByte (boolByte (charges > 0))] ++
        (if charges > 0 then
          [.add 4 charges, .addByte (boolByte (it.charges != 0 && charges == it.charges.toNat))]
          else []) ++
        addAstraItemMetadata it
      else [])

/-- The write calls on a message, with the item table and configuration they read. -/
inductive Call where
  | addByte (value : UInt8)
  | add (size value : Nat)
  | addString (value : List UInt8)
  | addBytes (bytes : List UInt8)
  | addDouble (precision : UInt8) (scaled : UInt32)
  | addPosition (x y : UInt16) (z : UInt8)
  | addItemId (itemId : UInt16)
  | addItem (flags : ItemFlags) (id : UInt16) (count : UInt8)
  | addItemOf (flags : ItemFlags) (item : SentItem)
  deriving DecidableEq, Repr

def Call.writes (items : Items) (config : Config) : Call → List Write
  | .addByte value => [.addByte value]
  | .add size value => [.add size value]
  | .addString value => [.addString value]
  | .addBytes bytes => [.addBytes bytes]
  | .addDouble precision scaled => Network.addDouble precision scaled
  | .addPosition x y z => Network.addPosition x y z
  | .addItemId itemId => Network.addItemId items itemId
  | .addItem flags id count => Network.addItem items config flags id count
  | .addItemOf flags item => Network.addItemOf items config flags item

end ForgottenServer.Network
