import Mathlib
import ForgottenServer.Lib.Runs

/-! # Tiles

A tile has a ground, a vector of items whose first `downItemCount` are the down items and whose others are the top items,
and creatures. -/

namespace ForgottenServer.Tiles

structure ItemType where
  isGroundTile : Bool := false
  alwaysOnTop : Bool := false
  alwaysOnTopOrder : Nat := 0
  isSplash : Bool := false
  isFluidContainer : Bool := false
  isMagicField : Bool := false
  replaceable : Bool := true
  stackable : Bool := false
  charges : Nat := 0

/-- An item or a creature. -/
structure Thing where
  isCreature : Bool := false
  id : Nat := 0
  itemCount : Nat := 1
  /-- The item was created as a `MagicField`. -/
  isMagicField : Bool := false
  parent : Option Nat := none

structure Tile where
  this : Nat
  things : Nat → Thing
  ground : Option Nat := none
  items : List Nat := []
  downItemCount : Nat := 0
  creatures : List Nat := []

namespace Thing

variable (types : Nat → ItemType)

def type (thing : Thing) : ItemType := types thing.id

def setSubType (n : Nat) (thing : Thing) : Thing :=
  if (thing.type types).isFluidContainer || (thing.type types).isSplash then thing
  else if (thing.type types).stackable then { thing with itemCount := n % 256 }
  else if (thing.type types).charges ≠ 0 then thing
  else { thing with itemCount := n % 256 }

end Thing

namespace Tile

variable (types : Nat → ItemType) (t : Tile)

def downs : List Nat := t.items.take t.downItemCount

def tops : List Nat := t.items.drop t.downItemCount

/-- Everything on the tile. -/
def listed : List Nat := t.ground.toList ++ (t.items ++ t.creatures)

def getThingCount : Nat := t.creatures.length + t.items.length + if t.ground.isSome then 1 else 0

def itemType (ref : Nat) : ItemType := (t.things ref).type types

def change (ref : Nat) (f : Thing → Thing) : Tile :=
  { t with things := Function.update t.things ref (f (t.things ref)) }

def setParent (ref : Nat) (parent : Option Nat) : Tile := t.change ref fun thing => { thing with parent }

/-- -1 is `none`. -/
def getThingIndex (ref : Nat) : Option Nat :=
  let n := if t.ground.isSome then 1 else 0
  if t.ground = some ref then some 0
  else if (t.things ref).isCreature then (t.creatures.idxOf? ref).map fun i => n + t.tops.length + i
  else if (t.itemType types ref).alwaysOnTop then (t.tops.idxOf? ref).map fun i => n + i
  else (t.downs.idxOf? ref).map fun i => n + t.tops.length + t.creatures.length + i

/-- The things behind the ground. -/
def getOther (index : Nat) : Option Nat :=
  if index < t.tops.length then t.items[t.downItemCount + index]?
  else
    let index := index - t.tops.length
    if index < t.creatures.length then t.creatures[index]?
    else
      let index := index - t.creatures.length
      if index < t.downItemCount then t.items[index]? else none

def getThing (index : Nat) : Option Nat :=
  match t.ground with
  | some ground => if index = 0 then some ground else t.getOther (index - 1)
  | none => t.getOther index

/-! ## `removeThing` -/

def removeThing (ref : Nat) (count : Nat) : Tile :=
  let thing := t.things ref
  if thing.isCreature then { t with creatures := t.creatures.erase ref }
  else
    match t.getThingIndex types ref with
    | none => t
    | some _ =>
      if t.ground = some ref then { t.setParent ref none with ground := none }
      else if (t.itemType types ref).alwaysOnTop then
        if ref ∈ t.tops then { t.setParent ref none with items := t.downs ++ t.tops.erase ref } else t
      else if ref ∈ t.downs then
        if (t.itemType types ref).stackable ∧ count ≠ thing.itemCount then
          let newCount := (max 0 (((thing.itemCount : Int) - count).bmod (2 ^ 32))).toNat % 256
          t.change ref fun thing => { thing with itemCount := newCount }
        else
          { t.setParent ref none with
            items := t.downs.erase ref ++ t.tops, downItemCount := (t.downItemCount + (2 ^ 16 - 1)) % 2 ^ 16 }
      else t

/-! ## `addThing` -/

/-- The old splash is removed if there is one. -/
def removeOldSplash : Tile :=
  match t.tops.find? fun ref => (t.itemType types ref).isSplash with
  | none => t
  | some oldSplash => (t.removeThing types oldSplash 1).setParent oldSplash none

/-- The old field is removed if there is one, or it cannot be replaced. -/
def removeOldField : Option Tile :=
  match t.downs.find? fun ref => (t.things ref).isMagicField with
  | none => some t
  | some oldField =>
    if (t.itemType types oldField).replaceable then some ((t.removeThing types oldField 1).setParent oldField none)
    else none

/-- A top item goes before the first that has not a lower order. -/
def insertTop (ref : Nat) : Tile :=
  let lower := fun other => (t.itemType types other).alwaysOnTopOrder < (t.itemType types ref).alwaysOnTopOrder
  { t with items := t.downs ++ (t.tops.takeWhile lower ++ ref :: t.tops.dropWhile lower) }

def insertDown (ref : Nat) : Tile :=
  { t with items := ref :: t.items, downItemCount := (t.downItemCount + 1) % 2 ^ 16 }

def addGround (ref : Nat) : Tile :=
  match t.ground with
  | none => { t with ground := some ref }
  | some oldGround => { t.setParent oldGround none with ground := some ref }

def addItem (ref : Nat) : Tile :=
  let type := t.itemType types ref
  if type.isGroundTile then t.addGround ref
  else if type.alwaysOnTop then (if type.isSplash then t.removeOldSplash types else t).insertTop types ref
  else
    match if type.isMagicField then t.removeOldField types else some t with
    | none => t.setParent ref none
    | some t => t.insertDown ref

def addThing (ref : Nat) : Tile :=
  if (t.things ref).isCreature then
    let t := t.setParent ref (some t.this)
    { t with creatures := ref :: t.creatures }
  else if t.items.length ≥ 0xFFFF then t
  else (t.setParent ref (some t.this)).addItem types ref

/-! ## `updateThing` and `replaceThing` -/

def updateThing (ref itemId count : Nat) : Tile :=
  match t.getThingIndex types ref with
  | none => t
  | some _ =>
    if (t.things ref).isCreature then t
    else t.change ref fun thing => Thing.setSubType types (count % 2 ^ 16) { thing with id := itemId }

def replaceGround (ref oldItem : Nat) : Tile :=
  { (t.setParent ref (some t.this)).setParent oldItem none with ground := some ref }

def replaceItem (ref oldItem : Nat) (items : List Nat) : Tile :=
  { (t.setParent ref (some t.this)).setParent oldItem none with items }

def replaceOther (pos ref : Nat) : Tile :=
  if h : pos < t.tops.length then t.replaceItem ref t.tops[pos] (t.downs ++ t.tops.set pos ref)
  else
    let pos := pos - t.tops.length
    if pos < t.creatures.length then t
    else
      let pos := pos - t.creatures.length
      if h : pos < t.downs.length then t.replaceItem ref t.downs[pos] (t.downs.set pos ref ++ t.tops) else t

def replaceThing (index ref : Nat) : Tile :=
  if (t.things ref).isCreature then t
  else
    match t.ground with
    | some oldGround => if index = 0 then t.replaceGround ref oldGround else t.replaceOther (index - 1) ref
    | none => t.replaceOther index ref

end Tile

/-! ## Runs -/

inductive Event where
  | addThing (ref : Nat)
  | updateThing (ref itemId count : Nat)
  | replaceThing (index ref : Nat)
  | removeThing (ref count : Nat)

variable (types : Nat → ItemType)

def step (t : Tile) : Event → Tile
  | .addThing ref => t.addThing types ref
  | .updateThing ref itemId count => t.updateThing types ref itemId count
  | .replaceThing index ref => t.replaceThing index ref
  | .removeThing ref count => t.removeThing types ref count

inductive Role where
  | ground
  | alwaysOnTop
  | plain
  | creature
deriving DecidableEq

def ItemType.role (type : ItemType) : Role :=
  if type.isGroundTile then .ground else if type.alwaysOnTop then .alwaysOnTop else .plain

def Thing.role (thing : Thing) : Role := if thing.isCreature then .creature else (thing.type types).role

/-- An item is a `MagicField` if its type is a magic field. -/
def Thing.Made (thing : Thing) : Prop := thing.isCreature = false → thing.isMagicField = (thing.type types).isMagicField

/-- The down items and the top items, each thing once and with the tile as its parent, and the indices. -/
structure Layout (t : Tile) : Prop where
  downItemCount : t.downItemCount = t.downs.length
  downs : ∀ ref ∈ t.downs, (t.itemType types ref).alwaysOnTop = false
  tops : ∀ ref ∈ t.tops, (t.itemType types ref).alwaysOnTop = true
  once : t.listed.Nodup
  parent : ∀ ref ∈ t.listed, (t.things ref).parent = some t.this
  index : ∀ ref ∈ t.listed, ∃ i, t.getThingIndex types ref = some i ∧ i < t.getThingCount ∧ t.getThing i = some ref
  thing : ∀ i < t.getThingCount, ∃ ref ∈ t.listed, t.getThingIndex types ref = some i

/-- At most one splash among the top items and at most one magic field among the down items. -/
structure OneOfEach (t : Tile) : Prop where
  splash : ∀ a ∈ t.tops, ∀ b ∈ t.tops, (t.itemType types a).isSplash = true → (t.itemType types b).isSplash = true → a = b
  field : ∀ a ∈ t.downs, ∀ b ∈ t.downs, (t.things a).isMagicField = true → (t.things b).isMagicField = true → a = b

/-- What is added is on the tile, unless the tile is full or has a field that cannot be replaced. -/
def Adds (t : Tile) : Event → Prop
  | .addThing ref => t.items.length < 0xFFFF →
      (∀ old ∈ t.downs, (t.things old).isMagicField = true → (t.itemType types old).replaceable = true) →
        ref ∈ (t.addThing types ref).listed
  | _ => True

/-- A thing is added that is not on the tile. A type changes to one of the same class, and a field stays a field; an item
is replaced by one of the same class. -/
def Allowed (t : Tile) : Event → Prop
  | .addThing ref => ref ∉ t.listed ∧ (t.things ref).Made types
  | .updateThing ref itemId _ => ref ∈ t.listed → (t.itemType types ref).role = (types itemId).role ∧
      (t.itemType types ref).isMagicField = (types itemId).isMagicField
  | .replaceThing index ref => ref ∉ t.listed ∧ (t.things ref).Made types ∧
      ∀ old, t.getThing index = some old → (t.things old).isCreature = false →
        (t.itemType types old).role = (t.itemType types ref).role
  | .removeThing _ _ => True

/-- No item is turned into a splash or a magic field that was none. -/
def TurnsNone (t : Tile) : Event → Prop
  | .updateThing ref itemId _ => ref ∈ t.listed → (types itemId).isSplash = true → (t.itemType types ref).isSplash = true
  | .replaceThing index ref => ∀ old, t.getThing index = some old → (t.things old).isCreature = false →
      ((t.itemType types ref).isSplash = true → (t.itemType types old).isSplash = true) ∧
        ((t.things ref).isMagicField = true → (t.things old).isMagicField = true)
  | _ => True

end ForgottenServer.Tiles
