import Mathlib

/-! # The description of a tile

`GetTileDescription` lists the things of a tile that the player sees, at most ten of them. Later messages name a thing by
its number in that list, which `getClientIndexOfCreature` and `getStackposOfItem` count again. -/

namespace ForgottenServer.View

structure Item where
  instanceId : Nat := 0
  isLoadedFromMap : Bool := false
  isAlwaysOnTop : Bool := false
  deriving DecidableEq, Repr

structure Being where
  instanceId : Nat := 0
  isInGhostMode : Bool := false
  isInvisible : Bool := false
  isPlayer : Bool := false
  deriving DecidableEq, Repr

/-- Items and creatures by their addresses. -/
structure Things where
  item : Nat → Item
  creature : Nat → Being

/-- The creatures are in the order of their vector. -/
structure Stack where
  ground : Option Nat := none
  topItems : List Nat := []
  creatures : List Nat := []
  downItems : List Nat := []
  deriving DecidableEq, Repr

/-- The player of the client. -/
structure Viewer where
  player : Nat
  instanceId : Nat := 0
  canSeeGhostMode : Bool := false
  canSeeInvisibility : Bool := false

inductive Shown where
  | item (ref : Nat)
  | creature (ref : Nat)
  deriving DecidableEq, Repr

def canSeeItemInInstance (viewerInstanceId : Nat) (item : Item) : Bool :=
  if item.instanceId = viewerInstanceId then true else item.instanceId == 0 && item.isLoadedFromMap

namespace Viewer

variable (things : Things) (viewer : Viewer)

def canSeeItem (ref : Nat) : Bool := canSeeItemInInstance viewer.instanceId (things.item ref)

def canSeeCreature (ref : Nat) : Bool :=
  let creature := things.creature ref
  if ref = viewer.player then true
  else if viewer.instanceId ≠ creature.instanceId then false
  else if creature.isInGhostMode && !viewer.canSeeGhostMode then false
  else if !creature.isPlayer && !viewer.canSeeInvisibility && creature.isInvisible then false
  else true

/-! ## The loops

A loop gives what was listed so far, and whether the function has returned. -/

/-- The loop of `getClientIndexOfCreature` over the creatures; -1 is `none`. -/
def countCreatures (creature : Nat) : List Nat → Nat → Option Nat
  | [], _ => none
  | ref :: creatures, n =>
    if ref = creature then some n
    else countCreatures creature creatures (if viewer.canSeeCreature things ref then n + 1 else n)

/-- A loop of `getStackposOfItem` that looks for the item. -/
def countItems (item : Nat) : List Nat → Nat → Option Nat
  | [], _ => none
  | ref :: items, n =>
    if ref = item then some n else countItems item items (if viewer.canSeeItem things ref then n + 1 else n)

/-- The loops over the items that are only counted. -/
def groundAndTops (tile : Stack) : Nat :=
  (if tile.ground.isSome then 1 else 0) + tile.topItems.countP (viewer.canSeeItem things)

def getClientIndexOfCreature (tile : Stack) (creature : Nat) : Option Nat :=
  viewer.countCreatures things creature tile.creatures.reverse (viewer.groundAndTops things tile)

def getStackposOfItem (tile : Stack) (item : Nat) : Option Nat :=
  if tile.ground = some item then some 0
  else if (things.item item).isAlwaysOnTop then
    -- an item that is not among the top items ends the function without a number
    viewer.countItems things item tile.topItems (if tile.ground.isSome then 1 else 0)
  else
    viewer.countItems things item tile.downItems
      (viewer.groundAndTops things tile + tile.creatures.countP (viewer.canSeeCreature things))

/-! ## What is listed -/

variable {things : Things} {viewer : Viewer}

/-- The number that the messages about a thing have. -/
def stackpos (things : Things) (viewer : Viewer) (tile : Stack) : Shown → Option Nat
  | .item ref => viewer.getStackposOfItem things tile ref
  | .creature ref => viewer.getClientIndexOfCreature things tile ref

end Viewer

end ForgottenServer.View
