import ForgottenServer.Container.Heap

/-! # Moving an item between containers

`Game::internalMoveItem` (`game.cpp`) for two containers of a forest, called with its default
arguments: no actor, no trade item and no positions. Messages to clients, notifications and
the start of the decay are left out. -/

namespace ForgottenServer

namespace Heap

variable (env : GameEnv) (s : Heap)

/-- What a call leaves behind. `ret` is `none` when an exception leaves the call, `moved` is
how much was taken from the source. -/
structure Outcome where
  ret : Option ReturnValue
  state : Heap
  moved : Nat := 0

def MAP_MAX_LAYERS : Nat := 16

/-- The loop over `queryDestination`: the destination and the flags that are left. -/
def resolve (item : Ref) (sourceInstanceId : UInt32) : Nat → Dest → BitVec 32 → Option (Dest × BitVec 32)
  | hops, d, flags => do
    let inst := s.getDestinationInstanceId d.toCylinder sourceInstanceId
    let next ← s.queryDestination env s.size d item flags inst
    if next.toCylinder = d.toCylinder then pure (next, flags)
    else match hops with
      | 0 => pure (next, 0)
      | hops + 1 => resolve item sourceInstanceId hops next 0

/-- What joins the stack at the destination: the heap after it, and how much joined. -/
def mergeInto (d : Dest) (item : Ref) (m : Nat) (inst : UInt32) : Option (Heap × Nat) :=
  match d.destItem with
  | none => some (s, 0)
  | some toItem =>
    if (s.thing toItem).instanceId ≠ inst then some (s, 0) else do
      if ← (s.thing item).equalsIgnoringInstance (s.thing toItem) then
        let n := min ((s.getStackSize env toItem + 2 ^ 32 - s.getItemCount toItem) % 2 ^ 32) m
        pure (s.updateThing env d.toCylinder toItem (s.thing toItem).id (s.getItemCount toItem + n), n)
      else pure (s, 0)

/-- The item is taken out of its container. What does not join a stack at the destination is
added there, for a stackable item as a clone. -/
def transfer (fromCylinder : Ref) (d : Dest) (item : Ref) (m : Nat) (inst : UInt32) (ret : ReturnValue) :
    Option Outcome :=
  let s' := s.removeThing env fromCylinder item m
  if s.isStackable env item then
    match s'.mergeInto env d item m inst with
    | none => some { ret := none, state := s', moved := m }
    | some (s', n) =>
      if m - n = 0 then some { ret := some ret, state := s', moved := m }
      else do
        let (moveItem, s') ← clone env s'.size s' item
        let s' := (s'.setItemCount moveItem (m - n)).setInstanceID moveItem inst
        let s' ← s'.addThing d.toCylinder d.index moveItem
        pure { ret := some ret, state := s', moved := m }
  else do
    let s' ← (s'.setInstanceID item inst).addThing d.toCylinder d.index item
    pure { ret := some ret, state := s', moved := m }

/-- The call from `queryMaxCount` on. -/
def moveAdmitted (fromCylinder : Ref) (d : Dest) (item : Ref) (count : Nat) (flags : BitVec 32) (inst : UInt32) :
    Option Outcome :=
  match s.queryMaxCount env d.toCylinder d.index item count flags with
  | none => some { ret := none, state := s }
  | some (retMaxCount, maxQueryCount) =>
    if retMaxCount ≠ .noError ∧ maxQueryCount = 0 then some { ret := some retMaxCount, state := s }
    else
      let m := if s.isStackable env item then min count maxQueryCount else maxQueryCount
      let ret := s.queryRemove env fromCylinder item m flags
      if ret ≠ .noError then some { ret := some ret, state := s }
      else s.transfer env fromCylinder d item m inst
        (if s.isStackable env item ∧ maxQueryCount < count then retMaxCount else .noError)

/-- The item at the destination makes place and goes to the source, if that takes it. -/
def exchange (fromCylinder : Ref) (d : Dest) (item : Ref) (count : Nat) (flags : BitVec 32) (inst : UInt32) :
    Option Outcome :=
  match d.destItem with
  | none => none
  | some toItem =>
    let toCount := s.getItemCount toItem
    match s.queryAdd env fromCylinder ((s.items fromCylinder).idxOf item) toItem toCount 0,
        s.queryMaxCount env fromCylinder INDEX_WHEREEVER toItem toCount 0 with
    | none, _ => some { ret := none, state := s }
    | some .noError, none => some { ret := none, state := s }
    | some .noError, some (retExchangeMaxCount, maxExchangeQueryCount) =>
      if retExchangeMaxCount ≠ .noError ∧ maxExchangeQueryCount = 0 then
        some { ret := some retExchangeMaxCount, state := s }
      else if s.queryRemove env d.toCylinder toItem toCount flags = .noError then do
        let s' ← (s.removeThing env d.toCylinder toItem toCount).addThing fromCylinder 0 toItem
        match s'.queryAdd env d.toCylinder d.index item count flags with
        | none => pure { ret := none, state := s' }
        | some .noError => s'.moveAdmitted env fromCylinder { d with destItem := none } item count flags inst
        | some ret => pure { ret := some ret, state := s' }
      else s.moveAdmitted env fromCylinder d item count flags inst
    | some ret, _ => some { ret := some ret, state := s }

def isRewardContainer (c : Ref) : Bool := s.isRewardCorpse c || (s.thing c).id == ITEM_REWARD_CONTAINER

/-- The instance of the item: what a creature carries belongs to none. -/
def sourceInstanceId (item : Ref) : UInt32 :=
  if s.isCarriedByCreature item then 0 else (s.thing item).instanceId

/-- The call once the instance of the item is right. -/
def moveFrom (fromCylinder toCylinder : Ref) (index : Int) (item : Ref) (count : Nat) (flags : BitVec 32)
    (source : UInt32) : Option Outcome :=
  match s.resolve env item source (MAP_MAX_LAYERS - 1) { toCylinder, index } flags with
  | none => some { ret := none, state := s }
  | some (d, flags) =>
    let inst := s.getDestinationInstanceId d.toCylinder source
    if d.destItem = some item then some { ret := some .noError, state := s }
    else if s.isRewardContainer d.toCylinder then some { ret := some .notPossible, state := s }
    else if (s.box item).isSome ∧ s.isRewardContainer item then some { ret := some .noError, state := s }
    else match s.queryAdd env d.toCylinder d.index item count flags with
      | none => some { ret := none, state := s }
      | some .needExchange => s.exchange env fromCylinder d item count flags inst
      | some .noError => s.moveAdmitted env fromCylinder d item count flags inst
      | some ret => some { ret := some ret, state := s }

/-- The instance of the item is set to 0 when a creature carries it. -/
def normalise (item : Ref) : Heap :=
  if (s.thing item).instanceId ≠ s.sourceInstanceId item then s.setInstanceID item 0 else s

def internalMoveItem (fromCylinder toCylinder : Ref) (index : Int) (item : Ref) (count : Nat)
    (flags : BitVec 32) : Option Outcome :=
  (s.normalise item).moveFrom env fromCylinder toCylinder index item count flags (s.sourceInstanceId item)

end Heap

end ForgottenServer
