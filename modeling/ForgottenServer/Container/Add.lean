import ForgottenServer.Container.Heap

/-! # Adding a new item to a container

`Game::internalAddItem` (`game.cpp`) for a container of a forest and an item that is nowhere yet.
Notifications, and what becomes of an item after all of it joined a stack, are left out. -/

namespace ForgottenServer

namespace Heap

variable (env : GameEnv) (s : Heap)

/-- What a call leaves behind. `ret` is `none` when an exception leaves the call. -/
structure Added where
  ret : Option ReturnValue
  state : Heap
  remainderCount : Nat := 0

/-- The checks: where the item goes, and for how much of it the container has room. The room is
that of the container of the call, not that of the one the item goes to. -/
def addQuery (dest item : Ref) (index : Int) (flags : BitVec 32) : Option (ReturnValue × Dest × Nat) := do
  let inst := s.getDestinationInstanceId dest (s.thing item).instanceId
  let d ← s.queryDestination env s.size { toCylinder := dest, index } item flags inst
  let ret ← s.queryAdd env d.toCylinder d.index item (s.getItemCount item) flags
  if ret ≠ .noError then pure (ret, d, 0)
  else
    let (ret, maxQueryCount) ← s.queryMaxCount env dest INDEX_WHEREEVER item (s.getItemCount item) flags
    pure (ret, d, maxQueryCount)

/-- The object at the destination that a stackable item is equal to. -/
def stackAt (d : Dest) (item : Ref) : Option (Option Ref) :=
  if s.isStackable env item then
    match d.destItem with
    | none => some none
    | some toItem => do
      let equal ← (s.thing item).equals (s.thing toItem)
      pure (if equal then some toItem else none)
  else some none

/-- `getStackSize() - getItemCount()`, as a `uint32_t`. -/
def roomIn (toItem : Ref) : Nat := (s.getStackSize env toItem + 2 ^ 32 - s.getItemCount toItem) % 2 ^ 32

/-- `n` more items in a stack. -/
def fill (d : Dest) (toItem : Ref) (n : Nat) : Heap :=
  s.updateThing env d.toCylinder toItem (s.thing toItem).id (s.getItemCount toItem + n)

/-- After the call for `count` remaining items: what that call returns is left to the caller as
the remainder or is forgotten, together with the remainder that it has itself. -/
def Added.finish (o : Added) (count : Nat) : Added :=
  match o.ret with
  | none => { ret := none, state := o.state }
  | some .noError => { ret := some .noError, state := o.state }
  | some _ => { ret := some .noError, state := o.state, remainderCount := count }

/-- What `internalAddItem` changes once the checks let the item through, for at most
`maxQueryCount` items. `again` is its call of itself. -/
def addAt (again : Heap → Ref → Option Added) (d : Dest) (item : Ref) (maxQueryCount : Nat) : Option Added :=
  match s.stackAt env d item with
  | none => some { ret := none, state := s }
  | some none => do
    let s' ← s.addThing d.toCylinder d.index item
    pure { ret := some .noError, state := s' }
  | some (some toItem) =>
    let m := min (s.getItemCount item) maxQueryCount
    let n := min (s.roomIn env toItem) m
    let s' := s.fill env d toItem n
    let count := m - n
    if count = 0 then some { ret := some .noError, state := s' }
    else if s.getItemCount item ≠ count then do
      let (remainderItem, s') ← clone env s'.size s' item
      let o ← again (s'.setItemCount remainderItem count) remainderItem
      pure (o.finish count)
    else do
      let s' ← s'.addThing d.toCylinder d.index item
      pure { ret := some .noError, state := s' }

/-- `internalAddItem`, whose calls of itself are counted by the fuel. -/
def addTurns : Nat → Heap → Ref → Ref → Int → BitVec 32 → Bool → Option Added
  | 0, _, _, _, _, _, _ => none
  | fuel + 1, s, dest, item, index, flags, test =>
    match s.addQuery env dest item index flags with
    | none => some { ret := none, state := s }
    | some (ret, d, maxQueryCount) =>
      if ret ≠ .noError then some { ret := some ret, state := s }
      else if test then some { ret := some .noError, state := s }
      else
        let again (s' : Heap) (remainderItem : Ref) := addTurns fuel s' dest remainderItem INDEX_WHEREEVER flags false
        s.addAt env again d item maxQueryCount

/-- Every remainder has fewer items, so that there are no more calls than items. -/
def internalAddItem (dest item : Ref) (index : Int) (flags : BitVec 32) (test : Bool) : Option Added :=
  addTurns env (s.getItemCount item + 1) s dest item index flags test

end Heap

end ForgottenServer
