import Mathlib
import ForgottenServer.Lib.Runs

/-! # The decay scheduler

Decaying items wait in a map from timestamps to buckets of weak references. One event of the scheduler takes the expired
buckets out of the map and lets the items in them decay, which may start or stop the decay of other items. The clock is
read once for each task. -/

namespace ForgottenServer.Decay

open Runs

def int32 (n : Int) : Int := n.bmod (2 ^ 32)

inductive DecayState where
  | DECAYING_FALSE
  | DECAYING_TRUE
  | DECAYING_PENDING
  | DECAYING_STOPPING
deriving DecidableEq

structure ItemType where
  decayTo : Int := -1
  decayTimeMin : Nat := 0
  decayTimeMax : Nat := 0
  stopTime : Bool := false

/-- An item with those of its attributes that decay reads. -/
structure Item where
  id : Nat
  isRemoved : Bool := false
  hasUniqueId : Bool := false
  durationMin : Option Nat := none
  durationMax : Option Nat := none
  duration : Option Int := none
  durationTimestamp : Option Int := none
  decayState : Option DecayState := none

namespace Item

variable (types : Nat → ItemType) (item : Item)

def setDuration (time : Int) : Item := { item with duration := some (max 0 (int32 time)) }

def setDecaying (decayState : DecayState) : Item := { item with decayState := some decayState }

def getDecaying : DecayState := item.decayState.getD .DECAYING_FALSE

def getDuration (time : Int) : Int :=
  if item.getDecaying = .DECAYING_TRUE ∨ item.getDecaying = .DECAYING_STOPPING then
    max 0 (int32 (item.durationTimestamp.getD 0 - time))
  else int32 (item.duration.getD 0)

def canDecay : Bool :=
  !item.isRemoved && !item.hasUniqueId && decide (0 ≤ (types item.id).decayTo) &&
    !(item.durationMin.getD (types item.id).decayTimeMin = 0 && item.durationMax.getD (types item.id).decayTimeMax = 0)

/-- An item of the new type does not decay by itself. -/
def clearDuration : Item :=
  { (if item.decayState.isSome then item.setDecaying .DECAYING_STOPPING else item) with duration := none }

/-- `random` is what `normal_random` draws. -/
def setID (newid random : Nat) : Item :=
  let it := types newid
  let newDuration : Nat := (if it.decayTimeMax ≠ 0 then random else it.decayTimeMin) * 1000 % 2 ^ 32
  let changed : Item := { item with id := newid }
  let cleared := if newDuration = 0 ∧ it.stopTime = false ∧ it.decayTo < 0 then changed.clearDuration else changed
  if 0 < newDuration ∧ ((types item.id).stopTime = false ∨ cleared.duration = none) then
    (cleared.setDecaying .DECAYING_PENDING).setDuration newDuration
  else cleared

end Item

/-! ## The map -/

abbrev DecayMap := List (Int × List Nat)

namespace DecayMap

/-- `decayMap[timestamp].emplace_back(ref)` -/
def emplaceBack (timestamp : Int) (ref : Nat) : DecayMap → DecayMap
  | [] => [(timestamp, [ref])]
  | (key, bucket) :: decayMap =>
    if timestamp < key then (timestamp, [ref]) :: (key, bucket) :: decayMap
    else if timestamp = key then (key, bucket ++ [ref]) :: decayMap
    else (key, bucket) :: emplaceBack timestamp ref decayMap

/-- The last reference of the bucket takes the place of the one that is found. -/
def swapErase (ref : Nat) (bucket : List Nat) : List Nat :=
  (bucket.set (bucket.idxOf ref) (bucket.getLastD ref)).dropLast

def erase (timestamp : Int) (ref : Nat) : DecayMap → DecayMap
  | [] => []
  | (key, bucket) :: decayMap =>
    if timestamp = key then
      if bucket.length = 1 then decayMap else (key, swapErase ref bucket) :: decayMap
    else (key, bucket) :: erase timestamp ref decayMap

def refs (decayMap : DecayMap) : List Nat := decayMap.flatMap Prod.snd

end DecayMap

/-- A `checkDecay` event of the scheduler. -/
structure Check where
  id : Nat
  scheduledAt : Int
  delay : Int

def MIN_TASK_INTERVAL : Int := 50

def clampSchedulerDuration (duration : Int) : Int := max MIN_TASK_INTERVAL duration

/-- What has happened to an item. -/
inductive Call where
  | startDecay (ref : Nat)
  | stopDecay (ref : Nat)
  | internalDecayItem (ref : Nat)
  | clear
deriving DecidableEq

structure Game where
  items : Nat → Option Item
  time : Int
  decayMap : DecayMap := []
  eventId : Nat := 0
  events : List Check := []
  lastEventId : Nat := 0
  /-- The latest call comes first. -/
  calls : List Call := []

namespace Game

variable (g : Game)

def setItem (ref : Nat) (f : Item → Item) : Game :=
  { g with items := Function.update g.items ref ((g.items ref).map f) }

def call (c : Call) : Game := { g with calls := c :: g.calls }

def stopEvent (id : Nat) : Game := { g with events := g.events.filter (·.id ≠ id) }

def addEvent (delay : Int) : Game :=
  { g with
    eventId := g.lastEventId + 1, lastEventId := g.lastEventId + 1
    events := g.events ++ [⟨g.lastEventId + 1, g.time, delay⟩] }

end Game

/-! ## `Decay` -/

def stopDecay (g : Game) (ref : Nat) (timestamp : Int) : Game :=
  match g.items ref with
  | none => g
  | some _ =>
    match g.decayMap.lookup timestamp with
    | none => g
    | some bucket =>
      if ref ∈ bucket then
        { g.setItem ref (fun item =>
            { (if item.duration.isSome then item.setDuration (item.getDuration g.time) else item) with
              decayState := none }) with
          decayMap := g.decayMap.erase timestamp ref }
      else g

/-- The first part of `startDecay`: an item that decays already is taken out. -/
def restart (g : Game) (ref : Nat) (item : Item) : Game :=
  match item.durationTimestamp with
  | some timestamp => stopDecay g ref timestamp
  | none => g

/-- The second part: the check comes early enough for the new timestamp. -/
def reschedule (g : Game) (duration : Int) : Game :=
  match g.decayMap with
  | [] => g.addEvent (clampSchedulerDuration duration)
  | (first, _) :: _ =>
    if g.time + duration < first then (g.stopEvent g.eventId).addEvent (clampSchedulerDuration duration) else g

/-- The third part: the item is put into the map. -/
def insert (g : Game) (ref : Nat) (timestamp : Int) : Game :=
  { g.setItem ref (fun item =>
      { item.setDecaying .DECAYING_TRUE with durationTimestamp := some timestamp }) with
    decayMap := g.decayMap.emplaceBack timestamp ref }

def startDecay (g : Game) (ref : Nat) (duration : Int) : Game :=
  match g.items ref with
  | none => g
  | some item =>
    let g := restart g ref item
    insert (reschedule g duration) ref (g.time + duration)

def scheduleNextCheck (g : Game) (nextTimestamp : Int) : Game :=
  let delay := clampSchedulerDuration (int32 (nextTimestamp - g.time))
  (if g.eventId ≠ 0 then g.stopEvent g.eventId else g).addEvent delay

def clear (g : Game) : Game :=
  let g := if g.eventId ≠ 0 then { g.stopEvent g.eventId with eventId := 0 } else g
  { g.call .clear with
    items := fun ref => if ref ∈ g.decayMap.refs then (g.items ref).map fun item => { item with decayState := none }
      else g.items ref
    decayMap := [] }

/-! ## `Game` -/

namespace Game

variable (types : Nat → ItemType) (g : Game)

def stopDecay (ref : Nat) : Game :=
  match g.items ref with
  | none => g
  | some item =>
    let g := g.call (.stopDecay ref)
    if item.decayState.isSome then
      match item.durationTimestamp with
      | some timestamp =>
        (Decay.stopDecay g ref timestamp).setItem ref fun item => { item with durationTimestamp := none }
      | none => g.setItem ref fun item => { item with decayState := none }
    else g

/-- The item is transformed or removed. What that does to items are the commands that come next. -/
def internalDecayItem (ref : Nat) : Game := g.call (.internalDecayItem ref)

/-- `startDecay` stops an item whose new type does not decay. -/
def startStops (item : Item) : Bool :=
  item.getDecaying = .DECAYING_STOPPING || (!item.canDecay types && item.getDecaying = .DECAYING_TRUE)

def startDecay (ref : Nat) : Game :=
  match g.items ref with
  | none => g
  | some item =>
    if startStops types item then g.stopDecay ref
    else if !item.canDecay types || item.getDecaying = .DECAYING_TRUE then g
    else
      let duration := int32 (item.duration.getD 0)
      let g := g.call (.startDecay ref)
      if 0 < duration then Decay.startDecay g ref duration else g.internalDecayItem ref

end Game

/-- What scripts and the decay of an item may do to items. -/
inductive Command where
  | startDecay (ref : Nat)
  | stopDecay (ref : Nat)
  /-- The attribute is set by a script. -/
  | setDuration (ref : Nat) (duration : Int)
  | setID (ref : Nat) (newid random : Nat)
  /-- The item is moved, removed, or gets other attributes. -/
  | change (ref : Nat) (isRemoved hasUniqueId : Bool) (durationMin durationMax : Option Nat)
  /-- The last shared pointer to the item goes. -/
  | release (ref : Nat)

variable (types : Nat → ItemType)

def run (g : Game) : Command → Game
  | .startDecay ref => g.startDecay types ref
  | .stopDecay ref => g.stopDecay ref
  | .setDuration ref duration =>
    (g.setItem ref fun item => (item.setDecaying .DECAYING_PENDING).setDuration duration).startDecay types ref
  | .setID ref newid random => g.setItem ref fun item => item.setID types newid random
  | .change ref isRemoved hasUniqueId durationMin durationMax =>
    g.setItem ref fun item => { item with isRemoved, hasUniqueId, durationMin, durationMax }
  | .release ref => { g with items := Function.update g.items ref none }

/-- What is done with one item of a batch. -/
def processItem (actions : Nat → List Command) (g : Game) (ref : Nat) : Game :=
  match g.items ref with
  | none => g
  | some item =>
    if !item.canDecay types then
      g.setItem ref fun item => (item.setDuration (item.getDuration g.time)).setDecaying .DECAYING_FALSE
    else
      let g := (g.setItem ref fun item => item.setDecaying .DECAYING_FALSE).internalDecayItem ref
      (actions ref).foldl (run types) g

def processDecayBatch (actions : Nat → List Command) (batch : List Nat) (g : Game) : Game :=
  batch.foldl (processItem types actions) g

/-- The expired buckets. -/
def expiredItems (g : Game) : List Nat := (g.decayMap.takeWhile fun bucket => bucket.1 ≤ g.time).flatMap Prod.snd

/-- The event `id` begins to run, and the expired buckets are moved out of the map. -/
def expire (g : Game) (id : Nat) : Game :=
  { g.stopEvent id with decayMap := g.decayMap.dropWhile fun bucket => bucket.1 ≤ g.time }

def checkDecay (id : Nat) (actions : Nat → List Command) (g : Game) : Game :=
  let g := processDecayBatch types actions (expiredItems g) (expire g id)
  match g.decayMap with
  | [] => g
  | (first, _) :: _ => scheduleNextCheck g first

/-! ## Runs -/

inductive Action where
  | command (c : Command)
  | clear
  | checkDecay (id : Nat) (actions : Nat → List Command)

/-- Something is done `elapsed` milliseconds later. -/
structure Event where
  elapsed : Nat
  action : Action

def perform (g : Game) : Action → Game
  | .command c => run types g c
  | .clear => clear g
  | .checkDecay id actions => checkDecay types id actions g

def Game.wait (g : Game) (elapsed : Nat) : Game := { g with time := g.time + elapsed }

def step (g : Game) (e : Event) : Game := perform types (g.wait e.elapsed) e.action

/-- The item has been stopped and not started again. -/
def stopped (ref : Nat) : List Call → Bool
  | [] => false
  | .startDecay ref' :: calls => if ref = ref' then false else stopped ref calls
  | .stopDecay ref' :: calls => if ref = ref' then true else stopped ref calls
  | .internalDecayItem _ :: calls => stopped ref calls
  | .clear :: _ => true

/-- Only items decay that have not been stopped. -/
def Obeys : List Call → Prop
  | [] => True
  | .internalDecayItem ref :: calls => stopped ref calls = false ∧ Obeys calls
  | _ :: calls => Obeys calls

/-- The item is in the map once, in the bucket of its timestamp. -/
structure InMap (g : Game) (ref : Nat) (item : Item) : Prop where
  bucket : ∃ timestamp bucket, item.durationTimestamp = some timestamp ∧ (timestamp, bucket) ∈ g.decayMap ∧ ref ∈ bucket
  once : g.decayMap.refs.count ref = 1

/-- A check comes before the first timestamp, or as soon as it may. -/
def Scheduled (g : Game) : Prop :=
  ∀ bucket ∈ g.decayMap.head?, ∃ e ∈ g.events, e.id = g.eventId ∧
    e.scheduledAt + e.delay ≤ max bucket.1 (e.scheduledAt + MIN_TASK_INTERVAL)

structure Right (g : Game) (e : Event) : Prop where
  decaying : ∀ ref item, (step types g e).items ref = some item → item.getDecaying = .DECAYING_TRUE →
    InMap (step types g e) ref item
  scheduled : Scheduled (step types g e)
  obeys : Obeys (step types g e).calls

/-- The decay of the item is stopped. -/
def stops (g : Game) : Command → Nat → Prop
  | .startDecay ref, ref' => ref = ref' ∧ ∃ item, g.items ref = some item ∧ Game.startStops types item = true
  | .stopDecay ref, ref' => ref = ref' ∧ (g.items ref).isSome
  | _, _ => False

/-- The decay of an item does not stop an item that comes later in its batch. -/
def AllowedBatch (actions : Nat → List Command) : Game → List Nat → Prop
  | _, [] => True
  | g, ref :: batch =>
    (∀ item, g.items ref = some item → item.canDecay types = true →
      Along (run types) (fun g c => ∀ ref' ∈ batch, ¬ stops types g c ref')
        ((g.setItem ref fun item => item.setDecaying .DECAYING_FALSE).internalDecayItem ref) (actions ref)) ∧
      AllowedBatch actions (processItem types actions g ref) batch

def Allowed (g : Game) (e : Event) : Prop :=
  match e.action with
  | .checkDecay id actions =>
    AllowedBatch types actions (expire (g.wait e.elapsed) id) (expiredItems (g.wait e.elapsed))
  | _ => True

end ForgottenServer.Decay
