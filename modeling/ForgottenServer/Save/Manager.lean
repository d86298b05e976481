import Mathlib

/-! # The save manager

`SaveManager`: the snapshots of the players are built on the dispatcher thread and
flushed by the thread pool. A snapshot is first written to the table
`player_save_async_pending`, from where `recoverPendingFlushes` replays it when the
server did not live to see its flush.

Every transaction either happens or does not, as an argument of the call says. A call on
the dispatcher thread is one step, `saveAll` one for each player; the pool flushes and the
server crashes in between. A crash inside a call, or inside the recovery, is the call with
all its later transactions failing, and then the crash. -/

namespace ForgottenServer.Save

abbrev Guid := UInt32

/-- What `QueryCaptureScope` collects. A save has at least the update of `players`. -/
abbrev Queries := { queries : List String // queries ≠ [] }

/-- `PlayerSaveSnapshot`. `builtAt` numbers the snapshots as they are built; it is not
data of the program. -/
structure PlayerSaveSnapshot where
  queries : Queries
  builtAt : Nat
  deriving DecidableEq

structure PendingPlayerFlush where
  save : PlayerSaveSnapshot
  trackedBySaveAll : Bool
  deriving DecidableEq

/-! ## The database -/

/-- `rows`: the snapshot whose queries made the rows of a player what they are; `none`
as long as the server never saved the player. `pending`: the rows of
`player_save_async_pending` with that guid. `recorded` remembers all that was ever
committed to either. -/
structure Database where
  rows : Guid → Option PlayerSaveSnapshot := fun _ => none
  pending : Guid → Option PlayerSaveSnapshot := fun _ => none
  recorded : Guid → List PlayerSaveSnapshot := fun _ => []

namespace Database

/-- The committed transaction of `flushPlayerSave`. -/
def commitRows (db : Database) (guid : Guid) (save : PlayerSaveSnapshot) : Database :=
  { db with
    rows := Function.update db.rows guid (some save)
    recorded := Function.update db.recorded guid (db.recorded guid ++ [save]) }

/-- The committed transaction of `savePendingFlushToDB`: the old rows go, the queries of
the snapshot come. -/
def writePending (db : Database) (guid : Guid) (save : PlayerSaveSnapshot) : Database :=
  { db with
    pending := Function.update db.pending guid (some save)
    recorded := Function.update db.recorded guid (db.recorded guid ++ [save]) }

def deletePending (db : Database) (guid : Guid) : Database :=
  { db with pending := Function.update db.pending guid none }

end Database

/-! ## The threads -/

abbrev Callback := Nat

/-- A task in the queue of the dispatcher. -/
inductive Task where
  | onPlayerFlushed (guid : Guid) (trackedBySaveAll success : Bool) (save : PlayerSaveSnapshot)
  | drain (guid : Guid) (callback : Callback)
  | deliver (callback : Callback) (success : Bool)

/-- What the dispatcher is doing. Inside `saveAll` it has players left to save, each with
what `buildPlayerSave` will give for it, and then the map. -/
inductive Phase where
  | idle
  | savingPlayers (rest : List (Guid × Option Queries))
  | savingMap

/-- The members of `SaveManager`. `underflows` counts the errors that `completeTrackedFlush` logs. -/
structure SaveManager where
  saving : Bool := false
  pendingSaveFlushes : Nat := 0
  underflows : Nat := 0
  lastSaveTimestamp : Int := 0
  flushInFlight : Finset Guid := ∅
  pendingFlushes : Guid → Option PendingPlayerFlush := fun _ => none
  flushChainCallbacks : Guid → List Callback := fun _ => []
  failedRecoveryGuids : Finset Guid := ∅

/-- The server: its memory, the flushes detached to the pool, the queue and the phase of
the dispatcher, and the database. `clock` numbers the snapshots. -/
structure State where
  manager : SaveManager := {}
  pool : List (Guid × PendingPlayerFlush) := []
  tasks : List Task := []
  phase : Phase := .idle
  db : Database := {}
  clock : Nat := 0

def MIN_SAVE_INTERVAL_MS : Int := 2000

namespace SaveManager

def isSaving (m : SaveManager) : Bool := m.saving || m.pendingSaveFlushes != 0

def beginTrackedFlush (m : SaveManager) : SaveManager :=
  { m with pendingSaveFlushes := m.pendingSaveFlushes + 1 }

/-- Where there is nothing to complete the count stays at zero and an error is logged. -/
def completeTrackedFlush (m : SaveManager) : SaveManager :=
  if m.pendingSaveFlushes = 0 then { m with saving := false, underflows := m.underflows + 1 }
  else if m.pendingSaveFlushes = 1 then { m with pendingSaveFlushes := 0, saving := false }
  else { m with pendingSaveFlushes := m.pendingSaveFlushes - 1 }

/-- `completeTrackedFlush` for a flush that `saveAll` waits for. -/
def completeIf (m : SaveManager) (tracked : Bool) : SaveManager :=
  if tracked then m.completeTrackedFlush else m

end SaveManager

namespace State

/-- Whether `savePendingFlushToDB` succeeds: it refuses a guid whose recovery failed. -/
def walAccepts (s : State) (guid : Guid) (ok : Bool) : Bool :=
  decide (guid ∉ s.manager.failedRecoveryGuids) && ok

def savePendingFlushToDB (s : State) (guid : Guid) (save : PlayerSaveSnapshot) (ok : Bool) : State :=
  if s.walAccepts guid ok then { s with db := s.db.writePending guid save } else s

/-- All callbacks of a guid go to the queue of the dispatcher. -/
def notify (s : State) (guid : Guid) (success : Bool) : State :=
  { s with
    tasks := s.tasks ++ (s.manager.flushChainCallbacks guid).map (.deliver · success)
    manager := { s.manager with
      flushChainCallbacks := Function.update s.manager.flushChainCallbacks guid [] } }

/-- The chain of flushes of a guid is given up when the table does not take the snapshot. -/
def abortChain (s : State) (guid : Guid) (tracked : Bool) : State :=
  let s' := { s with manager := { s.manager with
    flushInFlight := s.manager.flushInFlight.erase guid
    pendingFlushes := Function.update s.manager.pendingFlushes guid none } }.notify guid false
  { s' with manager := s'.manager.completeIf tracked }

def dispatchPlayerFlush (s : State) (guid : Guid) (pending : PendingPlayerFlush) (ok : Bool) : State :=
  if s.walAccepts guid ok then
    { s with db := s.db.writePending guid pending.save, pool := s.pool ++ [(guid, pending)] }
  else s.abortChain guid pending.trackedBySaveAll

/-- A snapshot waits behind the flush in flight of its guid, in the place of an older one. -/
def enqueue (s : State) (guid : Guid) (pending : PendingPlayerFlush) (ok : Bool) : State :=
  let s' := s.savePendingFlushToDB guid pending.save ok
  { s' with manager := { s'.manager with
    pendingFlushes := Function.update s'.manager.pendingFlushes guid (some pending) } }

/-- Whether the snapshot that waits for a guid is one that `saveAll` waits for. -/
def pendingTracked (s : State) (guid : Guid) : Bool :=
  match s.manager.pendingFlushes guid with
  | some p => p.trackedBySaveAll
  | none => false

/-- `buildPlayerSave` was successful. -/
def built (s : State) (queries : Queries) : PlayerSaveSnapshot × State :=
  (⟨queries, s.clock⟩, { s with clock := s.clock + 1 })

def insertInFlight (s : State) (guid : Guid) : State :=
  { s with manager := { s.manager with flushInFlight := insert guid s.manager.flushInFlight } }

/-- `beginTrackedFlush` for a flush that `saveAll` waits for. -/
def beginIf (s : State) (tracked : Bool) : State :=
  if tracked then { s with manager := s.manager.beginTrackedFlush } else s

def schedulePlayerFlush (s : State) (guid : Guid) (save : Option Queries) (trackSaveAll ok : Bool) :
    State :=
  match save with
  | none => s
  | some queries =>
    let save := (s.built queries).1
    let s := (s.built queries).2
    if guid ∈ s.manager.flushInFlight then
      let oldTracked := s.pendingTracked guid
      (s.beginIf (trackSaveAll && !oldTracked)).enqueue guid ⟨save, oldTracked || trackSaveAll⟩ ok
    else
      ((s.insertInFlight guid).beginIf trackSaveAll).dispatchPlayerFlush guid ⟨save, trackSaveAll⟩ ok

def savePlayer (s : State) (guid : Guid) (save : Option Queries) (ok : Bool) : State :=
  s.schedulePlayerFlush guid save false ok

/-- The snapshot that waits for a guid is flushed next. -/
def dispatchPending (s : State) (guid : Guid) (pending : PendingPlayerFlush) (ok : Bool) : State :=
  { s with manager := { s.manager with
    pendingFlushes := Function.update s.manager.pendingFlushes guid none } }.dispatchPlayerFlush
      guid pending ok

/-- The end of `savePlayerSync`: a snapshot that came to wait is dispatched. -/
def resume (s : State) (guid : Guid) (ok : Bool) : State :=
  match s.manager.pendingFlushes guid with
  | some pending => (s.insertInFlight guid).dispatchPending guid pending ok
  | none => s

/-- `committed`: whether one of the three tries to flush the snapshot was successful. -/
def savePlayerSync (s : State) (guid : Guid) (save : Option Queries) (committed ok : Bool) : State :=
  match save with
  | none => s
  | some queries =>
    let save := (s.built queries).1
    let s := (s.built queries).2
    if guid ∈ s.manager.flushInFlight then s.enqueue guid ⟨save, s.pendingTracked guid⟩ ok
    else
      let s := { s with manager := { s.manager with
        flushInFlight := (insert guid s.manager.flushInFlight).erase guid } }
      { s with db := if committed then s.db.commitRows guid save else s.db }.resume guid ok

/-- `deleted`: whether the statement of `deletePendingFlushFromDB` was successful. -/
def onPlayerFlushed (s : State) (guid : Guid) (trackedBySaveAll success ok deleted : Bool) : State :=
  let s := { s with manager := s.manager.completeIf trackedBySaveAll }
  match s.manager.pendingFlushes guid with
  | none =>
    { s with
      manager := { s.manager with flushInFlight := s.manager.flushInFlight.erase guid }
      db := if success && deleted then s.db.deletePending guid else s.db }.notify guid success
  | some pending => s.dispatchPending guid pending ok

/-- The task of `drainPlayerFlushAsync`. -/
def drain (s : State) (guid : Guid) (callback : Callback) : State :=
  if guid ∈ s.manager.flushInFlight ∨ (s.manager.pendingFlushes guid).isSome then
    let callbacks := s.manager.flushChainCallbacks guid ++ [callback]
    { s with manager := { s.manager with
      flushChainCallbacks := Function.update s.manager.flushChainCallbacks guid callbacks } }
  else { s with tasks := s.tasks ++ [.deliver callback true] }

/-- The first part of `saveAll`; the players are saved one by one, and then the map. -/
def saveAll (s : State) (nowMs : Int) (players : List (Guid × Option Queries)) : State :=
  if s.manager.isSaving then s
  else if s.manager.lastSaveTimestamp > 0 ∧ nowMs - s.manager.lastSaveTimestamp < MIN_SAVE_INTERVAL_MS then
    { s with manager := { s.manager with saving := false } }
  else
    { s with
      manager := { s.manager with saving := true, lastSaveTimestamp := nowMs }
      phase := .savingPlayers players }

/-- The flush of a snapshot in the pool; its end is reported to the dispatcher. -/
def poolFlush (s : State) (i : Nat) (success : Bool) : State :=
  match s.pool[i]? with
  | none => s
  | some (guid, pending) =>
    { s with
      pool := s.pool.eraseIdx i
      db := if success then s.db.commitRows guid pending.save else s.db
      tasks := s.tasks ++ [.onPlayerFlushed guid pending.trackedBySaveAll success pending.save] }

/-- The dispatcher runs the first task of its queue. -/
def runTask (s : State) (ok deleted : Bool) : State :=
  match s.tasks with
  | [] => s
  | .onPlayerFlushed guid tracked success _ :: rest =>
    { s with tasks := rest }.onPlayerFlushed guid tracked success ok deleted
  | .drain guid callback :: rest => { s with tasks := rest }.drain guid callback
  | .deliver _ _ :: rest => { s with tasks := rest }

/-- Only the database survives a crash. -/
def crash (s : State) : State := { db := s.db, clock := s.clock }

end State

/-! ## Recovery -/

/-- What becomes of the transaction of one guid. -/
inductive Replay where
  | beginFails
  | queryFails
  | commitFails
  | commits (deleted : Bool)
  deriving DecidableEq

/-- One turn of the loop of `recoverPendingFlushes`. -/
def recoverGuid (replay : Guid → Replay) (s : State) (guid : Guid) : State :=
  match s.db.pending guid with
  | none => s
  | some save =>
    match replay guid with
    | .beginFails => s
    | .commitFails => s
    | .queryFails =>
      { s with manager := { s.manager with
        failedRecoveryGuids := insert guid s.manager.failedRecoveryGuids } }
    | .commits deleted =>
      let db := s.db.commitRows guid save
      { s with db := if deleted then db.deletePending guid else db }

/-- `guids`: the keys of `pendingByGuid` in the order of the map. There are none when the
table is empty or its query fails. -/
def recoverPendingFlushes (guids : List Guid) (replay : Guid → Replay) (s : State) : State :=
  guids.foldl (recoverGuid replay) s

/-! ## Events -/

inductive Event where
  | saveAll (nowMs : Int) (players : List (Guid × Option Queries))
  | saveNext (ok : Bool)
  | mapSaved
  | savePlayer (guid : Guid) (save : Option Queries) (ok : Bool)
  | savePlayerSync (guid : Guid) (save : Option Queries) (committed ok : Bool)
  | drainPlayerFlushAsync (guid : Guid) (callback : Callback)
  | poolFlush (i : Nat) (success : Bool)
  | runTask (ok deleted : Bool)
  | restart (guids : List Guid) (replay : Guid → Replay)

/-- The dispatcher saves the next online player of `saveAll`, or turns to the map. -/
def State.saveNext (s : State) (ok : Bool) : State :=
  match s.phase with
  | .savingPlayers [] => { s with manager := s.manager.beginTrackedFlush, phase := .savingMap }
  | .savingPlayers ((guid, save) :: rest) =>
    { s with phase := .savingPlayers rest }.schedulePlayerFlush guid save true ok
  | _ => s

/-- A call comes when the dispatcher is idle; an event for which there is nothing to do
does nothing. `restart` is a crash and the start of the server after it. -/
def step (s : State) : Event → State
  | .saveAll nowMs players => if let .idle := s.phase then s.saveAll nowMs players else s
  | .saveNext ok => s.saveNext ok
  | .mapSaved =>
    if let .savingMap := s.phase then
      { s with manager := s.manager.completeTrackedFlush, phase := .idle }
    else s
  | .savePlayer guid save ok => if let .idle := s.phase then s.savePlayer guid save ok else s
  | .savePlayerSync guid save committed ok =>
    if let .idle := s.phase then s.savePlayerSync guid save committed ok else s
  | .drainPlayerFlushAsync guid callback => { s with tasks := s.tasks ++ [.drain guid callback] }
  | .poolFlush i success => s.poolFlush i success
  | .runTask ok deleted => if let .idle := s.phase then s.runTask ok deleted else s
  | .restart guids replay => recoverPendingFlushes guids replay s.crash

end ForgottenServer.Save
