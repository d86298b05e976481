import ForgottenServer.Save.Manager

/-! # The saves of one player

The save manager keeps the saves of different players apart. A `Line` is what the server
and the database hold of one player; every operation of the manager moves the line of one
guid, and the lemmas here say how. -/

namespace ForgottenServer.Save

/-- A flush that was dispatched: in the pool, or back with its success. -/
structure Flight where
  save : PlayerSaveSnapshot
  landed : Option Bool := none

structure Line where
  inFlight : Bool
  waiting : Option PlayerSaveSnapshot
  flights : List Flight
  rows : Option PlayerSaveSnapshot
  pending : Option PlayerSaveSnapshot
  recorded : List PlayerSaveSnapshot

namespace Line

def write (l : Line) (save : PlayerSaveSnapshot) (ok : Bool) : Line :=
  if ok then { l with pending := some save, recorded := l.recorded ++ [save] } else l

def commit (l : Line) (save : PlayerSaveSnapshot) (ok : Bool) : Line :=
  if ok then { l with rows := some save, recorded := l.recorded ++ [save] } else l

def delete (l : Line) (ok : Bool) : Line := if ok then { l with pending := none } else l

def ground (l : Line) : Line := { l with inFlight := false, waiting := none }

def dispatch (l : Line) (save : PlayerSaveSnapshot) (ok : Bool) : Line :=
  if ok then { l.write save true with flights := ⟨save, none⟩ :: l.flights } else l.ground

end Line

/-- The flight of a guid that a job of the pool is. -/
def jobOf (guid : Guid) (job : Guid × PendingPlayerFlush) : Option Flight :=
  if job.1 = guid then some ⟨job.2.save, none⟩ else none

/-- The flight of a guid whose end a task reports. -/
def reportOf (guid : Guid) : Task → Option Flight
  | .onPlayerFlushed g _ success save => if g = guid then some ⟨save, some success⟩ else none
  | _ => none

namespace State

/-- The newest job of the pool comes first. -/
def flights (s : State) (guid : Guid) : List Flight :=
  s.pool.reverse.filterMap (jobOf guid) ++ s.tasks.filterMap (reportOf guid)

def lines (s : State) (guid : Guid) : Line where
  inFlight := decide (guid ∈ s.manager.flushInFlight)
  waiting := (s.manager.pendingFlushes guid).map (·.save)
  flights := s.flights guid
  rows := s.db.rows guid
  pending := s.db.pending guid
  recorded := s.db.recorded guid

end State

section Operations

variable (s : State) (guid : Guid)

/-- Two states with the same lines. -/
theorem lines_congr {s s' : State} (hflight : s'.manager.flushInFlight = s.manager.flushInFlight)
    (hpending : s'.manager.pendingFlushes = s.manager.pendingFlushes)
    (hflights : s'.flights = s.flights) (hdb : s'.db = s.db) : s'.lines = s.lines := by
  funext g
  simp only [State.lines, hflight, hpending, hflights, hdb]

@[simp] theorem completeIf_flushInFlight (m : SaveManager) (tracked : Bool) :
    (m.completeIf tracked).flushInFlight = m.flushInFlight := by
  simp only [SaveManager.completeIf, SaveManager.completeTrackedFlush]
  split_ifs <;> rfl

@[simp] theorem completeIf_pendingFlushes (m : SaveManager) (tracked : Bool) :
    (m.completeIf tracked).pendingFlushes = m.pendingFlushes := by
  simp only [SaveManager.completeIf, SaveManager.completeTrackedFlush]
  split_ifs <;> rfl

@[simp] theorem completeIf_failedRecoveryGuids (m : SaveManager) (tracked : Bool) :
    (m.completeIf tracked).failedRecoveryGuids = m.failedRecoveryGuids := by
  simp only [SaveManager.completeIf, SaveManager.completeTrackedFlush]
  split_ifs <;> rfl

theorem lines_completeIf (tracked : Bool) :
    State.lines { s with manager := s.manager.completeIf tracked } = s.lines :=
  lines_congr (completeIf_flushInFlight _ _) (completeIf_pendingFlushes _ _) rfl rfl

theorem lines_beginIf (tracked : Bool) : (s.beginIf tracked).lines = s.lines := by
  rw [State.beginIf]
  split <;> rfl

theorem reportOf_deliver (g : Guid) (callbacks : List Callback) (success : Bool) :
    (callbacks.map (Task.deliver · success)).filterMap (reportOf g) = [] := by
  rw [List.filterMap_eq_nil_iff]
  intro t ht
  obtain ⟨c, _, rfl⟩ := List.mem_map.mp ht
  rfl

theorem lines_notify (success : Bool) : (s.notify guid success).lines = s.lines := by
  refine lines_congr rfl rfl ?_ rfl
  funext g
  simp only [State.flights, State.notify, List.filterMap_append, reportOf_deliver, List.append_nil]

/-- The operations on the sets and maps of the manager, and on the database. -/
theorem lines_insertInFlight : (s.insertInFlight guid).lines =
    Function.update s.lines guid { s.lines guid with inFlight := true } := by
  funext g
  rcases eq_or_ne g guid with rfl | hne
  · rw [Function.update_self]
    simp [State.lines, State.insertInFlight, State.flights]
  · rw [Function.update_of_ne hne]
    simp [State.lines, State.insertInFlight, State.flights, hne]

theorem lines_savePendingFlushToDB (save : PlayerSaveSnapshot) (ok : Bool) :
    (s.savePendingFlushToDB guid save ok).lines =
      Function.update s.lines guid ((s.lines guid).write save (s.walAccepts guid ok)) := by
  funext g
  rw [State.savePendingFlushToDB, Line.write]
  split
  · rcases eq_or_ne g guid with rfl | hne
    · simp [State.lines, State.flights, Database.writePending]
    · simp [State.lines, State.flights, Database.writePending, hne]
  · rw [Function.update_eq_self]

theorem lines_setPending (pending : Option PendingPlayerFlush) :
    State.lines { s with manager := { s.manager with
      pendingFlushes := Function.update s.manager.pendingFlushes guid pending } } =
      Function.update s.lines guid { s.lines guid with waiting := pending.map (·.save) } := by
  funext g
  rcases eq_or_ne g guid with rfl | hne
  · simp [State.lines, State.flights]
  · simp [State.lines, State.flights, hne]

theorem lines_enqueue (pending : PendingPlayerFlush) (ok : Bool) :
    (s.enqueue guid pending ok).lines = Function.update s.lines guid
      { (s.lines guid).write pending.save (s.walAccepts guid ok) with waiting := some pending.save } := by
  rw [State.enqueue, lines_setPending, lines_savePendingFlushToDB, Function.update_idem,
    Function.update_self]
  rfl

theorem lines_abortChain (tracked : Bool) :
    (s.abortChain guid tracked).lines = Function.update s.lines guid (s.lines guid).ground := by
  rw [State.abortChain, lines_completeIf, lines_notify]
  funext g
  rcases eq_or_ne g guid with rfl | hne
  · simp [State.lines, State.flights, Line.ground]
  · simp [State.lines, State.flights, hne]

theorem lines_dispatchPlayerFlush (pending : PendingPlayerFlush) (ok : Bool) :
    (s.dispatchPlayerFlush guid pending ok).lines = Function.update s.lines guid
      ((s.lines guid).dispatch pending.save (s.walAccepts guid ok)) := by
  rw [State.dispatchPlayerFlush, Line.dispatch]
  split
  · funext g
    rcases eq_or_ne g guid with rfl | hne
    · simp [State.lines, State.flights, Database.writePending, Line.write, jobOf]
    · simp [State.lines, State.flights, Database.writePending, jobOf, hne, hne.symm]
  · exact lines_abortChain s guid pending.trackedBySaveAll

theorem lines_dispatchPending (pending : PendingPlayerFlush) (ok : Bool) :
    (s.dispatchPending guid pending ok).lines = Function.update s.lines guid
      ({ s.lines guid with waiting := none }.dispatch pending.save (s.walAccepts guid ok)) := by
  rw [State.dispatchPending, lines_dispatchPlayerFlush, lines_setPending, Function.update_idem,
    Function.update_self]
  rfl

theorem lines_eraseInFlight :
    State.lines { s with manager := { s.manager with
      flushInFlight := s.manager.flushInFlight.erase guid } } =
      Function.update s.lines guid { s.lines guid with inFlight := false } := by
  funext g
  rcases eq_or_ne g guid with rfl | hne
  · simp [State.lines, State.flights]
  · simp [State.lines, State.flights, hne]

theorem lines_deletePending (ok : Bool) :
    State.lines { s with db := if ok then s.db.deletePending guid else s.db } =
      Function.update s.lines guid ((s.lines guid).delete ok) := by
  funext g
  rcases eq_or_ne g guid with rfl | hne
  · cases ok <;> simp [State.lines, State.flights, Database.deletePending, Line.delete]
  · cases ok <;> simp [State.lines, State.flights, Database.deletePending, hne]

theorem lines_commitRows (save : PlayerSaveSnapshot) (ok : Bool) :
    State.lines { s with db := if ok then s.db.commitRows guid save else s.db } =
      Function.update s.lines guid ((s.lines guid).commit save ok) := by
  funext g
  rcases eq_or_ne g guid with rfl | hne
  · cases ok <;> simp [State.lines, State.flights, Database.commitRows, Line.commit]
  · cases ok <;> simp [State.lines, State.flights, Database.commitRows, hne]

end Operations

end ForgottenServer.Save
