import Mathlib
import ForgottenServer.Save.Moves

/-! # The flushes that `saveAll` waits for

`pendingSaveFlushes` is the number of tracked flushes that are in the pool, on their way back from it or
waiting behind a flight, and of the map save. -/

namespace ForgottenServer.Save

/-- A task that reports a tracked flush. -/
def Task.tracked : Task → Bool
  | .onPlayerFlushed _ trackedBySaveAll _ _ => trackedBySaveAll
  | _ => false

def Phase.mapSaves : Phase → Nat
  | .savingMap => 1
  | _ => 0

namespace State

/-- Tracked flushes that were dispatched. -/
def trackedJobs (s : State) : Nat := s.pool.countP (·.2.trackedBySaveAll) + s.tasks.countP Task.tracked

/-- Tracked snapshots that wait. -/
def trackedWaiting (s : State) : Nat := ∑ guid ∈ s.manager.flushInFlight, (s.pendingTracked guid).toNat

def tracked (s : State) : Nat := s.trackedJobs + s.trackedWaiting + s.phase.mapSaves

/-- The count is `n` ahead of the flushes, and there was no underflow. No save goes on when nothing is counted
and `saveAll` is not running. -/
structure Counts (n : Nat) (s : State) : Prop where
  count : s.manager.pendingSaveFlushes = s.tracked + n
  underflows : s.manager.underflows = 0
  off : s.phase = .idle → s.manager.pendingSaveFlushes = 0 → s.manager.saving = false

end State

/-! ## What an operation does to the count -/

/-- A sum whose terms differ at one place. -/
theorem sum_eq_away {F : Finset Guid} {guid : Guid} {f g : Guid → Nat} (hmem : guid ∈ F) (h : ∀ x, x ≠ guid → f x = g x) :
    ∑ x ∈ F, f x + g guid = ∑ x ∈ F, g x + f guid := by
  have hrest : ∑ x ∈ F.erase guid, f x = ∑ x ∈ F.erase guid, g x :=
    Finset.sum_congr rfl fun x hx => h x (Finset.ne_of_mem_erase hx)
  rw [← Finset.add_sum_erase F f hmem, ← Finset.add_sum_erase F g hmem, hrest]
  omega

section Operations

variable {s : State} {guid : Guid}

theorem pendingTracked_of_none (h : s.manager.pendingFlushes guid = none) : s.pendingTracked guid = false := by
  rw [State.pendingTracked, h]

theorem pendingTracked_of_some {pending : PendingPlayerFlush} (h : s.manager.pendingFlushes guid = some pending) :
    s.pendingTracked guid = pending.trackedBySaveAll := by
  rw [State.pendingTracked, h]

theorem pendingTracked_congr {s' : State} {g : Guid} (h : s'.manager.pendingFlushes g = s.manager.pendingFlushes g) :
    s'.pendingTracked g = s.pendingTracked g := by
  rw [State.pendingTracked, State.pendingTracked, h]

theorem trackedWaiting_congr {s' : State} (hflight : s'.manager.flushInFlight = s.manager.flushInFlight)
    (hpending : s'.manager.pendingFlushes = s.manager.pendingFlushes) : s'.trackedWaiting = s.trackedWaiting := by
  rw [State.trackedWaiting, State.trackedWaiting, hflight]
  exact Finset.sum_congr rfl fun g _ => by rw [pendingTracked_congr (congrFun hpending g)]

/-- Another snapshot waits for a guid in flight, or none. -/
theorem trackedWaiting_set (s' : State) (hmem : guid ∈ s.manager.flushInFlight)
    (hflight : s'.manager.flushInFlight = s.manager.flushInFlight)
    (hpending : ∀ g, g ≠ guid → s'.manager.pendingFlushes g = s.manager.pendingFlushes g) :
    s'.trackedWaiting + (s.pendingTracked guid).toNat = s.trackedWaiting + (s'.pendingTracked guid).toNat := by
  have hother (g : Guid) (hne : g ≠ guid) : (s'.pendingTracked g).toNat = (s.pendingTracked g).toNat := by
    rw [pendingTracked_congr (hpending g hne)]
  rw [State.trackedWaiting, State.trackedWaiting, hflight]
  exact sum_eq_away hmem hother

/-- A guid comes into the set or leaves it; nothing waits for it. -/
theorem trackedWaiting_flight (s' : State) (hother : ∀ g, g ≠ guid →
      (g ∈ s'.manager.flushInFlight ↔ g ∈ s.manager.flushInFlight) ∧ s'.pendingTracked g = s.pendingTracked g)
    (hguid : s.pendingTracked guid = false) (hguid' : s'.pendingTracked guid = false) :
    s'.trackedWaiting = s.trackedWaiting := by
  have hzero {t : State} (ht : t.pendingTracked guid = false) :
      t.trackedWaiting = ∑ g ∈ t.manager.flushInFlight.erase guid, (t.pendingTracked g).toNat := by
    rw [State.trackedWaiting]
    refine (Finset.sum_erase _ ?_).symm
    rw [ht]
    rfl
  rw [hzero hguid, hzero hguid']
  refine Finset.sum_congr ?_ fun g hg => ?_
  · ext g
    rw [Finset.mem_erase, Finset.mem_erase]
    exact and_congr_right fun hne => (hother g hne).1
  · rw [(hother g (Finset.ne_of_mem_erase hg)).2]

end Operations

theorem State.Orderly.mem_flushInFlight {s : State} {guid : Guid} {pending : PendingPlayerFlush} (h : s.Orderly)
    (hpending : s.manager.pendingFlushes guid = some pending) : guid ∈ s.manager.flushInFlight := by
  by_contra hnot
  have hnone : (s.manager.pendingFlushes guid).map (·.save) = none :=
    ((h guid).grounded (State.lines_grounded.mpr hnot)).2
  rw [hpending] at hnone
  cases hnone

namespace State.Counts

variable {n : Nat} {s s' : State} {guid : Guid}

theorem of_eq (h : Counts n s) (hcount : s'.manager.pendingSaveFlushes = s.manager.pendingSaveFlushes)
    (hunderflows : s'.manager.underflows = s.manager.underflows) (hsaving : s'.manager.saving = s.manager.saving)
    (hphase : s'.phase = s.phase) (htracked : s'.tracked = s.tracked) : Counts n s' where
  count := by rw [hcount, h.count, htracked]
  underflows := by rw [hunderflows, h.underflows]
  off := by
    rw [hphase, hcount, hsaving]
    exact h.off

theorem beginIf (h : Counts n s) (tracked : Bool) : Counts (n + tracked.toNat) (s.beginIf tracked) := by
  cases tracked with
  | false => exact h
  | true =>
    refine ⟨?_, h.underflows, fun _ hzero => absurd hzero (Nat.succ_ne_zero _)⟩
    show s.manager.pendingSaveFlushes + 1 = s.tracked + (n + 1)
    rw [h.count]
    omega

theorem completeIf {tracked : Bool} (h : Counts (n + tracked.toNat) s) :
    Counts n { s with manager := s.manager.completeIf tracked } := by
  cases tracked with
  | false => exact h
  | true =>
    have hcount : s.manager.pendingSaveFlushes = s.tracked + (n + 1) := h.count
    have htracked : State.tracked { s with manager := s.manager.completeIf true } = s.tracked := by
      rw [State.tracked, State.tracked, trackedWaiting_congr (completeIf_flushInFlight _ _) (completeIf_pendingFlushes _ _)]
      rfl
    refine ⟨?_, ?_, fun _ => ?_⟩
    · rw [htracked]
      simp only [SaveManager.completeIf, SaveManager.completeTrackedFlush, if_true]
      split_ifs
      all_goals simp only
      all_goals omega
    · simp only [SaveManager.completeIf, SaveManager.completeTrackedFlush, if_true]
      rw [if_neg (by omega)]
      split_ifs <;> exact h.underflows
    · simp only [SaveManager.completeIf, SaveManager.completeTrackedFlush, if_true]
      rw [if_neg (by omega)]
      split_ifs
      · exact fun _ => rfl
      · simp only
        omega

theorem notify (h : Counts n s) (success : Bool) : Counts n (s.notify guid success) := by
  refine h.of_eq rfl rfl rfl rfl ?_
  have hdeliver : ((s.manager.flushChainCallbacks guid).map (Task.deliver · success)).countP Task.tracked = 0 := by
    rw [List.countP_eq_zero]
    intro t ht
    obtain ⟨c, _, rfl⟩ := List.mem_map.mp ht
    simp [Task.tracked]
  have hjobs : (s.notify guid success).trackedJobs = s.trackedJobs := by
    rw [State.trackedJobs, State.notify]
    simp only [List.countP_append, hdeliver, Nat.add_zero]
    rfl
  rw [State.tracked, State.tracked, hjobs]
  rfl

/-- A snapshot is dispatched that was counted. -/
theorem dispatchPlayerFlush {pending : PendingPlayerFlush} (h : Counts (n + pending.trackedBySaveAll.toNat) s)
    (hnone : s.manager.pendingFlushes guid = none) (ok : Bool) : Counts n (s.dispatchPlayerFlush guid pending ok) := by
  rw [State.dispatchPlayerFlush]
  split
  · refine ⟨?_, h.underflows, h.off⟩
    have hjobs : State.trackedJobs { s with
        db := s.db.writePending guid pending.save, pool := s.pool ++ [(guid, pending)] } =
        s.trackedJobs + pending.trackedBySaveAll.toNat := by
      simp only [State.trackedJobs, List.countP_append, List.countP_singleton]
      cases pending.trackedBySaveAll with
      | false => simp
      | true =>
        simp
        omega
    rw [State.tracked, hjobs]
    have hcount := h.count
    rw [State.tracked] at hcount
    show s.manager.pendingSaveFlushes = s.trackedJobs + _ + s.trackedWaiting + s.phase.mapSaves + n
    omega
  · let s' : State := { s with manager := { s.manager with
      flushInFlight := s.manager.flushInFlight.erase guid
      pendingFlushes := Function.update s.manager.pendingFlushes guid none } }
    have hnone' : s'.manager.pendingFlushes guid = none := Function.update_self ..
    have hwaiting : s'.trackedWaiting = s.trackedWaiting := by
      refine trackedWaiting_flight s' (fun g hne => ⟨?_, ?_⟩) (pendingTracked_of_none hnone) (pendingTracked_of_none hnone')
      · rw [Finset.mem_erase, and_iff_right hne]
      · exact pendingTracked_congr (Function.update_of_ne hne ..)
    have hcounts : Counts (n + pending.trackedBySaveAll.toNat) s' := by
      refine h.of_eq rfl rfl rfl rfl ?_
      rw [State.tracked, hwaiting]
      rfl
    exact completeIf (hcounts.notify false)

theorem dispatchPending (h : Counts n s) {pending : PendingPlayerFlush} (hmem : guid ∈ s.manager.flushInFlight)
    (hpending : s.manager.pendingFlushes guid = some pending) (ok : Bool) :
    Counts n (s.dispatchPending guid pending ok) := by
  let s' : State := { s with manager := { s.manager with
    pendingFlushes := Function.update s.manager.pendingFlushes guid none } }
  have hnone : s'.manager.pendingFlushes guid = none := Function.update_self ..
  have hwaiting := trackedWaiting_set s' hmem rfl fun g hne => Function.update_of_ne hne ..
  rw [pendingTracked_of_some hpending, pendingTracked_of_none hnone, Bool.toNat_false, Nat.add_zero] at hwaiting
  have hcounts : Counts (n + pending.trackedBySaveAll.toNat) s' := by
    refine ⟨?_, h.underflows, h.off⟩
    have hcount := h.count
    rw [State.tracked, ← hwaiting] at hcount
    rw [State.tracked]
    show s.manager.pendingSaveFlushes = s.trackedJobs + s'.trackedWaiting + s.phase.mapSaves + _
    omega
  exact hcounts.dispatchPlayerFlush hnone ok

/-- A snapshot waits for a guid in flight; the count is ahead by what it is tracked more than the one before. -/
theorem enqueue {pending : PendingPlayerFlush} (hmem : guid ∈ s.manager.flushInFlight) {m : Nat}
    (h : Counts m s) (hm : m + (s.pendingTracked guid).toNat = n + pending.trackedBySaveAll.toNat) (ok : Bool) :
    Counts n (s.enqueue guid pending ok) := by
  have hdb : ∃ db, s.savePendingFlushToDB guid pending.save ok = { s with db := db } := by
    rw [State.savePendingFlushToDB]
    split
    · exact ⟨_, rfl⟩
    · exact ⟨s.db, rfl⟩
  obtain ⟨db, hdb⟩ := hdb
  let s' : State := { s with
    db := db
    manager := { s.manager with pendingFlushes := Function.update s.manager.pendingFlushes guid (some pending) } }
  have hsome : s'.manager.pendingFlushes guid = some pending := Function.update_self ..
  have hwaiting := trackedWaiting_set s' hmem rfl fun g hne => Function.update_of_ne hne ..
  rw [pendingTracked_of_some hsome] at hwaiting
  rw [State.enqueue, hdb]
  refine ⟨?_, h.underflows, h.off⟩
  have hcount := h.count
  rw [State.tracked] at hcount ⊢
  show s.manager.pendingSaveFlushes = s.trackedJobs + s'.trackedWaiting + s.phase.mapSaves + n
  omega

/-! ## The calls -/

theorem schedulePlayerFlush (h : Counts 0 s) (horder : s.Orderly) (save : Option Queries) (tracked ok : Bool) :
    Counts 0 (s.schedulePlayerFlush guid save tracked ok) := by
  cases save with
  | none => exact h
  | some queries =>
    have hbuilt : Counts 0 (s.built queries).2 := h.of_eq rfl rfl rfl rfl rfl
    rw [State.schedulePlayerFlush]
    split
    · rename_i hmem
      let more := tracked && !(s.built queries).2.pendingTracked guid
      have hflight : ((s.built queries).2.beginIf more).manager.flushInFlight = s.manager.flushInFlight := by
        rw [State.beginIf]
        split <;> rfl
      have hold : ((s.built queries).2.beginIf more).pendingTracked guid = (s.built queries).2.pendingTracked guid := by
        refine pendingTracked_congr ?_
        rw [State.beginIf]
        split <;> rfl
      refine enqueue (hflight ▸ hmem) (hbuilt.beginIf more) ?_ ok
      rw [hold]
      show 0 + (tracked && !(s.built queries).2.pendingTracked guid).toNat + _ = _
      cases tracked <;> cases (s.built queries).2.pendingTracked guid <;> rfl
    · rename_i hnot
      have hnone : s.manager.pendingFlushes guid = none :=
        Option.map_eq_none_iff.mp ((horder guid).grounded (State.lines_grounded.mpr hnot)).2
      have hinsert : Counts 0 ((s.built queries).2.insertInFlight guid) := by
        refine hbuilt.of_eq rfl rfl rfl rfl ?_
        have hwaiting : ((s.built queries).2.insertInFlight guid).trackedWaiting = (s.built queries).2.trackedWaiting := by
          refine trackedWaiting_flight _ (fun g hne => ⟨?_, rfl⟩) (pendingTracked_of_none hnone)
            (pendingTracked_of_none hnone)
          rw [State.insertInFlight, Finset.mem_insert, or_iff_right hne]
        rw [State.tracked, hwaiting]
        rfl
      have hpending : (((s.built queries).2.insertInFlight guid).beginIf tracked).manager.pendingFlushes guid = none := by
        rw [State.beginIf]
        split <;> exact hnone
      exact dispatchPlayerFlush (hinsert.beginIf tracked) hpending ok

theorem savePlayerSync (h : Counts 0 s) (horder : s.Orderly) (save : Option Queries) (committed ok : Bool) :
    Counts 0 (s.savePlayerSync guid save committed ok) := by
  cases save with
  | none => exact h
  | some queries =>
    have hbuilt : Counts 0 (s.built queries).2 := h.of_eq rfl rfl rfl rfl rfl
    rw [State.savePlayerSync]
    split
    · rename_i hmem
      exact enqueue hmem hbuilt rfl ok
    · rename_i hnot
      have hnone : s.manager.pendingFlushes guid = none :=
        Option.map_eq_none_iff.mp ((horder guid).grounded (State.lines_grounded.mpr hnot)).2
      have hset : (insert guid s.manager.flushInFlight).erase guid = s.manager.flushInFlight := Finset.erase_insert hnot
      simp only [State.built, State.resume, hnone, hset]
      exact hbuilt.of_eq rfl rfl rfl rfl rfl

/-- The task that reports a flush was taken off the queue. -/
theorem onPlayerFlushed {tracked success : Bool} (h : Counts tracked.toNat s)
    (hpending : ∀ pending, s.manager.pendingFlushes guid = some pending → guid ∈ s.manager.flushInFlight)
    (ok deleted : Bool) : Counts 0 (s.onPlayerFlushed guid tracked success ok deleted) := by
  have hcomplete : Counts 0 { s with manager := s.manager.completeIf tracked } := by
    refine completeIf ?_
    rwa [Nat.zero_add]
  rw [State.onPlayerFlushed]
  split
  · rename_i hnone
    let s' : State := { s with
      manager := { s.manager.completeIf tracked with
        flushInFlight := (s.manager.completeIf tracked).flushInFlight.erase guid }
      db := if success && deleted then s.db.deletePending guid else s.db }
    have hwaiting : s'.trackedWaiting = State.trackedWaiting { s with manager := s.manager.completeIf tracked } := by
      refine trackedWaiting_flight s' (fun g hne => ⟨?_, rfl⟩) (pendingTracked_of_none hnone) (pendingTracked_of_none hnone)
      rw [Finset.mem_erase, and_iff_right hne]
    have hcounts : Counts 0 s' := by
      refine hcomplete.of_eq rfl rfl rfl rfl ?_
      rw [State.tracked, hwaiting]
      rfl
    exact hcounts.notify success
  · rename_i pending hsome
    refine hcomplete.dispatchPending ?_ hsome ok
    rw [completeIf_pendingFlushes] at hsome
    rw [completeIf_flushInFlight]
    exact hpending pending hsome

theorem runTask (h : Counts 0 s) (horder : s.Orderly) (ok deleted : Bool) : Counts 0 (s.runTask ok deleted) := by
  rw [State.runTask]
  split
  · exact h
  · rename_i guid tracked success save rest htasks
    have htask : Counts tracked.toNat { s with tasks := rest } := by
      refine ⟨?_, h.underflows, h.off⟩
      have hcount := h.count
      simp only [State.tracked, State.trackedJobs, htasks, List.countP_cons, Task.tracked] at hcount ⊢
      show s.manager.pendingSaveFlushes = _ + _ + s.trackedWaiting + _ + _
      cases tracked <;> simp at hcount ⊢ <;> omega
    exact htask.onPlayerFlushed (fun pending hsome => horder.mem_flushInFlight hsome) ok deleted
  · rename_i guid callback rest htasks
    have hrest : Counts 0 { s with tasks := rest } := by
      refine h.of_eq rfl rfl rfl rfl ?_
      simp [State.tracked, State.trackedJobs, htasks, Task.tracked]
      rfl
    rw [State.drain]
    split
    · exact hrest.of_eq rfl rfl rfl rfl rfl
    · refine hrest.of_eq rfl rfl rfl rfl ?_
      simp [State.tracked, State.trackedJobs, Task.tracked]
      rfl
  · rename_i rest htasks
    refine h.of_eq rfl rfl rfl rfl ?_
    simp [State.tracked, State.trackedJobs, htasks, Task.tracked]
    rfl

theorem poolFlush (h : Counts 0 s) (i : Nat) (success : Bool) : Counts 0 (s.poolFlush i success) := by
  rw [State.poolFlush]
  split
  · exact h
  · rename_i guid pending hjob
    obtain ⟨hi, hget⟩ := List.getElem?_eq_some_iff.mp hjob
    have hpool : s.pool = s.pool.take i ++ (guid, pending) :: s.pool.drop (i + 1) := by
      rw [← hget, ← List.drop_eq_getElem_cons hi, List.take_append_drop]
    refine h.of_eq rfl rfl rfl rfl ?_
    have hjobs : (s.pool.eraseIdx i).countP (·.2.trackedBySaveAll) + pending.trackedBySaveAll.toNat =
        s.pool.countP (·.2.trackedBySaveAll) := by
      rw [List.eraseIdx_eq_take_drop_succ]
      conv_rhs => rw [hpool]
      simp only [List.countP_append, List.countP_cons]
      cases pending.trackedBySaveAll with
      | false => simp
      | true =>
        simp
        omega
    simp only [State.tracked, State.trackedJobs, List.countP_append, List.countP_singleton, Task.tracked, ← hjobs]
    show _ + _ + s.trackedWaiting + _ = _ + _ + s.trackedWaiting + _
    cases pending.trackedBySaveAll with
    | false => simp
    | true =>
      simp
      omega

theorem saveAll (h : Counts 0 s) (hidle : s.phase = .idle) (nowMs : Int) (players : List (Guid × Option Queries)) :
    Counts 0 (s.saveAll nowMs players) := by
  rw [State.saveAll]
  split_ifs
  · exact h
  · exact ⟨h.count, h.underflows, fun _ _ => rfl⟩
  · refine ⟨?_, h.underflows, fun hphase => by cases hphase⟩
    have hcount := h.count
    rw [State.tracked, hidle] at hcount
    exact hcount

theorem saveNext (h : Counts 0 s) (horder : s.Orderly) (ok : Bool) : Counts 0 (s.saveNext ok) := by
  rw [State.saveNext]
  split
  · rename_i hphase
    refine ⟨?_, h.underflows, fun hidle => by cases hidle⟩
    have hcount := h.count
    rw [State.tracked, hphase] at hcount
    exact congrArg (· + 1) hcount
  · rename_i guid save rest hphase
    have hrest : Counts 0 { s with phase := .savingPlayers rest } := by
      refine ⟨?_, h.underflows, fun hidle => by cases hidle⟩
      have hcount := h.count
      rw [State.tracked, hphase] at hcount
      exact hcount
    exact hrest.schedulePlayerFlush horder save true ok
  · exact h

theorem mapSaved (h : Counts 0 s) (hphase : s.phase = .savingMap) :
    Counts 0 { s with manager := s.manager.completeTrackedFlush, phase := .idle } := by
  have hcount := h.count
  rw [State.tracked, hphase] at hcount
  have hmap : Counts (0 + true.toNat) { s with phase := .idle } := by
    refine ⟨hcount, h.underflows, fun _ hzero => ?_⟩
    rw [hcount] at hzero
    exact absurd hzero (by simp [Phase.mapSaves])
  exact hmap.completeIf

theorem recoverPendingFlushes (replay : Guid → Replay) (guids : List Guid) : ∀ {s : State}, Counts 0 s →
    Counts 0 (recoverPendingFlushes guids replay s) := by
  induction guids with
  | nil => exact fun h => h
  | cons guid guids ih =>
    intro s h
    refine ih ?_
    rw [recoverGuid]
    split
    · exact h
    · split
      all_goals exact h.of_eq rfl rfl rfl rfl rfl

theorem step (h : Counts 0 s) (horder : s.Orderly) (e : Event) : Counts 0 (step s e) := by
  cases e with
  | saveAll nowMs players =>
    rw [Save.step]
    split
    · rename_i hidle
      exact h.saveAll hidle nowMs players
    · exact h
  | saveNext ok => exact h.saveNext horder ok
  | mapSaved =>
    rw [Save.step]
    split
    · rename_i hphase
      exact h.mapSaved hphase
    · exact h
  | savePlayer guid save ok =>
    rw [Save.step]
    split
    · exact h.schedulePlayerFlush horder save false ok
    · exact h
  | savePlayerSync guid save committed ok =>
    rw [Save.step]
    split
    · exact h.savePlayerSync horder save committed ok
    · exact h
  | drainPlayerFlushAsync guid callback =>
    refine h.of_eq rfl rfl rfl rfl ?_
    simp [Save.step, State.tracked, State.trackedJobs, Task.tracked]
    rfl
  | poolFlush i success => exact h.poolFlush i success
  | runTask ok deleted =>
    rw [Save.step]
    split
    · exact h.runTask horder ok deleted
    · exact h
  | restart guids replay => exact recoverPendingFlushes replay guids ⟨rfl, rfl, fun _ _ => rfl⟩

end State.Counts

/-! ## Runs -/

/-- What the members of the manager say about the flushes. -/
structure Accounted (s : State) : Prop where
  count : s.manager.pendingSaveFlushes = s.tracked
  underflows : s.manager.underflows = 0
  pending : ∀ guid, s.manager.pendingFlushes guid ≠ none → guid ∈ s.manager.flushInFlight
  dispatched : ∀ guid ∈ s.manager.flushInFlight, (s.flights guid).length = 1
  saving : s.phase = .idle → s.manager.pendingSaveFlushes = 0 → s.manager.saving = false

/-- In every state that is reached. -/
theorem accounted_run (es : List Event) : Accounted (es.foldl step {}) := by
  have hrun (es : List Event) : ∀ s : State, s.Orderly → s.Counts 0 →
      (es.foldl step s).Orderly ∧ (es.foldl step s).Counts 0 := by
    induction es with
    | nil => exact fun s horder hcounts => ⟨horder, hcounts⟩
    | cons e es ih => exact fun s horder hcounts => ih (step s e) (horder.step e) (hcounts.step horder e)
  obtain ⟨horder, hcounts⟩ := hrun es {} orderly_new ⟨rfl, rfl, fun _ _ => rfl⟩
  refine ⟨hcounts.count, hcounts.underflows, fun guid hne => ?_, fun guid hmem => ?_, hcounts.off⟩
  · obtain ⟨pending, hpending⟩ := Option.ne_none_iff_exists'.mp hne
    exact horder.mem_flushInFlight hpending
  · obtain ⟨f, hone⟩ := (horder guid).flying (State.lines_inFlight.mpr hmem)
    exact congrArg List.length hone

end ForgottenServer.Save
