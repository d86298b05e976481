import ForgottenServer.Reactor.Steps
import ForgottenServer.Lib.Runs

/-! # Where the tasks of a reactor are

A task that was accepted is in an inbox, in the heap or in the ready list, until its callback starts or it is dropped.
`Log` keeps what happened in a run, and `Accounted` says that nothing is lost or doubled. -/

namespace ForgottenServer.Reactor

/-! ## Runs -/

/-- A callback that started: the number of the `runOnce` it started in, and the clock. -/
structure Start where
  run : Nat
  clock : Int
  task : Task

/-- What happened so far; `runs` counts the calls of `runOnce` that have begun, and a cancelled task is kept with the
number of the `runOnce` its cancellation came in or after. -/
structure Log where
  clock : Int
  runs : Nat := 0
  accepted : List Task := []
  started : List Start := []
  lost : List Task := []
  cancels : List Nat := []
  targets : List (Nat × Task) := []

structure Run where
  state : State
  log : Log

/-- The latest clock reading. -/
def Log.tick (log : Log) (e : Event) : Int := e.reading.getD log.clock

def Run.step (r : Run) (e : Event) : Run where
  state := Reactor.step r.state e
  log :=
    { clock := r.log.tick e
      runs := r.log.runs + (begins r.state e).toNat
      accepted := r.log.accepted ++ accepts r.state e
      started := r.log.started ++ (starts r.state e).map (⟨r.log.runs, r.log.tick e, ·⟩)
      lost := r.log.lost ++ loses r.state e
      cancels := r.log.cancels ++ cancels r.state e
      targets := r.log.targets ++ (targets r.state e).map (r.log.runs, ·) }

def Run.new (clock : Int) : Run := ⟨{}, { clock }⟩

/-! ## Nothing is lost or doubled -/

/-- Every accepted task is in one place, started, or dropped. -/
structure Accounted (r : Run) : Prop where
  perm : r.log.accepted.Perm (r.state.places ++ r.log.started.map (·.task) ++ r.log.lost)
  sequences : (r.log.accepted.map (·.sequence)).Nodup
  fresh : ∀ task ∈ r.log.accepted, task.sequence < r.state.nextSequence
  functions : ∀ task ∈ r.log.accepted, task.function = true
  counts : r.state.phase.Counts
  scheduled : ∀ task, task ∈ r.state.scheduleInbox ∨ task ∈ r.state.taskHeap →
    task.identifier ≠ 0 ∧ task.deadline = distantFuture
  cancelled : ∀ identifier, identifier ∈ r.state.cancelInbox ∨ identifier ∈ r.state.cancelled →
    identifier ∈ r.log.cancels
  lost : ∀ task ∈ r.log.lost, task.deadline ≠ distantFuture ∨ task.identifier ∈ r.log.cancels
  zero : 0 ∉ r.log.cancels

theorem Accounted.mem_accepted {r : Run} (h : Accounted r) {task : Task} (hmem : task ∈ r.state.places) :
    task ∈ r.log.accepted :=
  h.perm.mem_iff.mpr (List.mem_append_left _ (List.mem_append_left _ hmem))

theorem Accounted.regular {r : Run} (h : Accounted r) : r.state.Regular :=
  ⟨fun task hmem => h.functions task (h.mem_accepted hmem), h.counts⟩

theorem Accounted.step {r : Run} (h : Accounted r) (e : Event) : Accounted (r.step e) := by
  have hperm := perm_places_step h.regular e
  refine ⟨?_, ?_, fun task hmem => ?_, fun task hmem => ?_, counts_step h.counts e, fun task hmem => ?_,
    fun identifier hmem => ?_, fun task hmem => ?_, fun hmem => ?_⟩
  · rw [List.perm_iff_count]
    intro task
    have hbefore := h.perm.count_eq task
    have hmoved := hperm.count_eq task
    simp only [List.count_append] at hbefore hmoved
    simp only [Run.step, List.map_append, List.map_map, Function.comp_def, List.map_id', List.count_append]
    omega
  · show ((r.log.accepted ++ accepts r.state e).map (·.sequence)).Nodup
    rcases accepts_cases r.state e with hnone | ⟨task, htask, hseq, -, -⟩
    · rw [hnone, List.append_nil]
      exact h.sequences
    · rw [htask, List.map_append, List.nodup_append]
      refine ⟨h.sequences, List.nodup_singleton _, ?_⟩
      rintro a ha b hb rfl
      obtain ⟨old, hold, rfl⟩ := List.mem_map.mp ha
      have hlt := h.fresh old hold
      rw [List.map_cons, List.map_nil, List.mem_singleton, hseq] at hb
      omega
  · have hle := le_nextSequence_step r.state e
    rcases List.mem_append.mp hmem with hold | hnew
    · exact (h.fresh task hold).trans_le hle
    · rcases accepts_cases r.state e with hnone | ⟨task', htask, hseq, -, hnext⟩
      · rw [hnone] at hnew
        cases hnew
      · rw [htask, List.mem_singleton] at hnew
        show task.sequence < (Reactor.step r.state e).nextSequence
        rw [hnew, hseq, hnext]
        exact Nat.lt_succ_self _
  · rcases List.mem_append.mp hmem with hold | hnew
    · exact h.functions task hold
    · rcases accepts_cases r.state e with hnone | ⟨task', htask, -, hfunction, -⟩
      · rw [hnone] at hnew
        cases hnew
      · rw [htask, List.mem_singleton] at hnew
        rw [hnew, hfunction]
  · rcases mem_scheduled_step hmem with hold | ⟨-, hid, hdeadline⟩
    · exact h.scheduled task hold
    · exact ⟨hid ▸ issue_ne_zero r.state, hdeadline⟩
  · refine List.mem_append.mpr ?_
    exact (mem_cancelled_step hmem).imp_left (h.cancelled identifier)
  · rcases List.mem_append.mp hmem with hold | hnew
    · exact (h.lost task hold).imp_right fun hin => List.mem_append_left _ hin
    · exact (mem_loses hnew).imp_right fun hin => List.mem_append_left _ (h.cancelled _ (.inr hin))
  · rcases List.mem_append.mp hmem with hold | hnew
    · exact h.zero hold
    · exact zero_notMem_cancels r.state e hnew

theorem accounted_new (clock : Int) : Accounted (Run.new clock) where
  perm := .nil
  sequences := .nil
  fresh task hmem := absurd hmem List.not_mem_nil
  functions task hmem := absurd hmem List.not_mem_nil
  counts cycle hcycle := by cases hcycle
  scheduled task hmem := by rcases hmem with hmem | hmem <;> cases hmem
  cancelled identifier hmem := by rcases hmem with hmem | hmem <;> cases hmem
  lost task hmem := absurd hmem List.not_mem_nil
  zero := List.not_mem_nil

end ForgottenServer.Reactor
