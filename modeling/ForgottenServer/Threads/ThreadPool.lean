import ForgottenServer.Lib.Runs
import ForgottenServer.Lib.Wakeups

/-! # The thread pool

Tasks of any type go through a queue to the workers. What is done under the lock is one step; between these, threads take
their steps in any order. `start` and `shutdown` are called by one thread. -/

namespace ForgottenServer.Threads
open Wakeups

/-- Where a worker is: about to look at the queue, in `condition.wait`, in a task, or returned. -/
inductive Worker (T : Type) where
  | awake
  | asleep
  | running (task : T)
  | exited
  deriving DecidableEq, Repr

/-- What the thread that starts and stops the pool has still to do. -/
inductive Caller where
  | idle
  /-- Workers still to be made by `start`. -/
  | starting (left : Nat)
  /-- `stopped` is set; `notify_all` comes next. -/
  | stopping
  /-- The workers are joined. -/
  | joining
  deriving DecidableEq, Repr

/-- `notifies`: the calls of `notify_one` that are still to come. The last three fields only tell what happened. -/
structure Pool (T : Type) where
  taskQueue : List T := []
  stopped : Bool := false
  threadCount : Nat := 0
  workers : List (Worker T) := []
  notifies : Nat := 0
  caller : Caller := .idle
  accepted : List T := []
  started : List T := []
  finished : List T := []
  deriving DecidableEq, Repr

def DEFAULT_MIN_THREADS : Nat := 4

inductive Event (T : Type) where
  | start (requestedThreads hardwareConcurrency : Nat)
  | spawn
  | shutdown
  | notifyAll
  | join
  /-- `detach_task`, or `submit_task`, which throws where `detach_task` returns. -/
  | detachTask (task : Option T)
  /-- A `notify_one` comes, and wakes a worker if one sleeps. -/
  | notifyOne (worker : Nat)
  /-- `condition.wait` returns without a notification. -/
  | wakeup (worker : Nat)
  /-- A worker looks at the queue. -/
  | look (worker : Nat)
  /-- The task of a worker returns or throws. -/
  | finish (worker : Nat)
  deriving DecidableEq, Repr

variable {T : Type}

/-- The steps that the threads take by themselves: of workers, and of who added a task. -/
def Event.Own : Event T → Prop
  | .notifyOne _ | .look _ | .finish _ => True
  | _ => False

def Worker.isAsleep : Worker T → Bool
  | .asleep => true
  | _ => false

def Worker.isAwake : Worker T → Bool
  | .awake => true
  | _ => false

def Worker.isRunning : Worker T → Bool
  | .running _ => true
  | _ => false

def Worker.isExited : Worker T → Bool
  | .exited => true
  | _ => false

def Worker.task : Worker T → Option T
  | .running task => some task
  | _ => none

def Worker.wake : Worker T → Worker T
  | .asleep => .awake
  | worker => worker

namespace Pool

def setWorker (s : Pool T) (i : Nat) (worker : Worker T) : Pool T := { s with workers := s.workers.set i worker }

def start (s : Pool T) (requestedThreads hardwareConcurrency : Nat) : Pool T :=
  -- start() called while already running
  if !s.workers.isEmpty && !s.stopped then s
  else
    let threadCount := if requestedThreads = 0 then max hardwareConcurrency DEFAULT_MIN_THREADS else max requestedThreads 1
    { s with stopped := false, threadCount, caller := .starting threadCount }

def spawn (s : Pool T) (left : Nat) : Pool T :=
  { s with
    workers := s.workers ++ [.awake]
    caller := if left = 1 then .idle else .starting (left - 1) }

def detachTask (s : Pool T) : Option T → Pool T
  | none => s
  | some task =>
    if s.stopped then s
    else { s with taskQueue := s.taskQueue ++ [task], notifies := s.notifies + 1, accepted := s.accepted ++ [task] }

def notifyOne (s : Pool T) (i : Nat) : Pool T :=
  if s.notifies = 0 then s
  else if s.workers[i]?.any Worker.isAsleep then { s.setWorker i .awake with notifies := s.notifies - 1 }
  else if s.workers.any Worker.isAsleep then s
  else { s with notifies := s.notifies - 1 }

/-- `workerMain`, from the lock to the task. -/
def look (s : Pool T) (i : Nat) : Pool T :=
  if s.workers[i]?.any Worker.isAwake then
    match s.taskQueue with
    | [] => if s.stopped then s.setWorker i .exited else s.setWorker i .asleep
    | task :: taskQueue => { s.setWorker i (.running task) with taskQueue, started := s.started ++ [task] }
  else s

def finish (s : Pool T) (i : Nat) : Pool T :=
  match s.workers[i]?.bind Worker.task with
  | some task => { s.setWorker i .awake with finished := s.finished ++ [task] }
  | none => s

/-- A step that is not possible leaves the pool as it is. -/
def step (s : Pool T) : Event T → Pool T
  | .start requestedThreads hardwareConcurrency =>
    if s.caller = .idle then s.start requestedThreads hardwareConcurrency else s
  | .spawn =>
    match s.caller with
    | .starting left => s.spawn left
    | _ => s
  | .shutdown =>
    -- already stopped
    if s.caller = .idle ∧ s.stopped = false then { s with stopped := true, caller := .stopping } else s
  | .notifyAll =>
    if s.caller = .stopping then { s with workers := s.workers.map Worker.wake, caller := .joining } else s
  | .join =>
    if s.caller = .joining ∧ s.workers.all Worker.isExited then { s with workers := [], caller := .idle } else s
  | .detachTask task => s.detachTask task
  | .notifyOne i => s.notifyOne i
  | .wakeup i => if s.workers[i]?.any Worker.isAsleep then s.setWorker i .awake else s
  | .look i => s.look i
  | .finish i => s.finish i

/-! ## What the steps of a worker do -/

theorem any_eq_true {workers : List (Worker T)} {i : Nat} {p : Worker T → Bool} (h : workers[i]?.any p = true) :
    ∃ worker, workers[i]? = some worker ∧ p worker = true := by
  cases hworker : workers[i]? with
  | none =>
    rw [hworker] at h
    cases h
  | some worker =>
    rw [hworker] at h
    exact ⟨worker, rfl, h⟩

/-- A worker that changes: the others stay as they are. -/
theorem setWorker_perm {s : Pool T} {i : Nat} {old : Worker T} (h : s.workers[i]? = some old) :
    ∃ others, s.workers.Perm (old :: others) ∧ ∀ new, (s.setWorker i new).workers.Perm (new :: others) := by
  obtain ⟨hi, rfl⟩ := List.getElem?_eq_some_iff.mp h
  exact ⟨s.workers.eraseIdx i, (List.getElem_cons_eraseIdx_perm hi).symm, fun new =>
    List.set_perm_cons_eraseIdx hi new⟩

theorem awake_eq {worker : Worker T} (h : worker.isAwake = true) : worker = .awake := by
  cases worker <;> first | rfl | cases h

theorem asleep_eq {worker : Worker T} (h : worker.isAsleep = true) : worker = .asleep := by
  cases worker <;> first | rfl | cases h

/-- A worker that looks takes the first task, or leaves when the pool is stopped, or goes to sleep. -/
inductive Looked (s : Pool T) (others : List (Worker T)) : Pool T → Prop where
  | take (task : T) (taskQueue : List T) (workers : List (Worker T)) (hqueue : s.taskQueue = task :: taskQueue)
    (hperm : workers.Perm (.running task :: others)) :
    Looked s others { s with workers, taskQueue, started := s.started ++ [task] }
  | leave (workers : List (Worker T)) (hqueue : s.taskQueue = []) (hstopped : s.stopped = true)
    (hperm : workers.Perm (.exited :: others)) : Looked s others { s with workers }
  | sleep (workers : List (Worker T)) (hqueue : s.taskQueue = []) (hrunning : s.stopped = false)
    (hperm : workers.Perm (.asleep :: others)) : Looked s others { s with workers }

theorem look_cases (s : Pool T) (i : Nat) :
    s.look i = s ∨ ∃ others, s.workers.Perm (.awake :: others) ∧ Looked s others (s.look i) := by
  unfold look
  by_cases hlooks : s.workers[i]?.any Worker.isAwake = true
  · obtain ⟨worker, hworker, hawake⟩ := any_eq_true hlooks
    obtain rfl := awake_eq hawake
    obtain ⟨others, hperm, hset⟩ := setWorker_perm hworker
    rw [if_pos hlooks]
    refine .inr ⟨others, hperm, ?_⟩
    cases hqueue : s.taskQueue with
    | nil =>
      cases hstopped : s.stopped with
      | true => exact .leave _ hqueue hstopped (hset _)
      | false => exact .sleep _ hqueue hstopped (hset _)
    | cons task taskQueue => exact .take task taskQueue _ hqueue (hset _)
  · exact .inl (if_neg hlooks)

theorem finish_cases (s : Pool T) (i : Nat) :
    s.finish i = s ∨ ∃ task others workers, s.workers.Perm (.running task :: others) ∧ workers.Perm (.awake :: others) ∧
      s.finish i = { s with workers, finished := s.finished ++ [task] } := by
  unfold finish
  cases htask : s.workers[i]?.bind Worker.task with
  | none => exact .inl rfl
  | some task =>
    obtain ⟨worker, hworker, hruns⟩ := Option.bind_eq_some_iff.mp htask
    obtain rfl : worker = .running task := by
      cases worker <;> first | exact congrArg _ (Option.some.inj hruns) | cases hruns
    obtain ⟨others, hperm, hset⟩ := setWorker_perm hworker
    exact .inr ⟨task, others, _, hperm, hset _, rfl⟩

/-- A notification wakes a worker, or there was none to wake. -/
theorem notifyOne_cases (s : Pool T) (i : Nat) :
    s.notifyOne i = s ∨ 0 < s.notifies ∧
      ((∃ others workers, s.workers.Perm (.asleep :: others) ∧ workers.Perm (.awake :: others) ∧
          s.notifyOne i = { s with workers, notifies := s.notifies - 1 }) ∨
        (∀ worker ∈ s.workers, worker.isAsleep = false) ∧ s.notifyOne i = { s with notifies := s.notifies - 1 }) := by
  unfold notifyOne
  by_cases hnone : s.notifies = 0
  · exact .inl (if_pos hnone)
  rw [if_neg hnone]
  by_cases hsleeps : s.workers[i]?.any Worker.isAsleep = true
  · obtain ⟨worker, hworker, hasleep⟩ := any_eq_true hsleeps
    obtain rfl := asleep_eq hasleep
    obtain ⟨others, hperm, hset⟩ := setWorker_perm hworker
    rw [if_pos hsleeps]
    exact .inr ⟨Nat.pos_of_ne_zero hnone, .inl ⟨others, _, hperm, hset _, rfl⟩⟩
  · rw [if_neg hsleeps]
    by_cases hother : s.workers.any Worker.isAsleep = true
    · exact .inl (if_pos hother)
    · rw [if_neg hother]
      refine .inr ⟨Nat.pos_of_ne_zero hnone, .inr ⟨fun worker hworker => ?_, rfl⟩⟩
      cases hasleep : worker.isAsleep with
      | false => rfl
      | true => exact absurd (List.any_eq_true.mpr ⟨worker, hworker, hasleep⟩) hother

/-! ## The counts -/

def counts (s : Pool T) : Counts where
  awake := s.workers.countP Worker.isAwake
  asleep := s.workers.countP Worker.isAsleep
  busy := s.workers.countP Worker.isRunning
  notifies := s.notifies
  work := s.taskQueue.length

theorem countP_perm {workers others : List (Worker T)} {worker : Worker T} (h : workers.Perm (worker :: others))
    (p : Worker T → Bool) : workers.countP p = others.countP p + if p worker then 1 else 0 := by
  rw [h.countP_eq, List.countP_cons]

theorem countP_pos {workers others : List (Worker T)} {worker : Worker T} (h : workers.Perm (worker :: others))
    {p : Worker T → Bool} (hp : p worker = true) : 0 < workers.countP p :=
  List.countP_pos_iff.mpr ⟨worker, h.mem_iff.mpr List.mem_cons_self, hp⟩

theorem counts_look (s : Pool T) (i : Nat) : s.look i = s ∨ Step s.counts (s.look i).counts := by
  obtain hsame | ⟨others, hperm, hlooked⟩ := s.look_cases i
  · exact .inl hsame
  refine .inr ?_
  have hbefore := countP_perm hperm
  have hawake : 0 < s.counts.awake := countP_pos hperm rfl
  generalize s.look i = after at hlooked
  cases hlooked with
  | take task taskQueue workers hqueue hafter =>
    have hcount := countP_perm hafter
    convert Step.take hawake (by rw [counts, hqueue]; exact Nat.succ_pos _) using 1
    simp [counts, hbefore, hcount, hqueue, Worker.isAwake, Worker.isAsleep, Worker.isRunning]
  | leave workers hqueue hstopped hafter =>
    have hcount := countP_perm hafter
    convert Step.leave hawake (by rw [counts, hqueue]; rfl) using 1
    simp [counts, hbefore, hcount, hqueue, Worker.isAwake, Worker.isAsleep, Worker.isRunning]
  | sleep workers hqueue hrunning hafter =>
    have hcount := countP_perm hafter
    convert Step.sleep hawake (by rw [counts, hqueue]; rfl) using 1
    simp [counts, hbefore, hcount, hqueue, Worker.isAwake, Worker.isAsleep, Worker.isRunning]

theorem counts_finish (s : Pool T) (i : Nat) : s.finish i = s ∨ Step s.counts (s.finish i).counts := by
  obtain hsame | ⟨task, others, workers, hperm, hafter, heq⟩ := s.finish_cases i
  · exact .inl hsame
  refine .inr ?_
  have hbefore := countP_perm hperm
  have hcount := countP_perm hafter
  have hbusy : 0 < s.counts.busy := countP_pos hperm rfl
  rw [heq]
  convert Step.finish hbusy using 1
  simp [counts, hbefore, hcount, Worker.isAwake, Worker.isAsleep, Worker.isRunning]

theorem counts_notifyOne (s : Pool T) (i : Nat) : s.notifyOne i = s ∨ Step s.counts (s.notifyOne i).counts := by
  obtain hsame | ⟨hnotify, ⟨others, workers, hperm, hafter, heq⟩ | ⟨hnone, heq⟩⟩ := s.notifyOne_cases i
  · exact .inl hsame
  · have hbefore := countP_perm hperm
    have hcount := countP_perm hafter
    have hsome : 0 < s.counts.asleep := countP_pos hperm rfl
    refine .inr ?_
    rw [heq]
    convert Step.notify (c := s.counts) hnotify hsome using 1
    simp [counts, hbefore, hcount, Worker.isAwake, Worker.isAsleep, Worker.isRunning]
  · have hzero : s.counts.asleep = 0 := by
      rw [counts, List.countP_eq_zero]
      intro worker hworker
      rw [hnone worker hworker]
      exact Bool.false_ne_true
    refine .inr ?_
    rw [heq]
    exact Step.waste hnotify hzero

/-! ## The invariant -/

/-- What holds of the thread that starts and stops the pool. -/
def Called (s : Pool T) : Prop :=
  match s.caller with
  | .idle => s.stopped = true → s.workers = []
  | .starting left => s.stopped = false ∧ 0 < left
  | .stopping | .joining => s.stopped = true

structure Kept (s : Pool T) : Prop where
  order : s.accepted = s.started ++ s.taskQueue
  ran : s.started.Perm (s.finished ++ s.workers.filterMap Worker.task)
  covered : s.counts.Covered
  exited : ∀ worker ∈ s.workers, worker.isExited = true → s.stopped = true ∧ s.taskQueue = []
  woken : s.stopped = true → s.caller ≠ .stopping → ∀ worker ∈ s.workers, worker.isAsleep = false
  called : s.Called

theorem kept_new : ({} : Pool T).Kept := by
  refine ⟨rfl, List.Perm.refl _, .inl rfl, fun worker hworker => ?_, fun _ _ worker hworker => ?_, fun h => by cases h⟩
  · cases hworker
  · cases hworker

variable {s : Pool T}

theorem Called.worker {after : Pool T} (h : s.Called) (hsome : s.workers ≠ []) (hcaller : after.caller = s.caller)
    (hstopped : after.stopped = s.stopped) : after.Called := by
  unfold Called at *
  rw [hcaller, hstopped]
  cases hwhere : s.caller with
  | idle =>
    rw [hwhere] at h
    exact fun hs => absurd (h hs) hsome
  | starting left => rwa [hwhere] at h
  | stopping => rwa [hwhere] at h
  | joining => rwa [hwhere] at h

theorem ne_nil_of_perm {workers others : List (Worker T)} {worker : Worker T} (h : workers.Perm (worker :: others)) :
    workers ≠ [] := by
  rintro rfl
  exact absurd h.length_eq (by simp)

/-- A worker that changes without going to sleep. -/
theorem Kept.awoken (h : s.Kept) {workers others : List (Worker T)} {old new : Worker T}
    (hperm : s.workers.Perm (old :: others)) (hafter : workers.Perm (new :: others)) (hnew : new.isAsleep = false)
    (hstopped : s.stopped = true) (hcaller : s.caller ≠ .stopping) : ∀ worker ∈ workers, worker.isAsleep = false := by
  intro worker hworker
  obtain rfl | hother := List.mem_cons.mp (hafter.mem_iff.mp hworker)
  · exact hnew
  · exact h.woken hstopped hcaller worker (hperm.mem_iff.mpr (List.mem_cons_of_mem _ hother))

/-- A worker that changes without leaving. -/
theorem Kept.stayed (h : s.Kept) {workers others : List (Worker T)} {old new : Worker T}
    (hperm : s.workers.Perm (old :: others)) (hafter : workers.Perm (new :: others)) (hnew : new.isExited = false) :
    ∀ worker ∈ workers, worker.isExited = true → s.stopped = true ∧ s.taskQueue = [] := by
  intro worker hworker hexited
  obtain rfl | hother := List.mem_cons.mp (hafter.mem_iff.mp hworker)
  · rw [hnew] at hexited
    cases hexited
  · exact h.exited worker (hperm.mem_iff.mpr (List.mem_cons_of_mem _ hother)) hexited

theorem Kept.look (h : s.Kept) (i : Nat) : (s.look i).Kept := by
  obtain hsame | ⟨others, hperm, hlooked⟩ := s.look_cases i
  · rwa [hsame]
  have hcovered : (s.look i).counts.Covered := by
    obtain hsame | hstep := s.counts_look i
    · rw [hsame]
      exact h.covered
    · exact h.covered.step hstep
  have hran := h.ran.trans ((hperm.filterMap Worker.task).append_left s.finished)
  have hsome := ne_nil_of_perm hperm
  generalize s.look i = after at hlooked hcovered
  cases hlooked with
  | take task taskQueue workers hqueue hafter =>
    refine ⟨?_, ?_, hcovered, fun worker hworker hexited => ?_, fun hstopped hcaller => h.awoken hperm hafter rfl hstopped
      hcaller, h.called.worker hsome rfl rfl⟩
    · rw [h.order, hqueue, List.append_assoc]
      rfl
    · refine (hran.append_right [task]).trans (List.Perm.trans ?_ ((hafter.symm.filterMap Worker.task).append_left _))
      rw [List.append_assoc]
      exact (List.perm_append_singleton task _).append_left _
    · have hempty := (h.stayed hperm hafter rfl worker hworker hexited).2
      rw [hqueue] at hempty
      cases hempty
  | leave workers hqueue hstopped hafter =>
    exact ⟨h.order, hran.trans ((hafter.symm.filterMap Worker.task).append_left _), hcovered,
      fun _ _ _ => ⟨hstopped, hqueue⟩, fun hstopped hcaller => h.awoken hperm hafter rfl hstopped hcaller,
      h.called.worker hsome rfl rfl⟩
  | sleep workers hqueue hrunning hafter =>
    refine ⟨h.order, hran.trans ((hafter.symm.filterMap Worker.task).append_left _), hcovered,
      h.stayed hperm hafter rfl, fun hstopped => ?_, h.called.worker hsome rfl rfl⟩
    rw [hrunning] at hstopped
    cases hstopped

theorem Kept.finish (h : s.Kept) (i : Nat) : (s.finish i).Kept := by
  have hcovered : (s.finish i).counts.Covered := by
    obtain hsame | hstep := s.counts_finish i
    · rw [hsame]
      exact h.covered
    · exact h.covered.step hstep
  obtain hsame | ⟨task, others, workers, hperm, hafter, heq⟩ := s.finish_cases i
  · rwa [hsame]
  rw [heq] at hcovered ⊢
  refine ⟨h.order, ?_, hcovered, h.stayed hperm hafter rfl,
    fun hstopped hcaller => h.awoken hperm hafter rfl hstopped hcaller, h.called.worker (ne_nil_of_perm hperm) rfl rfl⟩
  refine h.ran.trans (((hperm.filterMap Worker.task).append_left s.finished).trans ?_)
  refine List.Perm.trans ?_ ((hafter.symm.filterMap Worker.task).append_left _)
  rw [List.append_assoc]
  exact List.Perm.refl _

theorem Kept.notifyOne (h : s.Kept) (i : Nat) : (s.notifyOne i).Kept := by
  have hcovered : (s.notifyOne i).counts.Covered := by
    obtain hsame | hstep := s.counts_notifyOne i
    · rw [hsame]
      exact h.covered
    · exact h.covered.step hstep
  obtain hsame | ⟨_, ⟨others, workers, hperm, hafter, heq⟩ | ⟨_, heq⟩⟩ := s.notifyOne_cases i
  · rwa [hsame]
  · rw [heq] at hcovered ⊢
    exact ⟨h.order, h.ran.trans (((hperm.filterMap Worker.task).trans (hafter.symm.filterMap Worker.task)).append_left _),
      hcovered, h.stayed hperm hafter rfl, fun hstopped hcaller => h.awoken hperm hafter rfl hstopped hcaller,
      h.called.worker (ne_nil_of_perm hperm) rfl rfl⟩
  · rw [heq] at hcovered ⊢
    exact ⟨h.order, h.ran, hcovered, h.exited, h.woken, h.called⟩

theorem Kept.wakeup (h : s.Kept) (i : Nat) : (s.step (.wakeup i)).Kept := by
  rw [step]
  by_cases hsleeps : s.workers[i]?.any Worker.isAsleep = true
  · obtain ⟨worker, hworker, hasleep⟩ := any_eq_true hsleeps
    obtain rfl := asleep_eq hasleep
    obtain ⟨others, hperm, hset⟩ := setWorker_perm hworker
    have hafter := hset .awake
    have hbefore := countP_perm hperm
    have hcount := countP_perm hafter
    rw [if_pos hsleeps]
    refine ⟨h.order, h.ran.trans (((hperm.filterMap Worker.task).trans (hafter.symm.filterMap Worker.task)).append_left _),
      ?_, h.stayed hperm hafter rfl, fun hstopped hcaller => h.awoken hperm hafter rfl hstopped hcaller,
      h.called.worker (ne_nil_of_perm hperm) rfl rfl⟩
    have hsome : 0 < s.counts.asleep := countP_pos hperm rfl
    convert h.covered.wake hsome using 1
    simp [counts, hbefore, hcount, Worker.isAwake, Worker.isAsleep, Worker.isRunning]
    exact ⟨rfl, rfl⟩
  · rwa [if_neg hsleeps]

theorem Kept.start (h : s.Kept) (hidle : s.caller = .idle) (requestedThreads hardwareConcurrency : Nat) :
    (s.start requestedThreads hardwareConcurrency).Kept := by
  unfold Pool.start
  split
  · exact h
  next hnew =>
    have hnone : s.workers = [] := by
      have hcalled := h.called
      unfold Called at hcalled
      rw [hidle] at hcalled
      cases hstopped : s.stopped with
      | true => exact hcalled hstopped
      | false => simpa [hstopped] using hnew
    refine ⟨h.order, h.ran, h.covered, fun worker hworker => ?_, fun hstopped => (by cases hstopped), rfl, ?_⟩
    · rw [hnone] at hworker
      cases hworker
    · unfold DEFAULT_MIN_THREADS
      split <;> omega

theorem Kept.spawn (h : s.Kept) {left : Nat} (hleft : s.caller = .starting left) : (s.spawn left).Kept := by
  have hcalled := h.called
  unfold Called at hcalled
  rw [hleft] at hcalled
  obtain ⟨hrunning, hpos⟩ := hcalled
  refine ⟨h.order, ?_, ?_, fun worker hworker hexited => ?_, fun hstopped => ?_, ?_⟩
  · show s.started.Perm (s.finished ++ (s.workers ++ [Worker.awake]).filterMap Worker.task)
    rw [List.filterMap_append]
    exact h.ran.trans (List.Perm.of_eq (congrArg _ (List.append_nil _).symm))
  · convert h.covered.join using 1
    simp [counts, Pool.spawn, Worker.isAwake, Worker.isAsleep, Worker.isRunning]
  · obtain hold | hnew := List.mem_append.mp hworker
    · exact h.exited worker hold hexited
    · rw [List.mem_singleton.mp hnew] at hexited
      cases hexited
  · rw [show (s.spawn left).stopped = s.stopped from rfl, hrunning] at hstopped
    cases hstopped
  · unfold Called Pool.spawn
    by_cases hlast : left = 1
    · simp only [hlast, if_true]
      intro hstopped
      rw [hrunning] at hstopped
      cases hstopped
    · simp only [if_neg hlast]
      exact ⟨hrunning, by omega⟩

theorem Kept.notifyAll (h : s.Kept) (hcaller : s.caller = .stopping) :
    ({ s with workers := s.workers.map Worker.wake, caller := .joining } : Pool T).Kept := by
  have hasleep : ∀ worker ∈ s.workers.map Worker.wake, worker.isAsleep = false := by
    intro worker hworker
    obtain ⟨old, _, rfl⟩ := List.mem_map.mp hworker
    cases old <;> rfl
  have hcalled := h.called
  unfold Called at hcalled
  rw [hcaller] at hcalled
  refine ⟨h.order, ?_, .inl ?_, fun worker hworker hexited => ?_, fun _ _ => hasleep, hcalled⟩
  · have hsame : (s.workers.map Worker.wake).filterMap Worker.task = s.workers.filterMap Worker.task := by
      rw [List.filterMap_map]
      congr 1
      funext worker
      cases worker <;> rfl
    rw [hsame]
    exact h.ran
  · rw [counts, List.countP_eq_zero]
    intro worker hworker
    rw [hasleep worker hworker]
    exact Bool.false_ne_true
  · obtain ⟨old, hold, rfl⟩ := List.mem_map.mp hworker
    refine h.exited old hold ?_
    cases old <;> exact hexited

theorem Kept.join (h : s.Kept) (hexited : s.workers.all Worker.isExited = true) :
    ({ s with workers := [], caller := .idle } : Pool T).Kept := by
  have hdone : s.workers.filterMap Worker.task = [] := by
    refine List.filterMap_eq_nil_iff.mpr fun worker hworker => ?_
    have hleft := List.all_eq_true.mp hexited worker hworker
    cases worker <;> first | rfl | cases hleft
  refine ⟨h.order, ?_, .inl rfl, fun worker hworker => ?_, fun _ _ worker hworker => ?_, fun _ => rfl⟩
  · have hran := h.ran
    rwa [hdone] at hran
  · cases hworker
  · cases hworker

theorem Kept.detachTask (h : s.Kept) (task : Option T) : (s.detachTask task).Kept := by
  cases task with
  | none => exact h
  | some task =>
    simp only [Pool.detachTask]
    split
    · exact h
    next hrunning =>
      rw [Bool.not_eq_true] at hrunning
      refine ⟨?_, h.ran, ?_, fun worker hworker hexited => ?_, h.woken, h.called⟩
      · show s.accepted ++ [task] = s.started ++ (s.taskQueue ++ [task])
        rw [h.order, List.append_assoc]
      · convert h.covered.post using 1
        simp [counts]
      · rw [(h.exited worker hworker hexited).1] at hrunning
        cases hrunning

theorem Kept.step (h : s.Kept) (event : Event T) : (s.step event).Kept := by
  cases event with
  | start requestedThreads hardwareConcurrency =>
    rw [Pool.step]
    split
    next hidle => exact h.start hidle requestedThreads hardwareConcurrency
    next => exact h
  | spawn =>
    rw [Pool.step]
    cases hcaller : s.caller with
    | starting left => exact h.spawn hcaller
    | idle => exact h
    | stopping => exact h
    | joining => exact h
  | shutdown =>
    rw [Pool.step]
    split
    next hidle =>
      refine ⟨h.order, h.ran, h.covered, fun worker hworker hexited => ?_, fun _ hcaller => absurd rfl hcaller, rfl⟩
      rw [(h.exited worker hworker hexited).1] at hidle
      cases hidle.2
    next => exact h
  | notifyAll =>
    rw [Pool.step]
    split
    next hcaller => exact h.notifyAll hcaller
    next => exact h
  | join =>
    rw [Pool.step]
    split
    next hjoin => exact h.join hjoin.2
    next => exact h
  | detachTask task => exact h.detachTask task
  | notifyOne i => exact h.notifyOne i
  | wakeup i => exact h.wakeup i
  | look i => exact h.look i
  | finish i => exact h.finish i

def run (s : Pool T) (events : List (Event T)) : Pool T := events.foldl step s

theorem kept_run (events : List (Event T)) : (run {} events).Kept := by
  suffices ∀ s : Pool T, s.Kept → (run s events).Kept from this {} kept_new
  induction events with
  | nil => exact fun s h => h
  | cons event events ih => exact fun s h => ih _ (h.step event)

/-! ## Every task once -/

/-- In whatever order the threads take their steps, the tasks are started in the order in which they were accepted, each
once, and those that were started are finished or still running. When `shutdown` has joined its workers, every task that
was ever accepted is finished. -/
theorem run_accounts (events : List (Event T)) :
    (run {} events).accepted = (run {} events).started ++ (run {} events).taskQueue ∧
      (run {} events).started.Perm ((run {} events).finished ++ (run {} events).workers.filterMap Worker.task) ∧
      ((run {} events).caller = .joining → (run {} events).workers ≠ [] →
        (run {} events).workers.all Worker.isExited = true →
          (run {} events).taskQueue = [] ∧ (run {} events).finished.Perm (run {} events).accepted) := by
  have h := kept_run events
  generalize run {} events = s at h
  refine ⟨h.order, h.ran, fun _ hsome hexited => ?_⟩
  obtain ⟨worker, hworker⟩ := List.exists_mem_of_ne_nil _ hsome
  have hempty := (h.exited worker hworker (List.all_eq_true.mp hexited worker hworker)).2
  have hdone := (h.join hexited).ran
  refine ⟨hempty, ?_⟩
  rw [h.order, hempty, List.append_nil]
  simpa using hdone.symm

/-! ## No sleep while there is work -/

/-- No thread of the pool has a step to take. -/
def Quiet (s : Pool T) : Prop := ∀ event : Event T, event.Own → s.step event = s

theorem Quiet.awake (h : s.Quiet) : ∀ worker ∈ s.workers, worker.isAwake = false := by
  intro worker hworker
  cases hawake : worker.isAwake with
  | false => rfl
  | true =>
    obtain rfl := awake_eq hawake
    obtain ⟨i, hi⟩ := List.mem_iff_getElem?.mp hworker
    have hlook : s.look i = s := h (.look i) trivial
    have hset : ∀ new, (s.setWorker i new).workers[i]? = some new := fun new => by
      obtain ⟨hlt, _⟩ := List.getElem?_eq_some_iff.mp hi
      exact List.getElem?_set_self hlt
    rw [look, if_pos (by rw [hi]; rfl)] at hlook
    cases hqueue : s.taskQueue with
    | nil =>
      simp only [hqueue] at hlook
      split at hlook
      · have hexited := hset .exited
        rw [hlook, hi] at hexited
        cases hexited
      · have hasleep := hset .asleep
        rw [hlook, hi] at hasleep
        cases hasleep
    | cons task taskQueue =>
      simp only [hqueue] at hlook
      have hlength := congrArg (fun pool : Pool T => pool.taskQueue.length) hlook
      simp [hqueue] at hlength

theorem Quiet.running (h : s.Quiet) : s.workers.filterMap Worker.task = [] := by
  refine List.filterMap_eq_nil_iff.mpr fun worker hworker => ?_
  cases htask : worker.task with
  | none => rfl
  | some task =>
    obtain ⟨i, hi⟩ := List.mem_iff_getElem?.mp hworker
    have hfinish : s.finish i = s := h (.finish i) trivial
    have hbind : s.workers[i]?.bind Worker.task = some task := by
      rw [hi]
      exact htask
    rw [finish, hbind] at hfinish
    have hlength := congrArg (fun pool : Pool T => pool.finished.length) hfinish
    simp at hlength

theorem Quiet.notifies (h : s.Quiet) : s.notifies = 0 := by
  by_contra hsome
  have hless : ∀ i, (s.notifyOne i).notifies = s.notifies := fun i =>
    congrArg Pool.notifies (h (.notifyOne i) trivial)
  by_cases hasleep : s.workers.any Worker.isAsleep = true
  · obtain ⟨worker, hworker, hsleeps⟩ := List.any_eq_true.mp hasleep
    obtain ⟨i, hi⟩ := List.mem_iff_getElem?.mp hworker
    have hi' := hless i
    rw [notifyOne, if_neg hsome, if_pos (by rw [hi]; exact hsleeps)] at hi'
    have hminus : s.notifies - 1 = s.notifies := hi'
    omega
  · have hi' := hless s.workers.length
    rw [notifyOne, if_neg hsome, if_neg (by simp), if_neg hasleep] at hi'
    have hminus : s.notifies - 1 = s.notifies := hi'
    omega

theorem step_own (event : Event T) (hown : event.Own) : s.step event = s ∨ Step s.counts (s.step event).counts := by
  cases event with
  | notifyOne i => exact s.counts_notifyOne i
  | look i => exact s.counts_look i
  | finish i => exact s.counts_finish i
  | start => cases hown
  | spawn => cases hown
  | shutdown => cases hown
  | notifyAll => cases hown
  | join => cases hown
  | detachTask => cases hown
  | wakeup => cases hown

/-- The threads come to rest: there is a bound on the steps they take while nobody adds a task. -/
theorem length_le_rank (events : List (Event T)) : ∀ s : Pool T,
    Runs.Along step (fun s event => event.Own ∧ s.step event ≠ s) s events → events.length ≤ s.counts.rank := by
  induction events with
  | nil => exact fun s _ => Nat.zero_le _
  | cons event events ih =>
    intro s halong
    obtain ⟨⟨hown, hmoves⟩, hrest⟩ := halong
    have hless := ((s.step_own event hown).resolve_left hmoves).rank_lt
    have hlength := ih _ hrest
    rw [List.length_cons]
    omega

/-- The pool never sleeps while there is work. From every state that is reached, the threads take only so many steps by
themselves; and when there is none left to take, a pool with workers has finished all the tasks it accepted, and the
workers of one that was stopped have all returned, so that `shutdown` does too. -/
theorem run_rests (events : List (Event T)) :
    (∀ more, Runs.Along step (fun s event => event.Own ∧ s.step event ≠ s) (run {} events) more →
      more.length ≤ (run {} events).counts.rank) ∧
    ((run {} events).Quiet → (run {} events).workers ≠ [] →
      (run {} events).taskQueue = [] ∧ (run {} events).finished.Perm (run {} events).accepted ∧
        ((run {} events).stopped = true → (run {} events).caller ≠ .stopping →
          (run {} events).workers.all Worker.isExited = true)) := by
  have h := kept_run events
  generalize run {} events = s at h
  refine ⟨fun more => length_le_rank more s, fun hquiet hsome => ?_⟩
  have hexited : ∀ worker ∈ s.workers, worker.isAsleep = false → worker.isExited = true := by
    intro worker hworker hsleeps
    have hawakes := hquiet.awake worker hworker
    have hruns := List.filterMap_eq_nil_iff.mp hquiet.running worker hworker
    cases worker with
    | exited => rfl
    | awake => cases hawakes
    | asleep => cases hsleeps
    | running task => cases hruns
  have hempty : s.taskQueue = [] := by
    have hawake : s.counts.awake = 0 := by
      rw [counts, List.countP_eq_zero]
      intro worker hworker
      rw [hquiet.awake worker hworker]
      exact Bool.false_ne_true
    obtain hnone | hwork := h.covered.idle hawake hquiet.notifies
    · -- nobody sleeps or works, so everybody left
      obtain ⟨worker, hworker⟩ := List.exists_mem_of_ne_nil _ hsome
      refine (h.exited worker hworker (hexited worker hworker ?_)).2
      simpa using List.countP_eq_zero.mp hnone worker hworker
    · exact List.length_eq_zero_iff.mp hwork
  refine ⟨hempty, ?_, fun hstopped hcaller => List.all_eq_true.mpr fun worker hworker =>
    hexited worker hworker (h.woken hstopped hcaller worker hworker)⟩
  have hran := h.ran
  rw [hquiet.running, List.append_nil] at hran
  rw [h.order, hempty, List.append_nil]
  exact hran.symm

end Pool

end ForgottenServer.Threads
