import ForgottenServer.Reactor.Reactor

/-! # What a step of the reactor does

Where tasks can be, what a step accepts, starts and drops, and what it does to the parts of the state. -/

namespace ForgottenServer.Reactor

/-- The tasks of the ready list whose callbacks have not started. -/
def Phase.ready : Phase → List Task
  | .waiting => []
  | .inboxDrained readyTasks => readyTasks
  | .heapDrained readyTasks => readyTasks
  | .looping cycle => cycle.readyTasks.drop cycle.index
  | .calling cycle => cycle.readyTasks.drop (cycle.index + 1)

/-- The inboxes, the heap and the ready list. -/
def State.places (s : State) : List Task := s.sendInbox ++ s.scheduleInbox ++ s.taskHeap ++ s.phase.ready

/-! ## What a step does -/

/-- A call with a callback is accepted. -/
def State.admits (s : State) (callback : Bool) (inbox : Nat) : Bool := callback && s.running && !s.isFull inbox

/-- The task that a step puts in an inbox. -/
def accepts (s : State) : Event → List Task
  | .send expirationTime callback now =>
    if s.admits callback s.sendInbox.length then [s.sentTask callback (State.deadlineOf expirationTime now) now] else []
  | .schedule delay callback now =>
    if s.admits callback s.scheduleInbox.length then [s.scheduledTask delay callback now] else []
  | _ => []

/-- The identifier that a step puts in the cancel inbox. -/
def cancels (s : State) : Event → List Nat
  | .cancel taskIdentifier =>
    if taskIdentifier ≠ 0 ∧ s.running = true ∧ s.isFull s.cancelInbox.length = false then [taskIdentifier] else []
  | _ => []

/-- The tasks whose callbacks have not started and that a cancellation is for. -/
def targets (s : State) (e : Event) : List Task := s.places.filter fun task => task.identifier ∈ cancels s e

/-- The task whose callback a step starts. -/
def starts (s : State) : Event → List Task
  | .nextTask _ =>
    match s.phase with
    | .looping cycle =>
      match cycle.readyTasks[cycle.index]? with
      | none => []
      | some task => if task.function && !s.limitReached cycle then [task] else []
    | _ => []
  | _ => []

/-- The tasks that a step drops. -/
def loses (s : State) : Event → List Task
  | .drainInbox now =>
    match s.phase with
    | .waiting => s.sendInbox.filter fun task => task.hasExpired now
    | _ => []
  | .drainReadyTasks now =>
    match s.phase with
    | .inboxDrained _ => (popDue now s.taskHeap s.activeIdentifiers s.cancelled).lost
    | _ => []
  | _ => []

/-- The step that begins a `runOnce`. -/
def begins (s : State) : Event → Bool
  | .drainInbox _ =>
    match s.phase with
    | .waiting => true
    | _ => false
  | _ => false

/-! ## The parts of a step -/

/-- A call without a callback, or after the end, is refused before the inbox is looked at. -/
theorem admits_of_refused {s : State} {callback : Bool} (h : (!callback || !s.running) = true) (length : Nat) :
    s.admits callback length = false := by
  rw [← Bool.not_and, Bool.not_eq_true'] at h
  rw [State.admits, h, Bool.false_and]

theorem admits_of_not_refused {s : State} {callback : Bool} (h : ¬ (!callback || !s.running) = true) (length : Nat) :
    s.admits callback length = !s.isFull length := by
  rw [← Bool.not_and, Bool.not_eq_true', Bool.not_eq_false] at h
  rw [State.admits, h, Bool.true_and]

theorem sendUntil_cases (s : State) (callback : Bool) (deadline now : Int) :
    (s.admits callback s.sendInbox.length = true ∧
      s.sendUntil callback deadline now =
        (true, { s with nextSequence := s.nextSequence + 1
                        sendInbox := s.sendInbox ++ [s.sentTask callback deadline now] })) ∨
    (s.admits callback s.sendInbox.length = false ∧
      (s.sendUntil callback deadline now = (false, s) ∨
        s.sendUntil callback deadline now = (false, { s with nextSequence := s.nextSequence + 1 }))) := by
  unfold State.sendUntil
  by_cases hrefused : (!callback || !s.running) = true
  · exact .inr ⟨admits_of_refused hrefused _, .inl (by rw [if_pos hrefused])⟩
  · rw [if_neg hrefused, admits_of_not_refused hrefused]
    by_cases hfull : s.isFull s.sendInbox.length = true
    · exact .inr ⟨by rw [hfull]; rfl, .inr (if_pos hfull)⟩
    · exact .inl ⟨by simpa using hfull, if_neg hfull⟩

theorem schedule_cases (s : State) (delay : Int) (callback : Bool) (now : Int) :
    (s.admits callback s.scheduleInbox.length = true ∧
      s.schedule delay callback now =
        (s.issue, { s with nextIdentifier := s.issue, nextSequence := s.nextSequence + 1
                           scheduleInbox := s.scheduleInbox ++ [s.scheduledTask delay callback now] })) ∨
    (s.admits callback s.scheduleInbox.length = false ∧
      (s.schedule delay callback now = (0, s) ∨
        s.schedule delay callback now =
          (0, { s with nextIdentifier := s.issue, nextSequence := s.nextSequence + 1 }))) := by
  unfold State.schedule
  by_cases hrefused : (!callback || !s.running) = true
  · exact .inr ⟨admits_of_refused hrefused _, .inl (by rw [if_pos hrefused])⟩
  · rw [if_neg hrefused, admits_of_not_refused hrefused]
    by_cases hfull : s.isFull s.scheduleInbox.length = true
    · exact .inr ⟨by rw [hfull]; rfl, .inr (if_pos hfull)⟩
    · exact .inl ⟨by simpa using hfull, if_neg hfull⟩

/-- `send` tells whether its task was accepted. -/
theorem send_eq_true_iff (s : State) (expirationTime : Option Int) (callback : Bool) (now : Int) :
    (s.send expirationTime callback now).1 = true ↔ accepts s (.send expirationTime callback now) ≠ [] := by
  rcases sendUntil_cases s callback (State.deadlineOf expirationTime now) now with
    ⟨hadmits, hstate⟩ | ⟨hadmits, hstate | hstate⟩ <;> simp [State.send, hstate, accepts, hadmits]

theorem issue_ne_zero (s : State) : s.issue ≠ 0 := by
  unfold State.issue
  by_cases hzero : (s.nextIdentifier + 1) % 2 ^ 32 = 0
  · simp only [if_pos hzero]
    exact Nat.one_ne_zero
  · simpa only [if_neg hzero] using hzero

/-- `schedule` returns the identifier of an accepted task, and zero for another. -/
theorem schedule_fst (s : State) (delay : Int) (callback : Bool) (now : Int) :
    (s.schedule delay callback now).1 = ((accepts s (.schedule delay callback now)).map (·.identifier)).headD 0 := by
  rcases schedule_cases s delay callback now with ⟨hadmits, hstate⟩ | ⟨hadmits, hstate | hstate⟩ <;>
    simp [hstate, accepts, hadmits, State.scheduledTask]

theorem cancel_eq (s : State) (taskIdentifier : Nat) :
    s.cancel taskIdentifier = { s with cancelInbox := s.cancelInbox ++ cancels s (.cancel taskIdentifier) } := by
  by_cases hpush : taskIdentifier ≠ 0 ∧ s.running = true ∧ s.isFull s.cancelInbox.length = false
  · rw [cancels, if_pos hpush, State.cancel, if_neg (by simp [hpush.1, hpush.2.1]), if_neg (by simp [hpush.2.2])]
  · rw [cancels, if_neg hpush, List.append_nil]
    show s.cancel taskIdentifier = s
    unfold State.cancel
    by_cases hignored : (taskIdentifier = 0 || !s.running) = true
    · rw [if_pos hignored]
    · rw [if_neg hignored]
      by_cases hfull : s.isFull s.cancelInbox.length = true
      · rw [if_pos hfull]
      · exact absurd ⟨by simp_all, by simp_all, by simpa using hfull⟩ hpush

theorem perm_foldl_pushHeap (tasks : List Task) :
    ∀ taskHeap : List Task, (tasks.foldl State.pushHeap taskHeap).Perm (tasks ++ taskHeap) := by
  induction tasks with
  | nil => exact fun taskHeap => .refl _
  | cons task tasks ih =>
    intro taskHeap
    refine (ih _).trans (((List.perm_orderedInsert NotAfter task taskHeap).append_left tasks).trans ?_)
    exact List.perm_middle

theorem perm_popDue (now : Int) (taskHeap : List Task) :
    ∀ active cancelled, ((popDue now taskHeap active cancelled).taskHeap ++
      (popDue now taskHeap active cancelled).readyTasks ++ (popDue now taskHeap active cancelled).lost).Perm
        taskHeap := by
  induction taskHeap with
  | nil => exact fun active cancelled => .nil
  | cons task taskHeap ih =>
    intro active cancelled
    have hrest := ih (active.erase task.identifier) (cancelled.erase task.identifier)
    unfold popDue
    by_cases hdue : task.fireAt ≤ now
    · rw [if_pos hdue]
      by_cases hlost : task.identifier ∈ cancelled ∨ task.hasExpired now = true
      · simp only [if_pos hlost]
        exact List.perm_middle.trans (hrest.cons task)
      · simp only [if_neg hlost]
        rw [List.append_assoc] at hrest ⊢
        exact List.perm_middle.trans (hrest.cons task)
    · rw [if_neg hdue]
      simp

/-- A task that is dropped from the heap was cancelled or has expired. -/
theorem lost_popDue {now : Int} {task : Task} (taskHeap : List Task) :
    ∀ active cancelled, task ∈ (popDue now taskHeap active cancelled).lost →
      task.identifier ∈ cancelled ∨ task.hasExpired now = true := by
  induction taskHeap with
  | nil =>
    intro active cancelled hmem
    cases hmem
  | cons first taskHeap ih =>
    intro active cancelled hmem
    unfold popDue at hmem
    by_cases hdue : first.fireAt ≤ now
    · have hrest : task ∈ (popDue now taskHeap (active.erase first.identifier)
          (cancelled.erase first.identifier)).lost → task.identifier ∈ cancelled ∨ task.hasExpired now = true := by
        intro hin
        rcases ih _ _ hin with hin | hin
        · exact .inl (Finset.mem_of_mem_erase hin)
        · exact .inr hin
      rw [if_pos hdue] at hmem
      by_cases hlost : first.identifier ∈ cancelled ∨ first.hasExpired now = true
      · simp only [if_pos hlost] at hmem
        rcases List.mem_cons.mp hmem with rfl | hin
        · exact hlost
        · exact hrest hin
      · simp only [if_neg hlost] at hmem
        exact hrest hmem
    · rw [if_neg hdue] at hmem
      cases hmem

theorem due_popDue {now : Int} {task : Task} (taskHeap : List Task) :
    ∀ active cancelled, task ∈ (popDue now taskHeap active cancelled).readyTasks → task.fireAt ≤ now := by
  induction taskHeap with
  | nil =>
    intro active cancelled hmem
    cases hmem
  | cons first taskHeap ih =>
    intro active cancelled hmem
    unfold popDue at hmem
    by_cases hdue : first.fireAt ≤ now
    · rw [if_pos hdue] at hmem
      by_cases hlost : first.identifier ∈ cancelled ∨ first.hasExpired now = true
      · simp only [if_pos hlost] at hmem
        exact ih _ _ hmem
      · simp only [if_neg hlost] at hmem
        rcases List.mem_cons.mp hmem with rfl | hin
        · exact hdue
        · exact ih _ _ hin
    · rw [if_neg hdue] at hmem
      cases hmem

theorem cancelled_popDue_subset (now : Int) (taskHeap : List Task) :
    ∀ active cancelled, (popDue now taskHeap active cancelled).cancelled ⊆ cancelled := by
  induction taskHeap with
  | nil => exact fun active cancelled => subset_rfl
  | cons first taskHeap ih =>
    intro active cancelled
    have hrest := (ih (active.erase first.identifier) (cancelled.erase first.identifier)).trans
      (Finset.erase_subset _ _)
    unfold popDue
    by_cases hdue : first.fireAt ≤ now
    · rw [if_pos hdue]
      by_cases hlost : first.identifier ∈ cancelled ∨ first.hasExpired now = true
      · simpa only [if_pos hlost] using hrest
      · simpa only [if_neg hlost] using hrest
    · rw [if_neg hdue]

/-! ## Every task is somewhere -/

/-- The cycle of a loop that is under way. -/
def Phase.cycle? : Phase → Option Cycle
  | .looping cycle => some cycle
  | .calling cycle => some cycle
  | _ => none

/-- The loop counts every task it passes. -/
def Phase.Counts (phase : Phase) : Prop := ∀ cycle, phase.cycle? = some cycle → cycle.index = cycle.tasksExecuted

/-- Every task has a callback, and the loop counts every task it passes. -/
structure State.Regular (s : State) : Prop where
  functions : ∀ task ∈ s.places, task.function = true
  counts : s.phase.Counts

theorem perm_places_send (s : State) (expirationTime : Option Int) (callback : Bool) (now : Int) :
    (step s (.send expirationTime callback now)).places.Perm
      (s.places ++ accepts s (.send expirationTime callback now)) := by
  rw [List.perm_iff_count]
  intro task
  rcases sendUntil_cases s callback (State.deadlineOf expirationTime now) now with
    ⟨hadmits, hstate⟩ | ⟨hadmits, hstate | hstate⟩
  · simp only [step, State.send, hstate, accepts, hadmits, if_true, State.places, List.count_append]
    omega
  · simp [step, State.send, hstate, accepts, hadmits]
  · simp [step, State.send, hstate, accepts, hadmits, State.places]

theorem perm_places_schedule (s : State) (delay : Int) (callback : Bool) (now : Int) :
    (step s (.schedule delay callback now)).places.Perm (s.places ++ accepts s (.schedule delay callback now)) := by
  rw [List.perm_iff_count]
  intro task
  rcases schedule_cases s delay callback now with ⟨hadmits, hstate⟩ | ⟨hadmits, hstate | hstate⟩
  · simp only [step, hstate, accepts, hadmits, if_true, State.places, List.count_append]
    omega
  · simp [step, hstate, accepts, hadmits]
  · simp [step, hstate, accepts, hadmits, State.places]

theorem perm_places_drainInbox {s : State} (hphase : s.phase = .waiting) (now : Int) :
    ((s.drainInbox now).places ++ s.sendInbox.filter fun task => task.hasExpired now).Perm s.places := by
  rw [List.perm_iff_count]
  intro task
  have hheap := (perm_foldl_pushHeap s.scheduleInbox s.taskHeap).count_eq task
  have hsent := (List.filter_append_perm (fun task : Task => task.hasExpired now) s.sendInbox).count_eq task
  simp only [List.count_append] at hheap hsent
  simp only [State.places, State.drainInbox, Phase.ready, hphase, List.count_append, List.count_nil]
  omega

theorem perm_places_drainReadyTasks {s : State} {readyTasks : List Task} (hphase : s.phase = .inboxDrained readyTasks)
    (now : Int) :
    ((s.drainReadyTasks readyTasks now).places ++
      (popDue now s.taskHeap s.activeIdentifiers s.cancelled).lost).Perm s.places := by
  rw [List.perm_iff_count]
  intro task
  have hheap := (perm_popDue now s.taskHeap s.activeIdentifiers s.cancelled).count_eq task
  simp only [List.count_append] at hheap
  simp only [State.places, State.drainReadyTasks, Phase.ready, hphase, List.count_append]
  omega

theorem perm_places_defer {s : State} {cycle : Cycle}
    (hready : s.phase.ready = cycle.readyTasks.drop cycle.tasksExecuted) : (s.defer cycle).places.Perm s.places := by
  have hplaces : (s.defer cycle).places =
      s.sendInbox ++ cycle.readyTasks.drop cycle.tasksExecuted ++ s.scheduleInbox ++ s.taskHeap ++ [] := rfl
  rw [hplaces, State.places, hready, List.perm_iff_count]
  intro task
  simp only [List.count_append, List.count_nil]
  omega

theorem State.Regular.ready {s : State} (h : s.Regular) {task : Task} (hmem : task ∈ s.phase.ready) :
    task.function = true :=
  h.functions task (List.mem_append_right _ hmem)

theorem drop_eq_cons {tasks : List Task} {index : Nat} {task : Task} (h : tasks[index]? = some task) :
    tasks.drop index = task :: tasks.drop (index + 1) := by
  obtain ⟨hlt, rfl⟩ := List.getElem?_eq_some_iff.mp h
  exact List.drop_eq_getElem_cons hlt

theorem perm_places_nextTask {s : State} (h : s.Regular) {cycle : Cycle} (hphase : s.phase = .looping cycle)
    (now : Int) : ((s.nextTask cycle).places ++ starts s (.nextTask now)).Perm s.places := by
  have hready : s.phase.ready = cycle.readyTasks.drop cycle.index := by rw [hphase]; rfl
  have hindex := h.counts cycle (by rw [hphase]; rfl)
  simp only [starts, hphase]
  unfold State.nextTask
  cases htask : cycle.readyTasks[cycle.index]? with
  | none =>
    simp only [List.append_nil]
    exact perm_places_defer (hindex ▸ hready)
  | some task =>
    have hfunction : task.function = true := by
      apply h.ready
      rw [hready, drop_eq_cons htask]
      exact List.mem_cons_self
    cases hlimit : s.limitReached cycle with
    | true =>
      simp only [hfunction, Bool.not_true, Bool.false_eq_true, if_false, if_true, Bool.and_false, List.append_nil]
      exact perm_places_defer (hindex ▸ hready)
    | false =>
      simp only [hfunction, Bool.not_true, Bool.false_eq_true, if_false, Bool.not_false, Bool.and_self, if_true]
      rw [List.perm_iff_count]
      intro other
      simp only [State.places, Phase.ready, hphase, drop_eq_cons htask, List.count_append, List.count_cons,
        List.count_nil]
      omega

theorem perm_places_taskDone {s : State} (h : s.Regular) {cycle : Cycle} (hphase : s.phase = .calling cycle)
    (taskEnd : Int) : (s.taskDone cycle taskEnd).places.Perm s.places := by
  have hready : s.phase.ready = cycle.readyTasks.drop (cycle.index + 1) := by rw [hphase]; rfl
  have hindex := h.counts cycle (by rw [hphase]; rfl)
  unfold State.taskDone
  by_cases hbudget : s.timeBudget > 0 ∧ taskEnd - cycle.cycleStart ≥ milliseconds s.timeBudget
  · simp only [if_pos hbudget]
    refine perm_places_defer ?_
    rw [hready, hindex]
  · simp only [if_neg hbudget]
    simp only [State.places, Phase.ready, hphase]
    exact .refl _

/-- A step moves the tasks about; it adds those it accepts, and takes out those it starts or drops. -/
theorem perm_places_step {s : State} (h : s.Regular) (e : Event) :
    ((step s e).places ++ starts s e ++ loses s e).Perm (s.places ++ accepts s e) := by
  cases e with
  | send expirationTime callback now =>
    simpa only [starts, loses, List.append_nil] using perm_places_send s expirationTime callback now
  | schedule delay callback now =>
    simpa only [starts, loses, List.append_nil] using perm_places_schedule s delay callback now
  | cancel taskIdentifier =>
    simp only [step, cancel_eq, starts, loses, accepts, List.append_nil]
    exact .refl _
  | drainInbox now =>
    cases hphase : s.phase with
    | waiting =>
      simpa only [step, starts, loses, accepts, hphase, List.append_nil] using perm_places_drainInbox hphase now
    | _ => simp only [step, starts, loses, accepts, hphase, List.append_nil, List.Perm.refl]
  | drainReadyTasks now =>
    cases hphase : s.phase with
    | inboxDrained readyTasks =>
      simpa only [step, starts, loses, accepts, hphase, List.append_nil] using perm_places_drainReadyTasks hphase now
    | _ => simp only [step, starts, loses, accepts, hphase, List.append_nil, List.Perm.refl]
  | executeReadyTasks now =>
    cases hphase : s.phase with
    | heapDrained readyTasks =>
      simp only [step, starts, loses, accepts, hphase, List.append_nil, State.places, Phase.ready, List.drop_zero]
      exact (List.perm_insertionSort NotAfter readyTasks).append_left _
    | _ => simp only [step, starts, loses, accepts, hphase, List.append_nil, List.Perm.refl]
  | nextTask now =>
    cases hphase : s.phase with
    | looping cycle =>
      simpa only [step, loses, accepts, hphase, List.append_nil] using perm_places_nextTask h hphase now
    | _ => simp only [step, starts, loses, accepts, hphase, List.append_nil, List.Perm.refl]
  | taskDone outcome now =>
    cases hphase : s.phase with
    | calling cycle =>
      simpa only [step, starts, loses, accepts, hphase, List.append_nil] using perm_places_taskDone h hphase now
    | _ => simp only [step, starts, loses, accepts, hphase, List.append_nil, List.Perm.refl]
  | _ =>
    simp only [step, starts, loses, accepts, List.append_nil]
    exact .refl _

/-! ## What a step accepts and drops -/

theorem accepts_cases (s : State) (e : Event) :
    accepts s e = [] ∨ ∃ task, accepts s e = [task] ∧ task.sequence = s.nextSequence ∧ task.function = true ∧
      (step s e).nextSequence = s.nextSequence + 1 := by
  cases e with
  | send expirationTime callback now =>
    rcases sendUntil_cases s callback (State.deadlineOf expirationTime now) now with ⟨hadmits, hstate⟩ | ⟨hadmits, -⟩
    · refine .inr ⟨_, if_pos hadmits, rfl, ?_, ?_⟩
      · simp only [State.admits, Bool.and_eq_true] at hadmits
        exact hadmits.1.1
      · simp only [step, State.send, hstate]
    · exact .inl (if_neg (by simp [hadmits]))
  | schedule delay callback now =>
    rcases schedule_cases s delay callback now with ⟨hadmits, hstate⟩ | ⟨hadmits, -⟩
    · refine .inr ⟨_, if_pos hadmits, rfl, ?_, ?_⟩
      · simp only [State.admits, Bool.and_eq_true] at hadmits
        exact hadmits.1.1
      · simp only [step, hstate]
    · exact .inl (if_neg (by simp [hadmits]))
  | _ => exact .inl rfl

theorem le_nextSequence_step (s : State) (e : Event) : s.nextSequence ≤ (step s e).nextSequence := by
  cases e with
  | send expirationTime callback now =>
    rcases sendUntil_cases s callback (State.deadlineOf expirationTime now) now with
      ⟨-, hstate⟩ | ⟨-, hstate | hstate⟩ <;> simp [step, State.send, hstate]
  | schedule delay callback now =>
    rcases schedule_cases s delay callback now with ⟨-, hstate⟩ | ⟨-, hstate | hstate⟩ <;> simp [step, hstate]
  | cancel taskIdentifier =>
    simp only [step, cancel_eq]
    exact le_rfl
  | drainInbox now => cases hphase : s.phase <;> simp [step, hphase, State.drainInbox]
  | drainReadyTasks now => cases hphase : s.phase <;> simp [step, hphase, State.drainReadyTasks]
  | executeReadyTasks now => cases hphase : s.phase <;> simp [step, hphase]
  | nextTask now =>
    cases hphase : s.phase with
    | looping cycle =>
      simp only [step, hphase, State.nextTask]
      split
      · exact le_rfl
      · split
        · exact le_rfl
        · split <;> exact le_rfl
    | _ => simp [step, hphase]
  | taskDone outcome now =>
    cases hphase : s.phase with
    | calling cycle =>
      simp only [step, hphase, State.taskDone]
      split <;> exact le_rfl
    | _ => simp [step, hphase]
  | _ => exact le_rfl

/-! ## What a step does to scheduled tasks -/

/-- Two states with the same scheduled tasks and the same cancellations. -/
structure State.Same (s t : State) : Prop where
  scheduleInbox : t.scheduleInbox = s.scheduleInbox
  cancelInbox : t.cancelInbox = s.cancelInbox
  cancelled : t.cancelled = s.cancelled
  activeIdentifiers : t.activeIdentifiers = s.activeIdentifiers
  taskHeap : t.taskHeap = s.taskHeap

theorem State.Same.refl (s : State) : s.Same s := ⟨rfl, rfl, rfl, rfl, rfl⟩

inductive Effect (s : State) (e : Event) : Prop where
  | none (hsame : s.Same (step s e)) (haccepts : ∀ task ∈ accepts s e, task.identifier = 0)
      (hcancels : cancels s e = []) (hloses : loses s e = []) (hbegins : begins s e = false)
  | schedule (delay now : Int) (haccepts : accepts s e = [s.scheduledTask delay true now])
      (hstep : step s e = { s with nextIdentifier := s.issue, nextSequence := s.nextSequence + 1
                                   scheduleInbox := s.scheduleInbox ++ [s.scheduledTask delay true now] })
      (hcancels : cancels s e = []) (hloses : loses s e = []) (hbegins : begins s e = false)
  | cancel (hstep : step s e = { s with cancelInbox := s.cancelInbox ++ cancels s e }) (haccepts : accepts s e = [])
      (hloses : loses s e = []) (hbegins : begins s e = false)
  | drainInbox (now : Int) (hphase : s.phase = .waiting) (hstep : step s e = s.drainInbox now)
      (haccepts : accepts s e = []) (hcancels : cancels s e = [])
      (hloses : loses s e = s.sendInbox.filter fun task => task.hasExpired now) (hbegins : begins s e = true)
  | drainReadyTasks (now : Int) (readyTasks : List Task) (hphase : s.phase = .inboxDrained readyTasks)
      (hstep : step s e = s.drainReadyTasks readyTasks now) (haccepts : accepts s e = []) (hcancels : cancels s e = [])
      (hloses : loses s e = (popDue now s.taskHeap s.activeIdentifiers s.cancelled).lost) (hbegins : begins s e = false)

theorem same_nextTask (s : State) (cycle : Cycle) : s.Same (s.nextTask cycle) := by
  unfold State.nextTask
  split
  · exact ⟨rfl, rfl, rfl, rfl, rfl⟩
  · split
    · exact ⟨rfl, rfl, rfl, rfl, rfl⟩
    · split <;> exact ⟨rfl, rfl, rfl, rfl, rfl⟩

theorem same_taskDone (s : State) (cycle : Cycle) (taskEnd : Int) : s.Same (s.taskDone cycle taskEnd) := by
  unfold State.taskDone
  by_cases hbudget : s.timeBudget > 0 ∧ taskEnd - cycle.cycleStart ≥ milliseconds s.timeBudget
  · simp only [if_pos hbudget]
    exact ⟨rfl, rfl, rfl, rfl, rfl⟩
  · simp only [if_neg hbudget]
    exact ⟨rfl, rfl, rfl, rfl, rfl⟩

/-- A step that accepts no task and cancels and drops nothing. -/
theorem Effect.quiet {s : State} {e : Event} (hsame : s.Same (step s e)) (haccepts : accepts s e = [])
    (hcancels : cancels s e = []) (hloses : loses s e = []) (hbegins : begins s e = false) : Effect s e :=
  .none hsame (by rw [haccepts]; exact fun task hmem => absurd hmem List.not_mem_nil) hcancels hloses hbegins

theorem step_effect (s : State) (e : Event) : Effect s e := by
  cases e with
  | send expirationTime callback now =>
    have hsame : s.Same (step s (.send expirationTime callback now)) := by
      rcases sendUntil_cases s callback (State.deadlineOf expirationTime now) now with
        ⟨-, hstate⟩ | ⟨-, hstate | hstate⟩ <;>
        exact ⟨by rw [step, State.send, hstate], by rw [step, State.send, hstate], by rw [step, State.send, hstate],
          by rw [step, State.send, hstate], by rw [step, State.send, hstate]⟩
    refine .none hsame (fun task hmem => ?_) rfl rfl rfl
    rw [accepts] at hmem
    split at hmem
    · rw [List.mem_singleton.mp hmem]
      rfl
    · exact absurd hmem List.not_mem_nil
  | schedule delay callback now =>
    rcases schedule_cases s delay callback now with ⟨hadmits, hstate⟩ | ⟨hadmits, hstate⟩
    · have hcallback : callback = true := by
        simp only [State.admits, Bool.and_eq_true] at hadmits
        exact hadmits.1.1
      subst hcallback
      exact .schedule delay now (if_pos hadmits) (congrArg Prod.snd hstate) rfl rfl rfl
    · refine .quiet ?_ (if_neg (by simp [hadmits])) rfl rfl rfl
      rcases hstate with hstate | hstate <;>
        exact ⟨by rw [step, hstate], by rw [step, hstate], by rw [step, hstate], by rw [step, hstate],
          by rw [step, hstate]⟩
  | cancel taskIdentifier => exact .cancel (cancel_eq s taskIdentifier) rfl rfl rfl
  | drainInbox now =>
    cases hphase : s.phase with
    | waiting =>
      exact .drainInbox now hphase (by simp only [step, hphase]) rfl rfl (by simp only [loses, hphase])
        (by simp only [begins, hphase])
    | _ =>
      exact .quiet (by simp only [step, hphase, State.Same.refl]) rfl rfl (by simp only [loses, hphase])
        (by simp only [begins, hphase])
  | drainReadyTasks now =>
    cases hphase : s.phase with
    | inboxDrained readyTasks =>
      exact .drainReadyTasks now readyTasks hphase (by simp only [step, hphase]) rfl rfl (by simp only [loses, hphase])
        rfl
    | _ => exact .quiet (by simp only [step, hphase, State.Same.refl]) rfl rfl (by simp only [loses, hphase]) rfl
  | executeReadyTasks now =>
    refine .quiet ?_ rfl rfl rfl rfl
    cases hphase : s.phase with
    | heapDrained readyTasks =>
      simp only [step, hphase]
      exact ⟨rfl, rfl, rfl, rfl, rfl⟩
    | _ => simp only [step, hphase, State.Same.refl]
  | nextTask now =>
    refine .quiet ?_ rfl rfl rfl rfl
    cases hphase : s.phase with
    | looping cycle =>
      simp only [step, hphase]
      exact same_nextTask s cycle
    | _ => simp only [step, hphase, State.Same.refl]
  | taskDone outcome now =>
    refine .quiet ?_ rfl rfl rfl rfl
    cases hphase : s.phase with
    | calling cycle =>
      simp only [step, hphase]
      exact same_taskDone s cycle now
    | _ => simp only [step, hphase, State.Same.refl]
  | _ => exact .quiet ⟨rfl, rfl, rfl, rfl, rfl⟩ rfl rfl rfl rfl

/-- A task that a step brings to the schedule inbox or to the heap was scheduled. -/
theorem mem_scheduled_step {s : State} {e : Event} {task : Task}
    (h : task ∈ (step s e).scheduleInbox ∨ task ∈ (step s e).taskHeap) :
    (task ∈ s.scheduleInbox ∨ task ∈ s.taskHeap) ∨
      (task ∈ accepts s e ∧ task.identifier = s.issue ∧ task.deadline = distantFuture) := by
  rcases step_effect s e with ⟨hsame, -, -, -, -⟩ | ⟨delay, now, haccepts, hstep, -, -, -⟩ | ⟨hstep, -, -, -⟩ |
    ⟨now, -, hstep, -, -, -, -⟩ | ⟨now, readyTasks, -, hstep, -, -, -, -⟩
  · rw [hsame.scheduleInbox, hsame.taskHeap] at h
    exact .inl h
  · simp only [hstep, List.mem_append, List.mem_singleton] at h
    rcases h with (h | h) | h
    · exact .inl (.inl h)
    · refine .inr ⟨?_, by rw [h]; rfl, by rw [h]; rfl⟩
      rw [haccepts, h]
      exact List.mem_cons_self
    · exact .inl (.inr h)
  · rw [hstep] at h
    exact .inl h
  · simp only [hstep, State.drainInbox, List.not_mem_nil, false_or,
      (perm_foldl_pushHeap s.scheduleInbox s.taskHeap).mem_iff, List.mem_append] at h
    exact .inl h
  · rw [hstep] at h
    refine .inl (h.imp_right fun hheap => ?_)
    rw [← (perm_popDue now s.taskHeap s.activeIdentifiers s.cancelled).mem_iff]
    exact List.mem_append_left _ (List.mem_append_left _ hheap)

/-- An identifier that is cancelled was named by a cancellation. -/
theorem mem_cancelled_step {s : State} {e : Event} {identifier : Nat}
    (h : identifier ∈ (step s e).cancelInbox ∨ identifier ∈ (step s e).cancelled) :
    (identifier ∈ s.cancelInbox ∨ identifier ∈ s.cancelled) ∨ identifier ∈ cancels s e := by
  rcases step_effect s e with ⟨hsame, -, -, -, -⟩ | ⟨delay, now, -, hstep, -, -, -⟩ | ⟨hstep, -, -, -⟩ |
    ⟨now, -, hstep, -, -, -, -⟩ | ⟨now, readyTasks, -, hstep, -, -, -, -⟩
  · rw [hsame.cancelInbox, hsame.cancelled] at h
    exact .inl h
  · rw [hstep] at h
    exact .inl h
  · simp only [hstep, List.mem_append] at h
    tauto
  · simp only [hstep, State.drainInbox, List.not_mem_nil, false_or, Finset.mem_union, Finset.mem_filter,
      List.mem_toFinset] at h
    tauto
  · rw [hstep] at h
    exact .inl (h.imp_right fun hmem => cancelled_popDue_subset _ _ _ _ hmem)

theorem zero_notMem_cancels (s : State) (e : Event) : 0 ∉ cancels s e := by
  intro hmem
  unfold cancels at hmem
  split at hmem
  · split at hmem
    · rename_i hpush
      exact hpush.1 (List.mem_singleton.mp hmem).symm
    · cases hmem
  · cases hmem

/-- A task that is dropped has expired or was cancelled. -/
theorem mem_loses {s : State} {e : Event} {task : Task} (h : task ∈ loses s e) :
    task.deadline ≠ distantFuture ∨ task.identifier ∈ s.cancelled := by
  have hexpired : ∀ now, task.hasExpired now = true → task.deadline ≠ distantFuture := by
    intro now hexp
    simp only [Task.hasExpired, Bool.and_eq_true, bne_iff_ne] at hexp
    exact hexp.1
  rcases step_effect s e with ⟨-, -, -, hloses, -⟩ | ⟨-, -, -, -, -, hloses, -⟩ | ⟨-, -, hloses, -⟩ |
    ⟨now, -, -, -, -, hloses, -⟩ | ⟨now, readyTasks, -, -, -, -, hloses, -⟩
  · rw [hloses] at h
    cases h
  · rw [hloses] at h
    cases h
  · rw [hloses] at h
    cases h
  · rw [hloses] at h
    exact .inl (hexpired now (List.mem_filter.mp h).2)
  · rw [hloses] at h
    rcases lost_popDue _ _ _ h with hin | hexp
    · exact .inr hin
    · exact .inl (hexpired now hexp)

/-! ## What a step does to the loop -/

theorem phase_send (s : State) (expirationTime : Option Int) (callback : Bool) (now : Int) :
    (step s (.send expirationTime callback now)).phase = s.phase := by
  rcases sendUntil_cases s callback (State.deadlineOf expirationTime now) now with
    ⟨-, hstate⟩ | ⟨-, hstate | hstate⟩ <;> rw [step, State.send, hstate]

theorem phase_schedule (s : State) (delay : Int) (callback : Bool) (now : Int) :
    (step s (.schedule delay callback now)).phase = s.phase := by
  rcases schedule_cases s delay callback now with ⟨-, hstate⟩ | ⟨-, hstate | hstate⟩ <;> rw [step, hstate]

theorem phase_cancel (s : State) (taskIdentifier : Nat) : (step s (.cancel taskIdentifier)).phase = s.phase := by
  rw [step, cancel_eq]

def Cycle.next (cycle : Cycle) : Cycle :=
  { cycle with index := cycle.index + 1, tasksExecuted := cycle.tasksExecuted + 1 }

/-- The cycle of a loop that is under way after a step was there before it, is the next one or a new one. -/
theorem cycle_step {s : State} {e : Event} {cycle : Cycle} (h : (step s e).phase.cycle? = some cycle) :
    s.phase.cycle? = some cycle ∨ (∃ last, s.phase.cycle? = some last ∧ cycle = last.next) ∨
      ∃ (readyTasks : List Task) (now : Int), cycle = { readyTasks := readyTasks.insertionSort NotAfter, cycleStart := now } := by
  cases e with
  | send expirationTime callback now => exact .inl (by rwa [phase_send] at h)
  | schedule delay callback now => exact .inl (by rwa [phase_schedule] at h)
  | cancel taskIdentifier => exact .inl (by rwa [phase_cancel] at h)
  | drainInbox now =>
    cases hphase : s.phase with
    | waiting =>
      simp only [step, hphase] at h
      cases h
    | _ => exact .inl (by simpa only [step, hphase] using h)
  | drainReadyTasks now =>
    cases hphase : s.phase with
    | inboxDrained readyTasks =>
      simp only [step, hphase] at h
      cases h
    | _ => exact .inl (by simpa only [step, hphase] using h)
  | executeReadyTasks now =>
    cases hphase : s.phase with
    | heapDrained readyTasks =>
      simp only [step, hphase] at h
      exact .inr (.inr ⟨readyTasks, now, (Option.some.inj h).symm⟩)
    | _ => exact .inl (by simpa only [step, hphase] using h)
  | nextTask now =>
    cases hphase : s.phase with
    | looping last =>
      simp only [step, hphase, State.nextTask] at h
      split at h
      · cases h
      · split at h
        · exact .inr (.inl ⟨last, rfl, (Option.some.inj h).symm⟩)
        · split at h
          · cases h
          · exact .inl h
    | _ => exact .inl (by simpa only [step, hphase] using h)
  | taskDone outcome now =>
    cases hphase : s.phase with
    | calling last =>
      simp only [step, hphase, State.taskDone] at h
      split at h
      · cases h
      · exact .inr (.inl ⟨last, rfl, (Option.some.inj h).symm⟩)
    | _ => exact .inl (by simpa only [step, hphase] using h)
  | _ => exact .inl h

theorem counts_step {s : State} (h : s.phase.Counts) (e : Event) : (step s e).phase.Counts := by
  intro cycle hcycle
  rcases cycle_step hcycle with hold | ⟨last, hlast, rfl⟩ | ⟨readyTasks, now, rfl⟩
  · exact h cycle hold
  · exact congrArg (· + 1) (h last hlast)
  · rfl

end ForgottenServer.Reactor
