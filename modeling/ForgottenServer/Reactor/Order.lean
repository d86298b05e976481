import ForgottenServer.Reactor.Accounting

/-! # The order in which callbacks start

A callback never starts before its fire time, and sent tasks start in the order of their fire times and sequence
numbers: all that is in the send inbox goes to the ready list at once, what is deferred goes back to it, and what is
sent meanwhile has a later place. -/

namespace ForgottenServer.Reactor

open Runs

/-! ## The order of tasks -/

theorem notAfter_iff {a b : Task} :
    NotAfter a b ↔ a.fireAt < b.fireAt ∨ a.fireAt = b.fireAt ∧ a.sequence ≤ b.sequence := by
  unfold NotAfter taskComesAfter
  by_cases hfire : a.fireAt = b.fireAt
  · simp [hfire]
  · rw [if_pos hfire]
    simp only [gt_iff_lt, decide_eq_false_iff_not, Int.not_lt]
    omega

instance : Std.Total NotAfter where
  total a b := by
    rw [notAfter_iff, notAfter_iff]
    omega

instance : IsTrans Task NotAfter where
  trans a b c hab hbc := by
    rw [notAfter_iff] at hab hbc ⊢
    omega

/-! ## The send inbox and the ready list -/

/-- What a step does to the send inbox and to the ready list. -/
inductive Flow (s : State) (e : Event) : Prop where
  | same (hinbox : (step s e).sendInbox = s.sendInbox) (hready : (step s e).phase.ready.Perm s.phase.ready)
      (hstarts : starts s e = [])
  | send (task : Task) (now : Int) (hreading : e.reading = some now) (hfire : task.fireAt = now)
      (hsequence : task.sequence = s.nextSequence) (hinbox : (step s e).sendInbox = s.sendInbox ++ [task])
      (hready : (step s e).phase.ready = s.phase.ready) (hstarts : starts s e = [])
  | drainInbox (hinbox : (step s e).sendInbox = []) (hready : ∀ task ∈ (step s e).phase.ready, task ∈ s.sendInbox)
      (hstarts : starts s e = [])
  | drainHeap (now : Int) (hreading : e.reading = some now) (hinbox : (step s e).sendInbox = s.sendInbox)
      (popped : List Task) (hready : (step s e).phase.ready = s.phase.ready ++ popped)
      (hpopped : ∀ task ∈ popped, task ∈ s.taskHeap ∧ task.fireAt ≤ now) (hstarts : starts s e = [])
  | start (task : Task) (now : Int) (hreading : e.reading = some now)
      (hinbox : (step s e).sendInbox = s.sendInbox) (hready : s.phase.ready = task :: (step s e).phase.ready)
      (hstarts : starts s e = [task])
  | defer (hinbox : (step s e).sendInbox = s.sendInbox ++ s.phase.ready) (hready : (step s e).phase.ready = [])
      (hstarts : starts s e = [])

theorem flow_nextTask {s : State} (h : s.Regular) {cycle : Cycle} (hphase : s.phase = .looping cycle) (now : Int) :
    Flow s (.nextTask now) := by
  have hready : s.phase.ready = cycle.readyTasks.drop cycle.index := by rw [hphase]; rfl
  have hindex := h.counts cycle (by rw [hphase]; rfl)
  have hstep : step s (.nextTask now) = s.nextTask cycle := by simp only [step, hphase]
  cases htask : cycle.readyTasks[cycle.index]? with
  | none =>
    have hnext : s.nextTask cycle = s.defer cycle := by simp only [State.nextTask, htask]
    refine .defer ?_ (by rw [hstep, hnext]; rfl) (by simp only [starts, hphase, htask])
    rw [hstep, hnext, State.defer, hready, hindex]
  | some task =>
    have hcons := drop_eq_cons htask
    have hfunction : task.function = true := by
      apply h.ready
      rw [hready, hcons]
      exact List.mem_cons_self
    cases hlimit : s.limitReached cycle with
    | true =>
      have hnext : s.nextTask cycle = s.defer cycle := by
        simp only [State.nextTask, htask, hfunction, Bool.not_true, Bool.false_eq_true, if_false, hlimit, if_true]
      refine .defer ?_ (by rw [hstep, hnext]; rfl) (by simp [starts, hphase, htask, hlimit])
      rw [hstep, hnext, State.defer, hready, hindex]
    | false =>
      have hnext : s.nextTask cycle = { s with phase := .calling cycle } := by
        simp only [State.nextTask, htask, hfunction, Bool.not_true, Bool.false_eq_true, if_false, hlimit]
      refine .start task now rfl (by rw [hstep, hnext]) ?_ (by simp [starts, hphase, htask, hlimit, hfunction])
      rw [hready, hcons, hstep, hnext]
      rfl

theorem flow_taskDone {s : State} (h : s.Regular) {cycle : Cycle} (hphase : s.phase = .calling cycle)
    (outcome : Outcome) (now : Int) : Flow s (.taskDone outcome now) := by
  have hready : s.phase.ready = cycle.readyTasks.drop (cycle.index + 1) := by rw [hphase]; rfl
  have hindex := h.counts cycle (by rw [hphase]; rfl)
  have hstep : step s (.taskDone outcome now) = s.taskDone cycle now := by simp only [step, hphase]
  by_cases hbudget : s.timeBudget > 0 ∧ now - cycle.cycleStart ≥ milliseconds s.timeBudget
  · have hdone : s.taskDone cycle now = s.defer { cycle with tasksExecuted := cycle.tasksExecuted + 1 } := if_pos hbudget
    refine .defer ?_ (by rw [hstep, hdone]; rfl) rfl
    rw [hstep, hdone, State.defer, hready, hindex]
  · have hdone : s.taskDone cycle now = { s with
        phase := .looping { cycle with tasksExecuted := cycle.tasksExecuted + 1, index := cycle.index + 1 } } :=
      if_neg hbudget
    refine .same (by rw [hstep, hdone]) ?_ rfl
    rw [hstep, hdone, hready]
    exact .refl _

theorem step_flow {s : State} (h : s.Regular) (e : Event) : Flow s e := by
  cases e with
  | send expirationTime callback now =>
    have hready := congrArg Phase.ready (phase_send s expirationTime callback now)
    rcases sendUntil_cases s callback (State.deadlineOf expirationTime now) now with
      ⟨-, hstate⟩ | ⟨-, hstate | hstate⟩
    · exact .send _ now rfl rfl rfl (by rw [step, State.send, hstate]) hready rfl
    · exact .same (by rw [step, State.send, hstate]) (.of_eq hready) rfl
    · exact .same (by rw [step, State.send, hstate]) (.of_eq hready) rfl
  | schedule delay callback now =>
    have hready := congrArg Phase.ready (phase_schedule s delay callback now)
    rcases schedule_cases s delay callback now with ⟨-, hstate⟩ | ⟨-, hstate | hstate⟩ <;>
      exact .same (by rw [step, hstate]) (.of_eq hready) rfl
  | cancel taskIdentifier =>
    exact .same (by rw [step, cancel_eq]) (.of_eq (congrArg Phase.ready (phase_cancel s taskIdentifier))) rfl
  | drainInbox now =>
    cases hphase : s.phase with
    | waiting =>
      have hstep : step s (.drainInbox now) = s.drainInbox now := by simp only [step, hphase]
      refine .drainInbox (by rw [hstep]; rfl) (fun task hmem => ?_) rfl
      rw [hstep] at hmem
      exact List.mem_of_mem_filter hmem
    | _ => exact .same (by simp only [step, hphase]) (by simp only [step, hphase, List.Perm.refl]) rfl
  | drainReadyTasks now =>
    cases hphase : s.phase with
    | inboxDrained readyTasks =>
      have hstep : step s (.drainReadyTasks now) = s.drainReadyTasks readyTasks now := by simp only [step, hphase]
      refine .drainHeap now rfl (by rw [hstep]; rfl) (popDue now s.taskHeap s.activeIdentifiers s.cancelled).readyTasks
        (by rw [hstep, hphase]; rfl) (fun task hmem => ⟨?_, due_popDue _ _ _ hmem⟩) rfl
      rw [← (perm_popDue now s.taskHeap s.activeIdentifiers s.cancelled).mem_iff]
      exact List.mem_append_left _ (List.mem_append_right _ hmem)
    | _ => exact .same (by simp only [step, hphase]) (by simp only [step, hphase, List.Perm.refl]) rfl
  | executeReadyTasks now =>
    cases hphase : s.phase with
    | heapDrained readyTasks =>
      refine .same (by simp only [step, hphase]) ?_ rfl
      simp only [step, hphase]
      exact List.perm_insertionSort NotAfter readyTasks
    | _ => exact .same (by simp only [step, hphase]) (by simp only [step, hphase, List.Perm.refl]) rfl
  | nextTask now =>
    cases hphase : s.phase with
    | looping cycle => exact flow_nextTask h hphase now
    | _ =>
      exact .same (by simp only [step, hphase]) (by simp only [step, hphase, List.Perm.refl])
        (by simp only [starts, hphase])
  | taskDone outcome now =>
    cases hphase : s.phase with
    | calling cycle => exact flow_taskDone h hphase outcome now
    | _ => exact .same (by simp only [step, hphase]) (by simp only [step, hphase, List.Perm.refl]) rfl
  | _ => exact .same rfl (.refl _) rfl

theorem starts_cases {s : State} (h : s.Regular) (e : Event) :
    starts s e = [] ∨ ∃ task rest, starts s e = [task] ∧ s.phase.ready = task :: rest := by
  rcases step_flow h e with ⟨-, -, hnone⟩ | ⟨-, -, -, -, -, -, -, hnone⟩ | ⟨-, -, hnone⟩ |
    ⟨-, -, -, -, -, -, hnone⟩ | ⟨task, -, -, -, hready, hstarts⟩ | ⟨-, -, hnone⟩
  · exact .inl hnone
  · exact .inl hnone
  · exact .inl hnone
  · exact .inl hnone
  · exact .inr ⟨task, _, hstarts, hready⟩
  · exact .inl hnone

/-! ## The ready list is sorted -/

/-- The loop goes through the ready list in order. -/
def Phase.Sorted (phase : Phase) : Prop := ∀ cycle, phase.cycle? = some cycle → cycle.readyTasks.Pairwise NotAfter

theorem sorted_step {s : State} (h : s.phase.Sorted) (e : Event) : (step s e).phase.Sorted := by
  intro cycle hcycle
  rcases cycle_step hcycle with hold | ⟨last, hlast, rfl⟩ | ⟨readyTasks, now, rfl⟩
  · exact h cycle hold
  · exact h last hlast
  · exact List.pairwise_insertionSort NotAfter readyTasks

/-- The first task of the ready list comes before the others when its callback starts. -/
theorem notAfter_of_starts {s : State} (h : s.phase.Sorted) {e : Event} {task other : Task} {rest : List Task}
    (hstarts : starts s e = [task]) (hready : s.phase.ready = task :: rest) (hother : other ∈ rest) :
    NotAfter task other := by
  cases e with
  | nextTask now =>
    cases hphase : s.phase with
    | looping cycle =>
      have hsorted := h cycle (by rw [hphase]; rfl)
      rw [hphase] at hready
      have hpairwise : (cycle.readyTasks.drop cycle.index).Pairwise NotAfter := hsorted.sublist (List.drop_sublist _ _)
      rw [show cycle.readyTasks.drop cycle.index = task :: rest from hready] at hpairwise
      exact List.rel_of_pairwise_cons hpairwise hother
    | _ =>
      simp only [starts, hphase] at hstarts
      cases hstarts
  | _ => cases hstarts

/-! ## Whole runs -/

/-- The clock does not go back. -/
def ClockForward (r : Run) (e : Event) : Prop := r.log.clock ≤ r.log.tick e

/-- Of two sent tasks without expiry, the one that comes first was started when the other one was. -/
def InOrder (accepted : List Task) (started : List Start) : Prop :=
  ∀ before start after, started = before ++ start :: after → start.task.identifier = 0 →
    ∀ task ∈ accepted, task.identifier = 0 → task.deadline = distantFuture → task ≠ start.task →
      NotAfter task start.task → task ∈ before.map (·.task)

/-- What holds of the clock and of the order. -/
structure Timed (r : Run) : Prop where
  due : ∀ task, task ∈ r.state.sendInbox ∨ task ∈ r.state.phase.ready → task.fireAt ≤ r.log.clock
  sent : ∀ task ∈ r.log.accepted, task.identifier = 0 → task.fireAt ≤ r.log.clock
  sorted : r.state.phase.Sorted
  later : ∀ task ∈ r.state.sendInbox, task.identifier = 0 → ∀ ready ∈ r.state.phase.ready, ready.identifier = 0 →
    ready.sequence < task.sequence ∧ ready.fireAt ≤ task.fireAt
  punctual : ∀ start ∈ r.log.started, start.task.fireAt ≤ start.clock
  inOrder : InOrder r.log.accepted r.log.started

theorem Log.tick_of_reading {log : Log} {e : Event} {now : Int} (h : e.reading = some now) : log.tick e = now := by
  rw [Log.tick, h]
  rfl

theorem due_step {r : Run} (hacc : Accounted r) (h : Timed r) {e : Event} (hclock : ClockForward r e) {task : Task}
    (hmem : task ∈ (step r.state e).sendInbox ∨ task ∈ (step r.state e).phase.ready) :
    task.fireAt ≤ r.log.tick e := by
  have hold : task ∈ r.state.sendInbox ∨ task ∈ r.state.phase.ready → task.fireAt ≤ r.log.tick e :=
    fun hin => (h.due task hin).trans hclock
  rcases step_flow hacc.regular e with ⟨hinbox, hready, -⟩ | ⟨sent, now, hreading, hfire, -, hinbox, hready, -⟩ |
    ⟨hinbox, hready, -⟩ | ⟨now, hreading, hinbox, popped, hready, hpopped, -⟩ | ⟨started, -, -, hinbox, hready, -⟩ |
    ⟨hinbox, hready, -⟩
  · rw [hinbox, hready.mem_iff] at hmem
    exact hold hmem
  · rw [hinbox, hready, List.mem_append, List.mem_singleton] at hmem
    rcases hmem with (hmem | rfl) | hmem
    · exact hold (.inl hmem)
    · rw [Log.tick_of_reading hreading, hfire]
    · exact hold (.inr hmem)
  · rw [hinbox] at hmem
    rcases hmem with hmem | hmem
    · cases hmem
    · exact hold (.inl (hready task hmem))
  · rw [hinbox, hready, List.mem_append] at hmem
    rcases hmem with hmem | hmem | hmem
    · exact hold (.inl hmem)
    · exact hold (.inr hmem)
    · rw [Log.tick_of_reading hreading]
      exact (hpopped task hmem).2
  · rw [hinbox] at hmem
    refine hold (hmem.imp_right fun hin => ?_)
    rw [hready]
    exact List.mem_cons_of_mem _ hin
  · rw [hinbox, hready, List.mem_append] at hmem
    rcases hmem with hmem | hmem
    · exact hold hmem
    · cases hmem

theorem later_step {r : Run} (hacc : Accounted r) (h : Timed r) {e : Event} (hclock : ClockForward r e)
    {task ready : Task} (htask : task ∈ (step r.state e).sendInbox) (hsent : task.identifier = 0)
    (hready : ready ∈ (step r.state e).phase.ready) (hreadySent : ready.identifier = 0) :
    ready.sequence < task.sequence ∧ ready.fireAt ≤ task.fireAt := by
  rcases step_flow hacc.regular e with ⟨hinbox, hflow, -⟩ | ⟨sent, now, hreading, hfire, hsequence, hinbox, hflow, -⟩ |
    ⟨hinbox, hflow, -⟩ | ⟨now, hreading, hinbox, popped, hflow, hpopped, -⟩ | ⟨started, -, -, hinbox, hflow, -⟩ |
    ⟨hinbox, hflow, -⟩
  · rw [hinbox] at htask
    exact h.later task htask hsent ready (hflow.mem_iff.mp hready) hreadySent
  · rw [hinbox, List.mem_append, List.mem_singleton] at htask
    rw [hflow] at hready
    rcases htask with htask | rfl
    · exact h.later task htask hsent ready hready hreadySent
    · -- what is in the ready list was accepted before, and its time has come
      have hin : ready ∈ r.log.accepted := hacc.mem_accepted (List.mem_append_right _ hready)
      refine ⟨hsequence ▸ hacc.fresh ready hin, ?_⟩
      have htick : r.log.tick e = now := Log.tick_of_reading hreading
      rw [hfire, ← htick]
      exact (h.due ready (.inr hready)).trans hclock
  · rw [hinbox] at htask
    cases htask
  · rw [hinbox] at htask
    rw [hflow, List.mem_append] at hready
    rcases hready with hready | hready
    · exact h.later task htask hsent ready hready hreadySent
    · exact absurd hreadySent (hacc.scheduled ready (.inr (hpopped ready hready).1)).1
  · rw [hinbox] at htask
    refine h.later task htask hsent ready ?_ hreadySent
    rw [hflow]
    exact List.mem_cons_of_mem _ hready
  · rw [hflow] at hready
    cases hready

/-- A callback that starts was due. -/
theorem fireAt_le_of_starts {r : Run} (hacc : Accounted r) (h : Timed r) {e : Event} (hclock : ClockForward r e)
    {task : Task} (hmem : task ∈ starts r.state e) : task.fireAt ≤ r.log.tick e := by
  rcases starts_cases hacc.regular e with hnone | ⟨started, rest, hstarts, hready⟩
  · rw [hnone] at hmem
    cases hmem
  · rw [hstarts, List.mem_singleton] at hmem
    subst hmem
    refine (h.due task (.inr ?_)).trans hclock
    rw [hready]
    exact List.mem_cons_self

theorem Accounted.eq_of_sequence {r : Run} (h : Accounted r) {a b : Task} (ha : a ∈ r.log.accepted)
    (hb : b ∈ r.log.accepted) (heq : a.sequence = b.sequence) : a = b :=
  List.inj_on_of_nodup_map h.sequences ha hb heq

/-- When the callback of a sent task starts, those of all sent tasks that come before it have. -/
theorem started_of_notAfter {r : Run} (hacc : Accounted r) (h : Timed r) {e : Event} {task other : Task}
    {rest : List Task} (hstarts : starts r.state e = [task]) (hready : r.state.phase.ready = task :: rest)
    (hsent : task.identifier = 0) (hother : other ∈ r.log.accepted) (hotherSent : other.identifier = 0)
    (hdeadline : other.deadline = distantFuture) (hne : other ≠ task)
    (hbefore : NotAfter other task) : other ∈ r.log.started.map (·.task) := by
  have htask : task ∈ r.state.phase.ready := hready ▸ List.mem_cons_self
  rw [notAfter_iff] at hbefore
  have hplace := hacc.perm.mem_iff.mp hother
  simp only [List.mem_append, State.places] at hplace
  rcases hplace with ((((hin | hin) | hin) | hin) | hin) | hin
  · have hlater := h.later other hin hotherSent task htask hsent
    omega
  · exact absurd hotherSent (hacc.scheduled other (.inl hin)).1
  · exact absurd hotherSent (hacc.scheduled other (.inr hin)).1
  · rw [hready, List.mem_cons] at hin
    have hafter := notAfter_iff.mp (notAfter_of_starts h.sorted hstarts hready (hin.resolve_left hne))
    refine absurd (hacc.eq_of_sequence hother (hacc.mem_accepted (List.mem_append_right _ htask)) ?_) hne
    omega
  · exact hin
  · rcases hacc.lost other hin with hexpires | hcancelled
    · exact absurd hdeadline hexpires
    · rw [hotherSent] at hcancelled
      exact absurd hcancelled hacc.zero

theorem fireAt_of_accepts {r : Run} {e : Event} {task : Task} (htask : task ∈ accepts r.state e)
    (hsent : task.identifier = 0) : task.fireAt = r.log.tick e := by
  cases e with
  | send expirationTime callback now =>
    rw [accepts] at htask
    split at htask
    · rw [List.mem_singleton.mp htask]
      rfl
    · cases htask
  | schedule delay callback now =>
    rw [accepts] at htask
    split at htask
    · rw [List.mem_singleton.mp htask] at hsent
      exact absurd hsent (issue_ne_zero r.state)
    · cases htask
  | _ => cases htask

/-- A task that is accepted now comes after every sent task there is. -/
theorem not_notAfter_of_accepts {r : Run} (hacc : Accounted r) (h : Timed r) {e : Event} (hclock : ClockForward r e)
    {task old : Task} (htask : task ∈ accepts r.state e) (hsent : task.identifier = 0) (hold : old ∈ r.log.accepted)
    (holdSent : old.identifier = 0) : ¬ NotAfter task old := by
  intro hbefore
  rw [notAfter_iff] at hbefore
  have hfire := fireAt_of_accepts htask hsent
  have hsequence : task.sequence = r.state.nextSequence := by
    rcases accepts_cases r.state e with hnone | ⟨accepted, haccepts, hseq, -, -⟩
    · rw [hnone] at htask
      cases htask
    · rw [haccepts, List.mem_singleton] at htask
      rw [htask, hseq]
  have hoverdue : old.fireAt ≤ r.log.tick e := (h.sent old hold holdSent).trans hclock
  have hfresh := hacc.fresh old hold
  omega

theorem InOrder.accept {accepted new : List Task} {started : List Start} (h : InOrder accepted started)
    (hnew : ∀ task ∈ new, ∀ start ∈ started, task.identifier = 0 → start.task.identifier = 0 →
      ¬ NotAfter task start.task) : InOrder (accepted ++ new) started := by
  intro before start after heq hsent task hmem hother hdeadline hne hbefore
  rcases List.mem_append.mp hmem with hmem | hmem
  · exact h before start after heq hsent task hmem hother hdeadline hne hbefore
  · have hstart : start ∈ started := by
      rw [heq]
      exact List.mem_append_right _ List.mem_cons_self
    exact absurd hbefore (hnew task hmem start hstart hother hsent)

theorem InOrder.start {accepted : List Task} {started : List Start} (h : InOrder accepted started) {new : Start}
    (hnew : new.task.identifier = 0 → ∀ task ∈ accepted, task.identifier = 0 → task.deadline = distantFuture →
      task ≠ new.task → NotAfter task new.task → task ∈ started.map (·.task)) : InOrder accepted (started ++ [new]) := by
  intro before start after heq hsent task hmem hother hdeadline hne hbefore
  rcases List.eq_nil_or_concat after with rfl | ⟨init, last, rfl⟩
  · obtain ⟨rfl, hlast⟩ := List.append_inj' heq rfl
    cases hlast
    exact hnew hsent task hmem hother hdeadline hne hbefore
  · have heq' : started ++ [new] = (before ++ start :: init) ++ [last] := by
      rw [heq, List.concat_eq_append, List.append_assoc, List.cons_append]
    obtain ⟨hinit, -⟩ := List.append_inj' heq' rfl
    exact h before start init hinit hsent task hmem hother hdeadline hne hbefore

theorem Timed.step {r : Run} (hacc : Accounted r) (h : Timed r) {e : Event} (hclock : ClockForward r e) :
    Timed (r.step e) := by
  refine ⟨fun task hmem => due_step hacc h hclock hmem, fun task hmem hsent => ?_, sorted_step h.sorted e,
    fun task htask hsent ready hready hreadySent => later_step hacc h hclock htask hsent hready hreadySent,
    fun start hmem => ?_, ?_⟩
  · rcases List.mem_append.mp hmem with hold | hnew
    · exact (h.sent task hold hsent).trans hclock
    · exact (fireAt_of_accepts hnew hsent).le
  · rcases List.mem_append.mp hmem with hold | hnew
    · exact h.punctual start hold
    · obtain ⟨task, htask, rfl⟩ := List.mem_map.mp hnew
      exact fireAt_le_of_starts hacc h hclock htask
  · have hstarted : ∀ start ∈ r.log.started, start.task ∈ r.log.accepted := by
      intro start hstart
      refine hacc.perm.mem_iff.mpr (List.mem_append_left _ (List.mem_append_right _ ?_))
      exact List.mem_map_of_mem hstart
    rcases starts_cases hacc.regular e with hnone | ⟨task, rest, hstarts, hready⟩
    · show InOrder (r.log.accepted ++ accepts r.state e) (r.log.started ++ (starts r.state e).map _)
      rw [hnone, List.map_nil, List.append_nil]
      exact h.inOrder.accept fun new hnew start hstart hsent hold =>
        not_notAfter_of_accepts hacc h hclock hnew hsent (hstarted start hstart) hold
    · have haccepts : accepts r.state e = [] := by
        cases e with
        | nextTask now => rfl
        | _ => cases hstarts
      show InOrder (r.log.accepted ++ accepts r.state e) (r.log.started ++ (starts r.state e).map _)
      rw [haccepts, hstarts, List.append_nil, List.map_singleton]
      exact h.inOrder.start fun hsent other hother hotherSent hdeadline hne hbefore =>
        started_of_notAfter hacc h hstarts hready hsent hother hotherSent hdeadline hne hbefore

theorem timed_new (clock : Int) : Timed (Run.new clock) where
  due task hmem := by rcases hmem with hmem | hmem <;> cases hmem
  sent task hmem := absurd hmem List.not_mem_nil
  sorted cycle hcycle := by cases hcycle
  later task hmem := absurd hmem List.not_mem_nil
  punctual start hmem := absurd hmem List.not_mem_nil
  inOrder before start after heq := by
    have hlength := congrArg List.length heq
    simp [Run.new] at hlength

/-- The first task of a cycle is started, whatever the limits are. -/
theorem starts_of_first {s : State} (h : s.Regular) {cycle : Cycle} (hphase : s.phase = .looping cycle)
    (hfirst : cycle.index = 0) {task : Task} {rest : List Task} (hready : cycle.readyTasks = task :: rest) (now : Int) :
    starts s (.nextTask now) = [task] := by
  have hindex := h.counts cycle (by rw [hphase]; rfl)
  have hlimit : s.limitReached cycle = false := by
    simp only [State.limitReached, ← hindex, hfirst, Bool.and_eq_false_iff, decide_eq_false_iff_not]
    omega
  have hfunction : task.function = true := by
    apply h.ready
    rw [hphase]
    show task ∈ cycle.readyTasks.drop cycle.index
    rw [hfirst, hready]
    exact List.mem_cons_self
  simp [starts, hphase, hfirst, hready, hlimit, hfunction]

/-- In every run over a clock that does not go back, an accepted task without expiry that is not cancelled is in one
place or was started, once; no callback starts before its fire time; sent tasks start in their order; and every cycle
starts the first task that is ready. -/
theorem startedOnce_inOrder (clock : Int) (es : List Event)
    (hclock : Along Run.step ClockForward (Run.new clock) es) :
    let r := es.foldl Run.step (Run.new clock)
    (∀ task ∈ r.log.accepted, task.deadline = distantFuture → task.identifier ∉ r.log.cancels →
      r.state.places.count task + (r.log.started.map (·.task)).count task = 1) ∧
    (∀ start ∈ r.log.started, start.task.fireAt ≤ start.clock) ∧
    InOrder r.log.accepted r.log.started ∧
    (∀ cycle task rest, r.state.phase = .looping cycle → cycle.index = 0 → cycle.readyTasks = task :: rest →
      ∀ now, starts r.state (.nextTask now) = [task]) := by
  have hinv : Accounted (es.foldl Run.step (Run.new clock)) ∧ Timed (es.foldl Run.step (Run.new clock)) := by
    refine (Along.of_invariant (P := fun _ _ => True) (fun r => Accounted r ∧ Timed r) ?_ es _
      ⟨accounted_new clock, timed_new clock⟩ hclock).2
    exact fun r e h hforward => ⟨⟨h.1.step e, h.2.step h.1 hforward⟩, trivial⟩
  obtain ⟨hacc, htimed⟩ := hinv
  refine ⟨fun task hmem hdeadline hlive => ?_, htimed.punctual, htimed.inOrder, ?_⟩
  · have hcount := hacc.perm.count_eq task
    have hone := List.count_eq_one_of_mem hacc.sequences.of_map hmem
    have hnotLost : (es.foldl Run.step (Run.new clock)).log.lost.count task = 0 := by
      rw [List.count_eq_zero]
      intro hlost
      rcases hacc.lost task hlost with hexpires | hcancelled
      · exact hexpires hdeadline
      · exact hlive hcancelled
    rw [List.count_append, List.count_append] at hcount
    omega
  · exact fun cycle task rest hphase hfirst hready now => starts_of_first hacc.regular hphase hfirst hready now

/-- Two tasks are sent, and the second one is deferred. -/
def deferredRun : List Event :=
  [.start, .setMaxTasksPerCycle 1, .send none true 1, .send none true 1, .drainInbox 2, .drainReadyTasks 2,
    .executeReadyTasks 2, .nextTask 3, .taskDone .exception 4, .nextTask 4, .drainInbox 5, .drainReadyTasks 5,
    .executeReadyTasks 5, .nextTask 6]

theorem startedOnce_inOrder_deferredRun :
    Along Run.step ClockForward (Run.new 0) deferredRun ∧
      (deferredRun.foldl Run.step (Run.new 0)).log.started.map (·.task.sequence) = [0, 1] ∧
      InOrder (deferredRun.foldl Run.step (Run.new 0)).log.accepted
        (deferredRun.foldl Run.step (Run.new 0)).log.started := by
  have hclock : Along Run.step ClockForward (Run.new 0) deferredRun := by
    simp [deferredRun, Along, ClockForward, Run.step, Run.new, Log.tick, Event.reading]
  exact ⟨hclock, by decide, (startedOnce_inOrder 0 deferredRun hclock).2.2.1⟩

end ForgottenServer.Reactor
