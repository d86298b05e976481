import ForgottenServer.Reactor.Order

/-! # Cancellation

`drainReadyTasks` forgets the identifier of a task it takes from the heap, and `drainInbox` ignores a cancellation whose
identifier it does not know. So a task that is deferred to the send inbox cannot be cancelled any more. As long as no
such task is cancelled and identifiers are not reused, cancellations hold. -/

namespace ForgottenServer.Reactor

open Runs

/-- No deferred task waits for a cancellation when a `runOnce` begins, and `schedule` returns an identifier that no
waiting task and no waiting cancellation has. -/
structure Honours (r : Run) (e : Event) : Prop where
  deferred : begins r.state e = true → ∀ task ∈ r.state.sendInbox, task.identifier ∉ r.state.cancelInbox
  issued : ∀ task ∈ accepts r.state e, task.identifier ≠ 0 →
    task.identifier ∉ r.state.cancelInbox ∧ ∀ other ∈ r.state.places, other.identifier ≠ task.identifier

/-! ## The heap -/

section Heap

variable {now : Int}

/-- The tasks that are taken from the heap. -/
def Popped.taken (popped : Popped) : List Task := popped.readyTasks ++ popped.lost

theorem mem_sets_popDue (now : Int) (identifier : Nat) (taskHeap : List Task) :
    ∀ active cancelled,
      (identifier ∈ (popDue now taskHeap active cancelled).activeIdentifiers ↔
        identifier ∈ active ∧ ∀ task ∈ (popDue now taskHeap active cancelled).taken, task.identifier ≠ identifier) ∧
      (identifier ∈ (popDue now taskHeap active cancelled).cancelled ↔
        identifier ∈ cancelled ∧ ∀ task ∈ (popDue now taskHeap active cancelled).taken, task.identifier ≠ identifier) := by
  induction taskHeap with
  | nil =>
    intro active cancelled
    simp [popDue, Popped.taken]
  | cons first taskHeap ih =>
    intro active cancelled
    obtain ⟨hactive, hcancelled⟩ := ih (active.erase first.identifier) (cancelled.erase first.identifier)
    unfold popDue
    by_cases hdue : first.fireAt ≤ now
    · rw [if_pos hdue]
      have htaken : ∀ popped : Popped,
          (∀ task ∈ Popped.taken { popped with lost := first :: popped.lost }, task.identifier ≠ identifier) ↔
            first.identifier ≠ identifier ∧ ∀ task ∈ popped.taken, task.identifier ≠ identifier := by
        intro popped
        simp only [Popped.taken, List.mem_append, List.mem_cons]
        grind
      by_cases hlost : first.identifier ∈ cancelled ∨ first.hasExpired now = true
      · simp only [if_pos hlost, htaken, hactive, hcancelled, Finset.mem_erase]
        grind
      · simp only [if_neg hlost, hactive, hcancelled, Finset.mem_erase, Popped.taken, List.cons_append, List.mem_cons]
        grind
    · rw [if_neg hdue]
      simp [Popped.taken]

/-- With distinct identifiers a cancelled task is not taken to the ready list. -/
theorem notMem_cancelled_of_ready {task : Task} (taskHeap : List Task) :
    ∀ active cancelled, (taskHeap.map (·.identifier)).Nodup →
      task ∈ (popDue now taskHeap active cancelled).readyTasks → task.identifier ∉ cancelled := by
  induction taskHeap with
  | nil =>
    intro active cancelled _ hmem
    cases hmem
  | cons first taskHeap ih =>
    intro active cancelled hnodup hmem
    obtain ⟨hfirst, hrest⟩ := List.nodup_cons.mp hnodup
    have hlater : task ∈ (popDue now taskHeap (active.erase first.identifier)
        (cancelled.erase first.identifier)).readyTasks → task.identifier ∉ cancelled := by
      intro hin hcancelled
      refine ih _ _ hrest hin (Finset.mem_erase.mpr ⟨fun heq => hfirst ?_, hcancelled⟩)
      refine List.mem_map.mpr ⟨task, ?_, heq⟩
      rw [← (perm_popDue now taskHeap (active.erase first.identifier) (cancelled.erase first.identifier)).mem_iff]
      exact List.mem_append_left _ (List.mem_append_right _ hin)
    unfold popDue at hmem
    by_cases hdue : first.fireAt ≤ now
    · rw [if_pos hdue] at hmem
      by_cases hlost : first.identifier ∈ cancelled ∨ first.hasExpired now = true
      · simp only [if_pos hlost] at hmem
        exact hlater hmem
      · simp only [if_neg hlost] at hmem
        rcases List.mem_cons.mp hmem with rfl | hin
        · exact fun hcancelled => hlost (.inl hcancelled)
        · exact hlater hin
    · rw [if_neg hdue] at hmem
      cases hmem

end Heap

/-! ## The invariant -/

/-- A task whose cancellation is on its way: it waits in the cancel inbox, or the task is cancelled in the heap. -/
def OnItsWay (r : Run) (run : Nat) (task : Task) : Prop :=
  (task.identifier ∈ r.state.cancelInbox ∧ run = r.log.runs) ∨
    (task ∈ r.state.taskHeap ∧ task.identifier ∈ r.state.cancelled)

structure Cancelling (r : Run) : Prop where
  unique : ∀ a ∈ r.state.places, ∀ b ∈ r.state.places, a.identifier ≠ 0 → a.identifier = b.identifier → a = b
  active : ∀ identifier, identifier ∈ r.state.activeIdentifiers ↔ ∃ task ∈ r.state.taskHeap, task.identifier = identifier
  cancelled : r.state.cancelled ⊆ r.state.activeIdentifiers
  waiting : ∀ task, task ∈ r.state.scheduleInbox ∨ task ∈ r.state.taskHeap → task.identifier ∈ r.state.cancelInbox →
    ∃ run, (run, task) ∈ r.log.targets
  named : ∀ task ∈ r.state.taskHeap, task.identifier ∈ r.state.cancelled → ∃ run, (run, task) ∈ r.log.targets
  accepted : ∀ target ∈ r.log.targets, target.2 ∈ r.log.accepted
  onItsWay : ∀ target ∈ r.log.targets, target.2 ∈ r.state.places → OnItsWay r target.1 target.2
  never : ∀ start ∈ r.log.started, ∀ target ∈ r.log.targets, target.2 = start.task → start.run ≤ target.1
  lost : ∀ task ∈ r.log.lost, task.deadline = distantFuture → ∃ run, (run, task) ∈ r.log.targets

theorem Accounted.nodup_all {r : Run} (h : Accounted r) :
    (r.state.places ++ r.log.started.map (·.task) ++ r.log.lost).Nodup :=
  h.perm.nodup_iff.mp h.sequences.of_map

theorem Accounted.notMem_places_of_started {r : Run} (h : Accounted r) {start : Start} (hmem : start ∈ r.log.started) :
    start.task ∉ r.state.places := fun hplace =>
  (List.nodup_append.mp (List.nodup_append.mp h.nodup_all).1).2.2 _ hplace _ (List.mem_map_of_mem hmem) rfl

theorem Accounted.notMem_places_of_lost {r : Run} (h : Accounted r) {task : Task} (hmem : task ∈ r.log.lost) :
    task ∉ r.state.places := fun hplace =>
  (List.nodup_append.mp h.nodup_all).2.2 _ (List.mem_append_left _ hplace) _ hmem rfl

theorem Accounted.nodup_places {r : Run} (h : Accounted r) : r.state.places.Nodup :=
  (List.nodup_append.mp (List.nodup_append.mp h.nodup_all).1).1

theorem Accounted.notMem_heap_of_ready {r : Run} (h : Accounted r) {task : Task} (hmem : task ∈ r.state.phase.ready) :
    task ∉ r.state.taskHeap := fun hheap =>
  (List.nodup_append.mp h.nodup_places).2.2 _ (List.mem_append_right _ hheap) _ hmem rfl

theorem mem_places_of_heap {s : State} {task : Task} (h : task ∈ s.taskHeap) : task ∈ s.places :=
  List.mem_append_left _ (List.mem_append_right _ h)

theorem mem_places_of_scheduleInbox {s : State} {task : Task} (h : task ∈ s.scheduleInbox) : task ∈ s.places :=
  List.mem_append_left _ (List.mem_append_left _ (List.mem_append_right _ h))

/-- The identifiers in the heap are distinct. -/
theorem Cancelling.nodup_heap {r : Run} (hacc : Accounted r) (h : Cancelling r) :
    (r.state.taskHeap.map (·.identifier)).Nodup := by
  have hnodup : r.state.taskHeap.Nodup :=
    (List.nodup_append.mp (List.nodup_append.mp hacc.nodup_places).1).2.1
  refine hnodup.map_on fun a ha b hb heq => ?_
  exact h.unique a (mem_places_of_heap ha) b (mem_places_of_heap hb) (hacc.scheduled a (.inr ha)).1 heq

/-- Where a task of a place was before a step. -/
theorem mem_places_step {r : Run} (hacc : Accounted r) {e : Event} {task : Task}
    (h : task ∈ (step r.state e).places) : task ∈ r.state.places ∨ task ∈ accepts r.state e := by
  have hmem := (perm_places_step hacc.regular e).mem_iff.mp (List.mem_append_left _ (List.mem_append_left _ h))
  exact List.mem_append.mp hmem

theorem notMem_accepted_of_accepts {r : Run} (hacc : Accounted r) {e : Event} {task : Task}
    (h : task ∈ accepts r.state e) : task ∉ r.log.accepted := by
  intro hmem
  rcases accepts_cases r.state e with hnone | ⟨accepted, haccepts, hsequence, -, -⟩
  · rw [hnone] at h
    cases h
  · rw [haccepts, List.mem_singleton] at h
    have hfresh := hacc.fresh task hmem
    rw [h, hsequence] at hfresh
    omega

/-! ## One step -/

section Step

variable {r : Run} {e : Event}

theorem Cancelling.unique_step (hacc : Accounted r) (h : Cancelling r) (hok : Honours r e) {a b : Task}
    (ha : a ∈ (step r.state e).places) (hb : b ∈ (step r.state e).places) (hzero : a.identifier ≠ 0)
    (heq : a.identifier = b.identifier) : a = b := by
  rcases mem_places_step hacc ha with ha | ha
  · rcases mem_places_step hacc hb with hb | hb
    · exact h.unique a ha b hb hzero heq
    · exact absurd heq ((hok.issued b hb (heq ▸ hzero)).2 a ha)
  · rcases mem_places_step hacc hb with hb | hb
    · exact absurd heq.symm ((hok.issued a ha hzero).2 b hb)
    · rcases accepts_cases r.state e with hnone | ⟨task, haccepts, -, -, -⟩
      · rw [hnone] at ha
        cases ha
      · rw [haccepts, List.mem_singleton] at ha hb
        rw [ha, hb]

theorem mem_heap_drainInbox {s : State} {now : Int} {task : Task} :
    task ∈ (s.drainInbox now).taskHeap ↔ task ∈ s.scheduleInbox ∨ task ∈ s.taskHeap := by
  rw [← List.mem_append]
  exact (perm_foldl_pushHeap s.scheduleInbox s.taskHeap).mem_iff

theorem mem_active_drainInbox {s : State} {now : Int} {identifier : Nat} :
    identifier ∈ (s.drainInbox now).activeIdentifiers ↔
      identifier ∈ s.activeIdentifiers ∨ ∃ task ∈ s.scheduleInbox, task.identifier = identifier := by
  show identifier ∈ s.activeIdentifiers ∪ (s.scheduleInbox.map (·.identifier)).toFinset ↔ _
  rw [Finset.mem_union, List.mem_toFinset, List.mem_map]

theorem mem_cancelled_drainInbox {s : State} {now : Int} {identifier : Nat} :
    identifier ∈ (s.drainInbox now).cancelled ↔ identifier ∈ s.cancelled ∨
      (identifier ∈ s.cancelInbox ∧ identifier ∈ (s.drainInbox now).activeIdentifiers) := by
  show identifier ∈ s.cancelled ∪ s.cancelInbox.toFinset.filter (· ∈ (s.drainInbox now).activeIdentifiers) ↔ _
  rw [Finset.mem_union, Finset.mem_filter, List.mem_toFinset]

theorem Cancelling.active_step (hacc : Accounted r) (h : Cancelling r) (identifier : Nat) :
    identifier ∈ (step r.state e).activeIdentifiers ↔
      ∃ task ∈ (step r.state e).taskHeap, task.identifier = identifier := by
  rcases step_effect r.state e with ⟨hsame, -, -, -, -⟩ | ⟨delay, now, -, hstep, -, -, -⟩ | ⟨hstep, -, -, -⟩ |
    ⟨now, -, hstep, -, -, -, -⟩ | ⟨now, readyTasks, -, hstep, -, -, -, -⟩
  · rw [hsame.activeIdentifiers, hsame.taskHeap]
    exact h.active identifier
  · rw [hstep]
    exact h.active identifier
  · rw [hstep]
    exact h.active identifier
  · rw [hstep, mem_active_drainInbox, h.active]
    simp only [mem_heap_drainInbox]
    constructor
    · rintro (⟨task, htask, rfl⟩ | ⟨task, htask, rfl⟩)
      · exact ⟨task, .inr htask, rfl⟩
      · exact ⟨task, .inl htask, rfl⟩
    · rintro ⟨task, htask | htask, rfl⟩
      · exact .inr ⟨task, htask, rfl⟩
      · exact .inl ⟨task, htask, rfl⟩
  · rw [hstep]
    have hperm := perm_popDue now r.state.taskHeap r.state.activeIdentifiers r.state.cancelled
    have hnodup := (hperm.map (·.identifier)).nodup_iff.mpr (h.nodup_heap hacc)
    rw [List.append_assoc, List.map_append, List.nodup_append] at hnodup
    refine (mem_sets_popDue now identifier _ _ _).1.trans ?_
    rw [h.active]
    constructor
    · rintro ⟨⟨task, htask, rfl⟩, hkept⟩
      rw [← hperm.mem_iff, List.append_assoc, List.mem_append] at htask
      rcases htask with htask | htask
      · exact ⟨task, htask, rfl⟩
      · exact absurd rfl (hkept task htask)
    · rintro ⟨task, htask, rfl⟩
      refine ⟨⟨task, hperm.mem_iff.mp (List.mem_append_left _ (List.mem_append_left _ htask)), rfl⟩, ?_⟩
      intro other hother heq
      exact hnodup.2.2 _ (List.mem_map_of_mem htask) _ (List.mem_map_of_mem hother) heq.symm

theorem Cancelling.cancelled_step (h : Cancelling r) :
    (step r.state e).cancelled ⊆ (step r.state e).activeIdentifiers := by
  intro identifier hmem
  rcases step_effect r.state e with ⟨hsame, -, -, -, -⟩ | ⟨delay, now, -, hstep, -, -, -⟩ | ⟨hstep, -, -, -⟩ |
    ⟨now, -, hstep, -, -, -, -⟩ | ⟨now, readyTasks, -, hstep, -, -, -, -⟩
  · rw [hsame.cancelled] at hmem
    rw [hsame.activeIdentifiers]
    exact h.cancelled hmem
  · rw [hstep] at hmem ⊢
    exact h.cancelled hmem
  · rw [hstep] at hmem ⊢
    exact h.cancelled hmem
  · rw [hstep] at hmem ⊢
    rcases mem_cancelled_drainInbox.mp hmem with hold | ⟨-, hnew⟩
    · exact mem_active_drainInbox.mpr (.inl (h.cancelled hold))
    · exact hnew
  · rw [hstep] at hmem ⊢
    obtain ⟨hold, hkept⟩ := (mem_sets_popDue now identifier _ _ _).2.mp hmem
    exact (mem_sets_popDue now identifier _ _ _).1.mpr ⟨h.cancelled hold, hkept⟩

/-- A target of this step is in a place. -/
theorem mem_targets {s : State} {task : Task} (hplace : task ∈ s.places) (hnamed : task.identifier ∈ cancels s e) :
    task ∈ targets s e := List.mem_filter.mpr ⟨hplace, decide_eq_true hnamed⟩

theorem target_of_old {task : Task} (h : ∃ run, (run, task) ∈ r.log.targets) : ∃ run, (run, task) ∈ (r.step e).log.targets :=
  h.imp fun _ hmem => List.mem_append_left _ hmem

theorem Cancelling.waiting_step (h : Cancelling r) (hok : Honours r e) {task : Task}
    (htask : task ∈ (step r.state e).scheduleInbox ∨ task ∈ (step r.state e).taskHeap)
    (hwaiting : task.identifier ∈ (step r.state e).cancelInbox) : ∃ run, (run, task) ∈ (r.step e).log.targets := by
  rcases step_effect r.state e with ⟨hsame, -, -, -, -⟩ | ⟨delay, now, haccepts, hstep, -, -, -⟩ | ⟨hstep, -, -, -⟩ |
    ⟨now, -, hstep, -, -, -, -⟩ | ⟨now, readyTasks, -, hstep, -, -, -, -⟩
  · rw [hsame.scheduleInbox, hsame.taskHeap] at htask
    rw [hsame.cancelInbox] at hwaiting
    exact target_of_old (h.waiting task htask hwaiting)
  · rw [hstep] at htask hwaiting
    rw [List.mem_append, List.mem_singleton] at htask
    rcases htask with (htask | htask) | htask
    · exact target_of_old (h.waiting task (.inl htask) hwaiting)
    · -- a new identifier is not waiting to be cancelled
      have hnew : task ∈ accepts r.state e := by
        rw [haccepts, htask]
        exact List.mem_cons_self
      refine absurd hwaiting (hok.issued task hnew ?_).1
      rw [htask]
      exact issue_ne_zero r.state
    · exact target_of_old (h.waiting task (.inr htask) hwaiting)
  · rw [hstep] at htask hwaiting
    rcases List.mem_append.mp hwaiting with hwaiting | hwaiting
    · exact target_of_old (h.waiting task htask hwaiting)
    · refine ⟨r.log.runs, List.mem_append_right _ (List.mem_map_of_mem (mem_targets ?_ hwaiting))⟩
      rcases htask with htask | htask
      · exact mem_places_of_scheduleInbox htask
      · exact mem_places_of_heap htask
  · rw [hstep] at hwaiting
    cases hwaiting
  · rw [hstep] at htask hwaiting
    refine target_of_old (h.waiting task (htask.imp_right fun hheap => ?_) hwaiting)
    rw [← (perm_popDue now r.state.taskHeap r.state.activeIdentifiers r.state.cancelled).mem_iff]
    exact List.mem_append_left _ (List.mem_append_left _ hheap)

theorem Cancelling.named_step (hacc : Accounted r) (h : Cancelling r) {task : Task}
    (htask : task ∈ (step r.state e).taskHeap) (hcancelled : task.identifier ∈ (step r.state e).cancelled) :
    ∃ run, (run, task) ∈ (r.step e).log.targets := by
  refine target_of_old ?_
  rcases step_effect r.state e with ⟨hsame, -, -, -, -⟩ | ⟨delay, now, -, hstep, -, -, -⟩ | ⟨hstep, -, -, -⟩ |
    ⟨now, -, hstep, -, -, -, -⟩ | ⟨now, readyTasks, -, hstep, -, -, -, -⟩
  · rw [hsame.taskHeap] at htask
    rw [hsame.cancelled] at hcancelled
    exact h.named task htask hcancelled
  · rw [hstep] at htask hcancelled
    exact h.named task htask hcancelled
  · rw [hstep] at htask hcancelled
    exact h.named task htask hcancelled
  · rw [hstep] at htask hcancelled
    rw [mem_heap_drainInbox] at htask
    rcases mem_cancelled_drainInbox.mp hcancelled with hold | ⟨hwaiting, -⟩
    · -- the identifier is that of a task of the heap, and there is no other task with it
      obtain ⟨owner, howner, heq⟩ := (h.active _).mp (h.cancelled hold)
      have hplace : task ∈ r.state.places := by
        rcases htask with htask | htask
        · exact mem_places_of_scheduleInbox htask
        · exact mem_places_of_heap htask
      have hsame := h.unique owner (mem_places_of_heap howner) task hplace (hacc.scheduled owner (.inr howner)).1 heq
      exact h.named task (hsame ▸ howner) hold
    · exact h.waiting task htask hwaiting
  · rw [hstep] at htask hcancelled
    refine h.named task ?_ (cancelled_popDue_subset _ _ _ _ hcancelled)
    rw [← (perm_popDue now r.state.taskHeap r.state.activeIdentifiers r.state.cancelled).mem_iff]
    exact List.mem_append_left _ (List.mem_append_left _ htask)

/-- The step that begins a `runOnce` is counted. -/
theorem runs_of_not_begins (h : begins r.state e = false) : (r.step e).log.runs = r.log.runs := by
  show r.log.runs + (begins r.state e).toNat = r.log.runs
  rw [h]
  rfl

theorem Cancelling.onItsWay_step (hacc : Accounted r) (h : Cancelling r) (hok : Honours r e) {run : Nat} {task : Task}
    (htarget : (run, task) ∈ r.log.targets) (hplace : task ∈ (step r.state e).places) :
    OnItsWay (r.step e) run task := by
  have hold : task ∈ r.state.places := by
    rcases mem_places_step hacc hplace with hold | hnew
    · exact hold
    · exact absurd (h.accepted _ htarget) (notMem_accepted_of_accepts hacc hnew)
  have hway := h.onItsWay _ htarget hold
  rcases step_effect r.state e with ⟨hsame, -, -, -, hbegins⟩ | ⟨delay, now, -, hstep, -, -, hbegins⟩ |
    ⟨hstep, -, -, hbegins⟩ | ⟨now, hphase, hstep, -, -, -, hbegins⟩ | ⟨now, readyTasks, hphase, hstep, -, -, hloses, hbegins⟩
  · rw [OnItsWay, runs_of_not_begins hbegins]
    show task.identifier ∈ (step r.state e).cancelInbox ∧ _ ∨ task ∈ (step r.state e).taskHeap ∧
      task.identifier ∈ (step r.state e).cancelled
    rw [hsame.cancelInbox, hsame.taskHeap, hsame.cancelled]
    exact hway
  · rw [OnItsWay, runs_of_not_begins hbegins]
    show task.identifier ∈ (step r.state e).cancelInbox ∧ _ ∨ task ∈ (step r.state e).taskHeap ∧
      task.identifier ∈ (step r.state e).cancelled
    rw [hstep]
    exact hway
  · rw [OnItsWay, runs_of_not_begins hbegins]
    show task.identifier ∈ (step r.state e).cancelInbox ∧ _ ∨ task ∈ (step r.state e).taskHeap ∧
      task.identifier ∈ (step r.state e).cancelled
    rw [hstep]
    exact hway.imp_left fun hwaits => ⟨List.mem_append_left _ hwaits.1, hwaits.2⟩
  · -- the cancellation meets its task in the heap
    right
    show task ∈ (step r.state e).taskHeap ∧ task.identifier ∈ (step r.state e).cancelled
    rw [hstep, mem_heap_drainInbox, mem_cancelled_drainInbox, mem_active_drainInbox]
    rcases hway with ⟨hwaits, -⟩ | ⟨hheap, hcancelled⟩
    · simp only [State.places, hphase, Phase.ready, List.append_nil, List.mem_append] at hold
      rcases hold with (hsend | hscheduled) | hheap
      · exact absurd hwaits (hok.deferred hbegins task hsend)
      · exact ⟨.inl hscheduled, .inr ⟨hwaits, .inr ⟨task, hscheduled, rfl⟩⟩⟩
      · exact ⟨.inr hheap, .inr ⟨hwaits, .inl ((h.active _).mpr ⟨task, hheap, rfl⟩)⟩⟩
    · exact ⟨.inr hheap, .inl hcancelled⟩
  · rcases hway with ⟨hwaits, hrun⟩ | ⟨hheap, hcancelled⟩
    · left
      rw [runs_of_not_begins hbegins]
      show task.identifier ∈ (step r.state e).cancelInbox ∧ _
      rw [hstep]
      exact ⟨hwaits, hrun⟩
    · right
      show task ∈ (step r.state e).taskHeap ∧ task.identifier ∈ (step r.state e).cancelled
      have hperm := perm_popDue now r.state.taskHeap r.state.activeIdentifiers r.state.cancelled
      have hnodup := (hperm.map (·.identifier)).nodup_iff.mpr (h.nodup_heap hacc)
      rw [List.append_assoc, List.map_append, List.nodup_append] at hnodup
      rw [hstep]
      rw [← hperm.mem_iff, List.append_assoc, List.mem_append, List.mem_append] at hheap
      rcases hheap with hkept | hready | hlost
      · refine ⟨hkept, (mem_sets_popDue now task.identifier _ _ _).2.mpr ⟨hcancelled, ?_⟩⟩
        intro other hother heq
        exact hnodup.2.2 _ (List.mem_map_of_mem hkept) _ (List.mem_map_of_mem hother) heq.symm
      · exact absurd hcancelled (notMem_cancelled_of_ready _ _ _ (h.nodup_heap hacc) hready)
      · have hdropped : task ∈ (r.step e).log.lost := List.mem_append_right _ (hloses ▸ hlost)
        exact absurd hplace ((hacc.step e).notMem_places_of_lost hdropped)

/-- A callback that starts has no cancellation from an earlier `runOnce`. -/
theorem Cancelling.starts_le (hacc : Accounted r) (h : Cancelling r) {task : Task} (hstarts : task ∈ starts r.state e)
    {run : Nat} (htarget : (run, task) ∈ r.log.targets) : r.log.runs ≤ run := by
  rcases starts_cases hacc.regular e with hnone | ⟨started, rest, hsome, hready⟩
  · rw [hnone] at hstarts
    cases hstarts
  · rw [hsome, List.mem_singleton] at hstarts
    subst hstarts
    have hmem : task ∈ r.state.phase.ready := hready ▸ List.mem_cons_self
    rcases h.onItsWay _ htarget (List.mem_append_right _ hmem) with ⟨-, hrun⟩ | ⟨hheap, -⟩
    · exact hrun.ge
    · exact absurd hheap (hacc.notMem_heap_of_ready hmem)

theorem Cancelling.never_step (hacc : Accounted r) (h : Cancelling r) {start : Start} {target : Nat × Task}
    (hstart : start ∈ (r.step e).log.started) (htarget : target ∈ (r.step e).log.targets)
    (heq : target.2 = start.task) : start.run ≤ target.1 := by
  rcases List.mem_append.mp hstart with hstart | hstart
  · rcases List.mem_append.mp htarget with htarget | htarget
    · exact h.never start hstart target htarget heq
    · obtain ⟨task, htask, rfl⟩ := List.mem_map.mp htarget
      have hplace : task ∈ r.state.places := (List.mem_filter.mp htask).1
      exact absurd ((show task = start.task from heq) ▸ hplace) (hacc.notMem_places_of_started hstart)
  · obtain ⟨task, htask, rfl⟩ := List.mem_map.mp hstart
    rcases List.mem_append.mp htarget with htarget | htarget
    · obtain ⟨run, task'⟩ := target
      obtain rfl : task' = task := heq
      exact h.starts_le hacc htask htarget
    · obtain ⟨named, -, rfl⟩ := List.mem_map.mp htarget
      exact le_rfl

theorem Cancelling.lost_step (h : Cancelling r) {task : Task} (hlost : task ∈ (r.step e).log.lost)
    (hdeadline : task.deadline = distantFuture) : ∃ run, (run, task) ∈ (r.step e).log.targets := by
  refine target_of_old ?_
  rcases List.mem_append.mp hlost with hlost | hlost
  · exact h.lost task hlost hdeadline
  · have hcancelled := (mem_loses hlost).resolve_left fun hexpires => hexpires hdeadline
    rcases step_effect r.state e with ⟨-, -, -, hloses, -⟩ | ⟨-, -, -, -, -, hloses, -⟩ | ⟨-, -, hloses, -⟩ |
      ⟨now, -, -, -, -, hloses, -⟩ | ⟨now, readyTasks, -, -, -, -, hloses, -⟩
    · rw [hloses] at hlost; cases hlost
    · rw [hloses] at hlost; cases hlost
    · rw [hloses] at hlost; cases hlost
    · rw [hloses] at hlost
      have hexpired := (List.mem_filter.mp hlost).2
      simp [Task.hasExpired, hdeadline] at hexpired
    · rw [hloses] at hlost
      refine h.named task ?_ hcancelled
      rw [← (perm_popDue now r.state.taskHeap r.state.activeIdentifiers r.state.cancelled).mem_iff]
      exact List.mem_append_right _ hlost

theorem Cancelling.step (hacc : Accounted r) (h : Cancelling r) (hok : Honours r e) : Cancelling (r.step e) where
  unique a ha b hb := h.unique_step hacc hok ha hb
  active := h.active_step hacc
  cancelled := h.cancelled_step
  waiting task htask := h.waiting_step hok htask
  named task htask := h.named_step hacc htask
  accepted target htarget := by
    rcases List.mem_append.mp htarget with htarget | htarget
    · exact List.mem_append_left _ (h.accepted target htarget)
    · obtain ⟨task, htask, rfl⟩ := List.mem_map.mp htarget
      exact List.mem_append_left _ (hacc.mem_accepted (List.mem_filter.mp htask).1)
  onItsWay target htarget hplace := by
    rcases List.mem_append.mp htarget with htarget | htarget
    · exact h.onItsWay_step hacc hok htarget hplace
    · -- the identifier was put in the cancel inbox just now
      obtain ⟨task, htask, rfl⟩ := List.mem_map.mp htarget
      have hnamed : task.identifier ∈ cancels r.state e := of_decide_eq_true (List.mem_filter.mp htask).2
      cases e with
      | cancel taskIdentifier =>
        refine .inl ⟨?_, rfl⟩
        show task.identifier ∈ (r.state.cancel taskIdentifier).cancelInbox
        rw [cancel_eq]
        exact List.mem_append_right _ hnamed
      | _ => cases hnamed
  never start hstart target htarget := h.never_step hacc hstart htarget
  lost task hlost := h.lost_step hlost

end Step

theorem cancelling_new (clock : Int) : Cancelling (Run.new clock) where
  unique a ha := by cases ha
  active identifier := by simp [Run.new]
  cancelled := subset_rfl
  waiting task htask := by rcases htask with htask | htask <;> cases htask
  named task htask := by cases htask
  accepted target htarget := by cases htarget
  onItsWay target htarget := by cases htarget
  never start hstart := by cases hstart
  lost task hlost := by cases hlost

/-! ## Whole runs -/

/-- In a run where no deferred task has a cancellation that waits and no identifier is reused too early, a task that is
cancelled before its callback starts never starts in a later `runOnce`, and a task without expiry is dropped only if it
was itself cancelled. -/
theorem cancelled_never_starts (clock : Int) (es : List Event) (hrun : Along Run.step Honours (Run.new clock) es) :
    let r := es.foldl Run.step (Run.new clock)
    (∀ start ∈ r.log.started, ∀ target ∈ r.log.targets, target.2 = start.task → start.run ≤ target.1) ∧
    (∀ task ∈ r.log.lost, task.deadline = distantFuture → ∃ run, (run, task) ∈ r.log.targets) := by
  have hinv : Accounted (es.foldl Run.step (Run.new clock)) ∧ Cancelling (es.foldl Run.step (Run.new clock)) := by
    refine (Along.of_invariant (P := fun _ _ => True) (fun r => Accounted r ∧ Cancelling r) ?_ es _
      ⟨accounted_new clock, cancelling_new clock⟩ hrun).2
    exact fun r e h hok => ⟨⟨h.1.step e, h.2.step h.1 hok⟩, trivial⟩
  exact ⟨hinv.2.never, hinv.2.lost⟩

/-- A task is cancelled while it waits in the heap. -/
def cancelledRun : List Event :=
  [.start, .schedule 0 true 1, .cancel 1, .drainInbox 2, .drainReadyTasks 2, .executeReadyTasks 2, .nextTask 3]

theorem cancelled_never_starts_cancelledRun :
    Along Run.step Honours (Run.new 0) cancelledRun ∧
      (cancelledRun.foldl Run.step (Run.new 0)).log.targets.length = 1 ∧
      ∀ start ∈ (cancelledRun.foldl Run.step (Run.new 0)).log.started,
        ∀ target ∈ (cancelledRun.foldl Run.step (Run.new 0)).log.targets,
          target.2 = start.task → start.run ≤ target.1 := by
  have hrun : Along Run.step Honours (Run.new 0) cancelledRun := by
    refine ⟨⟨?_, ?_⟩, ⟨?_, ?_⟩, ⟨?_, ?_⟩, ⟨?_, ?_⟩, ⟨?_, ?_⟩, ⟨?_, ?_⟩, ⟨?_, ?_⟩, trivial⟩ <;> decide
  exact ⟨hrun, by decide, (cancelled_never_starts 0 cancelledRun hrun).1⟩

/-- Two tasks are scheduled, the second one is deferred, cancelled, and then run. -/
def deferredCancelRun : List Event :=
  [.start, .setMaxTasksPerCycle 1, .schedule 0 true 1, .schedule 0 true 1, .drainInbox 2, .drainReadyTasks 2,
    .executeReadyTasks 2, .nextTask 3, .taskDone .returned 4, .nextTask 4, .cancel 2, .drainInbox 5, .drainReadyTasks 5,
    .executeReadyTasks 5, .nextTask 6]

theorem starts_deferredCancelRun :
    ¬ ∀ start ∈ (deferredCancelRun.foldl Run.step (Run.new 0)).log.started,
      ∀ target ∈ (deferredCancelRun.foldl Run.step (Run.new 0)).log.targets,
        target.2 = start.task → start.run ≤ target.1 := by
  decide

end ForgottenServer.Reactor
