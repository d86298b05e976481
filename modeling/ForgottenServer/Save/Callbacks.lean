import ForgottenServer.Lib.Runs
import ForgottenServer.Save.Moves

/-! # Callbacks of flush chains

`drainPlayerFlushAsync` has a callback called when the chain of flushes of a player is over. It is registered
while there is a flush, handed to the dispatcher with the success of the chain, and called by a task of its own.

`CallMove` says what a step does to the callbacks. -/

namespace ForgottenServer.Save

/-- The callback of a task. -/
def Task.callback : Task → Option Callback
  | .drain _ callback => some callback
  | .deliver callback _ => some callback
  | .onPlayerFlushed .. => none

/-- No flush of the player is in flight or pending. -/
def State.Free (s : State) (guid : Guid) : Prop :=
  guid ∉ s.manager.flushInFlight ∧ s.manager.pendingFlushes guid = none

/-- The callbacks of a guid are handed to the dispatcher. -/
structure Notifies (s s' : State) (guid : Guid) (ok : Bool) : Prop where
  tasks : s'.tasks = s.tasks ++ (s.manager.flushChainCallbacks guid).map (.deliver · ok)
  callbacks : s'.manager.flushChainCallbacks = Function.update s.manager.flushChainCallbacks guid []
  flights : ∀ g, g ≠ guid → g ∈ s.manager.flushInFlight → g ∈ s'.manager.flushInFlight
  free : s'.Free guid

/-- The callbacks stay where they are. -/
structure Keeps (s s' : State) : Prop where
  tasks : ∃ new, s'.tasks = s.tasks ++ new ∧ ∀ t ∈ new, t.callback = none
  callbacks : s'.manager.flushChainCallbacks = s.manager.flushChainCallbacks
  flights : s.manager.flushInFlight ⊆ s'.manager.flushInFlight

theorem Keeps.same {s s' : State} (htasks : s'.tasks = s.tasks)
    (hcallbacks : s'.manager.flushChainCallbacks = s.manager.flushChainCallbacks)
    (hflights : s.manager.flushInFlight ⊆ s'.manager.flushInFlight) : Keeps s s' :=
  ⟨⟨[], by rw [htasks, List.append_nil], fun _ ht => by cases ht⟩, hcallbacks, hflights⟩

/-- The task that an event takes off the queue. -/
def taken (s : State) : Event → Option Task
  | .runTask _ _ => if let .idle := s.phase then s.tasks.head? else none
  | _ => none

/-- The tasks that are left in the queue. -/
def remaining (s : State) : Event → List Task
  | .runTask _ _ => if let .idle := s.phase then s.tasks.tail else s.tasks
  | _ => s.tasks

/-- What one step does to the callbacks. A chain that ends well is one whose last flight was successful. -/
inductive CallMove (s : State) (e : Event) (s' : State) : Prop
  | keep : (∀ t ∈ taken s e, t.callback = none) → Keeps { s with tasks := remaining s e } s' → CallMove s e s'
  | notify (guid : Guid) (ok : Bool) : (∀ t ∈ taken s e, t.callback = none) →
      Notifies { s with tasks := remaining s e } s' guid ok →
      (ok = true → (∃ t, taken s e = some t) ∧
        ∃ save, (s.lines guid).flights = [⟨save, some true⟩] ∧ (s.lines guid).waiting = none) →
      CallMove s e s'
  | ask (guid : Guid) (callback : Callback) : e = .drainPlayerFlushAsync guid callback →
      s'.tasks = s.tasks ++ [.drain guid callback] → s'.manager = s.manager → CallMove s e s'
  | register (guid : Guid) (callback : Callback) : taken s e = some (.drain guid callback) →
      s'.tasks = remaining s e → s'.manager = { s.manager with
        flushChainCallbacks := Function.update s.manager.flushChainCallbacks guid
          (s.manager.flushChainCallbacks guid ++ [callback]) } →
      guid ∈ s.manager.flushInFlight → CallMove s e s'
  | answer (guid : Guid) (callback : Callback) : taken s e = some (.drain guid callback) →
      s'.tasks = remaining s e ++ [.deliver callback true] → s'.manager = s.manager → s.Free guid → CallMove s e s'
  | call (callback : Callback) (ok : Bool) : taken s e = some (.deliver callback ok) →
      s'.tasks = remaining s e → s'.manager = s.manager → CallMove s e s'
  | restart (guids : List Guid) (replay : Guid → Replay) : e = .restart guids replay → s'.tasks = [] →
      s'.manager.flushChainCallbacks = (fun _ => []) → CallMove s e s'

section Operations

variable {s : State} {guid : Guid}

theorem completeIf_flushChainCallbacks (m : SaveManager) (tracked : Bool) :
    (m.completeIf tracked).flushChainCallbacks = m.flushChainCallbacks := by
  simp only [SaveManager.completeIf, SaveManager.completeTrackedFlush]
  split_ifs <;> rfl

theorem notifies_abortChain (tracked : Bool) : Notifies s (s.abortChain guid tracked) guid false where
  tasks := rfl
  callbacks := completeIf_flushChainCallbacks _ _
  flights g hne hg := by
    simp only [State.abortChain, completeIf_flushInFlight]
    exact Finset.mem_erase_of_ne_of_mem hne hg
  free := by
    refine ⟨?_, ?_⟩
    · simp only [State.abortChain, completeIf_flushInFlight]
      exact Finset.notMem_erase guid _
    · simp only [State.abortChain, completeIf_pendingFlushes]
      exact Function.update_self ..

theorem dispatchPlayerFlush_calls (pending : PendingPlayerFlush) (ok : Bool) :
    Keeps s (s.dispatchPlayerFlush guid pending ok) ∨ Notifies s (s.dispatchPlayerFlush guid pending ok) guid false := by
  rw [State.dispatchPlayerFlush]
  split
  · exact .inl (.same rfl rfl subset_rfl)
  · exact .inr (notifies_abortChain _)

theorem keeps_enqueue (pending : PendingPlayerFlush) (ok : Bool) : Keeps s (s.enqueue guid pending ok) := by
  rw [State.enqueue, State.savePendingFlushToDB]
  split <;> exact .same rfl rfl subset_rfl

theorem keeps_beginIf (tracked : Bool) : Keeps s (s.beginIf tracked) := by
  rw [State.beginIf]
  split <;> exact .same rfl rfl subset_rfl

theorem Keeps.trans {s' s'' : State} (h : Keeps s s') (h' : Keeps s' s'') : Keeps s s'' := by
  obtain ⟨new, hnew, hnone⟩ := h.tasks
  obtain ⟨new', hnew', hnone'⟩ := h'.tasks
  refine ⟨⟨new ++ new', by rw [hnew', hnew, List.append_assoc], fun t ht => ?_⟩, h'.callbacks.trans h.callbacks,
    h.flights.trans h'.flights⟩
  rcases List.mem_append.mp ht with ht | ht
  · exact hnone t ht
  · exact hnone' t ht

/-- Before the callbacks were handed over, nothing was done to them or to the queue. -/
theorem Notifies.of_same {s' s'' : State} {ok : Bool} (h : Notifies s' s'' guid ok) (htasks : s'.tasks = s.tasks)
    (hcallbacks : s'.manager.flushChainCallbacks = s.manager.flushChainCallbacks)
    (hflights : ∀ g, g ≠ guid → g ∈ s.manager.flushInFlight → g ∈ s'.manager.flushInFlight) : Notifies s s'' guid ok where
  tasks := by rw [h.tasks, htasks, hcallbacks]
  callbacks := by rw [h.callbacks, hcallbacks]
  flights g hne hg := h.flights g hne (hflights g hne hg)
  free := h.free

theorem schedulePlayerFlush_calls (s : State) (guid : Guid) (save : Option Queries) (tracked ok : Bool) :
    Keeps s (s.schedulePlayerFlush guid save tracked ok) ∨
      Notifies s (s.schedulePlayerFlush guid save tracked ok) guid false := by
  cases save with
  | none => exact .inl (.same rfl rfl subset_rfl)
  | some queries =>
    have hbuilt : Keeps s (s.built queries).2 := .same rfl rfl subset_rfl
    rw [State.schedulePlayerFlush]
    split
    · exact .inl (hbuilt.trans ((keeps_beginIf _).trans (keeps_enqueue _ ok)))
    · have hbegin : Keeps s (((s.built queries).2.insertInFlight guid).beginIf tracked) := by
        rw [State.beginIf]
        split <;> exact .same rfl rfl (Finset.subset_insert guid _)
      have htasks : (((s.built queries).2.insertInFlight guid).beginIf tracked).tasks = s.tasks := by
        rw [State.beginIf]
        split <;> rfl
      rcases dispatchPlayerFlush_calls ⟨(s.built queries).1, tracked⟩ ok with hkeeps | hnotifies
      · exact .inl (hbegin.trans hkeeps)
      · exact .inr (hnotifies.of_same htasks hbegin.callbacks fun g _ hg => hbegin.flights hg)

theorem savePlayerSync_calls (h : s.Orderly) (save : Option Queries) (committed ok : Bool) :
    Keeps s (s.savePlayerSync guid save committed ok) := by
  cases save with
  | none => exact .same rfl rfl subset_rfl
  | some queries =>
    have hbuilt : Keeps s (s.built queries).2 := .same rfl rfl subset_rfl
    rw [State.savePlayerSync]
    split
    · exact hbuilt.trans (keeps_enqueue _ ok)
    · rename_i hnot
      have hnone : s.manager.pendingFlushes guid = none :=
        Option.map_eq_none_iff.mp ((h guid).grounded (State.lines_grounded.mpr hnot)).2
      have hset : (insert guid s.manager.flushInFlight).erase guid = s.manager.flushInFlight := Finset.erase_insert hnot
      simp only [State.built, State.resume, hnone, hset]
      exact .same rfl rfl subset_rfl

/-- The report of a flush: the chain goes on, or its callbacks are handed over. -/
theorem onPlayerFlushed_calls (h : s.Orderly) {tracked success : Bool} {save : PlayerSaveSnapshot}
    {rest : List Task} (htasks : s.tasks = .onPlayerFlushed guid tracked success save :: rest) (ok deleted : Bool) :
    Keeps { s with tasks := rest } (State.onPlayerFlushed { s with tasks := rest } guid tracked success ok deleted) ∨
      ∃ good, Notifies { s with tasks := rest }
          (State.onPlayerFlushed { s with tasks := rest } guid tracked success ok deleted) guid good ∧
        (good = true → ∃ save, (s.lines guid).flights = [⟨save, some true⟩] ∧ (s.lines guid).waiting = none) := by
  have hone := (h.lines_takeTask htasks).1
  rw [State.onPlayerFlushed]
  split
  · rename_i hnone
    rw [completeIf_pendingFlushes] at hnone
    refine .inr ⟨success, ⟨?_, ?_, fun g hne hg => ?_, ?_, ?_⟩, fun hok => ⟨save, hok ▸ hone, ?_⟩⟩
    · simp only [State.notify, completeIf_flushChainCallbacks]
    · simp only [State.notify, completeIf_flushChainCallbacks]
    · simp only [State.notify, completeIf_flushInFlight]
      exact Finset.mem_erase_of_ne_of_mem hne hg
    · simp only [State.notify, completeIf_flushInFlight]
      exact Finset.notMem_erase guid _
    · simp only [State.notify, completeIf_pendingFlushes]
      exact hnone
    · show (s.manager.pendingFlushes guid).map (·.save) = none
      rw [hnone]
      rfl
  · rename_i pending _
    let s₀ : State := { s with
      tasks := rest
      manager := { s.manager.completeIf tracked with
        pendingFlushes := Function.update (s.manager.completeIf tracked).pendingFlushes guid none } }
    have hcallbacks : s₀.manager.flushChainCallbacks = s.manager.flushChainCallbacks := completeIf_flushChainCallbacks _ _
    have hflights : s₀.manager.flushInFlight = s.manager.flushInFlight := completeIf_flushInFlight _ _
    have hcalls : Keeps s₀ (s₀.dispatchPlayerFlush guid pending ok) ∨
        Notifies s₀ (s₀.dispatchPlayerFlush guid pending ok) guid false := dispatchPlayerFlush_calls pending ok
    rcases hcalls with hkeeps | hnotifies
    · have hstart : Keeps { s with tasks := rest } s₀ := .same rfl hcallbacks hflights.ge
      exact .inl (hstart.trans hkeeps)
    · refine .inr ⟨false, hnotifies.of_same rfl hcallbacks fun g _ hg => ?_, fun hgood => by cases hgood⟩
      rw [hflights]
      exact hg

theorem runTask_calls (h : s.Orderly) (ok deleted : Bool) (hidle : s.phase = .idle) :
    CallMove s (.runTask ok deleted) (s.runTask ok deleted) := by
  have htaken : taken s (.runTask ok deleted) = s.tasks.head? := by rw [taken, hidle]
  have hremaining : remaining s (.runTask ok deleted) = s.tasks.tail := by rw [remaining, hidle]
  rw [State.runTask]
  split
  · rename_i htasks
    rw [htasks] at htaken hremaining
    refine .keep (fun t ht => ?_) (.same (htasks.trans hremaining.symm) rfl subset_rfl)
    rw [htaken] at ht
    cases ht
  · rename_i guid tracked success save rest htasks
    rw [htasks] at htaken hremaining
    have hnone : ∀ t ∈ taken s (.runTask ok deleted), t.callback = none := by
      intro t ht
      rw [htaken] at ht
      cases ht
      rfl
    rcases onPlayerFlushed_calls h htasks ok deleted with hkeeps | ⟨good, hnotifies, hgood⟩
    · refine .keep hnone ?_
      rw [hremaining]
      exact hkeeps
    · refine .notify guid good hnone ?_ fun hok => ⟨⟨_, htaken⟩, hgood hok⟩
      rw [hremaining]
      exact hnotifies
  · rename_i guid callback rest htasks
    rw [htasks] at htaken hremaining
    rw [State.drain]
    split
    · rename_i hbusy
      refine .register guid callback htaken hremaining.symm rfl ?_
      rcases hbusy with hmem | hpending
      · exact hmem
      · by_contra hnot
        have hnone : (s.manager.pendingFlushes guid).map (·.save) = none :=
          ((h guid).grounded (State.lines_grounded.mpr hnot)).2
        obtain ⟨p, hp⟩ := Option.isSome_iff_exists.mp hpending
        have hp' : s.manager.pendingFlushes guid = some p := hp
        rw [hp'] at hnone
        cases hnone
    · rename_i hfree
      obtain ⟨hflight, hpending⟩ := not_or.mp hfree
      refine .answer guid callback htaken ?_ rfl ⟨hflight, Option.not_isSome_iff_eq_none.mp hpending⟩
      rw [hremaining]
      rfl
  · rename_i callback success rest htasks
    rw [htasks] at htaken hremaining
    exact .call callback success htaken hremaining.symm rfl

theorem recoverPendingFlushes_calls (replay : Guid → Replay) (guids : List Guid) : ∀ s : State,
    (recoverPendingFlushes guids replay s).tasks = s.tasks ∧
      (recoverPendingFlushes guids replay s).manager.flushChainCallbacks = s.manager.flushChainCallbacks := by
  induction guids with
  | nil => exact fun _ => ⟨rfl, rfl⟩
  | cons guid guids ih =>
    intro s
    have hguid : (recoverGuid replay s guid).tasks = s.tasks ∧
        (recoverGuid replay s guid).manager.flushChainCallbacks = s.manager.flushChainCallbacks := by
      rw [recoverGuid]
      split
      · exact ⟨rfl, rfl⟩
      · split <;> exact ⟨rfl, rfl⟩
    obtain ⟨htasks, hcallbacks⟩ := ih (recoverGuid replay s guid)
    exact ⟨htasks.trans hguid.1, hcallbacks.trans hguid.2⟩

end Operations

theorem step_calls {s : State} (h : s.Orderly) (e : Event) : CallMove s e (step s e) := by
  have hsame {e : Event} (htaken : taken s e = none) (hremaining : remaining s e = s.tasks) {s' : State}
      (hcalls : Keeps s s' ∨ ∃ guid, Notifies s s' guid false) : CallMove s e s' := by
    have hnone : ∀ t ∈ taken s e, t.callback = none := by
      rw [htaken]
      exact fun t ht => by cases ht
    rcases hcalls with hkeeps | ⟨guid, hnotifies⟩
    · refine .keep hnone ?_
      rw [hremaining]
      exact hkeeps
    · refine .notify guid false hnone ?_ fun hgood => by cases hgood
      rw [hremaining]
      exact hnotifies
  have hstay : Keeps s s := .same rfl rfl subset_rfl
  cases e with
  | saveAll nowMs players =>
    refine hsame rfl rfl (.inl ?_)
    rw [step]
    split
    · rw [State.saveAll]
      split_ifs <;> exact .same rfl rfl subset_rfl
    · exact hstay
  | saveNext ok =>
    refine hsame rfl rfl ?_
    rw [step, State.saveNext]
    split
    · exact .inl (.same rfl rfl subset_rfl)
    · rename_i guid save rest _
      rcases schedulePlayerFlush_calls { s with phase := .savingPlayers rest } guid save true ok with hkeeps | hnotifies
      · exact .inl ⟨hkeeps.tasks, hkeeps.callbacks, hkeeps.flights⟩
      · exact .inr ⟨guid, hnotifies.tasks, hnotifies.callbacks, hnotifies.flights, hnotifies.free⟩
    · exact .inl hstay
  | mapSaved =>
    refine hsame rfl rfl (.inl ?_)
    rw [step]
    split
    · exact .same rfl (completeIf_flushChainCallbacks s.manager true) (completeIf_flushInFlight s.manager true).ge
    · exact hstay
  | savePlayer guid save ok =>
    refine hsame rfl rfl ?_
    rw [step]
    split
    · exact (schedulePlayerFlush_calls s guid save false ok).imp_right fun hnotifies => ⟨guid, hnotifies⟩
    · exact .inl hstay
  | savePlayerSync guid save committed ok =>
    refine hsame rfl rfl (.inl ?_)
    rw [step]
    split
    · exact savePlayerSync_calls h save committed ok
    · exact hstay
  | drainPlayerFlushAsync guid callback => exact .ask guid callback rfl rfl rfl
  | poolFlush i success =>
    refine hsame rfl rfl (.inl ?_)
    rw [step, State.poolFlush]
    split
    · exact hstay
    · exact ⟨⟨_, rfl, fun t ht => by rw [List.mem_singleton.mp ht]; rfl⟩, rfl, subset_rfl⟩
  | runTask ok deleted =>
    by_cases hidle : s.phase = .idle
    · rw [step, hidle]
      exact runTask_calls h ok deleted hidle
    · have hstep : step s (.runTask ok deleted) = s := by
        rw [step]
        split
        · contradiction
        · rfl
      rw [hstep]
      refine hsame ?_ ?_ (.inl hstay)
      · rw [taken]
        split
        · contradiction
        · rfl
      · rw [remaining]
        split
        · contradiction
        · rfl
  | restart guids replay =>
    obtain ⟨htasks, hcallbacks⟩ := recoverPendingFlushes_calls replay guids s.crash
    exact .restart guids replay rfl htasks hcallbacks

end ForgottenServer.Save
