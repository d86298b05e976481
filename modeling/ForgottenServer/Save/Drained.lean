import ForgottenServer.Save.Callbacks

/-! # What a callback is told

A callback is called at most once for each registration, and registered only while there is a flush of its player.
`Watched` is the server with what is known of the last snapshot of every player: a callback that is handed over
with success should find it committed. -/

namespace ForgottenServer.Save

/-! ## Registration -/

/-- Callbacks are registered only for a guid in flight. -/
def Registered (s : State) : Prop := ∀ guid, s.manager.flushChainCallbacks guid ≠ [] → guid ∈ s.manager.flushInFlight

theorem Registered.step {s : State} (h : Registered s) (horder : s.Orderly) (e : Event) : Registered (step s e) := by
  intro g hne
  cases step_calls horder e with
  | keep _ hkeeps =>
    rw [hkeeps.callbacks] at hne
    exact hkeeps.flights (h g hne)
  | notify guid ok _ hnotifies _ =>
    rw [hnotifies.callbacks] at hne
    rcases eq_or_ne g guid with rfl | hother
    · exact absurd (Function.update_self ..) hne
    · rw [Function.update_of_ne hother] at hne
      exact hnotifies.flights g hother (h g hne)
  | ask guid callback _ _ hmanager =>
    rw [hmanager] at hne ⊢
    exact h g hne
  | register guid callback _ _ hmanager hmem =>
    rw [hmanager] at hne ⊢
    rcases eq_or_ne g guid with rfl | hother
    · exact hmem
    · exact h g (by simpa only [Function.update_of_ne hother] using hne)
  | answer guid callback _ _ hmanager _ =>
    rw [hmanager] at hne ⊢
    exact h g hne
  | call callback ok _ _ hmanager =>
    rw [hmanager] at hne ⊢
    exact h g hne
  | restart guids replay _ _ hcallbacks =>
    rw [hcallbacks] at hne
    exact absurd rfl hne

/-! ## Calls -/

theorem tasks_eq (s : State) (e : Event) : s.tasks = (taken s e).toList ++ remaining s e := by
  cases e with
  | runTask ok deleted =>
    rw [taken, remaining]
    split
    · cases s.tasks <;> rfl
    · rfl
  | _ => rfl

/-- The callback that a step calls. -/
def called (s : State) (e : Event) : Option (Callback × Bool) :=
  match taken s e with
  | some (.deliver callback ok) => some (callback, ok)
  | _ => none

/-- All calls of a run. -/
def calls : State → List Event → List Callback
  | _, [] => []
  | s, e :: es => (called s e).toList.map (·.1) ++ calls (step s e) es

def Event.asks : Event → Option Callback
  | .drainPlayerFlushAsync _ callback => some callback
  | _ => none

section Owner

variable (owner : Callback → Guid)

/-- Every callback is with the player for which it was registered. -/
structure Owned (s : State) : Prop where
  tasks : ∀ guid callback, Task.drain guid callback ∈ s.tasks → owner callback = guid
  callbacks : ∀ guid, ∀ callback ∈ s.manager.flushChainCallbacks guid, owner callback = guid

/-- How often a callback is in the server. -/
def mass (callback : Callback) (s : State) : Nat :=
  s.tasks.countP (·.callback == some callback) + (s.manager.flushChainCallbacks (owner callback)).count callback

variable {owner} {s : State}

theorem mem_tasks_of_taken {e : Event} {t : Task} (h : taken s e = some t) : t ∈ s.tasks := by
  rw [tasks_eq s e, h]
  exact List.mem_append_left _ (List.mem_singleton_self t)

theorem mem_tasks_of_remaining {e : Event} {t : Task} (h : t ∈ remaining s e) : t ∈ s.tasks := by
  rw [tasks_eq s e]
  exact List.mem_append_right _ h

theorem Owned.step (h : Owned owner s) (horder : s.Orderly) {e : Event}
    (he : ∀ guid callback, e = .drainPlayerFlushAsync guid callback → owner callback = guid) : Owned owner (step s e) := by
  have hremaining (guid : Guid) (callback : Callback) (hmem : Task.drain guid callback ∈ remaining s e) :
      owner callback = guid := h.tasks guid callback (mem_tasks_of_remaining hmem)
  cases step_calls horder e with
  | keep _ hkeeps =>
    obtain ⟨new, htasks, hnone⟩ := hkeeps.tasks
    refine ⟨fun guid callback hmem => ?_, ?_⟩
    · rw [htasks] at hmem
      rcases List.mem_append.mp hmem with hmem | hmem
      · exact hremaining guid callback hmem
      · exact absurd (hnone _ hmem) (by simp [Task.callback])
    · rw [hkeeps.callbacks]
      exact h.callbacks
  | notify guid ok _ hnotifies _ =>
    refine ⟨fun g callback hmem => ?_, fun g callback hmem => ?_⟩
    · rw [hnotifies.tasks] at hmem
      rcases List.mem_append.mp hmem with hmem | hmem
      · exact hremaining g callback hmem
      · obtain ⟨_, _, hdeliver⟩ := List.mem_map.mp hmem
        cases hdeliver
    · rw [hnotifies.callbacks] at hmem
      rcases eq_or_ne g guid with rfl | hother
      · rw [Function.update_self] at hmem
        cases hmem
      · rw [Function.update_of_ne hother] at hmem
        exact h.callbacks g callback hmem
  | ask guid callback hask htasks hmanager =>
    refine ⟨fun g c hmem => ?_, fun g c hmem => ?_⟩
    · rw [htasks] at hmem
      rcases List.mem_append.mp hmem with hmem | hmem
      · exact h.tasks g c hmem
      · cases List.mem_singleton.mp hmem
        exact he _ _ hask
    · rw [hmanager] at hmem
      exact h.callbacks g c hmem
  | register guid callback htaken htasks hmanager _ =>
    refine ⟨fun g c hmem => hremaining g c (htasks ▸ hmem), fun g c hmem => ?_⟩
    rw [hmanager] at hmem
    rcases eq_or_ne g guid with rfl | hother
    · simp only [Function.update_self] at hmem
      rcases List.mem_append.mp hmem with hmem | hmem
      · exact h.callbacks g c hmem
      · rw [List.mem_singleton.mp hmem]
        exact h.tasks g callback (mem_tasks_of_taken htaken)
    · simp only [Function.update_of_ne hother] at hmem
      exact h.callbacks g c hmem
  | answer guid callback _ htasks hmanager _ =>
    refine ⟨fun g c hmem => ?_, fun g c hmem => h.callbacks g c (hmanager ▸ hmem)⟩
    rw [htasks] at hmem
    rcases List.mem_append.mp hmem with hmem | hmem
    · exact hremaining g c hmem
    · cases List.mem_singleton.mp hmem
  | call callback ok _ htasks hmanager =>
    exact ⟨fun g c hmem => hremaining g c (htasks ▸ hmem), fun g c hmem => h.callbacks g c (hmanager ▸ hmem)⟩
  | restart guids replay _ htasks hcallbacks =>
    refine ⟨fun g c hmem => ?_, fun g c hmem => ?_⟩
    · rw [htasks] at hmem
      cases hmem
    · rw [hcallbacks] at hmem
      cases hmem

/-- A step calls a callback at the expense of what is in the server, to which only a registration adds. -/
theorem mass_step (h : Owned owner s) (horder : s.Orderly) (e : Event) (c : Callback) :
    mass owner c (step s e) + ((called s e).toList.map (·.1)).count c ≤ mass owner c s + e.asks.toList.count c := by
  have htasks₀ := congrArg (List.countP (·.callback == some c)) (tasks_eq s e)
  rw [List.countP_append] at htasks₀
  cases step_calls horder e with
  | keep hnone hkeeps =>
    obtain ⟨new, htasks, hnew⟩ := hkeeps.tasks
    have hzero : new.countP (·.callback == some c) = 0 := by
      rw [List.countP_eq_zero]
      intro t ht
      simp [hnew t ht]
    have hcalled : called s e = none := by
      rw [called]
      split
      · rename_i htaken
        exact absurd (hnone _ htaken) (by simp [Task.callback])
      · rfl
    rw [mass, mass, htasks, hkeeps.callbacks, List.countP_append, hzero, hcalled]
    simp only [Option.toList_none, List.map_nil, List.count_nil]
    omega
  | notify guid ok hnone hnotifies _ =>
    have hcalled : called s e = none := by
      rw [called]
      split
      · rename_i htaken
        exact absurd (hnone _ htaken) (by simp [Task.callback])
      · rfl
    have hmap : ((s.manager.flushChainCallbacks guid).map (Task.deliver · ok)).countP (·.callback == some c) =
        (s.manager.flushChainCallbacks guid).count c := by
      rw [List.countP_map, List.count]
      rfl
    rw [mass, mass, hnotifies.tasks, hnotifies.callbacks, List.countP_append, hmap, hcalled]
    simp only [Option.toList_none, List.map_nil, List.count_nil]
    by_cases howner : owner c = guid
    · rw [howner, Function.update_self, List.count_nil]
      omega
    · have hzero : (s.manager.flushChainCallbacks guid).count c = 0 :=
        List.count_eq_zero.mpr fun hmem => howner (h.callbacks guid c hmem)
      rw [hzero, Function.update_of_ne howner]
      omega
  | ask guid callback hask htasks hmanager =>
    subst hask
    rw [mass, mass, htasks, hmanager, List.countP_append]
    simp only [called, taken, Event.asks, Option.toList_some, Option.toList_none, List.map_nil, List.count_nil,
      List.countP_singleton, List.count_singleton, Task.callback]
    simp
    omega
  | register guid callback htaken htasks hmanager _ =>
    have howner : owner callback = guid := h.tasks guid callback (mem_tasks_of_taken htaken)
    rw [htaken] at htasks₀
    rw [mass, mass, htasks, hmanager, called, htaken]
    simp only [Option.toList_some, Option.toList_none, List.map_nil, List.count_nil, List.countP_singleton,
      Task.callback] at htasks₀ ⊢
    by_cases hc : owner c = guid
    · rw [hc, Function.update_self, List.count_append, List.count_singleton]
      simp at htasks₀ ⊢
      omega
    · have hne : callback ≠ c := fun heq => hc (heq ▸ howner)
      rw [Function.update_of_ne hc]
      simp [hne] at htasks₀ ⊢
      omega
  | answer guid callback htaken htasks hmanager _ =>
    rw [htaken] at htasks₀
    rw [mass, mass, htasks, hmanager, called, htaken, List.countP_append]
    simp only [Option.toList_some, Option.toList_none, List.map_nil, List.count_nil, List.countP_singleton,
      Task.callback] at htasks₀ ⊢
    omega
  | call callback ok htaken htasks hmanager =>
    rw [htaken] at htasks₀
    rw [mass, mass, htasks, hmanager, called, htaken]
    simp only [Option.toList_some, List.map_cons, List.map_nil, List.countP_singleton, List.count_singleton,
      Task.callback] at htasks₀ ⊢
    simp at htasks₀ ⊢
    omega
  | restart guids replay he htasks hcallbacks =>
    subst he
    rw [mass, mass, htasks, hcallbacks]
    simp [called, taken]

/-- A run calls no callback more often than it is registered in it. -/
theorem count_calls_le (es : List Event) (c : Callback) : ∀ s : State, Owned owner s → s.Orderly →
    (∀ guid callback, .drainPlayerFlushAsync guid callback ∈ es → owner callback = guid) →
      (calls s es).count c ≤ mass owner c s + (es.filterMap Event.asks).count c := by
  induction es with
  | nil =>
    intro s _ _ _
    exact Nat.zero_le _
  | cons e es ih =>
    intro s h horder howner
    have hstep := mass_step h horder e c
    have hrest := ih (step s e) (h.step horder fun guid callback he => howner guid callback (he ▸ List.mem_cons_self))
      (horder.step e) fun guid callback hmem => howner guid callback (List.mem_cons_of_mem e hmem)
    have hasks : ((e :: es).filterMap Event.asks).count c = e.asks.toList.count c + (es.filterMap Event.asks).count c := by
      rw [List.filterMap_cons, ← List.count_append]
      cases e.asks <;> rfl
    rw [calls, List.count_append, hasks]
    omega

end Owner

/-! ## The last snapshot

`last` and `committed` are not data of the program. -/

/-- The server, the number of the last snapshot of every player, and whether it was committed; a player without a
snapshot has nothing to commit. -/
structure Watched where
  server : State := {}
  last : Guid → Nat := fun _ => 0
  committed : Guid → Bool := fun _ => true

namespace Watched

def nextLast (w : Watched) (e : Event) : Guid → Nat :=
  match builds w.server e with
  | some (guid, save) => Function.update w.last guid save.builtAt
  | none => w.last

def step (w : Watched) (e : Event) : Watched where
  server := Save.step w.server e
  last := w.nextLast e
  committed guid :=
    (w.committed guid && decide (∀ b ∈ builds w.server e, b.1 ≠ guid)) ||
      (commits w.server e).any fun c => c.1 == guid && c.2.builtAt == w.nextLast e guid

end Watched

/-- A snapshot that waits is the last one; when none waits, the one in flight is, and it is committed if it came
back with success. -/
structure Watches (last : Nat) (committed : Bool) (l : Line) : Prop where
  waits : ∀ p, l.waiting = some p → p.builtAt = last
  flies : ∀ f ∈ l.flights, l.waiting = none → f.save.builtAt = last ∧ (f.landed = some true → committed = true)

namespace Watches

variable {last : Nat} {committed : Bool} {l l' : Line} {cs : List PlayerSaveSnapshot} {save : PlayerSaveSnapshot}

theorem of_empty (hflights : l.flights = []) (hwaiting : l.waiting = none) : Watches last committed l := by
  refine ⟨fun p hp => ?_, fun f hf => ?_⟩
  · rw [hwaiting] at hp
    cases hp
  · rw [hflights] at hf
    cases hf

/-- The last snapshot is dispatched. -/
theorem dispatch (h : save.builtAt = last) (ok : Bool) :
    Watches last committed ({ l with inFlight := true, waiting := none, flights := [] }.dispatch save ok) := by
  cases ok with
  | false => exact of_empty rfl rfl
  | true =>
    refine ⟨fun _ hp => (by cases hp), fun f hf _ => ?_⟩
    rw [List.mem_singleton.mp hf]
    exact ⟨h, nofun⟩

theorem move_old (h : Watches last committed l) (horder : l.Orderly) (hmove : LineMove l none cs l') :
    Watches last (committed || cs.any fun save => save.builtAt == last) l' := by
  have hkeep : Watches last (committed || cs.any fun save => save.builtAt == last) l := by
    refine ⟨h.waits, fun f hf hnone => ⟨(h.flies f hf hnone).1, fun hlanded => ?_⟩⟩
    rw [(h.flies f hf hnone).2 hlanded, Bool.true_or]
  cases hmove with
  | stay => exact hkeep
  | land save success hone =>
    have hwaiting : (l.commit save success).waiting = l.waiting := by
      rw [Line.commit]
      split <;> rfl
    refine ⟨fun p hp => h.waits p (hwaiting ▸ hp), fun f hf hnone => ?_⟩
    have hsave : save.builtAt = last := (h.flies ⟨save, none⟩ (hone ▸ List.mem_singleton_self _) (hwaiting ▸ hnone)).1
    rw [List.mem_singleton.mp hf]
    refine ⟨hsave, fun hlanded => ?_⟩
    obtain rfl := Option.some.inj hlanded
    simp [hsave]
  | finish save success deleted hone hnone =>
    refine of_empty ?_ ?_
    all_goals
      rw [Line.delete]
      split <;> first | rfl | exact hnone
  | next f save ok hone hwaiting => exact dispatch (h.waits save hwaiting) ok
  | crash => exact of_empty rfl rfl
  | replay save deleted hf hw =>
    obtain ⟨hflights, hnone⟩ := horder.grounded hf
    refine of_empty ?_ ?_
    all_goals
      rw [Line.delete]
      split <;> first | exact hflights | exact hnone

theorem move_new (horder : l.Orderly) (hmove : LineMove l (some save) cs l') (committed : Bool) :
    Watches save.builtAt committed l' := by
  cases hmove with
  | dispatch save ok hf => exact dispatch rfl ok
  | wait save ok hf =>
    refine ⟨fun p hp => ?_, fun f _ hnone => by cases hnone⟩
    cases hp
    rfl
  | direct save committed hf =>
    obtain ⟨hflights, hnone⟩ := horder.grounded hf
    refine of_empty ?_ ?_
    all_goals
      rw [Line.commit]
      split <;> first | exact hflights | exact hnone

/-- A flight that came back with success, and no snapshot behind it. -/
theorem committed_of_landed (h : Watches last committed l) (hone : l.flights = [⟨save, some true⟩])
    (hnone : l.waiting = none) : committed = true :=
  (h.flies ⟨save, some true⟩ (hone ▸ List.mem_singleton_self _) hnone).2 rfl

end Watches

namespace Watched

structure Ok (w : Watched) : Prop where
  orderly : w.server.Orderly
  watches : ∀ guid, Watches (w.last guid) (w.committed guid) (w.server.lines guid)

theorem start_ok : Ok {} := ⟨orderly_new, fun _ => Watches.of_empty rfl rfl⟩

theorem flushInFlight_recover (replay : Guid → Replay) (guids : List Guid) : ∀ s : State,
    s.manager.flushInFlight = ∅ → (recoverPendingFlushes guids replay s).manager.flushInFlight = ∅ := by
  induction guids with
  | nil => exact fun _ h => h
  | cons guid guids ih => exact fun s h => ih _ (moves_recoverGuid h replay guid).2

theorem Ok.step {w : Watched} (h : w.Ok) (e : Event) : (w.step e).Ok := by
  refine ⟨h.orderly.step e, fun g => ?_⟩
  by_cases hrestart : ∃ guids replay, e = .restart guids replay
  · obtain ⟨guids, replay, rfl⟩ := hrestart
    have hempty := flushInFlight_recover replay guids w.server.crash rfl
    have hgrounded : ((w.step (.restart guids replay)).server.lines g).inFlight = false :=
      State.lines_grounded.mpr (by rw [Watched.step, Save.step, hempty]; simp)
    obtain ⟨hflights, hwaiting⟩ := (h.orderly.step (.restart guids replay) g).grounded hgrounded
    exact Watches.of_empty hflights hwaiting
  · obtain ⟨guid, new, cs, hmoves, hbuilds, hcommits⟩ :=
      h.orderly.moves_step e fun guids replay heq => hrestart ⟨guids, replay, heq⟩
    obtain ⟨l, hlines, hmove⟩ := hmoves.line
    rw [Watched.step, Watched.nextLast, hbuilds, hcommits]
    simp only [hlines]
    rcases eq_or_ne g guid with rfl | hne
    · rw [Function.update_self]
      cases new with
      | none =>
        have hold := (h.watches g).move_old (h.orderly g) hmove
        simpa [List.any_map, Function.comp_def] using hold
      | some save =>
        have hlast : (match Option.map (fun x => (g, x)) (some save) with
            | some (guid, save) => Function.update w.last guid save.builtAt
            | none => w.last) g = save.builtAt := Function.update_self ..
        rw [hlast]
        exact Watches.move_new (h.orderly g) hmove _
    · rw [Function.update_of_ne hne]
      have hlast : (match Option.map (fun x => (guid, x)) new with
          | some (guid, save) => Function.update w.last guid save.builtAt
          | none => w.last) g = w.last g := by
        cases new with
        | none => rfl
        | some save => exact Function.update_of_ne hne ..
      have hbuilt : ∀ b ∈ Option.map (fun x => (guid, x)) new, b.1 ≠ g := by
        intro b hb
        obtain ⟨save, _, rfl⟩ := Option.map_eq_some_iff.mp hb
        exact hne.symm
      have hnone : ((cs.map (guid, ·)).any fun c => c.1 == g && c.2.builtAt == w.last g) = false := by
        simp [hne.symm]
      rw [hlast, hnone, decide_eq_true hbuilt, Bool.and_true, Bool.or_false]
      exact h.watches g

/-- What was committed stays so as long as no new snapshot is built. -/
theorem committed_step {w : Watched} {e : Event} {guid : Guid} (h : w.committed guid = true)
    (hbuilds : ∀ b ∈ builds w.server e, b.1 ≠ guid) : (w.step e).committed guid = true := by
  simp only [Watched.step, h, Bool.true_and, decide_eq_true hbuilds, Bool.true_or]

end Watched

/-! ## Runs -/

/-- The tasks that a step appends to the queue. -/
def handed (s : State) (e : Event) : List Task := (step s e).tasks.drop (remaining s e).length

section Owner

variable (owner : Callback → Guid)

/-- A callback is handed to the dispatcher when no flush of its player is in flight or pending, and with success
only if the last snapshot was committed. -/
def HandsOver (w : Watched) (e : Event) : Prop := ∀ callback ok, .deliver callback ok ∈ handed w.server e →
  (w.step e).server.Free (owner callback) ∧ (ok = true → (w.step e).committed (owner callback) = true)

/-- The same for the moment at which it is called. -/
def CallsBack (w : Watched) (e : Event) : Prop := ∀ callback ok, called w.server e = some (callback, ok) →
  w.server.Free (owner callback) ∧ (ok = true → w.committed (owner callback) = true)

/-- `drainPlayerFlushAsync` finds no flush of the player only after the last snapshot was committed. -/
def DrainsCommitted (w : Watched) (e : Event) : Prop := ∀ guid callback,
  taken w.server e = some (.drain guid callback) → w.server.Free guid → w.committed guid = true

/-- No snapshot of a player is built while a callback of the player waits in the queue to be called. -/
def NotSaved (w : Watched) (e : Event) : Prop := ∀ callback ok, .deliver callback ok ∈ w.server.tasks →
  ∀ b ∈ builds w.server e, b.1 ≠ owner callback

variable {owner} {w : Watched} {e : Event}

/-- A task that a step appended. -/
theorem mem_handed {s : State} {t : Task} {new : List Task} (htasks : (step s e).tasks = remaining s e ++ new) :
    t ∈ handed s e ↔ t ∈ new := by
  rw [handed, htasks, List.drop_left]

/-- Taking a task builds nothing. -/
theorem builds_of_taken {s : State} {t : Task} (h : taken s e = some t) : builds s e = none := by
  cases e with
  | runTask => rfl
  | _ => cases h

theorem handsOver_of_ok (h : w.Ok) (howned : Owned owner w.server) (hdrains : DrainsCommitted w e) :
    HandsOver owner w e := by
  intro c ok hmem
  cases step_calls h.orderly e with
  | keep _ hkeeps =>
    obtain ⟨new, htasks, hnone⟩ := hkeeps.tasks
    exact absurd (hnone _ ((mem_handed htasks).mp hmem)) (by simp [Task.callback])
  | notify guid good hnone hnotifies hgood =>
    obtain ⟨c', hc', hdeliver⟩ := List.mem_map.mp ((mem_handed hnotifies.tasks).mp hmem)
    cases hdeliver
    rw [howned.callbacks guid c hc']
    refine ⟨hnotifies.free, fun hok => ?_⟩
    -- a chain that ends well ends with the task that reports its flush
    obtain ⟨⟨t, htaken⟩, save, hone, hwaiting⟩ := hgood hok
    refine Watched.committed_step ((h.watches guid).committed_of_landed hone hwaiting) fun b hb => ?_
    rw [builds_of_taken htaken] at hb
    cases hb
  | ask guid callback hask htasks _ =>
    subst hask
    have hdrain := List.mem_singleton.mp ((mem_handed htasks).mp hmem)
    cases hdrain
  | register guid callback _ htasks _ _ =>
    cases (mem_handed (htasks.trans (List.append_nil _).symm)).mp hmem
  | answer guid callback htaken htasks hmanager hfree =>
    cases List.mem_singleton.mp ((mem_handed htasks).mp hmem)
    rw [howned.tasks guid c (mem_tasks_of_taken htaken)]
    refine ⟨?_, fun _ => ?_⟩
    · rw [State.Free, Watched.step, hmanager]
      exact hfree
    · refine Watched.committed_step (hdrains guid c htaken hfree) fun b hb => ?_
      rw [builds_of_taken htaken] at hb
      cases hb
  | call callback good _ htasks _ =>
    cases (mem_handed (htasks.trans (List.append_nil _).symm)).mp hmem
  | restart guids replay _ htasks _ =>
    rw [handed, htasks, List.drop_nil] at hmem
    cases hmem

theorem free_iff {s : State} (h : s.Orderly) {guid : Guid} : s.Free guid ↔ guid ∉ s.manager.flushInFlight := by
  refine ⟨fun hfree => hfree.1, fun hnot => ⟨hnot, ?_⟩⟩
  exact Option.map_eq_none_iff.mp ((h guid).grounded (State.lines_grounded.mpr hnot)).2

/-- A player gets a flush only by a new snapshot. -/
theorem Free.step {s : State} (h : s.Orderly) {guid : Guid} (hfree : s.Free guid)
    (hbuilds : ∀ b ∈ builds s e, b.1 ≠ guid) : (step s e).Free guid := by
  refine (free_iff (h.step e)).mpr (State.lines_grounded.mp ?_)
  have hgrounded := State.lines_grounded.mpr hfree.1
  by_cases hrestart : ∃ guids replay, e = .restart guids replay
  · obtain ⟨guids, replay, rfl⟩ := hrestart
    refine State.lines_grounded.mpr ?_
    rw [Save.step, Watched.flushInFlight_recover replay guids s.crash rfl]
    simp
  · obtain ⟨g, new, cs, hmoves, heq, _⟩ := h.moves_step e fun guids replay heq => hrestart ⟨guids, replay, heq⟩
    obtain ⟨l, hlines, hmove⟩ := hmoves.line
    rw [hlines]
    rcases eq_or_ne guid g with rfl | hne
    · rw [Function.update_self]
      have hnew : new = none := by
        cases new with
        | none => rfl
        | some save => exact absurd rfl (hbuilds (guid, save) heq)
      subst hnew
      have hflights := ((h guid).grounded hgrounded).1
      cases hmove with
      | stay => exact hgrounded
      | land save success hone => simp [hflights] at hone
      | finish save success deleted hone hnone => simp [hflights] at hone
      | next f save ok hone hwaiting => simp [hflights] at hone
      | crash => rfl
      | replay save deleted hf hw =>
        rw [Line.delete]
        split <;> exact hgrounded
    · rw [Function.update_of_ne hne]
      exact hgrounded

/-- What is in the queue after a step was there before or is new. -/
theorem mem_tasks_step {s : State} (h : s.Orderly) {t : Task} (ht : t ∈ (step s e).tasks) :
    t ∈ remaining s e ∨ t ∈ handed s e := by
  have happend {new : List Task} (htasks : (step s e).tasks = remaining s e ++ new) :
      t ∈ remaining s e ∨ t ∈ handed s e := by
    rw [mem_handed htasks]
    rw [htasks] at ht
    exact List.mem_append.mp ht
  cases step_calls h e with
  | keep _ hkeeps =>
    obtain ⟨new, htasks, _⟩ := hkeeps.tasks
    exact happend htasks
  | notify guid good _ hnotifies _ => exact happend hnotifies.tasks
  | ask guid callback hask htasks _ =>
    subst hask
    exact happend htasks
  | register guid callback _ htasks _ _ => exact happend (htasks.trans (List.append_nil _).symm)
  | answer guid callback _ htasks _ _ => exact happend htasks
  | call callback good _ htasks _ => exact happend (htasks.trans (List.append_nil _).symm)
  | restart guids replay _ htasks _ =>
    rw [htasks] at ht
    cases ht

variable (owner) in
/-- Every callback in the queue could be called now. -/
def Ready (w : Watched) : Prop := ∀ callback ok, .deliver callback ok ∈ w.server.tasks →
  w.server.Free (owner callback) ∧ (ok = true → w.committed (owner callback) = true)

theorem Ready.step (h : Ready owner w) (hok : w.Ok) (hands : HandsOver owner w e) (hsaved : NotSaved owner w e) :
    Ready owner (w.step e) := by
  intro c ok hmem
  rcases mem_tasks_step hok.orderly hmem with hold | hnew
  · have hbefore := mem_tasks_of_remaining hold
    have hbuilds := hsaved c ok hbefore
    obtain ⟨hfree, hcommitted⟩ := h c ok hbefore
    exact ⟨Free.step hok.orderly hfree hbuilds, fun htrue => Watched.committed_step (hcommitted htrue) hbuilds⟩
  · exact hands c ok hnew

theorem Ready.callsBack (h : Ready owner w) : CallsBack owner w e := by
  intro c ok hcalled
  refine h c ok ?_
  rw [called] at hcalled
  split at hcalled
  · rename_i htaken
    cases hcalled
    exact mem_tasks_of_taken htaken
  · cases hcalled

/-- Every registration of a callback in the run is for the player of the callback. -/
def OwnedBy (owner : Callback → Guid) (e : Event) : Prop :=
  ∀ guid callback, e = .drainPlayerFlushAsync guid callback → owner callback = guid

theorem handsOver_run (es : List Event) : ∀ w : Watched, w.Ok → Owned owner w.server → (∀ e ∈ es, OwnedBy owner e) →
    Runs.Along Watched.step DrainsCommitted w es → Runs.Along Watched.step (HandsOver owner) w es := by
  induction es with
  | nil => exact fun _ _ _ _ _ => trivial
  | cons e es ih =>
    intro w hok howned howner hrun
    exact ⟨handsOver_of_ok hok howned hrun.1, ih _ (hok.step e) (howned.step hok.orderly (howner e List.mem_cons_self))
      (fun e' he' => howner e' (List.mem_cons_of_mem e he')) hrun.2⟩

theorem callsBack_run (es : List Event) : ∀ w : Watched, w.Ok → Ready owner w →
    Runs.Along Watched.step (HandsOver owner) w es → Runs.Along Watched.step (NotSaved owner) w es →
      Runs.Along Watched.step (CallsBack owner) w es := by
  induction es with
  | nil => exact fun _ _ _ _ _ => trivial
  | cons e es ih =>
    intro w hok hready hands hsaved
    exact ⟨hready.callsBack, ih _ (hok.step e) (hready.step hok hands.1 hsaved.1) hands.2 hsaved.2⟩

/-- In every run, a callback is called at most as often as it is registered, and is registered only while there is
a flush of its player. When `drainPlayerFlushAsync` never finds a player free whose last snapshot is not committed,
callbacks are handed over as they should be; when moreover no snapshot of the player is built before the call, they
are called so. -/
theorem callbacks_run (owner : Callback → Guid) (es : List Event) (howner : ∀ e ∈ es, OwnedBy owner e) :
    (∀ c, (calls {} es).count c ≤ (es.filterMap Event.asks).count c) ∧ Registered (es.foldl step {}) ∧
      (Runs.Along Watched.step DrainsCommitted {} es → Runs.Along Watched.step (HandsOver owner) {} es ∧
        (Runs.Along Watched.step (NotSaved owner) {} es → Runs.Along Watched.step (CallsBack owner) {} es)) := by
  have howned : Owned owner {} := ⟨fun _ _ hmem => (by cases hmem), fun _ _ hmem => by cases hmem⟩
  refine ⟨fun c => ?_, ?_, fun hdrains => ?_⟩
  · have hcount := count_calls_le es c {} howned orderly_new fun guid callback hmem => howner _ hmem guid callback rfl
    have hmass : mass owner c {} = 0 := rfl
    rwa [hmass, Nat.zero_add] at hcount
  · have hrun : ∀ (es : List Event) (s : State), Registered s → s.Orderly → Registered (es.foldl step s) := by
      intro es
      induction es with
      | nil => exact fun _ h _ => h
      | cons e es ih => exact fun s h horder => ih (step s e) (h.step horder e) (horder.step e)
    exact hrun es {} (fun _ hne => absurd rfl hne) orderly_new
  · have hands := handsOver_run es {} Watched.start_ok howned howner hdrains
    exact ⟨hands, callsBack_run es {} Watched.start_ok (fun _ _ hmem => by cases hmem) hands⟩

end Owner

/-- A callback that is registered while the only flush of its player is in flight. -/
def chainRun : List Event :=
  [.savePlayer 1 (some ⟨["a"], by simp⟩) true, .drainPlayerFlushAsync 1 7, .runTask true true, .poolFlush 0 true,
    .runTask true true, .runTask true true]

theorem callbacks_run_chain : (calls {} chainRun).count 7 ≤ 1 ∧
    Runs.Along Watched.step (HandsOver fun _ => 1) {} chainRun ∧
    Runs.Along Watched.step (CallsBack fun _ => 1) {} chainRun := by
  have howner : ∀ e ∈ chainRun, OwnedBy (fun _ => 1) e := by
    rintro e he guid callback rfl
    simp only [chainRun, List.mem_cons, List.not_mem_nil, reduceCtorEq, Event.drainPlayerFlushAsync.injEq, false_or,
      or_false] at he
    exact he.1.symm
  obtain ⟨hcalls, -, hands⟩ := callbacks_run (fun _ => 1) chainRun howner
  obtain ⟨hhands, hback⟩ := hands ⟨fun _ _ h => (by cases h), fun _ _ h => (by cases h), fun guid callback h hfree => by
    cases h
    exact absurd (by decide) hfree.1, fun _ _ h => (by cases h), fun _ _ h => (by cases h), fun _ _ h => (by cases h), trivial⟩
  refine ⟨hcalls 7, hhands, hback ⟨fun _ _ h => (by cases h), ?_⟩⟩
  exact ⟨fun _ _ _ _ hb => (by cases hb), fun _ _ _ _ hb => (by cases hb), fun _ _ _ _ hb => (by cases hb),
    fun _ _ _ _ hb => (by cases hb), fun _ _ _ _ hb => (by cases hb), trivial⟩

/-- The only flush of a player fails and leaves its snapshot in the table. Then a callback is asked for. -/
def failedRun : List Event :=
  [.savePlayer 1 (some ⟨["a"], by simp⟩) true, .poolFlush 0 false, .runTask true true, .drainPlayerFlushAsync 1 7,
    .runTask true true, .runTask true true]

/-- It is told that all is well. -/
theorem not_callbacks_failed : ¬ Runs.Along Watched.step (HandsOver fun _ => 1) {} failedRun ∧
    ¬ Runs.Along Watched.step (CallsBack fun _ => 1) {} failedRun := by
  refine ⟨?_, ?_⟩
  · rintro ⟨-, -, -, -, hands, -⟩
    have hcommitted := (hands 7 true (List.mem_singleton_self _)).2 rfl
    exact absurd hcommitted (by decide)
  · rintro ⟨-, -, -, -, -, hback, -⟩
    have hcommitted := (hback 7 true rfl).2 rfl
    exact absurd hcommitted (by decide)

end ForgottenServer.Save
