import ForgottenServer.Save.Lines

/-! # The moves of a line

Every step of the server other than a restart moves the line of one player, in one of the ways of
`LineMove`. This needs only that the flights of the players are in order. -/

namespace ForgottenServer.Save

/-- Everything that can happen to a line, with the snapshot that is built and the ones that are committed
to the rows. -/
inductive LineMove (l : Line) : Option PlayerSaveSnapshot → List PlayerSaveSnapshot → Line → Prop
  | stay : LineMove l none [] l
  | dispatch (save : PlayerSaveSnapshot) (ok : Bool) : l.inFlight = false →
      LineMove l (some save) [] ({ l with inFlight := true, waiting := none, flights := [] }.dispatch save ok)
  | wait (save : PlayerSaveSnapshot) (ok : Bool) : l.inFlight = true →
      LineMove l (some save) [] { l.write save ok with waiting := some save }
  | direct (save : PlayerSaveSnapshot) (committed : Bool) : l.inFlight = false →
      LineMove l (some save) (if committed then [save] else []) (l.commit save committed)
  | land (save : PlayerSaveSnapshot) (success : Bool) : l.flights = [⟨save, none⟩] →
      LineMove l none (if success then [save] else [])
        { l.commit save success with flights := [⟨save, some success⟩] }
  | finish (save : PlayerSaveSnapshot) (success deleted : Bool) : l.flights = [⟨save, some success⟩] →
      l.waiting = none → LineMove l none [] ({ l with inFlight := false, flights := [] }.delete (success && deleted))
  | next (f : Flight) (save : PlayerSaveSnapshot) (ok : Bool) : l.flights = [f] → l.waiting = some save →
      LineMove l none [] ({ l with inFlight := true, waiting := none, flights := [] }.dispatch save ok)
  | crash : LineMove l none [] { l.ground with flights := [] }
  | replay (save : PlayerSaveSnapshot) (deleted : Bool) : l.inFlight = false → l.pending = some save →
      LineMove l none [save] ((l.commit save true).delete deleted)

/-! ## Flights in order -/

/-- A guid has a flight exactly when it is marked so, and only one; without it no snapshot waits. -/
structure Line.Orderly (l : Line) : Prop where
  grounded : l.inFlight = false → l.flights = [] ∧ l.waiting = none
  flying : l.inFlight = true → ∃ f, l.flights = [f]

theorem Line.Orderly.inFlight_of_mem {l : Line} (h : l.Orderly) {f : Flight} (hf : f ∈ l.flights) : l.inFlight = true := by
  cases hl : l.inFlight with
  | true => rfl
  | false =>
    rw [(h.grounded hl).1] at hf
    cases hf

theorem Line.Orderly.move {l l' : Line} {new : Option PlayerSaveSnapshot} {commits : List PlayerSaveSnapshot}
    (h : l.Orderly) (hmove : LineMove l new commits l') : l'.Orderly := by
  have hdispatch (save : PlayerSaveSnapshot) (ok : Bool) :
      ({ l with inFlight := true, waiting := none, flights := [] }.dispatch save ok).Orderly := by
    cases ok with
    | false => exact ⟨fun _ => ⟨rfl, rfl⟩, fun hf => by cases hf⟩
    | true => exact ⟨fun hf => (by cases hf), fun _ => ⟨_, rfl⟩⟩
  cases hmove with
  | stay => exact h
  | dispatch save ok hf => exact hdispatch save ok
  | wait save ok hf =>
    rw [Line.write]
    split <;> exact ⟨fun hg => absurd (hf.symm.trans hg) (by simp), h.flying⟩
  | direct save committed hf =>
    rw [Line.commit]
    split <;> exact ⟨h.grounded, h.flying⟩
  | land save success hone =>
    have hf : l.inFlight = true := h.inFlight_of_mem (hone ▸ List.mem_singleton_self _)
    rw [Line.commit]
    split <;> exact ⟨fun hg => absurd (hf.symm.trans hg) (by simp), fun _ => ⟨_, rfl⟩⟩
  | finish save success deleted hone hnone =>
    rw [Line.delete]
    split <;> exact ⟨fun _ => ⟨rfl, hnone⟩, fun hf => by cases hf⟩
  | next f save ok hone hwaiting => exact hdispatch save ok
  | crash => exact ⟨fun _ => ⟨rfl, rfl⟩, fun hf => by cases hf⟩
  | replay save deleted hf hw =>
    rw [Line.delete]
    split <;> exact ⟨h.grounded, h.flying⟩

def State.Orderly (s : State) : Prop := ∀ guid, (s.lines guid).Orderly

/-- The line of one guid moves. A snapshot that is built gets the next number. -/
structure Moves (s : State) (guid : Guid) (new : Option PlayerSaveSnapshot) (commits : List PlayerSaveSnapshot)
    (s' : State) : Prop where
  line : ∃ l, s'.lines = Function.update s.lines guid l ∧ LineMove (s.lines guid) new commits l
  clock : s'.clock = s.clock + new.toList.length
  number : ∀ save ∈ new, save.builtAt = s.clock

theorem Moves.stay {s s' : State} (guid : Guid) (hlines : s'.lines = s.lines) (hclock : s'.clock = s.clock) :
    Moves s guid none [] s' where
  line := ⟨_, by rw [hlines, Function.update_eq_self], .stay⟩
  clock := hclock
  number _ h := by cases h

/-- A step that builds nothing. -/
theorem Moves.of_old {s s' : State} {guid : Guid} {commits : List PlayerSaveSnapshot} {l : Line}
    (hlines : s'.lines = Function.update s.lines guid l) (hmove : LineMove (s.lines guid) none commits l)
    (hclock : s'.clock = s.clock) : Moves s guid none commits s' := ⟨⟨l, hlines, hmove⟩, hclock, fun _ h => by cases h⟩

theorem State.lines_inFlight {s : State} {guid : Guid} :
    (s.lines guid).inFlight = true ↔ guid ∈ s.manager.flushInFlight := by
  simp [State.lines]

theorem State.lines_grounded {s : State} {guid : Guid} :
    (s.lines guid).inFlight = false ↔ guid ∉ s.manager.flushInFlight := by
  simp [State.lines]

section Clock

variable (s : State) (guid : Guid)

@[simp] theorem clock_beginIf (tracked : Bool) : (s.beginIf tracked).clock = s.clock := by
  rw [State.beginIf]
  split <;> rfl

@[simp] theorem clock_enqueue (pending : PendingPlayerFlush) (ok : Bool) :
    (s.enqueue guid pending ok).clock = s.clock := by
  simp only [State.enqueue, State.savePendingFlushToDB]
  split <;> rfl

@[simp] theorem clock_dispatchPlayerFlush (pending : PendingPlayerFlush) (ok : Bool) :
    (s.dispatchPlayerFlush guid pending ok).clock = s.clock := by
  rw [State.dispatchPlayerFlush]
  split <;> rfl

end Clock

namespace State.Orderly

variable {s : State} {guid : Guid}

theorem moves_schedulePlayerFlush (h : s.Orderly) (queries : Queries) (tracked ok : Bool) :
    Moves s guid (some (s.built queries).1) [] (s.schedulePlayerFlush guid (some queries) tracked ok) := by
  rw [State.schedulePlayerFlush]
  split
  · rename_i hf
    have hlines := lines_enqueue ((s.built queries).2.beginIf (tracked && !(s.built queries).2.pendingTracked guid)) guid
      ⟨(s.built queries).1, (s.built queries).2.pendingTracked guid || tracked⟩ ok
    rw [lines_beginIf] at hlines
    exact ⟨⟨_, hlines, .wait _ _ (State.lines_inFlight.mpr hf)⟩, by simp [State.built], fun _ hsave => by cases hsave; rfl⟩
  · rename_i hf
    obtain ⟨hflights, hwaiting⟩ := (h guid).grounded (State.lines_grounded.mpr hf)
    have hline : { s.lines guid with inFlight := true } =
        { s.lines guid with inFlight := true, waiting := none, flights := [] } := by
      rw [← hflights, ← hwaiting]
    have hlines := lines_dispatchPlayerFlush (((s.built queries).2.insertInFlight guid).beginIf tracked) guid
      ⟨(s.built queries).1, tracked⟩ ok
    rw [lines_beginIf, lines_insertInFlight, Function.update_idem, Function.update_self] at hlines
    have hdispatch := congrArg (Line.dispatch · (s.built queries).1
      ((((s.built queries).2.insertInFlight guid).beginIf tracked).walAccepts guid ok)) hline
    refine ⟨⟨_, hlines.trans (congrArg _ hdispatch), .dispatch _ _ (State.lines_grounded.mpr hf)⟩, ?_, ?_⟩
    · simp [State.insertInFlight, State.built]
    · rintro save ⟨⟩
      rfl

/-- A direct flush; a snapshot behind a flush in flight waits. -/
theorem moves_savePlayerSync (h : s.Orderly) (queries : Queries) (committed ok : Bool) :
    Moves s guid (some (s.built queries).1)
      (if guid ∉ s.manager.flushInFlight ∧ committed = true then [(s.built queries).1] else [])
      (s.savePlayerSync guid (some queries) committed ok) := by
  by_cases hf : guid ∈ s.manager.flushInFlight
  · have hlines := lines_enqueue (s.built queries).2 guid
      ⟨(s.built queries).1, (s.built queries).2.pendingTracked guid⟩ ok
    rw [if_neg (fun hnot => hnot.1 hf), State.savePlayerSync, if_pos (show guid ∈ (s.built queries).2.manager.flushInFlight from hf)]
    exact ⟨⟨_, hlines, .wait _ _ (State.lines_inFlight.mpr hf)⟩, by simp [State.built], fun _ hsave => by cases hsave; rfl⟩
  · have hground := State.lines_grounded.mpr hf
    have hwaiting : s.manager.pendingFlushes guid = none := Option.map_eq_none_iff.mp ((h guid).grounded hground).2
    have hset : (insert guid s.manager.flushInFlight).erase guid = s.manager.flushInFlight := Finset.erase_insert hf
    have hlines := lines_commitRows (s.built queries).2 guid (s.built queries).1 committed
    have hcommits : (if guid ∉ s.manager.flushInFlight ∧ committed = true then [(s.built queries).1] else []) =
        if committed then [(s.built queries).1] else [] := by
      simp [hf]
    rw [hcommits, State.savePlayerSync, if_neg (show guid ∉ (s.built queries).2.manager.flushInFlight from hf), State.resume]
    simp only [State.built, hwaiting, hset]
    exact ⟨⟨_, hlines, .direct _ _ hground⟩, rfl, fun _ hsave => by cases hsave; rfl⟩

/-! ### Flushes -/

/-- The only flight of a guid, met in a list of its flights. -/
theorem flights_alone (h : s.Orderly) {before after : List Flight} {f : Flight}
    (hflights : s.flights guid = before ++ f :: after) : before = [] ∧ after = [] := by
  have hmem : f ∈ (s.lines guid).flights := by
    show f ∈ s.flights guid
    simp [hflights]
  obtain ⟨f', hone⟩ := (h guid).flying ((h guid).inFlight_of_mem hmem)
  have hlen := congrArg List.length (hflights.symm.trans hone)
  simp only [List.length_append, List.length_cons, List.length_nil] at hlen
  exact ⟨List.length_eq_zero_iff.mp (by omega), List.length_eq_zero_iff.mp (by omega)⟩

theorem moves_poolFlush (h : s.Orderly) {i : Nat} {pending : PendingPlayerFlush} (hjob : s.pool[i]? = some (guid, pending))
    (success : Bool) :
    Moves s guid none (if success then [pending.save] else []) (s.poolFlush i success) := by
  rw [State.poolFlush, hjob]
  obtain ⟨hi, hget⟩ := List.getElem?_eq_some_iff.mp hjob
  have hpool : s.pool = s.pool.take i ++ (guid, pending) :: s.pool.drop (i + 1) := by
    rw [← hget, ← List.drop_eq_getElem_cons hi, List.take_append_drop]
  have herase : s.pool.eraseIdx i = s.pool.take i ++ s.pool.drop (i + 1) :=
    List.eraseIdx_eq_take_drop_succ s.pool i
  have hflights : s.flights guid = ((s.pool.drop (i + 1)).reverse.filterMap (jobOf guid)) ++
      ⟨pending.save, none⟩ :: ((s.pool.take i).reverse.filterMap (jobOf guid) ++
        s.tasks.filterMap (reportOf guid)) := by
    rw [State.flights]
    conv_lhs => rw [hpool]
    simp [jobOf]
  obtain ⟨hafter, hrest⟩ := h.flights_alone hflights
  obtain ⟨hbefore, htasks⟩ := List.append_eq_nil_iff.mp hrest
  refine Moves.of_old (l := { (s.lines guid).commit pending.save success with flights := [⟨pending.save, some success⟩] })
    ?_ (.land _ _ ?_) rfl
  · funext g
    rcases eq_or_ne g guid with rfl | hne
    · rw [Function.update_self]
      cases success <;>
        simp [State.lines, State.flights, herase, hafter, hbefore, htasks, reportOf, Line.commit,
          Database.commitRows]
    · have hother : s.flights g = ((s.pool.drop (i + 1)).reverse.filterMap (jobOf g)) ++
          ((s.pool.take i).reverse.filterMap (jobOf g) ++ s.tasks.filterMap (reportOf g)) := by
        rw [State.flights]
        conv_lhs => rw [hpool]
        simp [jobOf, hne.symm]
      rw [Function.update_of_ne hne]
      simp only [State.lines, hother]
      cases success <;> simp [State.flights, herase, reportOf, hne, hne.symm, Database.commitRows]
  · rw [State.lines, hflights, hafter, hrest]
    rfl

/-- The task at the head of the queue is taken off. -/
theorem lines_takeTask {rest : List Task} {tracked success : Bool} {save : PlayerSaveSnapshot} (h : s.Orderly)
    (htasks : s.tasks = .onPlayerFlushed guid tracked success save :: rest) :
    (s.lines guid).flights = [⟨save, some success⟩] ∧
      State.lines { s with tasks := rest } =
        Function.update s.lines guid { s.lines guid with flights := [] } := by
  have hflights : s.flights guid = s.pool.reverse.filterMap (jobOf guid) ++
      ⟨save, some success⟩ :: rest.filterMap (reportOf guid) := by
    rw [State.flights, htasks]
    simp [reportOf]
  obtain ⟨hpool, hrest⟩ := h.flights_alone hflights
  refine ⟨by rw [State.lines, hflights, hpool, hrest]; rfl, ?_⟩
  funext g
  rcases eq_or_ne g guid with rfl | hne
  · rw [Function.update_self]
    simp only [State.lines, State.flights, hpool, hrest, List.append_nil]
  · rw [Function.update_of_ne hne]
    simp [State.lines, State.flights, htasks, reportOf, hne.symm]

theorem moves_onPlayerFlushed (h : s.Orderly) {rest : List Task} {tracked success : Bool} {save : PlayerSaveSnapshot}
    (htasks : s.tasks = .onPlayerFlushed guid tracked success save :: rest) (ok deleted : Bool) :
    Moves s guid none [] (State.onPlayerFlushed { s with tasks := rest } guid tracked success ok deleted) := by
  obtain ⟨hone, hlines⟩ := h.lines_takeTask htasks
  have hcomplete := (lines_completeIf { s with tasks := rest } tracked).trans hlines
  rw [State.onPlayerFlushed]
  split
  · rename_i hnone
    replace hnone : s.manager.pendingFlushes guid = none := by rwa [completeIf_pendingFlushes] at hnone
    have hdelete := lines_deletePending { s with tasks := rest, manager := { s.manager.completeIf tracked with
      flushInFlight := (s.manager.completeIf tracked).flushInFlight.erase guid } } guid (success && deleted)
    have herase := lines_eraseInFlight { s with tasks := rest, manager := s.manager.completeIf tracked } guid
    rw [hcomplete, Function.update_idem, Function.update_self] at herase
    rw [herase, Function.update_idem, Function.update_self] at hdelete
    refine Moves.of_old ((lines_notify _ guid success).trans hdelete) (.finish _ _ _ hone ?_) rfl
    simp [State.lines, hnone]
  · rename_i pending hpending
    replace hpending : s.manager.pendingFlushes guid = some pending := by
      rwa [completeIf_pendingFlushes] at hpending
    have hdispatch := lines_dispatchPending
      { s with tasks := rest, manager := s.manager.completeIf tracked } guid pending ok
    rw [hcomplete, Function.update_idem, Function.update_self] at hdispatch
    have hfly : (s.lines guid).inFlight = true :=
      (h guid).inFlight_of_mem (by rw [hone]; exact List.mem_singleton_self _)
    have hline : { s.lines guid with waiting := none, flights := [] } =
        { s.lines guid with inFlight := true, waiting := none, flights := [] } := by
      rw [← hfly]
    replace hdispatch := hdispatch.trans (congrArg (fun l => Function.update s.lines guid (Line.dispatch l _ _)) hline)
    refine Moves.of_old hdispatch (.next _ _ _ hone ?_) (by simp [State.dispatchPending])
    simp [State.lines, hpending]

theorem moves_runTask (h : s.Orderly) (ok deleted : Bool) : ∃ guid, Moves s guid none [] (s.runTask ok deleted) := by
  rw [State.runTask]
  split
  · exact ⟨0, .stay 0 rfl rfl⟩
  · rename_i guid _ _ _ _ htasks
    exact ⟨guid, h.moves_onPlayerFlushed htasks ok deleted⟩
  · rename_i guid callback rest htasks
    have hrest : State.lines { s with tasks := rest } = s.lines := by
      refine lines_congr rfl rfl ?_ rfl
      funext g
      simp only [State.flights, htasks, List.filterMap_cons, reportOf]
    have hdeliver : State.lines { s with tasks := rest ++ [.deliver callback true] } =
        State.lines { s with tasks := rest } := by
      refine lines_congr rfl rfl ?_ rfl
      funext g
      simp [State.flights, reportOf]
    rw [State.drain]
    split
    · exact ⟨0, .stay 0 hrest rfl⟩
    · exact ⟨0, .stay 0 (hdeliver.trans hrest) rfl⟩
  · rename_i rest htasks
    refine ⟨0, .stay 0 (lines_congr rfl rfl ?_ rfl) rfl⟩
    funext g
    simp only [State.flights, htasks, List.filterMap_cons, reportOf]

end State.Orderly

/-! ### Crash and recovery -/

theorem lines_crash (s : State) (g : Guid) : s.crash.lines g = { (s.lines g).ground with flights := [] } := by
  simp [State.crash, State.lines, State.flights, Line.ground]

/-- What one turn of the recovery commits. -/
def replayOf (replay : Guid → Replay) (s : State) (guid : Guid) : Option PlayerSaveSnapshot :=
  (s.db.pending guid).bind fun save => match replay guid with
    | .commits _ => some save
    | _ => none

theorem moves_recoverGuid {s : State} (hground : s.manager.flushInFlight = ∅) (replay : Guid → Replay) (guid : Guid) :
    Moves s guid none (replayOf replay s guid).toList (recoverGuid replay s guid) ∧
      (recoverGuid replay s guid).manager.flushInFlight = ∅ := by
  cases hpending : s.db.pending guid with
  | none =>
    simp only [recoverGuid, replayOf, hpending]
    exact ⟨.stay guid rfl rfl, hground⟩
  | some save =>
    cases hreplay : replay guid with
    | beginFails | queryFails | commitFails =>
      simp only [recoverGuid, replayOf, hpending, hreplay]
      exact ⟨.stay guid rfl rfl, hground⟩
    | commits deleted =>
      have hcommit := lines_commitRows s guid save true
      have hdelete := lines_deletePending { s with db := s.db.commitRows guid save } guid deleted
      rw [if_pos rfl] at hcommit
      rw [hcommit, Function.update_idem, Function.update_self] at hdelete
      have hline : (s.lines guid).inFlight = false := State.lines_grounded.mpr (by simp [hground])
      simp only [recoverGuid, replayOf, hpending, hreplay]
      exact ⟨Moves.of_old hdelete (.replay save deleted hline hpending) rfl, hground⟩

/-! ## Steps -/

/-- The snapshot that an event builds. -/
def builds (s : State) : Event → Option (Guid × PlayerSaveSnapshot)
  | .saveNext _ => match s.phase with
    | .savingPlayers ((guid, some queries) :: _) => some (guid, (s.built queries).1)
    | _ => none
  | .savePlayer guid (some queries) _ => if let .idle := s.phase then some (guid, (s.built queries).1) else none
  | .savePlayerSync guid (some queries) _ _ => if let .idle := s.phase then some (guid, (s.built queries).1) else none
  | _ => none

/-- What a recovery commits. -/
def replayed (replay : Guid → Replay) : List Guid → State → List (Guid × PlayerSaveSnapshot)
  | [], _ => []
  | guid :: guids, s =>
    (replayOf replay s guid).toList.map (guid, ·) ++ replayed replay guids (recoverGuid replay s guid)

/-- The snapshots that an event commits to the rows, one after another. -/
def commits (s : State) : Event → List (Guid × PlayerSaveSnapshot)
  | .savePlayerSync guid (some queries) committed _ =>
    if let .idle := s.phase then
      if guid ∉ s.manager.flushInFlight ∧ committed = true then [(guid, (s.built queries).1)] else []
    else []
  | .poolFlush i success => match s.pool[i]? with
    | some (guid, pending) => if success then [(guid, pending.save)] else []
    | none => []
  | .restart guids replay => replayed replay guids s.crash
  | _ => []

/-- A step other than a restart moves one line. -/
theorem State.Orderly.moves_step {s : State} (h : s.Orderly) (e : Event) (hrestart : ∀ guids replay, e ≠ .restart guids replay) :
    ∃ guid new cs, Moves s guid new cs (step s e) ∧ builds s e = new.map (guid, ·) ∧ commits s e = cs.map (guid, ·) := by
  cases e with
  | saveAll nowMs players =>
    refine ⟨0, none, [], .stay 0 ?_ ?_, rfl, rfl⟩
    all_goals
      rw [Save.step]
      split
      · rw [State.saveAll]
        split_ifs <;> rfl
      · rfl
  | saveNext ok =>
    rw [builds, Save.step, State.saveNext]
    split
    · rename_i hphase
      rw [hphase]
      exact ⟨0, none, [], .stay 0 rfl rfl, rfl, rfl⟩
    · rename_i guid save rest hphase
      rw [hphase]
      cases save with
      | none => exact ⟨guid, none, [], .stay guid rfl rfl, rfl, rfl⟩
      | some queries =>
        have hrest : State.Orderly { s with phase := .savingPlayers rest } := h
        have hmoves : Moves _ guid _ [] _ := hrest.moves_schedulePlayerFlush queries true ok
        obtain ⟨hline, hclock, hnumber⟩ := hmoves
        exact ⟨guid, _, [], ⟨hline, hclock, hnumber⟩, rfl, rfl⟩
    · rename_i hnone hsome
      refine ⟨0, none, [], .stay 0 rfl rfl, ?_, rfl⟩
      split
      · rename_i guid queries rest hphase
        exact absurd hphase (hsome guid (some queries) rest)
      · rfl
  | mapSaved =>
    refine ⟨0, none, [], ?_, rfl, rfl⟩
    rw [Save.step]
    split
    · exact .stay 0 (lines_completeIf s true) rfl
    · exact .stay 0 rfl rfl
  | savePlayer guid save ok =>
    cases save with
    | none =>
      refine ⟨guid, none, [], ?_, rfl, rfl⟩
      rw [Save.step]
      split <;> exact .stay guid rfl rfl
    | some queries =>
      rw [Save.step, builds]
      cases s.phase with
      | idle => exact ⟨guid, _, [], h.moves_schedulePlayerFlush queries false ok, rfl, rfl⟩
      | savingPlayers | savingMap => exact ⟨guid, none, [], .stay guid rfl rfl, rfl, rfl⟩
  | savePlayerSync guid save committed ok =>
    cases save with
    | none =>
      refine ⟨guid, none, [], ?_, rfl, rfl⟩
      rw [Save.step]
      split <;> exact .stay guid rfl rfl
    | some queries =>
      rw [Save.step, builds, commits]
      cases s.phase with
      | idle =>
        refine ⟨guid, _, _, h.moves_savePlayerSync queries committed ok, rfl, ?_⟩
        rw [apply_ite (List.map _)]
        rfl
      | savingPlayers | savingMap => exact ⟨guid, none, [], .stay guid rfl rfl, rfl, rfl⟩
  | drainPlayerFlushAsync guid callback =>
    refine ⟨guid, none, [], .stay guid (lines_congr rfl rfl ?_ rfl) rfl, rfl, rfl⟩
    funext g
    simp [Save.step, State.flights, reportOf]
  | poolFlush i success =>
    rw [commits]
    cases hjob : s.pool[i]? with
    | none =>
      refine ⟨0, none, [], .stay 0 ?_ ?_, rfl, rfl⟩
      all_goals rw [Save.step, State.poolFlush, hjob]
    | some job =>
      refine ⟨job.1, none, _, h.moves_poolFlush hjob success, rfl, ?_⟩
      show (if success then [(job.1, job.2.save)] else []) = _
      split <;> rfl
  | runTask ok deleted =>
    rw [Save.step]
    split
    · obtain ⟨guid, hmoves⟩ := h.moves_runTask ok deleted
      exact ⟨guid, none, [], hmoves, rfl, rfl⟩
    · exact ⟨0, none, [], .stay 0 rfl rfl, rfl, rfl⟩
  | restart guids replay => exact absurd rfl (hrestart guids replay)

theorem Moves.orderly {s s' : State} {guid : Guid} {new : Option PlayerSaveSnapshot} {commits : List PlayerSaveSnapshot}
    (hmoves : Moves s guid new commits s') (h : s.Orderly) : s'.Orderly := by
  intro g
  obtain ⟨l, hlines, hmove⟩ := hmoves.line
  rw [hlines]
  rcases eq_or_ne g guid with rfl | hne
  · rw [Function.update_self]
    exact (h g).move hmove
  · rw [Function.update_of_ne hne]
    exact h g

theorem State.Orderly.recoverPendingFlushes (replay : Guid → Replay) (guids : List Guid) : ∀ {s : State}, s.Orderly →
    s.manager.flushInFlight = ∅ → (recoverPendingFlushes guids replay s).Orderly := by
  induction guids with
  | nil => exact fun h _ => h
  | cons guid guids ih =>
    intro s h hground
    obtain ⟨hmoves, hstill⟩ := moves_recoverGuid hground replay guid
    exact ih (hmoves.orderly h) hstill

theorem State.Orderly.step {s : State} (h : s.Orderly) (e : Event) : (step s e).Orderly := by
  by_cases hrestart : ∃ guids replay, e = .restart guids replay
  · obtain ⟨guids, replay, rfl⟩ := hrestart
    refine State.Orderly.recoverPendingFlushes replay guids (fun g => ?_) rfl
    rw [lines_crash]
    exact (h g).move .crash
  · obtain ⟨guid, new, cs, hmoves, _⟩ := h.moves_step e fun guids replay heq => hrestart ⟨guids, replay, heq⟩
    exact hmoves.orderly h

theorem orderly_new : State.Orderly {} := fun _ => ⟨fun _ => ⟨rfl, rfl⟩, fun hf => by cases hf⟩

end ForgottenServer.Save
