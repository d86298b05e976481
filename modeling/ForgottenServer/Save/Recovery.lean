import ForgottenServer.Lib.Runs
import ForgottenServer.Save.Moves

/-! # Recovery and the order of snapshots

A snapshot in `player_save_async_pending` is newer than the rows of its player as long as
every flush goes through that table. `savePlayerSync` does not: it commits a snapshot and
leaves the table alone, also when an older snapshot of the player is still in it. -/

namespace ForgottenServer.Save

/-- The newest of the recorded snapshots; `none` when there is no recorded snapshot. -/
def IsNewest (recorded : List PlayerSaveSnapshot) : Option PlayerSaveSnapshot → Prop
  | none => recorded = []
  | some save => save ∈ recorded ∧ ∀ t ∈ recorded, t.builtAt ≤ save.builtAt

namespace IsNewest

variable {recorded : List PlayerSaveSnapshot} {save : PlayerSaveSnapshot}

/-- A snapshot built after all others becomes the newest when it is recorded. -/
theorem append_new (h : ∀ t ∈ recorded, t.builtAt ≤ save.builtAt) :
    IsNewest (recorded ++ [save]) (some save) := by
  refine ⟨by simp, fun t ht => ?_⟩
  rcases List.mem_append.mp ht with ht | ht
  · exact h t ht
  · rw [List.mem_singleton.mp ht]

/-- Recording a snapshot again changes nothing. -/
theorem append_old {newest : Option PlayerSaveSnapshot} (h : IsNewest recorded newest)
    (hsave : save ∈ recorded) : IsNewest (recorded ++ [save]) newest := by
  cases newest with
  | none =>
    rw [IsNewest] at h
    simp [h] at hsave
  | some n =>
    refine ⟨List.mem_append_left _ h.1, fun t ht => ?_⟩
    rcases List.mem_append.mp ht with ht | ht
    · exact h.2 t ht
    · rw [List.mem_singleton.mp ht]
      exact h.2 save hsave

end IsNewest

/-! ## The invariant of a line -/

/-- What a recovery leaves of a player is the newest recorded snapshot. A guid has a
flight exactly when it is marked so, its snapshot is recorded and the table holds one; that
is the one in flight when no other waits. -/
structure LineInv (clock : Nat) (l : Line) : Prop where
  newest : IsNewest l.recorded (l.pending.or l.rows)
  fresh : ∀ t ∈ l.recorded, t.builtAt < clock
  committed : ∀ r, l.rows = some r → r ∈ l.recorded
  grounded : l.inFlight = false → l.flights = [] ∧ l.waiting = none
  flying : l.inFlight = true → ∃ f w, l.flights = [f] ∧ f.save ∈ l.recorded ∧ l.pending = some w ∧
    (l.waiting = none → w = f.save ∧ (f.landed = some true → l.rows = some w))
  waits : ∀ p, l.waiting = some p → p.builtAt < clock ∧ ∀ t ∈ l.recorded, t.builtAt ≤ p.builtAt

namespace LineInv

variable {clock clock' : Nat} {l : Line} {save : PlayerSaveSnapshot}

theorem mono (h : LineInv clock l) (hle : clock ≤ clock') : LineInv clock' l :=
  { h with
    fresh := fun t ht => Nat.lt_of_lt_of_le (h.fresh t ht) hle
    waits := fun p hp => ⟨Nat.lt_of_lt_of_le (h.waits p hp).1 hle, (h.waits p hp).2⟩ }

theorem orderly (h : LineInv clock l) : l.Orderly where
  grounded := h.grounded
  flying hf := by
    obtain ⟨f, _, hone, _⟩ := h.flying hf
    exact ⟨f, hone⟩

theorem inFlight_of_mem (h : LineInv clock l) {f : Flight} (hf : f ∈ l.flights) : l.inFlight = true :=
  h.orderly.inFlight_of_mem hf

/-- Without a snapshot in the table the rows are the newest. -/
theorem rows_newest (h : LineInv clock l) (hnone : l.pending = none) : IsNewest l.recorded l.rows := by
  have hn := h.newest
  rwa [hnone, Option.none_or] at hn

theorem mem_append_lt (h : LineInv clock l) (hsave : save.builtAt < clock') (hle : clock ≤ clock')
    {t : PlayerSaveSnapshot} (ht : t ∈ l.recorded ++ [save]) : t.builtAt < clock' := by
  rcases List.mem_append.mp ht with ht | ht
  · exact Nat.lt_of_lt_of_le (h.fresh t ht) hle
  · rw [List.mem_singleton.mp ht]
    exact hsave

/-- A line on the ground with the table and the rows as they were. -/
theorem grounding (h : LineInv clock l) :
    LineInv clock { l.ground with flights := [] } where
  newest := h.newest
  fresh := h.fresh
  committed := h.committed
  grounded _ := ⟨rfl, rfl⟩
  flying hf := by cases hf
  waits _ hp := by cases hp

/-- A snapshot newer than all recorded ones is dispatched, no other flight being left. -/
theorem dispatch (h : LineInv clock l) (hsave : ∀ t ∈ l.recorded, t.builtAt ≤ save.builtAt)
    (hlt : save.builtAt < clock') (hle : clock ≤ clock') (ok : Bool) :
    LineInv clock' ({ l with inFlight := true, waiting := none, flights := [] }.dispatch save ok) := by
  cases ok with
  | false => exact h.grounding.mono hle
  | true =>
    refine ⟨IsNewest.append_new hsave, fun _ ht => h.mem_append_lt hlt hle ht,
      fun r hr => List.mem_append_left _ (h.committed r hr), fun hf => (by cases hf), fun _ => ?_,
      fun _ hp => (by cases hp)⟩
    exact ⟨_, _, rfl, List.mem_append_right _ (List.mem_singleton_self save), rfl,
      fun _ => ⟨rfl, fun hl => by cases hl⟩⟩

/-- A new snapshot waits behind the flight. -/
theorem wait (h : LineInv clock l) (hf : l.inFlight = true) (hsave : save.builtAt = clock) (ok : Bool) :
    LineInv (clock + 1) { l.write save ok with waiting := some save } := by
  have hnew : ∀ t ∈ l.recorded, t.builtAt ≤ save.builtAt := by
    intro t ht
    rw [hsave]
    exact Nat.le_of_lt (h.fresh t ht)
  have hlt : save.builtAt < clock + 1 := by omega
  obtain ⟨f, w, hflights, hrec, hw, _⟩ := h.flying hf
  cases ok with
  | false =>
    refine ⟨h.newest, (h.mono (Nat.le_succ clock)).fresh, h.committed, fun hg => ?_, fun _ => ?_, ?_⟩
    · exact absurd (hf.symm.trans hg) (by simp)
    · exact ⟨f, w, hflights, hrec, hw, fun hnone => by cases hnone⟩
    · rintro p ⟨⟩
      exact ⟨hlt, hnew⟩
  | true =>
    refine ⟨IsNewest.append_new hnew, fun _ ht => h.mem_append_lt hlt (Nat.le_succ clock) ht,
      fun r hr => List.mem_append_left _ (h.committed r hr), fun hg => ?_, fun _ => ?_, ?_⟩
    · exact absurd (hf.symm.trans hg) (by simp)
    · exact ⟨f, save, hflights, List.mem_append_left _ hrec, rfl, fun hnone => by cases hnone⟩
    · rintro p ⟨⟩
      exact ⟨hlt, (IsNewest.append_new hnew).2⟩

/-- The pool comes back with the flight. -/
theorem land (h : LineInv clock l) {success : Bool} (hone : l.flights = [⟨save, none⟩]) :
    LineInv clock { l.commit save success with flights := [⟨save, some success⟩] } := by
  have hf : l.inFlight = true := h.inFlight_of_mem (hone ▸ List.mem_singleton_self _)
  obtain ⟨f, w, hflights, hrec, hw, hlast⟩ := h.flying hf
  obtain rfl : f = ⟨save, none⟩ := by simpa using hflights.symm.trans hone
  cases success with
  | false =>
    refine ⟨h.newest, h.fresh, h.committed, fun hg => ?_, fun _ => ?_, h.waits⟩
    · exact absurd (hf.symm.trans hg) (by simp)
    · exact ⟨_, w, rfl, hrec, hw, fun hnone => ⟨(hlast hnone).1, fun hl => by cases hl⟩⟩
  | true =>
    have hnewest : IsNewest l.recorded (some w) := by
      have hn := h.newest
      rwa [hw, Option.some_or] at hn
    refine ⟨?_, fun t ht => h.mem_append_lt (h.fresh _ hrec) le_rfl ht, ?_, fun hg => ?_, fun _ => ?_, ?_⟩
    · show IsNewest (l.recorded ++ [save]) (l.pending.or (some save))
      rw [hw, Option.some_or]
      exact hnewest.append_old hrec
    · rintro r ⟨⟩
      exact List.mem_append_right _ (List.mem_singleton_self save)
    · exact absurd (hf.symm.trans hg) (by simp)
    · refine ⟨_, w, rfl, List.mem_append_left _ hrec, hw, fun hnone => ?_⟩
      obtain rfl := (hlast hnone).1
      exact ⟨rfl, fun _ => rfl⟩
    · intro p hp
      refine ⟨(h.waits p hp).1, fun t ht => ?_⟩
      rcases List.mem_append.mp ht with ht | ht
      · exact (h.waits p hp).2 t ht
      · rw [List.mem_singleton.mp ht]
        exact (h.waits p hp).2 _ hrec

/-- The last flight of a chain is over; the table is cleared when it was successful. -/
theorem finish (h : LineInv clock l) {success deleted : Bool} (hone : l.flights = [⟨save, some success⟩])
    (hnone : l.waiting = none) :
    LineInv clock ({ l with flights := [], inFlight := false }.delete (success && deleted)) := by
  have hf : l.inFlight = true := h.inFlight_of_mem (hone ▸ List.mem_singleton_self _)
  obtain ⟨f, w, hflights, hrec, hw, hlast⟩ := h.flying hf
  obtain rfl : f = ⟨save, some success⟩ := by simpa using hflights.symm.trans hone
  have hground : LineInv clock { l with flights := [], inFlight := false } :=
    ⟨h.newest, h.fresh, h.committed, fun _ => ⟨rfl, hnone⟩, fun hg => (by cases hg), h.waits⟩
  cases success with
  | false => exact hground
  | true =>
    cases deleted with
    | false => exact hground
    | true =>
      refine ⟨?_, h.fresh, h.committed, fun _ => ⟨rfl, hnone⟩, fun hg => (by cases hg), h.waits⟩
      show IsNewest l.recorded ((none : Option PlayerSaveSnapshot).or l.rows)
      have hn := h.newest
      rw [hw, Option.some_or] at hn
      rw [Option.none_or, (hlast hnone).2 rfl]
      exact hn

/-- A direct flush of a new snapshot, with nothing of the player in the table. -/
theorem direct (h : LineInv clock l) (hf : l.inFlight = false) (hsave : save.builtAt = clock)
    {committed : Bool} (hclear : committed = true → l.pending = none) :
    LineInv (clock + 1) (l.commit save committed) := by
  cases committed with
  | false => exact h.mono (Nat.le_succ clock)
  | true =>
    have hnew : ∀ t ∈ l.recorded, t.builtAt ≤ save.builtAt := by
      intro t ht
      rw [hsave]
      exact Nat.le_of_lt (h.fresh t ht)
    refine ⟨?_, fun t ht => h.mem_append_lt (by omega) (Nat.le_succ clock) ht, ?_, h.grounded,
      fun hg => absurd (hf.symm.trans hg) (by simp), fun p hp => ?_⟩
    · show IsNewest (l.recorded ++ [save]) (l.pending.or (some save))
      rw [hclear rfl, Option.none_or]
      exact IsNewest.append_new hnew
    · rintro r ⟨⟩
      exact List.mem_append_right _ (List.mem_singleton_self save)
    · have hnone := (h.grounded hf).2
      exact absurd (hnone.symm.trans hp) (by simp)

/-- The snapshot of the table is replayed. -/
theorem replay (h : LineInv clock l) (hf : l.inFlight = false) (hw : l.pending = some save) (deleted : Bool) :
    LineInv clock ((l.commit save true).delete deleted) := by
  have hn := h.newest
  rw [hw, Option.some_or] at hn
  have hnewest : IsNewest (l.recorded ++ [save]) (some save) := hn.append_old hn.1
  have hfresh : ∀ t ∈ l.recorded ++ [save], t.builtAt < clock :=
    fun t ht => h.mem_append_lt (h.fresh _ hn.1) le_rfl ht
  have hrows : ∀ r, some save = some r → r ∈ l.recorded ++ [save] := by
    rintro r ⟨⟩
    exact List.mem_append_right _ (List.mem_singleton_self save)
  have hwaits : ∀ p, l.waiting = some p → p.builtAt < clock ∧
      ∀ t ∈ l.recorded ++ [save], t.builtAt ≤ p.builtAt := by
    intro p hp
    have hnone := (h.grounded hf).2
    exact absurd (hnone.symm.trans hp) (by simp)
  cases deleted with
  | false =>
    refine ⟨?_, hfresh, hrows, h.grounded, fun hg => absurd (hf.symm.trans hg) (by simp), hwaits⟩
    show IsNewest (l.recorded ++ [save]) (l.pending.or (some save))
    rw [hw, Option.some_or]
    exact hnewest
  | true =>
    exact ⟨hnewest, hfresh, hrows, h.grounded, fun hg => absurd (hf.symm.trans hg) (by simp), hwaits⟩

/-- Every move keeps the invariant, except for a direct flush around a snapshot in the table. -/
theorem move (h : LineInv clock l) {new : Option PlayerSaveSnapshot} {commits : List PlayerSaveSnapshot} {l' : Line}
    (hmove : LineMove l new commits l') (hnumber : ∀ save ∈ new, save.builtAt = clock)
    (hclear : new ≠ none → commits ≠ [] → l.pending = none) : LineInv (clock + new.toList.length) l' := by
  cases hmove with
  | stay => exact h
  | dispatch save ok hf =>
    have hsave := hnumber save rfl
    exact h.dispatch (fun t ht => hsave ▸ Nat.le_of_lt (h.fresh t ht)) (hsave ▸ Nat.lt_succ_self clock) (Nat.le_succ _) ok
  | wait save ok hf => exact h.wait hf (hnumber save rfl) ok
  | direct save committed hf =>
    refine h.direct hf (hnumber save rfl) fun hcommitted => hclear (by simp) ?_
    rw [hcommitted]
    simp
  | land save success hone => exact h.land hone
  | finish save success deleted hone hnone => exact h.finish hone hnone
  | next f save ok hone hwaiting =>
    have hwaits := h.waits save hwaiting
    exact h.dispatch hwaits.2 hwaits.1 le_rfl ok
  | crash => exact h.grounding
  | replay save deleted hf hw => exact h.replay hf hw deleted

end LineInv

/-! ## The invariant of the server -/

def Inv (s : State) : Prop := ∀ guid, LineInv s.clock (s.lines guid)

theorem Inv.orderly {s : State} (h : Inv s) : s.Orderly := fun guid => (h guid).orderly

theorem Inv.moves {s s' : State} {guid : Guid} {new : Option PlayerSaveSnapshot} {commits : List PlayerSaveSnapshot}
    (h : Inv s) (hmoves : Moves s guid new commits s')
    (hclear : new ≠ none → commits ≠ [] → s.db.pending guid = none) : Inv s' := by
  intro g
  obtain ⟨l, hlines, hmove⟩ := hmoves.line
  rw [hlines, hmoves.clock]
  rcases eq_or_ne g guid with rfl | hne
  · rw [Function.update_self]
    exact (h g).move hmove hmoves.number hclear
  · rw [Function.update_of_ne hne]
    exact (h g).mono (Nat.le_add_right _ _)

/-! ### Crash and recovery -/

theorem Inv.crash {s : State} (h : Inv s) : Inv s.crash := by
  intro g
  rw [lines_crash]
  exact (h g).grounding

theorem Inv.recoverGuid {s : State} (h : Inv s) (hground : s.manager.flushInFlight = ∅) (replay : Guid → Replay)
    (guid : Guid) : Inv (recoverGuid replay s guid) ∧ (Save.recoverGuid replay s guid).manager.flushInFlight = ∅ := by
  obtain ⟨hmoves, hstill⟩ := moves_recoverGuid hground replay guid
  exact ⟨h.moves hmoves fun hnew => absurd rfl hnew, hstill⟩

theorem Inv.recoverPendingFlushes (replay : Guid → Replay) (guids : List Guid) :
    ∀ {s : State}, Inv s → s.manager.flushInFlight = ∅ → Inv (recoverPendingFlushes guids replay s) := by
  induction guids with
  | nil => intro s h _; exact h
  | cons guid guids ih =>
    intro s h hground
    obtain ⟨hnext, hstill⟩ := h.recoverGuid hground replay guid
    exact ih hnext hstill

/-! ## What a recovery does to the rows -/

/-- Nothing of the player is left in the table that is not in its rows. -/
def Settled (s : State) (guid : Guid) : Prop :=
  s.db.pending guid = none ∨ s.db.rows guid = s.db.pending guid

theorem Settled.newest {s : State} {guid : Guid} (h : Settled s guid) (hinv : Inv s) :
    IsNewest (s.db.recorded guid) (s.db.rows guid) := by
  have hn : IsNewest (s.db.recorded guid) ((s.db.pending guid).or (s.db.rows guid)) := (hinv guid).newest
  rcases h with hnone | hrows
  · rwa [hnone, Option.none_or] at hn
  · rwa [← hrows, Option.or_self] at hn

section Rows

variable (replay : Guid → Replay) (s : State)

theorem recoverGuid_other {g guid : Guid} (hne : g ≠ guid) :
    (recoverGuid replay s guid).lines g = s.lines g := by
  rw [recoverGuid]
  split
  · rfl
  · split
    · rfl
    · rfl
    · rfl
    · rename_i deleted _
      cases deleted <;>
        simp [State.lines, State.flights, Database.commitRows, Database.deletePending, hne]

/-- A turn changes nothing in the database, or it puts the snapshot of the table into the
rows. -/
theorem recoverGuid_cases (guid : Guid) :
    ((∀ d, replay guid ≠ .commits d) ∨ s.db.pending guid = none) ∧ (recoverGuid replay s guid).db = s.db ∨
      ∃ save, s.db.pending guid = some save ∧ (recoverGuid replay s guid).db.rows guid = some save ∧
        Settled (recoverGuid replay s guid) guid := by
  rw [recoverGuid]
  split
  · rename_i hnone
    exact .inl ⟨.inr hnone, rfl⟩
  · rename_i save hpending
    split
    · rename_i hreplay
      exact .inl ⟨.inl (by simp [hreplay]), rfl⟩
    · rename_i hreplay
      exact .inl ⟨.inl (by simp [hreplay]), rfl⟩
    · rename_i hreplay
      exact .inl ⟨.inl (by simp [hreplay]), rfl⟩
    · rename_i deleted _
      refine .inr ⟨save, hpending, ?_⟩
      cases deleted <;> simp [Settled, Database.commitRows, Database.deletePending, hpending]

theorem recoverGuid_settled {g : Guid} (guid : Guid) (h : Settled s g) :
    Settled (recoverGuid replay s guid) g := by
  rcases eq_or_ne g guid with rfl | hne
  · rcases recoverGuid_cases replay s g with ⟨_, hdb⟩ | ⟨_, _, _, hsettled⟩
    · rwa [Settled, hdb]
    · exact hsettled
  · have hline := recoverGuid_other replay s hne
    have hrows : (recoverGuid replay s guid).db.rows g = s.db.rows g := congrArg Line.rows hline
    have hpending : (recoverGuid replay s guid).db.pending g = s.db.pending g := congrArg Line.pending hline
    rwa [Settled, hrows, hpending]

theorem recoverGuid_settles {guid : Guid} {deleted : Bool} (h : replay guid = .commits deleted) :
    Settled (recoverGuid replay s guid) guid := by
  rcases recoverGuid_cases replay s guid with ⟨hnot | hnone, hdb⟩ | ⟨_, _, _, hsettled⟩
  · exact absurd h (hnot deleted)
  · exact .inl (by rw [hdb, hnone])
  · exact hsettled

end Rows

/-- After a recovery the player is settled who was so before, or whose transaction was
committed. -/
theorem recoverPendingFlushes_settled (replay : Guid → Replay) {guid : Guid} (guids : List Guid) :
    ∀ s : State, (Settled s guid ∨ guid ∈ guids ∧ ∃ deleted, replay guid = .commits deleted) →
      Settled (recoverPendingFlushes guids replay s) guid := by
  induction guids with
  | nil =>
    intro s h
    exact h.resolve_right (by simp)
  | cons g guids ih =>
    intro s h
    refine ih (recoverGuid replay s g) ?_
    rcases h with hsettled | ⟨hmem, deleted, hcommits⟩
    · exact .inl (recoverGuid_settled replay s g hsettled)
    · rcases List.mem_cons.mp hmem with rfl | hmem
      · exact .inl (recoverGuid_settles replay s hcommits)
      · exact .inr ⟨hmem, deleted, hcommits⟩

/-- The rows do not go back in time. -/
def Forward (before after : Option PlayerSaveSnapshot) : Prop :=
  ∀ a, before = some a → ∃ b, after = some b ∧ a.builtAt ≤ b.builtAt

theorem Forward.trans {o o' o'' : Option PlayerSaveSnapshot} (h : Forward o o') (h' : Forward o' o'') :
    Forward o o'' := by
  intro a ha
  obtain ⟨b, hb, hab⟩ := h a ha
  obtain ⟨c, hc, hbc⟩ := h' b hb
  exact ⟨c, hc, hab.trans hbc⟩

theorem Forward.refl (o : Option PlayerSaveSnapshot) : Forward o o := fun a ha => ⟨a, ha, le_rfl⟩

theorem Inv.recoverGuid_forward {s : State} (h : Inv s) (replay : Guid → Replay) (guid g : Guid) :
    Forward (s.db.rows g) ((Save.recoverGuid replay s guid).db.rows g) := by
  rcases eq_or_ne g guid with rfl | hne
  · rcases recoverGuid_cases replay s g with ⟨_, hdb⟩ | ⟨save, hpending, hrows, _⟩
    · rw [hdb]
      exact Forward.refl _
    · intro a ha
      have hn : IsNewest (s.db.recorded g) ((s.db.pending g).or (s.db.rows g)) := (h g).newest
      rw [hpending, Option.some_or] at hn
      exact ⟨save, hrows, hn.2 a ((h g).committed a ha)⟩
  · have hrows : (Save.recoverGuid replay s guid).db.rows g = s.db.rows g :=
      congrArg Line.rows (recoverGuid_other replay s hne)
    rw [hrows]
    exact Forward.refl _

theorem Inv.recover_forward (replay : Guid → Replay) (g : Guid) (guids : List Guid) :
    ∀ {s : State}, Inv s → s.manager.flushInFlight = ∅ →
      Forward (s.db.rows g) ((Save.recoverPendingFlushes guids replay s).db.rows g) := by
  induction guids with
  | nil => intro s _ _; exact Forward.refl _
  | cons guid guids ih =>
    intro s h hground
    obtain ⟨hnext, hstill⟩ := h.recoverGuid hground replay guid
    exact (h.recoverGuid_forward replay guid g).trans (ih hnext hstill)

/-! ## Runs -/

/-- `savePlayerSync` does not commit a snapshot around the table while the table holds
another one of the player. -/
def Clear (s : State) : Event → Prop
  | .savePlayerSync guid (some _) committed _ =>
    s.phase = .idle → guid ∉ s.manager.flushInFlight → committed = true → s.db.pending guid = none
  | _ => True

/-- What is asked of a restart. Where there is nothing to replay, or the replay is
committed, the rows of the player are the newest snapshot that was ever committed or
written to the table; the rows of no player go back in time. -/
structure RecoversNewest (s : State) (e : Event) : Prop where
  newest : ∀ guids replay, e = .restart guids replay → ∀ guid,
    (s.db.pending guid = none ∨ guid ∈ guids ∧ ∃ deleted, replay guid = .commits deleted) →
      IsNewest ((step s e).db.recorded guid) ((step s e).db.rows guid)
  forward : ∀ guids replay, e = .restart guids replay → ∀ guid,
    Forward (s.db.rows guid) ((step s e).db.rows guid)

/-- A clear step commits no snapshot that it built while the table holds one. -/
theorem Clear.pending_eq_none {s : State} {e : Event} (h : Clear s e) {guid : Guid} {save : PlayerSaveSnapshot}
    (hbuilds : builds s e = some (guid, save)) (hcommits : commits s e ≠ []) : s.db.pending guid = none := by
  cases e with
  | savePlayerSync g q committed ok =>
    cases q with
    | none => cases hbuilds
    | some queries =>
      rw [builds] at hbuilds
      rw [commits] at hcommits
      split at hbuilds
      · rename_i hidle
        obtain ⟨rfl, -⟩ := Prod.mk.inj (Option.some.inj hbuilds)
        rw [hidle] at hcommits
        by_cases hdirect : g ∉ s.manager.flushInFlight ∧ committed = true
        · exact h hidle hdirect.1 hdirect.2
        · exact absurd (if_neg hdirect) hcommits
      · cases hbuilds
  | poolFlush | restart => cases hbuilds
  | _ => exact absurd rfl hcommits

theorem Inv.step {s : State} (h : Inv s) (e : Event) (hclear : Clear s e) : Inv (step s e) := by
  by_cases hrestart : ∃ guids replay, e = .restart guids replay
  · obtain ⟨guids, replay, rfl⟩ := hrestart
    exact Inv.recoverPendingFlushes replay guids h.crash rfl
  · obtain ⟨guid, new, cs, hmoves, hbuilds, hcommits⟩ := h.orderly.moves_step e fun guids replay heq => hrestart ⟨guids, replay, heq⟩
    refine h.moves hmoves fun hnew hcs => ?_
    obtain ⟨save, rfl⟩ := Option.ne_none_iff_exists'.mp hnew
    exact hclear.pending_eq_none hbuilds (by rw [hcommits]; simpa using hcs)

theorem Inv.recovers {s : State} (h : Inv s) (e : Event) : RecoversNewest s e := by
  constructor
  · rintro guids replay rfl guid hguid
    have hend : Inv (Save.step s (.restart guids replay)) :=
      Inv.recoverPendingFlushes replay guids h.crash rfl
    have hsettled := recoverPendingFlushes_settled replay guids s.crash (hguid.imp_left .inl)
    exact hsettled.newest hend
  · rintro guids replay rfl guid
    exact Inv.recover_forward replay guid guids h.crash rfl

/-- A server whose database has no save yet. -/
theorem inv_new : Inv {} := by
  intro guid
  exact ⟨rfl, fun t ht => (by cases ht), fun r hr => (by cases hr), fun _ => ⟨rfl, rfl⟩,
    fun hf => (by cases hf), fun p hp => (by cases hp)⟩

/-- In every run in which no direct flush of `savePlayerSync` passes a snapshot left in
the table, every recovery restores the newest snapshot of each player. -/
theorem recovers_newest (es : List Event) (hclear : Runs.Along step Clear {} es) :
    Runs.Along step RecoversNewest {} es :=
  (Runs.Along.of_invariant Inv (fun _ e h hc => ⟨h.step e hc, h.recovers e⟩) es {} inv_new hclear).1

/-- Saves of one player, the first two in a chain, and a crash in the middle of the last. -/
theorem recovers_newest_chain :
    Runs.Along step RecoversNewest {}
      [.savePlayer 1 (some ⟨["a"], by simp⟩) true, .savePlayerSync 1 (some ⟨["b"], by simp⟩) true true,
        .poolFlush 0 true, .runTask true true, .poolFlush 0 true, .runTask true true,
        .savePlayerSync 1 (some ⟨["c"], by simp⟩) true true, .savePlayer 1 (some ⟨["d"], by simp⟩) true,
        .restart [1] fun _ => .commits true] :=
  recovers_newest _ ⟨trivial, fun _ hnot => absurd (by decide) hnot, trivial, trivial, trivial, trivial,
    fun _ _ _ => rfl, trivial, trivial, trivial⟩

/-- A flush fails and its snapshot stays in the table. The next save of the player is
synchronous and committed; the recovery after a crash replays the first snapshot over it. -/
theorem not_recovers_newest_sync :
    ¬ Runs.Along step RecoversNewest {}
      [.savePlayer 1 (some ⟨["a"], by simp⟩) true, .poolFlush 0 false, .runTask true true,
        .savePlayerSync 1 (some ⟨["b"], by simp⟩) true true, .restart [1] fun _ => .commits true] := by
  rintro ⟨-, -, -, -, hrestart, -⟩
  obtain ⟨save, hsave, hle⟩ := hrestart.forward [1] (fun _ => .commits true) rfl 1 ⟨⟨["b"], by simp⟩, 1⟩ rfl
  cases hsave
  exact absurd hle (by decide)

end ForgottenServer.Save
