import ForgottenServer.Kv.Copies
import ForgottenServer.Lib.LittleEndian

/-! # Runs of the key-value store

The store as a map with durable backing: a run is a sequence of calls with the outcomes
of their database writes, and `History` is what was written to each key. As long as
every call finds the copies of the keys it touches where the code looks for them
(`Allowed`), the copies stay in the order in which they were written. -/

namespace ForgottenServer.Kv

open Timeline LittleEndian

/-- A call, with the outcomes of its database writes. `processEvictions` is the task that
`keys` detaches. -/
inductive Event (V R : Type) where
  | set (key : Key) (v : V) (ok : Nat → Bool)
  | remove (key : Key) (ok : Nat → Bool)
  | get (key : Key) (ok : Nat → Bool)
  | keys (start : Key) (rows : List (Key × R))
  | saveAll (ok : Nat → Bool) (tx : Transaction)
  | flush (ok : Nat → Bool)
  | processEvictions (ok : Nat → Bool)

variable {V R : Type} (codec : Codec V R)

def step (s : State V R) : Event V R → State V R
  | .set key v ok => s.set codec key (.value v) ok
  | .remove key ok => s.remove codec key ok
  | .get key ok => (s.get codec key ok).2
  | .keys start rows => (s.keys codec start rows).2
  | .saveAll ok tx => (s.saveAll codec ok tx).2
  | .flush ok => s.flush codec ok
  | .processEvictions ok => (s.processEvictions codec ok).2

/-- Everything written to a key, the row found in the table at the start first. -/
abbrev History (V : Type) := Key → List (Option V)

def History.add (hist : History V) (key : Key) (written : Option V) : History V :=
  fun k => if k = key then hist k ++ [written] else hist k

def record (hist : History V) : Event V R → History V
  | .set key v _ => hist.add key (some v)
  | .remove key _ => hist.add key none
  | _ => hist

/-- The last write to a key. -/
def History.last (hist : History V) (key : Key) : Option V := (hist key).getLast?.join

/-- All database writes of a save succeed. -/
def Event.Saves : Event V R → Prop
  | .saveAll ok tx => (∀ i, ok i = true) ∧ tx.begun = true ∧ (∀ i, tx.writes i = true) ∧ tx.committed = true
  | .flush ok => ∀ i, ok i = true
  | _ => False

/-- What one call answers and leaves: `get` answers with the last write, and a save whose
writes succeed leaves the last write of every key in the table. -/
structure Answers (s : State V R) (hist : History V) (e : Event V R) : Prop where
  get : ∀ key ok, e = .get key ok → (s.get codec key ok).1 = hist.last key
  saves : e.Saves → ∀ key, load codec (step codec s e).db key = hist.last key

/-- The copies of every key are in the order in which they were written, the copy a
reader gets being the last write. -/
def Ordered (s : State V R) (hist : History V) : Prop :=
  ∀ key, InOrder (hist key) (s.copies codec key)

/-! ## When a call is safe -/

def KVStore.IsPending (kv : KVStore V) (key : Key) : Prop := ∃ p ∈ kv.pendingEvictions, p.1 = key

/-- A key can be cached: where it drives out another one, that one is cached. -/
def KVStore.Admits (kv : KVStore V) (key : Key) : Prop :=
  kv.find key = none → kv.isFull = true → kv.TailCached

/-- What is to be written once a key was cached. -/
def KVStore.due (kv : KVStore V) (key : Key) : List (Key × Cell V) :=
  kv.pendingEvictions ++ if (kv.find key).isNone && kv.isFull then kv.evicted codec else []

/-- The rows of `keys` can be cached one after another, none of them a pending key. -/
def LoadsRows : KVStore V → List (Key × R) → Prop
  | _, [] => True
  | kv, row :: rows =>
    (kv.find row.1 = none → ¬ kv.IsPending row.1 ∧ kv.Admits row.1) ∧
      LoadsRows (State.loadRow codec kv row) rows

/-- The calls after which the store is still a map with durable backing. -/
def Allowed (s : State V R) : Event V R → Prop
  | .set key v ok => codec.Survives (.value v) ∧ s.kv.Admits key ∧ InTurn ok 0 (s.kv.due codec key)
  | .remove key ok => s.kv.Admits key ∧ InTurn ok 0 (s.kv.due codec key)
  | .get key ok => s.kv.find key = none → ¬ s.kv.IsPending key ∧
      (s.db key ≠ none → s.kv.Admits key ∧ InTurn ok 0 (s.kv.due codec key))
  | .keys _ rows => LoadsRows codec s.kv rows
  | .saveAll ok _ => InTurn ok 0 s.kv.pendingEvictions
  | .flush ok => (∀ p ∈ s.kv.pendingEvictions, s.kv.find p.1 = none) ∧
      ((s.kv.pendingEvictions.map Prod.fst).Nodup ∨ ∀ i, ok i = true)
  | .processEvictions ok => InTurn ok 0 s.kv.pendingEvictions

/-- The rows a query of `keys` can find. -/
def Event.Found (s : State V R) : Event V R → Prop
  | .keys start rows => (rows.map Prod.fst).Nodup ∧
      ∀ key r, (key, r) ∈ rows ↔ s.db key = some r ∧ start <+: key
  | _ => True

/-- Every call of a run is allowed in the state it is made in. -/
def AllowedRun : State V R → List (Event V R) → Prop
  | _, [] => True
  | s, e :: es => e.Found s ∧ Allowed codec s e ∧ AllowedRun (step codec s e) es

/-- Every state of a run has its copies in order, and every call answers rightly. -/
def CorrectRun : State V R → History V → List (Event V R) → Prop
  | s, hist, [] => Ordered codec s hist
  | s, hist, e :: es => Ordered codec s hist ∧ Answers codec s hist e ∧
      CorrectRun (step codec s e) (record hist e) es

/-! ## One call -/

variable {codec}

theorem History.last_eq {hist : History V} {key : Key} {written : Option V}
    (h : (hist key).getLast? = some written) : hist.last key = written := by
  rw [History.last, h]
  rfl

/-- The last copy is what a reader should get. -/
theorem Ordered.last {s : State V R} {hist : History V} (h : Ordered codec s hist) {key : Key}
    {copies : List (Option V)} {newest : Option V} (hcopies : s.copies codec key = copies ++ [newest]) :
    hist.last key = newest := by
  have hlast := (h key).getLast?
  rw [hcopies, List.getLast?_append, List.getLast?_singleton] at hlast
  exact History.last_eq hlast.symm

/-- Caching a value of a key as its newest write. -/
theorem Ordered.setLocked_write {s : State V R} {hist : History V} (h : Ordered codec s hist) {key : Key}
    {c : Cell V} (hadm : s.kv.Admits key) :
    Ordered codec { s with kv := s.kv.setLocked codec key c } (hist.add key c.get) := by
  intro k
  rw [State.copies, KVStore.copies_setLocked c hadm, History.add]
  by_cases hk : k = key
  · subst hk
    rw [if_pos rfl, if_pos rfl]
    have hk := h k
    rw [State.copies, KVStore.copies] at hk
    -- the cached copy, if there is one, is overwritten
    have hlen := length_cachedOf_le s.kv k
    cases hc : s.kv.cachedOf k with
    | nil =>
      rw [hc, List.append_nil] at hk
      exact hk.write c.get
    | cons old rest =>
      rw [hc, List.length_cons] at hlen
      obtain rfl : rest = [] := List.eq_nil_of_length_eq_zero (by omega)
      rw [hc, ← List.cons_append] at hk
      exact hk.overwrite c.get
  · rw [if_neg hk, if_neg hk]
    exact h k

/-- Caching the row of a key that has no other copy. -/
theorem Ordered.setLocked_load {s : State V R} {hist : History V} (h : Ordered codec s hist) {key : Key}
    {v : V} (hnone : s.kv.find key = none) (hpend : ¬ s.kv.IsPending key) (hadm : s.kv.Admits key)
    (hload : load codec s.db key = some v) :
    Ordered codec { s with kv := s.kv.setLocked codec key (.value v) } hist := by
  intro k
  rw [State.copies, KVStore.copies_setLocked _ hadm]
  have hentries : entriesOf s.kv.pendingEvictions key = [] :=
    entriesOf_eq_nil fun e he hkey => hpend ⟨e, he, hkey⟩
  by_cases hk : k = key
  · subst hk
    have hk := h k
    rw [State.copies, KVStore.copies, hentries, KVStore.cachedOf_eq_nil hnone, hload] at hk
    rw [if_pos rfl, hentries, hload]
    exact InOrder.copy_last (show InOrder (hist k) ([] ++ [some v]) from hk)
  · rw [if_neg hk]
    exact h k

/-- Pending evictions that are written in turn. -/
theorem Ordered.processEvictions {s : State V R} {hist : History V} (h : Ordered codec s hist)
    (hsurv : s.kv.Survives codec) {ok : Nat → Bool} (hturn : InTurn ok 0 s.kv.pendingEvictions) :
    Ordered codec (s.processEvictions codec ok).2 hist ∧
      (s.processEvictions codec ok).2.kv.Survives codec := by
  have hentries : ∀ e ∈ s.kv.pendingEvictions, codec.Survives e.2 := fun e he => hsurv.pending he
  constructor
  · intro k
    obtain ⟨old, hold⟩ := saveEach_inTurn k s.kv.pendingEvictions 0 s.db hturn hentries
    have hk := h k
    rw [State.copies, KVStore.copies, ← List.cons_append, hold, List.append_assoc] at hk
    exact hk.drop_front (by simp)
  · intro k v hv
    refine hsurv k v ?_
    rcases List.mem_append.mp hv with hv | hv
    · obtain ⟨p, hp, hpv⟩ := List.mem_map.mp hv
      obtain ⟨hp, hkey⟩ := List.mem_filter.mp hp
      refine List.mem_append_left _ (List.mem_map.mpr ⟨p, List.mem_filter.mpr ⟨?_, hkey⟩, hpv⟩)
      exact mem_of_mem_failed _ _ _ hp
    · exact List.mem_append_right _ hv

/-- What holds of the store in every state of a run. -/
structure Invariant (codec : Codec V R) (s : State V R) (hist : History V) : Prop where
  ordered : Ordered codec s hist
  survives : s.kv.Survives codec

theorem Invariant.processEvictions {s : State V R} {hist : History V} (h : Invariant codec s hist)
    {ok : Nat → Bool} (hturn : InTurn ok 0 s.kv.pendingEvictions) :
    Invariant codec (s.processEvictions codec ok).2 hist := by
  obtain ⟨hord, hsurv⟩ := h.ordered.processEvictions h.survives hturn
  exact ⟨hord, hsurv⟩

theorem Invariant.set {s : State V R} {hist : History V} (h : Invariant codec s hist) {key : Key}
    {c : Cell V} {ok : Nat → Bool} (hc : codec.Survives c) (hadm : s.kv.Admits key)
    (hturn : InTurn ok 0 (s.kv.due codec key)) :
    Invariant codec (s.set codec key c ok) (hist.add key c.get) := by
  have hset : Invariant codec { s with kv := s.kv.setLocked codec key c } (hist.add key c.get) :=
    ⟨h.ordered.setLocked_write hadm, h.survives.setLocked hc hadm⟩
  exact hset.processEvictions (by rwa [KVStore.pendingEvictions_setLocked])

/-- Moving a key in the queue changes no copy. -/
theorem Invariant.requeue {s : State V R} {hist : History V} (h : Invariant codec s hist)
    (lruQueue : List (Nat × Key)) :
    Invariant codec { s with kv := { s.kv with lruQueue } } hist :=
  ⟨h.ordered, h.survives⟩

theorem load_ne_none {db : Database R} {key : Key} {v : V} (h : load codec db key = some v) :
    db key ≠ none := by
  intro hnone
  rw [load, hnone] at h
  cases h

theorem load_survives (hstable : codec.Stable) {db : Database R} {key : Key} {v : V}
    (h : load codec db key = some v) : codec.Survives (.value v) := by
  obtain ⟨r, _, hr⟩ := Option.bind_eq_some_iff.mp h
  exact hstable r v hr

theorem Invariant.get (hstable : codec.Stable) {s : State V R} {hist : History V}
    (h : Invariant codec s hist) {key : Key} {ok : Nat → Bool} (ha : Allowed codec s (.get key ok)) :
    (s.get codec key ok).1 = hist.last key ∧ Invariant codec (s.get codec key ok).2 hist := by
  unfold State.get
  split
  · rename_i e he
    have hcopies : s.copies codec key =
        (load codec s.db key :: entriesOf s.kv.pendingEvictions key) ++ [e.value.get] := by
      rw [State.copies, KVStore.copies, KVStore.cachedOf, he]
      rfl
    exact ⟨(h.ordered.last hcopies).symm, h.requeue _⟩
  · rename_i hnone
    obtain ⟨hpend, hroom⟩ := ha hnone
    have hcopies : s.copies codec key = [] ++ [load codec s.db key] := by
      rw [State.copies, KVStore.copies, KVStore.cachedOf_eq_nil hnone,
        entriesOf_eq_nil fun e he hkey => hpend ⟨e, he, hkey⟩]
      rfl
    have hlast := h.ordered.last hcopies
    split
    · rename_i hload
      exact ⟨by rw [hlast, hload], h⟩
    · rename_i v hload
      obtain ⟨hadm, hturn⟩ := hroom (load_ne_none hload)
      have hset : Invariant codec { s with kv := s.kv.setLocked codec key (.value v) } hist :=
        ⟨h.ordered.setLocked_load hnone hpend hadm hload,
          h.survives.setLocked (load_survives hstable hload) hadm⟩
      exact ⟨by rw [hlast, hload], hset.processEvictions (by rwa [KVStore.pendingEvictions_setLocked])⟩

/-- The rows of `keys`, one after another. -/
theorem Invariant.loadRows (hstable : codec.Stable) {db : Database R} {hist : History V}
    (rows : List (Key × R)) :
    ∀ {kv : KVStore V}, Invariant codec { kv, db } hist → (∀ row ∈ rows, db row.1 = some row.2) →
      LoadsRows codec kv rows → Invariant codec { kv := rows.foldl (State.loadRow codec) kv, db } hist := by
  induction rows with
  | nil => intro kv h _ _; exact h
  | cons row rows ih =>
    intro kv h hrows hloads
    refine ih ?_ (fun r hr => hrows r (by simp [hr])) hloads.2
    unfold State.loadRow
    split
    · exact h
    · rename_i v hv
      split
      · exact h
      · rename_i hfind
        have hnone : kv.find row.1 = none := by simpa using hfind
        obtain ⟨hpend, hadm⟩ := hloads.1 hnone
        have hload : load codec db row.1 = some v := by
          rw [load, hrows row (by simp)]
          exact hv
        exact ⟨h.ordered.setLocked_load hnone hpend hadm hload,
          h.survives.setLocked (load_survives hstable hload) hadm⟩

/-- Saving the cache when nothing is pending. -/
theorem Invariant.saveStore {s : State V R} {hist : History V} (h : Invariant codec s hist)
    (hpend : s.kv.pendingEvictions = []) (ok : Nat → Bool) :
    Invariant codec { s with db := (saveEach codec ok 0 s.kv.getStore s.db).1 } hist := by
  refine ⟨fun k => ?_, h.survives⟩
  have hk := h.ordered k
  rw [State.copies, KVStore.copies, hpend, entriesOf_nil, List.nil_append] at hk ⊢
  refine hk.refresh (length_cachedOf_le s.kv k) ?_
  rw [← entriesOf_getStore]
  exact saveEach_load k s.kv.getStore 0 s.db fun e he => h.survives.getStore he

/-- After all cached entries were saved, the table has the last write of every key. -/
theorem Invariant.saveStore_all {s : State V R} {hist : History V} (h : Invariant codec s hist)
    (hpend : s.kv.pendingEvictions = []) {ok : Nat → Bool} (hok : ∀ i, ok i = true) (key : Key) :
    load codec (saveEach codec ok 0 s.kv.getStore s.db).1 key = hist.last key := by
  obtain ⟨old, hold⟩ := saveEach_inTurn key s.kv.getStore 0 s.db (inTurn_of_all hok _ _)
    fun e he => h.survives.getStore he
  rw [saveEach_failed_eq_nil hok, entriesOf_nil, entriesOf_getStore] at hold
  have hcopies : s.copies codec key =
      old ++ [load codec (saveEach codec ok 0 s.kv.getStore s.db).1 key] := by
    rw [State.copies, KVStore.copies, hpend, entriesOf_nil, List.nil_append, hold]
  exact (h.ordered.last hcopies).symm

theorem processEvictions_pending {s : State V R} {ok : Nat → Bool}
    (h : (s.processEvictions codec ok).1 = true) :
    (s.processEvictions codec ok).2.kv.pendingEvictions = [] := List.isEmpty_iff.mp h

theorem Invariant.saveAll {s : State V R} {hist : History V} (h : Invariant codec s hist)
    {ok : Nat → Bool} {tx : Transaction} (hturn : InTurn ok 0 s.kv.pendingEvictions) :
    Invariant codec (s.saveAll codec ok tx).2 hist := by
  have hevict := h.processEvictions hturn
  unfold State.saveAll
  simp only
  split
  · exact hevict
  · rename_i hsaved
    have hpend := processEvictions_pending
      (show (s.processEvictions codec ok).1 = true by simp at hsaved; exact hsaved.1)
    split
    · exact hevict
    · rename_i db hdb
      split
      · rw [prepareEach_eq _ _ _ _ hdb]
        exact hevict.saveStore hpend tx.writes
      · exact hevict

theorem Invariant.saveAll_saves {s : State V R} {hist : History V} (h : Invariant codec s hist)
    {ok : Nat → Bool} {tx : Transaction} (hsaves : (Event.saveAll ok tx : Event V R).Saves) (key : Key) :
    load codec (s.saveAll codec ok tx).2.db key = hist.last key := by
  obtain ⟨hok, hbegun, hwrites, hcommitted⟩ := hsaves
  have hevict := h.processEvictions (inTurn_of_all hok s.kv.pendingEvictions 0)
  have hsaved : (s.processEvictions codec ok).1 = true := by
    rw [State.processEvictions, saveEach_failed_eq_nil hok]
    rfl
  unfold State.saveAll
  simp only [hsaved, hbegun, Bool.not_true, Bool.or_self, Bool.false_eq_true, if_false,
    prepareEach_all hwrites, hcommitted, if_true]
  exact hevict.saveStore_all (processEvictions_pending hsaved) hwrites key

/-- Pending keys are not cached: a key has its copies in one place. -/
theorem entriesOf_pending_of_cached {kv : KVStore V}
    (h : ∀ p ∈ kv.pendingEvictions, kv.find p.1 = none) {key : Key} {e : StoreEntry V}
    (hfind : kv.find key = some e) : entriesOf kv.pendingEvictions key = [] := by
  refine entriesOf_eq_nil fun p hp hkey => ?_
  have hnone := h p hp
  rw [hkey, hfind] at hnone
  cases hnone

theorem entriesOf_flush {kv : KVStore V} (h : ∀ p ∈ kv.pendingEvictions, kv.find p.1 = none) (key : Key) :
    entriesOf (kv.getStore ++ kv.pendingEvictions) key = kv.copies key := by
  rw [entriesOf_append, entriesOf_getStore, KVStore.copies]
  cases hfind : kv.find key with
  | none => rw [KVStore.cachedOf_eq_nil hfind, List.nil_append, List.append_nil]
  | some e => rw [entriesOf_pending_of_cached h hfind, List.nil_append, List.append_nil]

theorem length_copies_le {kv : KVStore V} (h : ∀ p ∈ kv.pendingEvictions, kv.find p.1 = none)
    (hnodup : (kv.pendingEvictions.map Prod.fst).Nodup) (key : Key) : (kv.copies key).length ≤ 1 := by
  rw [KVStore.copies, List.length_append]
  cases hfind : kv.find key with
  | none =>
    rw [KVStore.cachedOf_eq_nil hfind, entriesOf, List.length_map, List.length_nil, Nat.add_zero]
    have hcount := List.nodup_iff_count_le_one.mp hnodup key
    rw [List.count_eq_countP, List.countP_map, List.countP_eq_length_filter] at hcount
    have hfilter : kv.pendingEvictions.filter (fun e => e.1 = key) =
        kv.pendingEvictions.filter ((· == key) ∘ Prod.fst) :=
      List.filter_congr fun e _ => by simp [beq_eq_decide]
    rw [hfilter]
    exact hcount
  | some e =>
    rw [entriesOf_pending_of_cached h hfind, List.length_nil, Nat.zero_add]
    exact length_cachedOf_le kv key

theorem survives_flushed {s : State V R} (h : s.kv.Survives codec) :
    ∀ e ∈ s.kv.getStore ++ s.kv.pendingEvictions, codec.Survives e.2 := by
  intro e he
  rcases List.mem_append.mp he with he | he
  · exact h.getStore he
  · exact h.pending he

/-- A flush that writes everything leaves only the table, with the last writes. -/
theorem Invariant.flush_all {s : State V R} {hist : History V} (h : Invariant codec s hist)
    {ok : Nat → Bool} (hdisjoint : ∀ p ∈ s.kv.pendingEvictions, s.kv.find p.1 = none)
    (hfailed : (saveEach codec ok 0 (s.kv.getStore ++ s.kv.pendingEvictions) s.db).2 = []) :
    Invariant codec (s.flush codec ok) hist ∧
      ∀ key, load codec (s.flush codec ok).db key = hist.last key := by
  have hflush : s.flush codec ok = State.mk { s.kv with store := ∅, pendingEvictions := [] }
      (saveEach codec ok 0 (s.kv.getStore ++ s.kv.pendingEvictions) s.db).1 := by
    simp only [State.flush, hfailed, List.isEmpty_nil, if_true]
  have hcopies : ∀ key, ∃ old, s.copies codec key = old ++ [load codec (s.flush codec ok).db key] := by
    intro key
    obtain ⟨old, hold⟩ := saveEach_inTurn key (s.kv.getStore ++ s.kv.pendingEvictions) 0 s.db
      (inTurn_of_failed_eq_nil _ _ _ hfailed) (survives_flushed h.survives)
    rw [hfailed, entriesOf_nil, entriesOf_flush hdisjoint] at hold
    exact ⟨old, by rw [State.copies, hold, hflush]⟩
  refine ⟨⟨fun key => ?_, ?_⟩, fun key => ?_⟩
  · obtain ⟨old, hold⟩ := hcopies key
    have hkey := h.ordered key
    rw [hold] at hkey
    have hone := hkey.drop_front (by simp)
    rw [hflush] at hone ⊢
    exact hone
  · rw [hflush]
    intro key v hv
    cases hv
  · obtain ⟨old, hold⟩ := hcopies key
    exact (h.ordered.last hold).symm

theorem Invariant.flush {s : State V R} {hist : History V} (h : Invariant codec s hist)
    {ok : Nat → Bool} (ha : Allowed codec s (.flush ok)) : Invariant codec (s.flush codec ok) hist := by
  obtain ⟨hdisjoint, hnodup | hok⟩ := ha
  · by_cases hfailed : (saveEach codec ok 0 (s.kv.getStore ++ s.kv.pendingEvictions) s.db).2 = []
    · exact (h.flush_all hdisjoint hfailed).1
    · -- the cache and the pending entries stay
      have hflush : s.flush codec ok = { s with
          db := (saveEach codec ok 0 (s.kv.getStore ++ s.kv.pendingEvictions) s.db).1 } := by
        simp only [State.flush, List.isEmpty_iff, hfailed, if_false]
      rw [hflush]
      refine ⟨fun key => ?_, h.survives⟩
      refine (h.ordered key).refresh (length_copies_le hdisjoint hnodup key) ?_
      rw [← entriesOf_flush hdisjoint]
      exact saveEach_load key _ 0 s.db (survives_flushed h.survives)
  · exact (h.flush_all hdisjoint (saveEach_failed_eq_nil hok _ _ _)).1

/-! ## Runs -/

theorem Invariant.step (hstable : codec.Stable) {s : State V R} {hist : History V}
    (h : Invariant codec s hist) {e : Event V R} (hfound : e.Found s) (ha : Allowed codec s e) :
    Invariant codec (step codec s e) (record hist e) ∧ Answers codec s hist e := by
  cases e with
  | set key v ok =>
    obtain ⟨hv, hadm, hturn⟩ := ha
    exact ⟨h.set hv hadm hturn, ⟨by simp, by simp [Event.Saves]⟩⟩
  | remove key ok =>
    exact ⟨h.set survives_deleted ha.1 ha.2, ⟨by simp, by simp [Event.Saves]⟩⟩
  | get key ok =>
    obtain ⟨hanswer, hinv⟩ := h.get hstable ha
    refine ⟨hinv, ⟨?_, by simp [Event.Saves]⟩⟩
    intro key' ok' he
    cases he
    exact hanswer
  | keys start rows =>
    refine ⟨?_, ⟨by simp, by simp [Event.Saves]⟩⟩
    exact Invariant.loadRows hstable rows h (fun row hrow => ((hfound.2 row.1 row.2).mp hrow).1) ha
  | saveAll ok tx =>
    exact ⟨h.saveAll ha, ⟨by simp, h.saveAll_saves⟩⟩
  | flush ok =>
    refine ⟨h.flush ha, ⟨by simp, fun hok => ?_⟩⟩
    exact (h.flush_all ha.1 (saveEach_failed_eq_nil hok _ _ _)).2
  | processEvictions ok =>
    exact ⟨h.processEvictions ha, ⟨by simp, by simp [Event.Saves]⟩⟩

theorem Invariant.run (hstable : codec.Stable) (es : List (Event V R)) :
    ∀ {s : State V R} {hist : History V}, Invariant codec s hist → AllowedRun codec s es →
      CorrectRun codec s hist es := by
  induction es with
  | nil => intro s hist h _; exact h.ordered
  | cons e es ih =>
    intro s hist h hrun
    obtain ⟨hnext, hanswers⟩ := h.step hstable hrun.1 hrun.2.1
    exact ⟨h.ordered, hanswers, ih hnext hrun.2.2⟩

/-- A new store over any table. -/
def State.new (db : Database R) : State V R := { db }

/-- What the table holds is the only thing written so far. -/
def History.new (codec : Codec V R) (db : Database R) : History V := fun key => [load codec db key]

/-- In every run of a new store whose calls are all allowed, `get` answers with the last
write of its key, a save whose writes succeed puts the last writes into the table, and
the copies of a key are always in the order in which they were written. -/
theorem correctRun_of_allowed (hstable : codec.Stable) (db : Database R) (es : List (Event V R))
    (hrun : AllowedRun codec (State.new db) es) :
    CorrectRun codec (State.new db) (History.new codec db) es := by
  refine Invariant.run hstable es ⟨fun key => ?_, fun key v hv => ?_⟩ hrun
  · exact InOrder.single rfl
  · cases hv

/-! ## Strings -/

/-- `serialize` and `deserialize` on values that are strings: a tag, the length, the
bytes. A null is read as the empty string. -/
def stringCodec : Codec (List UInt8) (List UInt8) where
  serialize s := 4 :: (leBytes 4 s.length ++ s)
  deserialize
    | 0 :: _ => some []
    | 4 :: row =>
      if row.length < 4 then none
      else
        let len := leNat (row.take 4)
        if row.length - 4 < len then none else some ((row.drop 4).take len)
    | _ => none
  blank := []

theorem stringCodec_survives {s : List UInt8} (h : s.length < 256 ^ 4) :
    stringCodec.Survives (.value s) := by
  intro v hv
  cases hv
  have hlen : leNat ((leBytes 4 s.length ++ s).take 4) = s.length := by
    rw [List.take_left' (length_leBytes 4 _), leNat_leBytes, Nat.mod_eq_of_lt h]
  simp only [stringCodec, List.length_append, length_leBytes, hlen, List.drop_left' (length_leBytes 4 _),
    List.take_length]
  rw [if_neg (by omega), if_neg (by omega)]

theorem stringCodec_stable : stringCodec.Stable := by
  intro r v hr
  apply stringCodec_survives
  simp only [stringCodec] at hr
  split at hr
  · cases hr
    decide
  · rename_i row
    split at hr
    · cases hr
    · split at hr
      · cases hr
      · cases hr
        have hlt := leNat_lt (row.take 4)
        have hpow : 256 ^ (row.take 4).length ≤ 256 ^ 4 :=
          Nat.pow_le_pow_right (by decide) (List.length_take_le 4 row)
        rw [List.length_take]
        omega
  · cases hr

def allOk : Nat → Bool := fun _ => true
def allFail : Nat → Bool := fun _ => false

/-- A store far from full admits every key and evicts nothing. -/
theorem not_isFull_of_lt {kv : KVStore V} (h : kv.store.entries.length < MAX_SIZE) : kv.isFull = false := by
  rw [KVStore.isFull, decide_eq_false (by omega), Bool.false_and]

theorem admits_of_lt {kv : KVStore V} (h : kv.store.entries.length < MAX_SIZE) (key : Key) :
    kv.Admits key := by
  intro _ hfull
  rw [not_isFull_of_lt h] at hfull
  cases hfull

/-- A write, a read and a save. -/
theorem correctRun_three :
    CorrectRun stringCodec (State.new fun _ => none) (History.new stringCodec fun _ => none)
      [.set [1] [7] allOk, .get [1] allOk, .saveAll allOk ⟨true, allOk, true⟩] := by
  have hsmall : (∅ : AList fun _ : Key => StoreEntry (List UInt8)).entries.length < MAX_SIZE := by
    rw [MAX_SIZE]
    decide
  apply correctRun_of_allowed stringCodec_stable
  refine ⟨trivial, ⟨stringCodec_survives (by decide), admits_of_lt hsmall _,
    inTurn_of_all (fun _ => rfl) _ _⟩, trivial, ?_, trivial, inTurn_of_all (fun _ => rfl) _ _, trivial⟩
  intro hnone
  cases hnone

/-! ## A failed eviction -/

/-- The keys of a full cache. -/
def keyOf (i : Nat) : Key := leBytes 4 i

theorem keyOf_ne {i n : Nat} (hi : i < n) (hn : n ≤ MAX_SIZE) : keyOf i ≠ keyOf n := by
  intro h
  have := congrArg leNat h
  rw [MAX_SIZE] at hn
  rw [keyOf, keyOf, leNat_leBytes, leNat_leBytes, Nat.mod_eq_of_lt (by omega),
    Nat.mod_eq_of_lt (by omega)] at this
  omega

/-- `n` keys are written, each for the first time. -/
def fill (n : Nat) : List (Event (List UInt8) (List UInt8)) :=
  (List.range n).map fun i => .set (keyOf i) [7] allOk

theorem fill_succ (n : Nat) : fill (n + 1) = fill n ++ [.set (keyOf n) [7] allOk] := by
  rw [fill, List.range_succ, List.map_append]
  rfl

/-- The state behind `n` writes to a table, the first one of the cell `c`. -/
structure Filled (db : Database (List UInt8)) (c : Cell (List UInt8)) (n : Nat)
    (s : State (List UInt8) (List UInt8)) : Prop where
  size : s.kv.store.entries.length = n
  queue : s.kv.lruQueue.map Prod.snd = ((List.range n).map keyOf).reverse
  pending : s.kv.pendingEvictions = []
  table : s.db = db
  first : 0 < n → ∃ node, s.kv.find (keyOf 0) = some ⟨c, node⟩
  fresh : ∀ i, n ≤ i → i ≤ MAX_SIZE → s.kv.find (keyOf i) = none

theorem filled_new (db : Database (List UInt8)) (c : Cell (List UInt8)) : Filled db c 0 (State.new db) :=
  ⟨rfl, rfl, rfl, rfl, fun h => absurd h (by decide), fun i _ _ => rfl⟩

theorem Filled.next {db : Database (List UInt8)} {c c' : Cell (List UInt8)} {n : Nat}
    {s : State (List UInt8) (List UInt8)} (h : Filled db c n s) (hn : n < MAX_SIZE) (hfirst : n = 0 → c' = c) :
    Filled db c (n + 1) (s.set stringCodec (keyOf n) c' allOk) := by
  have hnone := h.fresh n le_rfl (Nat.le_of_lt hn)
  have hset : s.set stringCodec (keyOf n) c' allOk = { s with kv := s.kv.insert (keyOf n) c' } := by
    rw [State.set, State.processEvictions, KVStore.setLocked, hnone]
    simp only
    rw [not_isFull_of_lt (by rw [h.size]; exact hn), if_neg (by simp)]
    simp only [KVStore.insert, h.pending, saveEach]
  rw [hset]
  refine ⟨?_, ?_, h.pending, h.table, ?_, ?_⟩
  · show (s.kv.store.insert _ _).entries.length = n + 1
    rw [AList.entries_insert_of_notMem (AList.lookup_eq_none.mp hnone), List.length_cons, h.size]
  · show keyOf n :: s.kv.lruQueue.map Prod.snd = _
    rw [h.queue, List.range_succ, List.map_append, List.reverse_append]
    rfl
  · intro _
    rw [KVStore.find_insert]
    split
    · rename_i heq
      have hzero : n = 0 := by
        by_contra hne
        exact keyOf_ne (Nat.pos_of_ne_zero hne) hn.le heq
      exact ⟨_, by rw [hfirst hzero]⟩
    · rename_i hne
      rcases Nat.eq_zero_or_pos n with rfl | hpos
      · exact absurd rfl hne
      · exact h.first hpos
  · intro i hi hmax
    rw [KVStore.find_insert, if_neg (keyOf_ne hi hmax).symm]
    exact h.fresh i (by omega) hmax

theorem filled_fill {n : Nat} (hn : n ≤ MAX_SIZE) :
    Filled (fun _ => none) (.value [7]) n ((fill n).foldl (step stringCodec) (State.new fun _ => none)) := by
  induction n with
  | zero => exact filled_new _ _
  | succ n ih =>
    rw [fill_succ, List.foldl_append]
    exact (ih (by omega)).next (by omega) fun _ => rfl

/-- The first key of a full cache is the last one in the queue. -/
theorem Filled.full {db : Database (List UInt8)} {c : Cell (List UInt8)} {n : Nat}
    {s : State (List UInt8) (List UInt8)} (h : Filled db c n s) (hn : n = MAX_SIZE) (hpos : 0 < n) :
    s.kv.isFull = true ∧ ∃ node, s.kv.lruQueue.getLast? = some (node, keyOf 0) := by
  have hlast : ∃ node, s.kv.lruQueue.getLast? = some (node, keyOf 0) := by
    have hmap := congrArg List.getLast? h.queue
    rw [List.getLast?_map, List.getLast?_reverse, List.head?_map, List.head?_range, if_neg (by omega)] at hmap
    obtain ⟨⟨node, key⟩, hq, hkey⟩ := Option.map_eq_some_iff.mp hmap
    exact ⟨node, by rw [hq, ← hkey]⟩
  refine ⟨?_, hlast⟩
  rw [KVStore.isFull, decide_eq_true (by rw [h.size]; exact hn.ge), Bool.true_and]
  obtain ⟨node, hlast⟩ := hlast
  cases hq : s.kv.lruQueue with
  | nil => simp [hq] at hlast
  | cons => rfl

/-- A correct run is correct from any of its states on. -/
theorem CorrectRun.tail (es es' : List (Event V R)) :
    ∀ {s : State V R} {hist : History V}, CorrectRun codec s hist (es ++ es') →
      CorrectRun codec (es.foldl (step codec) s) (es.foldl record hist) es' := by
  induction es with
  | nil => intro s hist h; exact h
  | cons e es ih => intro s hist h; exact ih h.2.2

theorem History.last_add (hist : History V) (key k : Key) (written : Option V) :
    (hist.add key written).last k = if k = key then written else hist.last k := by
  rw [History.last, History.add]
  split
  · rw [List.getLast?_append, List.getLast?_singleton]
    rfl
  · rfl

theorem last_fill (n : Nat) (hist : History (List UInt8)) :
    ((fill (n + 1)).foldl record hist).last (keyOf 0) = some [7] := by
  induction n with
  | zero => exact (History.last_add _ _ _ _).trans (if_pos rfl)
  | succ n ih =>
    rw [fill_succ, List.foldl_append]
    refine (History.last_add _ _ _ _).trans ?_
    split
    · rfl
    · exact ih

/-- A new key in a full cache drives out the first one, and its write fails. -/
theorem Filled.failed_eviction {c : Cell (List UInt8)} {n : Nat} {s : State (List UInt8) (List UInt8)}
    (h : Filled (fun _ => none) c n s) (hn : n = MAX_SIZE) (hpos : 0 < n) :
    (step stringCodec s (.set (keyOf n) [7] allFail)).kv.find (keyOf 0) = none ∧
      (step stringCodec s (.set (keyOf n) [7] allFail)).db = fun _ => none := by
  have hnone := h.fresh n le_rfl hn.le
  obtain ⟨hfull, node, hlast⟩ := h.full hn hpos
  have hset : s.kv.setLocked stringCodec (keyOf n) (.value [7]) =
      (s.kv.evictLast stringCodec).insert (keyOf n) (.value [7]) := by
    rw [KVStore.setLocked, hnone]
    simp only
    rw [if_pos hfull]
  constructor
  · show (s.kv.setLocked stringCodec (keyOf n) (.value [7])).find (keyOf 0) = none
    rw [hset, KVStore.find_insert, if_neg (keyOf_ne hpos hn.le), KVStore.evictLast, hlast]
    exact AList.lookup_erase _ _
  · have hdb : ∀ entries i, (saveEach stringCodec allFail i entries s.db).1 = s.db := by
      intro entries
      induction entries with
      | nil => intro i; rfl
      | cons e entries ih => intro i; exact ih (i + 1)
    exact (hdb _ 0).trans h.table

/-- The first key of a full cache is evicted and its write fails; the next read of it does
not look at the pending evictions. -/
theorem stale_read {n : Nat} (hn : n + 1 = MAX_SIZE) :
    ¬ CorrectRun stringCodec (State.new fun _ => none) (History.new stringCodec fun _ => none)
      (fill (n + 1) ++ [.set (keyOf (n + 1)) [7] allFail, .get (keyOf 0) allOk]) := by
  intro h
  obtain ⟨_, _, _, hanswer, _⟩ := CorrectRun.tail _ _ h
  have hget := hanswer.get (keyOf 0) allOk rfl
  obtain ⟨hfind, hdb⟩ := (filled_fill hn.le).failed_eviction hn (Nat.succ_pos n)
  rw [State.get, hfind] at hget
  simp only [load, hdb, Option.bind_none] at hget
  have hlast := (History.last_add ((fill (n + 1)).foldl record (History.new stringCodec fun _ => none))
    (keyOf (n + 1)) (keyOf 0) (some [7])).trans (if_neg (keyOf_ne (Nat.succ_pos n) hn.le))
  rw [last_fill n] at hlast
  rw [record, hlast] at hget
  cases hget

theorem not_correctRun_failed_eviction :
    ¬ CorrectRun stringCodec (State.new fun _ => none) (History.new stringCodec fun _ => none)
      (fill 1000000 ++ [.set (keyOf 1000000) [7] allFail, .get (keyOf 0) allOk]) :=
  stale_read (n := 999999) rfl

end ForgottenServer.Kv
