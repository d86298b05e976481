import ForgottenServer.Kv.Calls

/-! # The store with several threads

A call of the store is a sequence of critical sections and of single statements of the table. Between two of them other
threads run. `flush` reads the store in one section and clears it in another one, and what is evicted is in the hands of
a thread, in neither the store nor the table, until it is written. -/

namespace ForgottenServer.Kv

open Runs

/-- What a thread does next. -/
inductive Task (V : Type) where
  | idle
  /-- `set`: the section in which the value is cached. -/
  | set (key : Key) (value : Cell V)
  /-- `processEvictions`: the pending evictions are taken. -/
  | takeEvictions
  | evict (evictions : List (Key × Cell V))
  | putBack (key : Key) (value : Cell V) (evictions : List (Key × Cell V))
  /-- `flush`: the snapshot is taken. -/
  | snapshot
  | save (unsaved : List (Key × Cell V)) (allSaved : Bool)
  /-- `get`: the section in which the key is looked up. -/
  | lookup (key : Key) (forceLoad : Bool)
  | query (key : Key)
  | cache (key : Key) (v : V)

/-- The store, the table and the threads. -/
structure Threads (V R : Type) where
  kv : KVStore V := {}
  db : Database R
  tasks : Nat → Task V := fun _ => .idle

variable {V R : Type}

namespace Threads

def goOn (s : Threads V R) (i : Nat) (task : Task V) : Threads V R :=
  { s with tasks := Function.update s.tasks i task }

/-- The entry that a lookup finds. -/
def hit (s : Threads V R) (key : Key) (forceLoad : Bool) : Option (StoreEntry V) :=
  if forceLoad then none else s.kv.find key

variable (codec : Codec V R)

/-- One section or one statement of a thread. `ok` is the outcome of a write. -/
def step (s : Threads V R) (i : Nat) (ok : Bool) : Threads V R :=
  match s.tasks i with
  | .idle => s
  | .set key value => { s with kv := s.kv.setLocked codec key value }.goOn i .takeEvictions
  | .takeEvictions => { s with kv := { s.kv with pendingEvictions := [] } }.goOn i (.evict s.kv.pendingEvictions)
  | .evict [] => s.goOn i .idle
  | .evict ((key, value) :: evictions) =>
    if ok then { s with db := write codec s.db key value }.goOn i (.evict evictions)
    else s.goOn i (.putBack key value evictions)
  | .putBack key value evictions =>
    { s with kv := { s.kv with pendingEvictions := s.kv.pendingEvictions ++ [(key, value)] } }.goOn i (.evict evictions)
  | .snapshot => s.goOn i (.save (s.kv.getStore ++ s.kv.pendingEvictions) true)
  | .save [] allSaved =>
    if allSaved then { s with kv := { s.kv with store := ∅, pendingEvictions := [] } }.goOn i .idle else s.goOn i .idle
  | .save ((key, value) :: unsaved) allSaved =>
    if ok then { s with db := write codec s.db key value }.goOn i (.save unsaved allSaved)
    else s.goOn i (.save unsaved false)
  | .lookup key forceLoad =>
    match s.hit key forceLoad with
    | some e =>
      let splice := if e.value.isDeleted then KVStore.spliceBack else KVStore.spliceFront
      { s with kv := { s.kv with lruQueue := splice s.kv.lruQueue e.node } }.goOn i .idle
    | none => s.goOn i (.query key)
  | .query key =>
    match load codec s.db key with
    | none => s.goOn i .idle
    | some v => s.goOn i (.cache key v)
  | .cache key v =>
    let kv := if (s.kv.find key).isSome then s.kv else s.kv.setLocked codec key (.value v)
    { s with kv }.goOn i .takeEvictions

/-- What a `get` answers in this step. -/
def answer (s : Threads V R) (i : Nat) : Option (Key × Option V) :=
  match s.tasks i with
  | .lookup key forceLoad => (s.hit key forceLoad).map fun e => (key, e.value.get)
  | .query key => some (key, load codec s.db key)
  | _ => none

/-- `saveAll` while no other thread runs, all of whose writes succeed. -/
def saveAll (s : Threads V R) : Threads V R :=
  let saved := (State.saveAll codec ⟨s.kv, s.db⟩ (fun _ => true) ⟨true, fun _ => true, true⟩).2
  { s with kv := saved.kv, db := saved.db }

end Threads

/-- The calls of a thread. -/
inductive ThreadCall (V : Type) where
  | set (key : Key) (v : V)
  | remove (key : Key)
  | get (key : Key) (forceLoad : Bool)
  | processEvictions
  | flush

def ThreadCall.task : ThreadCall V → Task V
  | set key v => .set key (.value v)
  | remove key => .set key .deleted
  | get key forceLoad => .lookup key forceLoad
  | processEvictions => .takeEvictions
  | flush => .snapshot

/-- A thread begins a call, when it has ended the one before, or takes a step. -/
inductive Move (V : Type) where
  | begin (i : Nat) (call : ThreadCall V)
  | step (i : Nat) (ok : Bool)
  | saveAll

/-- A run so far: what was last written to each key, and since a thread has looked up a key. -/
structure Watched (V R : Type) where
  state : Threads V R
  last : Key → Option V
  since : Nat → Set (Key × Option V)

namespace Watched

variable (codec : Codec V R)

/-- A value is written to a key. -/
def wrote (w : Watched V R) (key : Key) (written : Option V) : Watched V R :=
  { w with last := Function.update w.last key written, since := fun i => insert (key, written) (w.since i) }

def watch (w : Watched V R) (i : Nat) : Watched V R :=
  match w.state.tasks i with
  | .set key value => w.wrote key value.get
  | .lookup _ _ => { w with since := Function.update w.since i { p | p.2 = w.last p.1 } }
  | _ => w

def move (w : Watched V R) : Move V → Watched V R
  | .begin i call => match w.state.tasks i with
    | .idle => { w with state := w.state.goOn i call.task }
    | _ => w
  | .step i ok => { w.watch i with state := w.state.step codec i ok }
  | .saveAll => { w with state := w.state.saveAll codec }

/-- A `get` answers with a value that was the last one of the key in a moment since its lookup, and after a `saveAll`
the table has the last value of every key. -/
def Right (w : Watched V R) : Move V → Prop
  | .begin _ _ => True
  | .step i _ => ∀ key v, w.state.answer codec i = some (key, v) → (key, v) ∈ (w.watch i).since i
  | .saveAll => ∀ key, load codec (w.state.saveAll codec).db key = w.last key

end Watched

/-! ## When a step is safe -/

/-- The entries that only the thread has. -/
def Task.held : Task V → List (Key × Cell V)
  | .evict evictions => evictions
  | .putBack key value evictions => (key, value) :: evictions
  | _ => []

/-- A thread has the value of a key in its hands. -/
def Threads.InHand (s : Threads V R) (key : Key) (v : Option V) : Prop := ∃ j, v ∈ entriesOf (s.tasks j).held key

/-- An evicted value that is not written yet. -/
def Threads.Holds (s : Threads V R) (key : Key) (v : Option V) : Prop :=
  v ∈ entriesOf s.kv.pendingEvictions key ∨ s.InHand key v

namespace Watched

variable (codec : Codec V R) (w : Watched V R)

/-- The row has the value that is cached, or else every one that is evicted and not written. -/
def Settled (key : Key) : Prop :=
  (∀ e, w.state.kv.find key = some e → load codec w.state.db key = e.value.get) ∧
    (w.state.kv.find key = none → ∀ v, w.state.Holds key v → load codec w.state.db key = v)

/-- A value is not written over a newer one that is nowhere else, nor over the row that a thread is about to read when
it is older than what the thread has looked for. `rest` is the state without the entry. -/
def Timely (rest : Threads V R) (key : Key) (value : Cell V) : Prop :=
  (w.state.kv.find key = none → value.get = w.last key ∨ rest.Holds key (w.last key)) ∧
    ∀ j, w.state.tasks j = .query key → (key, value.get) ∈ w.since j

/-- What `flush` drops is in the table or in the hands of a thread. -/
def Saved (key : Key) : Prop :=
  (w.state.kv.find key).isSome ∨ w.state.kv.IsPending key →
    load codec w.state.db key = w.last key ∨ w.state.InHand key (w.last key)

/-- The steps after which no update is lost. -/
def Allowed : Move V → Prop
  | .begin _ _ => True
  | .step i ok => match w.state.tasks i with
    | .set key value => codec.Survives value ∧ w.state.kv.Admits key
    | .evict ((key, value) :: evictions) => ok = true → w.Timely (w.state.goOn i (.evict evictions)) key value
    | .save [] true => ∀ key, w.Saved codec key
    | .save ((key, value) :: _) _ => ok = true → w.Timely w.state key value
    | .lookup key forceLoad => w.state.hit key forceLoad = none → w.Settled codec key
    | .cache key v => w.state.kv.find key = none → some v = w.last key ∧ w.state.kv.Admits key
    | _ => True
  | .saveAll => (∀ j, w.state.tasks j = .idle) ∧ ∀ key, w.state.kv.find key = none →
      ∀ v ∈ (entriesOf w.state.kv.pendingEvictions key).getLast?, v = w.last key

end Watched

/-! ## One step -/

/-- The entries that a thread may write. -/
def Task.entries : Task V → List (Key × Cell V)
  | .save unsaved _ => unsaved
  | task => task.held

/-- The cached value of a key is the last one, and that of a key which is not cached is in the table or evicted. -/
structure Watched.Inv (codec : Codec V R) (w : Watched V R) : Prop where
  cached : ∀ key e, w.state.kv.find key = some e → e.value.get = w.last key
  stored : ∀ key, w.state.kv.find key = none →
    load codec w.state.db key = w.last key ∨ w.state.Holds key (w.last key)
  survives : w.state.kv.Survives codec
  entries : ∀ j, ∀ e ∈ (w.state.tasks j).entries, codec.Survives e.2
  loaded : ∀ j key v, w.state.tasks j = .cache key v → codec.Survives (.value v)
  queries : ∀ j key, w.state.tasks j = .query key → (key, load codec w.state.db key) ∈ w.since j

section SetLocked

variable {codec : Codec V R} {kv : KVStore V}

theorem find_setLocked_self (key : Key) (c : Cell V) : ∃ node, (kv.setLocked codec key c).find key = some ⟨c, node⟩ := by
  rw [KVStore.setLocked]
  split
  · exact ⟨_, AList.lookup_insert _⟩
  · split
    · exact ⟨_, (KVStore.find_insert _ _ _ _).trans (if_pos rfl)⟩
    · exact ⟨_, (KVStore.find_insert _ _ _ _).trans (if_pos rfl)⟩

theorem find_of_find_setLocked {key k : Key} {c : Cell V} {e : StoreEntry V} (hk : k ≠ key)
    (h : (kv.setLocked codec key c).find k = some e) : kv.find k = some e := by
  rw [KVStore.setLocked] at h
  split at h
  · rwa [KVStore.find, AList.lookup_insert_ne hk] at h
  · split at h
    · rw [KVStore.find_insert, if_neg hk] at h
      exact KVStore.find_of_find_evictLast h
    · rwa [KVStore.find_insert, if_neg hk] at h

/-- A key that is not cached afterwards has the evicted copies it had before, and the cached one if it was driven out. -/
theorem entriesOf_setLocked {key k : Key} {c : Cell V} (hadm : kv.Admits key)
    (hnone : (kv.setLocked codec key c).find k = none) :
    entriesOf (kv.setLocked codec key c).pendingEvictions k = entriesOf kv.pendingEvictions k ++ kv.cachedOf k := by
  have hk : k ≠ key := by
    rintro rfl
    obtain ⟨node, hself⟩ := @find_setLocked_self _ _ codec kv k c
    rw [hself] at hnone
    cases hnone
  have hcopies := @KVStore.copies_setLocked _ _ codec kv key c hadm k
  rw [if_neg hk, KVStore.copies, KVStore.cachedOf_eq_nil hnone, List.append_nil] at hcopies
  exact hcopies

end SetLocked

namespace Threads

variable {s : Threads V R} {i : Nat} {task : Task V}

@[simp] theorem tasks_goOn_self : (s.goOn i task).tasks i = task := Function.update_self ..

theorem tasks_goOn_of_ne {j : Nat} (h : j ≠ i) : (s.goOn i task).tasks j = s.tasks j := Function.update_of_ne h ..

/-- A value that no thread loses is still held. -/
theorem Holds.goOn {key : Key} {v : Option V} (h : s.Holds key v)
    (hheld : v ∈ entriesOf (s.tasks i).held key → v ∈ entriesOf task.held key) : (s.goOn i task).Holds key v := by
  rcases h with h | ⟨j, h⟩
  · exact .inl h
  · by_cases hj : j = i
    · subst hj
      exact .inr ⟨j, by rw [tasks_goOn_self]; exact hheld h⟩
    · exact .inr ⟨j, by rw [tasks_goOn_of_ne hj]; exact h⟩

theorem holds_goOn_self {key : Key} {v : Option V} (h : v ∈ entriesOf task.held key) : (s.goOn i task).Holds key v :=
  .inr ⟨i, by rw [tasks_goOn_self]; exact h⟩

end Threads

namespace Watched

variable {codec : Codec V R} {w : Watched V R} {i : Nat}

/-- The threads after a step of one of them. -/
theorem Inv.goOn (h : Inv codec w) {kv : KVStore V} {db : Database R} {last : Key → Option V}
    {since : Nat → Set (Key × Option V)} {task : Task V}
    (hcached : ∀ key e, kv.find key = some e → e.value.get = last key)
    (hstored : ∀ key, kv.find key = none → load codec db key = last key ∨
      (Threads.goOn { w.state with kv, db } i task).Holds key (last key))
    (hsurvives : kv.Survives codec) (hentries : ∀ e ∈ task.entries, codec.Survives e.2)
    (hloaded : ∀ key v, task = .cache key v → codec.Survives (.value v))
    (hquery : ∀ key, task = .query key → (key, load codec db key) ∈ since i)
    (hothers : ∀ j ≠ i, ∀ key, w.state.tasks j = .query key → (key, load codec db key) ∈ since j) :
    Inv codec ⟨Threads.goOn { w.state with kv, db } i task, last, since⟩ where
  cached := hcached
  stored := hstored
  survives := hsurvives
  entries := by
    intro j e he
    change e ∈ ((Threads.goOn _ i task).tasks j).entries at he
    by_cases hj : j = i
    · subst hj
      rw [Threads.tasks_goOn_self] at he
      exact hentries e he
    · rw [Threads.tasks_goOn_of_ne hj] at he
      exact h.entries j e he
  loaded := by
    intro j key v hj
    change (Threads.goOn _ i task).tasks j = _ at hj
    by_cases hji : j = i
    · subst hji
      rw [Threads.tasks_goOn_self] at hj
      exact hloaded key v hj
    · rw [Threads.tasks_goOn_of_ne hji] at hj
      exact h.loaded j key v hj
  queries := by
    intro j key hj
    change (Threads.goOn _ i task).tasks j = _ at hj
    by_cases hji : j = i
    · subst hji
      rw [Threads.tasks_goOn_self] at hj
      exact hquery key hj
    · rw [Threads.tasks_goOn_of_ne hji] at hj
      exact hothers j hji key hj

/-- A thread that loses none of its entries. -/
theorem Inv.skip (h : Inv codec w) {task : Task V}
    (hheld : ∀ key v, v ∈ entriesOf (w.state.tasks i).held key → v ∈ entriesOf task.held key)
    (hentries : ∀ e ∈ task.entries, codec.Survives e.2)
    (hloaded : ∀ key v, task = .cache key v → codec.Survives (.value v)) (hquery : ∀ key, task ≠ .query key) :
    Inv codec { w with state := w.state.goOn i task } :=
  h.goOn h.cached (fun key hnone => (h.stored key hnone).imp id fun hholds => hholds.goOn (hheld key _)) h.survives
    hentries hloaded (fun key heq => absurd heq (hquery key)) fun j _ => h.queries j

/-- A value is cached as the last one of its key. -/
theorem Inv.setLocked (h : Inv codec w) {key : Key} {c : Cell V} {since : Nat → Set (Key × Option V)}
    (hc : codec.Survives c) (hadm : w.state.kv.Admits key) (htask : (w.state.tasks i).held = [])
    (hsince : ∀ j, w.since j ⊆ since j) :
    Inv codec ⟨Threads.goOn { w.state with kv := w.state.kv.setLocked codec key c } i .takeEvictions,
      Function.update w.last key c.get, since⟩ := by
  refine h.goOn ?_ ?_ (h.survives.setLocked hc hadm) (fun e he => absurd he List.not_mem_nil)
    (fun _ _ heq => (by cases heq)) (fun _ heq => (by cases heq)) fun j _ k hj => hsince j (h.queries j k hj)
  · intro k e he
    by_cases hk : k = key
    · subst hk
      obtain ⟨node, hself⟩ := @find_setLocked_self _ _ codec w.state.kv k c
      rw [hself] at he
      cases he
      rw [Function.update_self]
    · rw [Function.update_of_ne hk]
      exact h.cached k e (find_of_find_setLocked hk he)
  · intro k hnone
    have hk : k ≠ key := by
      rintro rfl
      obtain ⟨node, hself⟩ := @find_setLocked_self _ _ codec w.state.kv k c
      rw [hself] at hnone
      cases hnone
    rw [Function.update_of_ne hk]
    have hentries := entriesOf_setLocked hadm hnone
    cases hfind : w.state.kv.find k with
    | some e =>
      refine .inr (.inl ?_)
      show _ ∈ entriesOf (w.state.kv.setLocked codec key c).pendingEvictions k
      rw [hentries, KVStore.cachedOf, hfind]
      exact List.mem_append_right _ (List.mem_singleton.mpr (h.cached k e hfind).symm)
    | none =>
      rcases h.stored k hfind with hload | hpending | ⟨j, hj⟩
      · exact .inl hload
      · refine .inr (.inl ?_)
        show _ ∈ entriesOf (w.state.kv.setLocked codec key c).pendingEvictions k
        rw [hentries]
        exact List.mem_append_left _ hpending
      · refine .inr (.inr ⟨j, ?_⟩)
        have hji : j ≠ i := by
          rintro rfl
          rw [htask] at hj
          exact absurd hj List.not_mem_nil
        rw [Threads.tasks_goOn_of_ne hji]
        exact hj

/-- A timely write. -/
theorem Inv.write (h : Inv codec w) {key : Key} {value : Cell V} {task : Task V}
    (hvalue : codec.Survives value) (htimely : w.Timely (w.state.goOn i task) key value)
    (hheld : ∀ k ≠ key, ∀ v, v ∈ entriesOf (w.state.tasks i).held k → v ∈ entriesOf task.held k)
    (hentries : ∀ e ∈ task.entries, codec.Survives e.2)
    (hloaded : ∀ key v, task = .cache key v → codec.Survives (.value v)) (hquery : ∀ key, task ≠ .query key) :
    Inv codec { w with state := Threads.goOn { w.state with db := Kv.write codec w.state.db key value } i task } := by
  refine h.goOn h.cached ?_ h.survives hentries hloaded (fun k heq => absurd heq (hquery k)) ?_
  · intro k hnone
    rw [load_write hvalue]
    by_cases hk : k = key
    · subst hk
      rw [if_pos rfl]
      exact htimely.1 hnone
    · rw [if_neg hk]
      exact (h.stored k hnone).imp id fun hholds => hholds.goOn (hheld k hk _)
  · intro j _ k hj
    rw [load_write hvalue]
    by_cases hk : k = key
    · subst hk
      rw [if_pos rfl]
      exact htimely.2 j hj
    · rw [if_neg hk]
      exact h.queries j k hj

/-- A `get` that does not find its key goes to the table. -/
theorem Inv.lookup (h : Inv codec w) {key : Key} (hsettled : w.Settled codec key)
    (htask : (w.state.tasks i).held = []) :
    Inv codec { w with
      state := w.state.goOn i (.query key), since := Function.update w.since i { p | p.2 = w.last p.1 } } := by
  have hload : load codec w.state.db key = w.last key := by
    cases hfind : w.state.kv.find key with
    | some e => exact (hsettled.1 e hfind).trans (h.cached key e hfind)
    | none =>
      rcases h.stored key hfind with hload | hholds
      · exact hload
      · exact hsettled.2 hfind _ hholds
  have hheld (k : Key) (v : Option V) (hv : v ∈ entriesOf (w.state.tasks i).held k) :
      v ∈ entriesOf (Task.query key : Task V).held k := by
    rw [htask] at hv
    exact hv
  refine h.goOn h.cached (fun k hnone => (h.stored k hnone).imp id fun hholds => hholds.goOn (hheld k _)) h.survives
    (fun e he => absurd he List.not_mem_nil) (fun _ _ heq => (by cases heq)) (fun k heq => ?_) fun j hji k hj => ?_
  · cases heq
    rw [Function.update_self]
    exact hload
  · rw [Function.update_of_ne hji]
    exact h.queries j k hj

/-- `flush` drops what it has saved. -/
theorem Inv.clear (h : Inv codec w) (hsaved : ∀ key, w.Saved codec key) (htask : (w.state.tasks i).held = []) :
    Inv codec { w with
      state := Threads.goOn { w.state with kv := { w.state.kv with store := ∅, pendingEvictions := [] } } i .idle } := by
  refine h.goOn (fun key e he => (by cases he)) (fun key _ => ?_) (fun key v hv => absurd hv List.not_mem_nil)
    (fun e he => absurd he List.not_mem_nil) (fun _ _ heq => (by cases heq)) (fun _ heq => (by cases heq))
    fun j _ => h.queries j
  have hhand (hhand : w.state.InHand key (w.last key)) : (Threads.goOn
      { w.state with kv := { w.state.kv with store := ∅, pendingEvictions := [] } } i .idle).Holds key (w.last key) := by
    obtain ⟨j, hj⟩ := hhand
    refine .inr ⟨j, ?_⟩
    have hji : j ≠ i := by
      rintro rfl
      rw [htask] at hj
      exact absurd hj List.not_mem_nil
    rw [Threads.tasks_goOn_of_ne hji]
    exact hj
  by_cases hfind : w.state.kv.find key = none
  · rcases h.stored key hfind with hload | hpending | hheld
    · exact .inl hload
    · obtain ⟨p, hp, -⟩ := List.mem_map.mp hpending
      obtain ⟨hp, hkey⟩ := List.mem_filter.mp hp
      exact (hsaved key (.inr ⟨p, hp, of_decide_eq_true hkey⟩)).imp id hhand
    · exact .inr (hhand hheld)
  · exact (hsaved key (.inl (Option.isSome_iff_ne_none.mpr hfind))).imp id hhand

/-- The pending evictions go from the store to a thread. -/
theorem Inv.takeEvictions (h : Inv codec w) (htask : (w.state.tasks i).held = []) :
    Inv codec ⟨Threads.goOn { w.state with kv := { w.state.kv with pendingEvictions := [] } } i
      (.evict w.state.kv.pendingEvictions), w.last, w.since⟩ := by
  refine h.goOn h.cached (fun key hnone => (h.stored key hnone).imp id fun hholds => ?_) (fun key v hv => ?_)
    (fun e he => h.survives.pending he) (fun _ _ heq => (by cases heq)) (fun _ heq => (by cases heq))
    fun j _ => h.queries j
  · rcases hholds with hpending | ⟨j, hj⟩
    · exact Threads.holds_goOn_self hpending
    · have hji : j ≠ i := by
        rintro rfl
        rw [htask] at hj
        exact absurd hj List.not_mem_nil
      refine .inr ⟨j, ?_⟩
      rw [Threads.tasks_goOn_of_ne hji]
      exact hj
  · exact h.survives key v (List.mem_append_right _ hv)

/-- An entry that was not written is pending again. -/
theorem Inv.putBack (h : Inv codec w) {key : Key} {value : Cell V} {evictions : List (Key × Cell V)}
    (htask : w.state.tasks i = .putBack key value evictions) :
    Inv codec ⟨Threads.goOn { w.state with kv := { w.state.kv with
      pendingEvictions := w.state.kv.pendingEvictions ++ [(key, value)] } } i (.evict evictions), w.last, w.since⟩ := by
  have hentries := h.entries i
  rw [htask] at hentries
  refine h.goOn h.cached (fun k hnone => (h.stored k hnone).imp id fun hholds => ?_) (fun k v hv => ?_)
    (fun e he => hentries e (List.mem_cons_of_mem _ he)) (fun _ _ heq => (by cases heq)) (fun _ heq => (by cases heq))
    fun j _ => h.queries j
  · rcases hholds with hpending | ⟨j, hj⟩
    · refine .inl ?_
      show _ ∈ entriesOf (w.state.kv.pendingEvictions ++ [(key, value)]) k
      rw [entriesOf_append]
      exact List.mem_append_left _ hpending
    · by_cases hji : j = i
      · subst hji
        rw [htask] at hj
        change _ ∈ entriesOf ([(key, value)] ++ evictions) k at hj
        rw [entriesOf_append] at hj
        rcases List.mem_append.mp hj with hj | hj
        · refine .inl ?_
          show _ ∈ entriesOf (w.state.kv.pendingEvictions ++ [(key, value)]) k
          rw [entriesOf_append]
          exact List.mem_append_right _ hj
        · exact Threads.holds_goOn_self hj
      · refine .inr ⟨j, ?_⟩
        rw [Threads.tasks_goOn_of_ne hji]
        exact hj
  · change some v ∈ entriesOf (w.state.kv.pendingEvictions ++ [(key, value)]) k ++ w.state.kv.cachedOf k at hv
    rw [entriesOf_append, List.append_assoc] at hv
    rcases List.mem_append.mp hv with hv | hv
    · exact h.survives k v (List.mem_append_left _ hv)
    · rcases List.mem_append.mp hv with hv | hv
      · obtain ⟨p, hp, hget⟩ := List.mem_map.mp hv
        obtain rfl := List.mem_singleton.mp (List.mem_filter.mp hp).1
        have hvalue := hentries (key, value) List.mem_cons_self
        intro v' hv'
        cases hv'
        cases value with
        | deleted => cases hget
        | value v'' =>
          cases hget
          exact hvalue v rfl
      · exact h.survives k v (List.mem_append_right _ hv)

/-- A `saveAll` while no thread runs leaves the last value of every key in the table. -/
theorem Inv.saveAll (h : Inv codec w) (ha : w.Allowed codec .saveAll) :
    Inv codec { w with state := w.state.saveAll codec } ∧ w.Right codec .saveAll := by
  obtain ⟨hidle, hpending⟩ := ha
  have hall : ∀ i, (fun _ => true : Nat → Bool) i = true := fun _ => rfl
  have hok (entries : List (Key × Cell V)) (db : Database R) :
      (saveEach codec (fun _ => true) 0 entries db).2 = [] := saveEach_failed_eq_nil (fun _ => rfl) entries 0 db
  have hsave : w.state.saveAll codec = { w.state with
      kv := { w.state.kv with pendingEvictions := [] }
      db := (saveEach codec (fun _ => true) 0 w.state.kv.getStore
        (saveEach codec (fun _ => true) 0 w.state.kv.pendingEvictions w.state.db).1).1 } := by
    simp only [Threads.saveAll, State.saveAll, State.processEvictions, hok, List.isEmpty_nil, Bool.not_true,
      Bool.or_self, Bool.false_eq_true, if_false, prepareEach_all hall, if_true]
    rfl
  have hload (key : Key) : load codec (w.state.saveAll codec).db key = w.last key := by
    obtain ⟨old, hold⟩ := saveEach_inTurn key w.state.kv.pendingEvictions 0 w.state.db
      (inTurn_of_all (fun _ => rfl) _ _) fun e he => h.survives.pending he
    obtain ⟨old', hold'⟩ := saveEach_inTurn key w.state.kv.getStore 0
      (saveEach codec (fun _ => true) 0 w.state.kv.pendingEvictions w.state.db).1
      (inTurn_of_all (fun _ => rfl) _ _) fun e he => h.survives.getStore he
    rw [hok, entriesOf_nil] at hold hold'
    rw [entriesOf_getStore] at hold'
    rw [hsave]
    show load codec (saveEach codec (fun _ => true) 0 w.state.kv.getStore _).1 key = w.last key
    have hlast := congrArg List.getLast? hold'
    rw [List.getLast?_concat] at hlast
    cases hfind : w.state.kv.find key with
    | some e =>
      rw [KVStore.cachedOf, hfind] at hlast
      exact (Option.some.inj hlast).symm.trans (h.cached key e hfind)
    | none =>
      rw [KVStore.cachedOf_eq_nil hfind] at hlast
      refine (Option.some.inj hlast).symm.trans ?_
      -- the row that the evictions leave
      have hlast := congrArg List.getLast? hold
      rw [List.getLast?_concat] at hlast
      cases hentries : (entriesOf w.state.kv.pendingEvictions key).getLast? with
      | some v =>
        rw [List.getLast?_cons, hentries] at hlast
        exact (Option.some.inj hlast).symm.trans (hpending key hfind v hentries)
      | none =>
        rw [List.getLast?_cons, hentries] at hlast
        refine (Option.some.inj hlast).symm.trans ?_
        rcases h.stored key hfind with hstored | hholds | ⟨j, hj⟩
        · exact hstored
        · rw [List.getLast?_eq_none_iff.mp hentries] at hholds
          exact absurd hholds List.not_mem_nil
        · rw [hidle j] at hj
          exact absurd hj List.not_mem_nil
  refine ⟨⟨?_, fun key _ => .inl (hload key), ?_, ?_, ?_, ?_⟩, hload⟩
  · rw [hsave]
    exact h.cached
  · rw [hsave]
    exact fun key v hv => h.survives key v (List.mem_append_right _ hv)
  · rw [hsave]
    exact h.entries
  · rw [hsave]
    exact h.loaded
  · intro j key hj
    rw [hsave] at hj
    change w.state.tasks j = _ at hj
    rw [hidle j] at hj
    cases hj

theorem Inv.begin (h : Inv codec w) (i : Nat) (call : ThreadCall V) : Inv codec (w.move codec (.begin i call)) := by
  rw [move]
  split
  · rename_i htask
    refine h.skip (fun key v hv => ?_) ?_ ?_ ?_
    · rw [htask] at hv
      exact absurd hv List.not_mem_nil
    · cases call <;> exact fun e he => absurd he List.not_mem_nil
    · cases call <;> exact fun _ _ heq => (by cases heq)
    · cases call <;> exact fun _ heq => (by cases heq)
  · exact h

/-- A thread that holds nothing goes on to a task that is neither to look up nor to cache. -/
theorem Inv.skipEmpty (h : Inv codec w) (hheld : (w.state.tasks i).held = []) {task : Task V}
    (hentries : ∀ e ∈ task.entries, codec.Survives e.2)
    (hloaded : ∀ key v, task = .cache key v → codec.Survives (.value v)) (hquery : ∀ key, task ≠ .query key) :
    Inv codec { w with state := w.state.goOn i task } := by
  refine h.skip (fun key v hv => ?_) hentries hloaded hquery
  rw [hheld] at hv
  exact absurd hv List.not_mem_nil

section Steps

variable (h : Inv codec w) {ok : Bool} (ha : w.Allowed codec (.step i ok))

include h ha

theorem Inv.stepEvict {evictions : List (Key × Cell V)} (htask : w.state.tasks i = .evict evictions) :
    Inv codec { w with state := w.state.step codec i ok } := by
  have hentries := h.entries i
  unfold Allowed at ha
  unfold Threads.step
  rw [htask] at hentries
  cases evictions with
  | nil =>
    rw [htask]
    exact h.skipEmpty (by rw [htask]; rfl) (fun e he => absurd he List.not_mem_nil) (fun _ _ heq => (by cases heq))
      fun _ heq => (by cases heq)
  | cons e evictions =>
    obtain ⟨key, value⟩ := e
    simp only [htask] at ha ⊢
    cases ok with
    | true =>
      refine h.write (hentries _ List.mem_cons_self) (ha rfl) (fun k hk v hv => ?_)
        (fun e he => hentries e (List.mem_cons_of_mem _ he)) (fun _ _ heq => (by cases heq))
        fun _ heq => (by cases heq)
      rw [htask] at hv
      change v ∈ entriesOf ((key, value) :: evictions) k at hv
      rw [entriesOf_cons, if_neg (Ne.symm hk)] at hv
      exact hv
    | false =>
      refine h.skip (fun k v hv => ?_) hentries (fun _ _ heq => (by cases heq)) fun _ heq => (by cases heq)
      rw [htask] at hv
      exact hv

theorem Inv.stepSave {unsaved : List (Key × Cell V)} {allSaved : Bool}
    (htask : w.state.tasks i = .save unsaved allSaved) : Inv codec { w with state := w.state.step codec i ok } := by
  have hentries := h.entries i
  have hheld : (w.state.tasks i).held = [] := by rw [htask]; rfl
  unfold Allowed at ha
  unfold Threads.step
  rw [htask] at hentries
  cases unsaved with
  | nil =>
    simp only [htask] at ha ⊢
    cases allSaved with
    | true => exact h.clear ha hheld
    | false =>
      exact h.skipEmpty hheld (fun e he => absurd he List.not_mem_nil) (fun _ _ heq => (by cases heq))
        fun _ heq => (by cases heq)
  | cons e unsaved =>
    obtain ⟨key, value⟩ := e
    simp only [htask] at ha ⊢
    have hrest : ∀ e ∈ unsaved, codec.Survives e.2 := fun e he => hentries e (List.mem_cons_of_mem _ he)
    cases ok with
    | true =>
      have htimely : w.Timely (w.state.goOn i (.save unsaved allSaved)) key value := by
        obtain ⟨hnewer, hreaders⟩ := ha rfl
        refine ⟨fun hnone => (hnewer hnone).imp id fun hholds => hholds.goOn fun hv => ?_, hreaders⟩
        rw [htask] at hv
        exact hv
      refine h.write (hentries _ List.mem_cons_self) htimely (fun k hk v hv => ?_) hrest
        (fun _ _ heq => (by cases heq)) fun _ heq => (by cases heq)
      rw [htask] at hv
      exact hv
    | false => exact h.skipEmpty hheld hrest (fun _ _ heq => (by cases heq)) fun _ heq => (by cases heq)

/-- A `get` that finds its value in the cache answers with it. -/
theorem Inv.stepLookup {key : Key} {forceLoad : Bool} (htask : w.state.tasks i = .lookup key forceLoad) :
    Inv codec (w.move codec (.step i ok)) ∧ w.Right codec (.step i ok) := by
  unfold Allowed at ha
  change Inv codec { w.watch i with state := w.state.step codec i ok } ∧
    ∀ key v, w.state.answer codec i = some (key, v) → (key, v) ∈ (w.watch i).since i
  unfold watch Threads.step Threads.answer
  simp only [htask] at ha ⊢
  cases hhit : w.state.hit key forceLoad with
  | some e =>
    have hfind : w.state.kv.find key = some e := by
      rw [Threads.hit] at hhit
      split at hhit
      · cases hhit
      · exact hhit
    constructor
    · have hheld {k : Key} {v : Option V} (hv : v ∈ entriesOf (w.state.tasks i).held k) :
          v ∈ entriesOf (Task.held (.idle : Task V)) k := by
        rw [htask] at hv
        exact hv
      have hothers : ∀ j ≠ i, ∀ k, w.state.tasks j = .query k → (k, load codec w.state.db k) ∈
          Function.update w.since i { p | p.2 = w.last p.1 } j := by
        intro j hj k hjk
        rw [Function.update_of_ne hj]
        exact h.queries j k hjk
      exact h.goOn h.cached (fun k hnone => (h.stored k hnone).imp id fun hholds => hholds.goOn hheld) h.survives
        (fun e he => absurd he List.not_mem_nil) (fun _ _ heq => (by cases heq)) (fun _ heq => (by cases heq)) hothers
    · intro k v hanswer
      rw [Option.map_some] at hanswer
      cases hanswer
      simp only [Function.update_self]
      exact h.cached key e hfind
  | none =>
    have hlookup := h.lookup (ha hhit) (by rw [htask]; rfl : (w.state.tasks i).held = [])
    refine ⟨hlookup, fun k v hanswer => ?_⟩
    rw [Option.map_none] at hanswer
    cases hanswer

omit ha in
theorem Inv.stepQuery (hstable : codec.Stable) {key : Key} (htask : w.state.tasks i = .query key) :
    Inv codec { w with state := w.state.step codec i ok } := by
  have hheld : (w.state.tasks i).held = [] := by rw [htask]; rfl
  unfold Threads.step
  simp only [htask]
  cases hload : load codec w.state.db key with
  | none =>
    exact h.skipEmpty hheld (fun e he => absurd he List.not_mem_nil) (fun _ _ heq => (by cases heq))
      fun _ heq => (by cases heq)
  | some v =>
    refine h.skipEmpty hheld (fun e he => absurd he List.not_mem_nil) (fun _ _ heq => ?_) fun _ heq => (by cases heq)
    cases heq
    exact load_survives hstable hload

theorem Inv.stepCache {key : Key} {v : V} (htask : w.state.tasks i = .cache key v) :
    Inv codec { w with state := w.state.step codec i ok } := by
  have hheld : (w.state.tasks i).held = [] := by rw [htask]; rfl
  unfold Allowed at ha
  unfold Threads.step
  simp only [htask] at ha ⊢
  cases hfind : w.state.kv.find key with
  | some e =>
    exact h.skipEmpty hheld (fun e he => absurd he List.not_mem_nil) (fun _ _ heq => (by cases heq))
      fun _ heq => (by cases heq)
  | none =>
    obtain ⟨hlast, hadm⟩ := ha hfind
    have hset := h.setLocked (h.loaded i key v htask) hadm hheld fun j => Set.Subset.rfl
    rw [show (Cell.value v).get = w.last key from hlast, Function.update_eq_self] at hset
    exact hset

end Steps

/-- A step without an answer is right. -/
theorem right_of_answer {ok : Bool} (h : w.state.answer codec i = none) : w.Right codec (.step i ok) := by
  intro key v hanswer
  rw [h] at hanswer
  cases hanswer

/-- A step that is not watched and has no answer needs the invariant only. -/
theorem step_of_quiet {ok : Bool} (hwatch : w.watch i = w) (hanswer : w.state.answer codec i = none)
    (h : Inv codec { w with state := w.state.step codec i ok }) :
    Inv codec (w.move codec (.step i ok)) ∧ w.Right codec (.step i ok) := by
  refine ⟨?_, right_of_answer hanswer⟩
  rw [move, hwatch]
  exact h

/-- A step that is allowed keeps the invariant, and a `get` answers rightly. -/
theorem Inv.step (hstable : codec.Stable) (h : Inv codec w) {ok : Bool} (ha : w.Allowed codec (.step i ok)) :
    Inv codec (w.move codec (.step i ok)) ∧ w.Right codec (.step i ok) := by
  cases htask : w.state.tasks i with
  | lookup key forceLoad => exact h.stepLookup ha htask
  | query key =>
    have hwatch : w.watch i = w := by rw [watch, htask]
    constructor
    · rw [move, hwatch]
      exact h.stepQuery hstable htask
    · intro k v hanswer
      rw [Threads.answer, htask] at hanswer
      cases hanswer
      rw [hwatch]
      exact h.queries i key htask
  | set key value =>
    refine ⟨?_, right_of_answer (by rw [Threads.answer, htask])⟩
    unfold Allowed at ha
    rw [move, watch, Threads.step]
    simp only [htask] at ha ⊢
    exact h.setLocked ha.1 ha.2 (by rw [htask]; rfl) fun j => Set.subset_insert _ _
  | idle =>
    refine step_of_quiet (by rw [watch, htask]) (by rw [Threads.answer, htask]) ?_
    rw [Threads.step, htask]
    exact h
  | takeEvictions =>
    refine step_of_quiet (by rw [watch, htask]) (by rw [Threads.answer, htask]) ?_
    rw [Threads.step, htask]
    exact h.takeEvictions (by rw [htask]; rfl)
  | putBack key value evictions =>
    refine step_of_quiet (by rw [watch, htask]) (by rw [Threads.answer, htask]) ?_
    rw [Threads.step, htask]
    exact h.putBack htask
  | snapshot =>
    refine step_of_quiet (by rw [watch, htask]) (by rw [Threads.answer, htask]) ?_
    rw [Threads.step, htask]
    refine h.skipEmpty (by rw [htask]; rfl) (fun e he => ?_) (fun _ _ heq => (by cases heq)) fun _ heq => (by cases heq)
    rcases List.mem_append.mp he with he | he
    · exact h.survives.getStore he
    · exact h.survives.pending he
  | evict evictions =>
    refine step_of_quiet (by rw [watch, htask]) (by rw [Threads.answer, htask]) ?_
    exact h.stepEvict ha htask
  | save unsaved allSaved =>
    refine step_of_quiet (by rw [watch, htask]) (by rw [Threads.answer, htask]) ?_
    exact h.stepSave ha htask
  | cache key v =>
    refine step_of_quiet (by rw [watch, htask]) (by rw [Threads.answer, htask]) ?_
    exact h.stepCache ha htask

theorem Inv.move (hstable : codec.Stable) (h : Inv codec w) {m : Move V} (ha : w.Allowed codec m) :
    Inv codec (w.move codec m) ∧ w.Right codec m := by
  cases m with
  | begin i call => exact ⟨h.begin i call, trivial⟩
  | step i ok => exact h.step hstable ha
  | saveAll => exact h.saveAll ha

/-! ## Runs -/

/-- A new store over any table, and no thread runs. -/
def new (codec : Codec V R) (db : Database R) : Watched V R :=
  ⟨{ db }, load codec db, fun _ => { p | p.2 = load codec db p.1 }⟩

/-- Whatever the threads do one after another: while every step is allowed, every `get` answers with a value that was
the last one of its key since it began, and every `saveAll` leaves the last value of every key in the table. -/
theorem right_of_allowed (hstable : codec.Stable) (db : Database R) (moves : List (Move V))
    (hrun : Along (move codec) (Allowed codec) (new codec db) moves) :
    Along (move codec) (Right codec) (new codec db) moves := by
  refine (Along.of_invariant (Inv codec) (fun w m h ha => h.move hstable ha) moves _ ?_ hrun).1
  refine ⟨fun key e he => (by cases he), fun key _ => .inl rfl, fun key v hv => absurd hv List.not_mem_nil,
    fun j e he => absurd he List.not_mem_nil, fun j key v hj => (by cases hj), fun j key hj => (by cases hj)⟩

/-- A thread reads what another one has just set. -/
theorem right_of_allowed_read :
    Along (move stringCodec) (Right stringCodec) (new stringCodec fun _ => none)
      [.begin 0 (.set [1] [7]), .step 0 true, .begin 1 (.get [1] false), .step 1 true, .step 0 true, .step 0 true,
        .saveAll] := by
  have hsmall : (∅ : AList fun _ : Key => StoreEntry (List UInt8)).entries.length < MAX_SIZE := by
    rw [MAX_SIZE]
    decide
  apply right_of_allowed stringCodec_stable
  refine ⟨trivial, ⟨stringCodec_survives (by decide), admits_of_lt hsmall _⟩, trivial, fun hnone => ?_, trivial,
    trivial, ⟨fun j => ?_, fun key _ v hv => ?_⟩, trivial⟩
  · cases hnone
  · rcases j with - | - | j <;> rfl
  · cases hv

/-- A value that is set after the snapshot of a `flush` and before its clear is lost. -/
theorem not_right_flush :
    ¬ Along (move stringCodec) (Right stringCodec) (new stringCodec fun _ => none)
      [.begin 0 (.set [1] [7]), .step 0 true, .step 0 true, .step 0 true, .begin 1 .flush, .step 1 true, .step 1 true,
        .begin 0 (.set [1] [8]), .step 0 true, .step 0 true, .step 0 true, .step 1 true, .begin 0 (.get [1] false),
        .step 0 true, .step 0 true] := by
  intro h
  obtain ⟨-, -, -, -, -, -, -, -, -, -, -, -, -, -, hread, -⟩ := h
  have hlast : ([1], some [7]) ∈ { p : Key × Option (List UInt8) | p.2 = some [8] } := hread [1] (some [7]) rfl
  cases hlast

end Watched

end ForgottenServer.Kv
