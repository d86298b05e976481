import ForgottenServer.Kv.Representation

/-! # The cache and its queue over whole runs

Every call in a run of the store keeps `Rep`, moves out only entries that are cached, and saves only values that were
set or found in the table, up to the first `flush` that saves everything and finds the queue not empty. -/

namespace ForgottenServer.Kv

open Runs

variable {V R : Type}

/-- `get`, with what its query finds. -/
def State.getFound (codec : Codec V R) (s : State V R) (key : Key) (forceLoad : Bool) (found : Option V)
    (ok : Nat → Bool) : Option V × State V R :=
  match if forceLoad then none else s.kv.find key with
  | some e =>
    let splice := if e.value.isDeleted then KVStore.spliceBack else KVStore.spliceFront
    (e.value.get, { s with kv := { s.kv with lruQueue := splice s.kv.lruQueue e.node } })
  | none =>
    match found with
    | none => (none, s)
    | some v =>
      let kv := if (s.kv.find key).isSome then s.kv else s.kv.setLocked codec key (.value v)
      (some v, (State.processEvictions codec { s with kv } ok).2)

theorem State.get_eq_getFound (codec : Codec V R) (s : State V R) (key : Key) (ok : Nat → Bool) :
    s.get codec key ok = s.getFound codec key false (load codec s.db key) ok := by
  unfold State.get State.getFound
  cases hfind : s.kv.find key with
  | some e => rfl
  | none => cases load codec s.db key <;> rfl

/-- A call, and a `get` with any result of its query. -/
inductive Call (V R : Type) where
  | event (e : Event V R)
  | get (key : Key) (forceLoad : Bool) (found : Option V) (ok : Nat → Bool)

/-- The store with all that was set or found in the table so far. -/
structure Traced (V R : Type) where
  state : State V R
  given : Set (Key × Cell V)

section

variable (codec : Codec V R)

/-- What a call sets or finds in the table. -/
def gives (s : State V R) : Call V R → Set (Key × Cell V)
  | .event (.set key v _) => { (key, .value v) }
  | .event (.remove key _) => { (key, .deleted) }
  | .event (.get key _) => { p | ∃ v, load codec s.db key = some v ∧ p = (key, .value v) }
  | .event (.keys _ rows) => { p | ∃ row ∈ rows, ∃ v, codec.deserialize row.2 = some v ∧ p = (row.1, .value v) }
  | .event _ => ∅
  | .get key _ found _ => { p | ∃ v, found = some v ∧ p = (key, .value v) }

def call (s : State V R) : Call V R → State V R
  | .event e => step codec s e
  | .get key forceLoad found ok => (s.getFound codec key forceLoad found ok).2

def Traced.call (t : Traced V R) (c : Call V R) : Traced V R :=
  ⟨Kv.call codec t.state c, t.given ∪ gives codec t.state c⟩

/-- The rows of `keys` drive out cached entries only. -/
def EvictsRows : KVStore V → List (Key × R) → Prop
  | _, [] => True
  | kv, row :: rows => kv.Admits row.1 ∧ EvictsRows (State.loadRow codec kv row) rows

/-- A call drives out cached entries only. -/
def EvictsCached (s : State V R) : Call V R → Prop
  | .event (.set key _ _) => s.kv.Admits key
  | .event (.remove key _) => s.kv.Admits key
  | .event (.get key _) => s.kv.Admits key
  | .event (.keys _ rows) => EvictsRows codec s.kv rows
  | .event _ => True
  | .get key _ _ _ => s.kv.Admits key

/-- The store in a state of a run that began with the table `start`. -/
structure Sound (start : Database R) (t : Traced V R) : Prop where
  rep : t.state.kv.Rep
  known : t.state.kv.Known t.given
  rows : KnownRows codec start t.given t.state.db

/-- The call moves out cached entries only and leaves the store sound. -/
def SoundCall (start : Database R) (t : Traced V R) (c : Call V R) : Prop :=
  EvictsCached codec t.state c ∧ Sound codec start (t.call codec c)

/-- A `flush` finds the queue empty, or one of its writes fails. -/
def KeepsQueue (t : Traced V R) : Call V R → Prop
  | .event (.flush ok) => t.state.kv.lruQueue = [] ∨
      ∃ i < (t.state.kv.getStore ++ t.state.kv.pendingEvictions).length, ok i = false
  | _ => True

end

/-! ## One call -/

variable {codec : Codec V R} {start : Database R} {s : State V R} {given : Set (Key × Cell V)}

namespace Sound

theorem mono (h : Sound codec start ⟨s, given⟩) {given' : Set (Key × Cell V)} (hsub : given ⊆ given') :
    Sound codec start ⟨s, given'⟩ :=
  ⟨h.rep, h.known.mono hsub, h.rows.mono hsub⟩

theorem setLocked (h : Sound codec start ⟨s, given⟩) {key : Key} {value : Cell V} (hgiven : (key, value) ∈ given) :
    Sound codec start ⟨{ s with kv := s.kv.setLocked codec key value }, given⟩ :=
  ⟨h.rep.setLocked codec key value, h.known.setLocked (h.rep.admits key) hgiven, h.rows⟩

theorem processEvictions (h : Sound codec start ⟨s, given⟩) (ok : Nat → Bool) :
    Sound codec start ⟨(s.processEvictions codec ok).2, given⟩ where
  rep := ⟨h.rep.keys, h.rep.nodes, h.rep.distinct, h.rep.fresh, h.rep.size⟩
  known := ⟨h.known.cached, fun p hp => h.known.pending p (mem_of_mem_failed _ _ _ hp)⟩
  rows := KnownRows.saveEach _ _ _ h.rows h.known.pending

theorem requeue (h : Sound codec start ⟨s, given⟩) {queue : List (Nat × Key)} (hperm : queue.Perm s.kv.lruQueue) :
    Sound codec start ⟨{ s with kv := { s.kv with lruQueue := queue } }, given⟩ :=
  ⟨h.rep.requeue hperm, ⟨h.known.cached, h.known.pending⟩, h.rows⟩

theorem getFound (h : Sound codec start ⟨s, given⟩) {key : Key} {found : Option V} (forceLoad : Bool)
    (ok : Nat → Bool) (hgiven : ∀ v, found = some v → (key, .value v) ∈ given) :
    Sound codec start ⟨(s.getFound codec key forceLoad found ok).2, given⟩ := by
  unfold State.getFound
  split
  · rename_i e _
    refine h.requeue ?_
    split
    · exact KVStore.perm_spliceBack _ _
    · exact KVStore.perm_spliceFront _ _
  · cases found with
    | none => exact h
    | some v =>
      refine Sound.processEvictions ?_ ok
      by_cases hcached : (s.kv.find key).isSome = true
      · rw [if_pos hcached]
        exact h
      · rw [if_neg hcached]
        exact h.setLocked (hgiven v rfl)

/-- The rows of `keys`, one after another. -/
theorem loadRows (rows : List (Key × R)) :
    ∀ s : State V R, Sound codec start ⟨s, given⟩ →
      (∀ row ∈ rows, ∀ v, codec.deserialize row.2 = some v → (row.1, .value v) ∈ given) →
      EvictsRows codec s.kv rows ∧
        Sound codec start ⟨{ s with kv := rows.foldl (State.loadRow codec) s.kv }, given⟩ := by
  induction rows with
  | nil => exact fun s h _ => ⟨trivial, h⟩
  | cons row rows ih =>
    intro s h hgiven
    have hrow : Sound codec start ⟨{ s with kv := State.loadRow codec s.kv row }, given⟩ := by
      rw [State.loadRow]
      split
      · exact h
      · rename_i v hv
        split
        · exact h
        · exact h.setLocked (hgiven row List.mem_cons_self v hv)
    obtain ⟨hevicts, hsound⟩ := ih _ hrow fun r hr => hgiven r (List.mem_cons_of_mem _ hr)
    exact ⟨⟨h.rep.admits row.1, hevicts⟩, hsound⟩

theorem saveAll (h : Sound codec start ⟨s, given⟩) (ok : Nat → Bool) (tx : Transaction) :
    Sound codec start ⟨(s.saveAll codec ok tx).2, given⟩ := by
  have hevictions := h.processEvictions ok
  rw [State.saveAll]
  split
  · exact hevictions
  · split
    · exact hevictions
    · rename_i db hdb
      split
      · exact ⟨hevictions.rep, hevictions.known,
          KnownRows.prepareEach _ _ _ _ hevictions.rows (fun p hp => hevictions.known.getStore hp) hdb⟩
      · exact hevictions

end Sound

/-- An empty cache with an empty queue. -/
theorem KVStore.rep_empty (pending : List (Key × Cell V)) (nextNode : Nat) :
    KVStore.Rep ({ pendingEvictions := pending, nextNode } : KVStore V) where
  keys := .nil
  nodes key e he := by cases he
  distinct := .nil
  fresh n hn := absurd hn List.not_mem_nil
  size := Nat.zero_le _

/-- A `flush` that saves everything leaves the cache empty and the queue as it was. -/
theorem flush_of_saved {ok : Nat → Bool}
    (h : ∀ i < (s.kv.getStore ++ s.kv.pendingEvictions).length, ok i = true) :
    (s.flush codec ok).kv = { lruQueue := s.kv.lruQueue, nextNode := s.kv.nextNode } := by
  have hsaved : (saveEach codec ok 0 (s.kv.getStore ++ s.kv.pendingEvictions) s.db).2 = [] := by
    rw [saveEach_failed_eq_nil_iff]
    intro i hi
    rw [Nat.zero_add]
    exact h i hi
  rw [State.flush, hsaved]
  rfl

theorem flush_of_failed {ok : Nat → Bool}
    (h : ∃ i < (s.kv.getStore ++ s.kv.pendingEvictions).length, ok i = false) : (s.flush codec ok).kv = s.kv := by
  obtain ⟨i, hi, hfail⟩ := h
  have hsaved : (saveEach codec ok 0 (s.kv.getStore ++ s.kv.pendingEvictions) s.db).2 ≠ [] := by
    intro hnil
    have hok := (saveEach_failed_eq_nil_iff _ _ _).mp hnil i hi
    rw [Nat.zero_add, hfail] at hok
    cases hok
  rw [State.flush, if_neg (by simpa using hsaved)]

theorem rows_flush (h : Sound codec start ⟨s, given⟩) (ok : Nat → Bool) :
    KnownRows codec start given (s.flush codec ok).db := by
  have hentries : ∀ p ∈ s.kv.getStore ++ s.kv.pendingEvictions, p ∈ given := by
    intro p hp
    rcases List.mem_append.mp hp with hp | hp
    · exact h.known.getStore hp
    · exact h.known.pending p hp
  have hrows : KnownRows codec start given
      (saveEach codec ok 0 (s.kv.getStore ++ s.kv.pendingEvictions) s.db).1 :=
    KnownRows.saveEach _ 0 s.db h.rows hentries
  rw [State.flush]
  split
  · exact hrows
  · exact hrows

theorem Sound.flush (h : Sound codec start ⟨s, given⟩) {ok : Nat → Bool}
    (hkeeps : KeepsQueue ⟨s, given⟩ (.event (.flush ok))) : Sound codec start ⟨s.flush codec ok, given⟩ := by
  by_cases hfail : ∃ i < (s.kv.getStore ++ s.kv.pendingEvictions).length, ok i = false
  · have hkv : (s.flush codec ok).kv = s.kv := flush_of_failed hfail
    exact ⟨by rw [hkv]; exact h.rep, by rw [hkv]; exact h.known, rows_flush h ok⟩
  · have hempty : s.kv.lruQueue = [] := hkeeps.resolve_right hfail
    have hall : ∀ i < (s.kv.getStore ++ s.kv.pendingEvictions).length, ok i = true := by
      intro i hi
      exact Bool.eq_true_of_not_eq_false fun hno => hfail ⟨i, hi, hno⟩
    have hkv : (s.flush codec ok).kv = { lruQueue := s.kv.lruQueue, nextNode := s.kv.nextNode } := flush_of_saved hall
    rw [hempty] at hkv
    refine ⟨?_, ⟨fun key e he => ?_, fun p hp => ?_⟩, rows_flush h ok⟩
    · rw [hkv]
      exact KVStore.rep_empty _ _
    · rw [hkv] at he
      cases he
    · rw [hkv] at hp
      cases hp

/-- A `flush` that clears the cache under a queue with keys leaves keys in the queue that are not cached. -/
theorem not_rep_flush {ok : Nat → Bool} (hne : s.kv.lruQueue ≠ [])
    (h : ∀ i < (s.kv.getStore ++ s.kv.pendingEvictions).length, ok i = true) : ¬ (s.flush codec ok).kv.Rep := by
  intro hrep
  rw [flush_of_saved h] at hrep
  have hlen := hrep.keys.length_eq
  rw [List.length_map] at hlen
  exact hne (List.eq_nil_of_length_eq_zero hlen)

/-- Every other call leaves the store sound. -/
theorem Sound.call (h : Sound codec start ⟨s, given⟩) (c : Call V R) (hkeeps : KeepsQueue ⟨s, given⟩ c) :
    SoundCall codec start ⟨s, given⟩ c := by
  have hmore : Sound codec start ⟨s, given ∪ gives codec s c⟩ := h.mono Set.subset_union_left
  have hgives : ∀ p ∈ gives codec s c, p ∈ given ∪ gives codec s c := fun p hp => Or.inr hp
  cases c with
  | get key forceLoad found ok =>
    exact ⟨h.rep.admits key, hmore.getFound forceLoad ok fun v hv => hgives _ ⟨v, hv, rfl⟩⟩
  | event e =>
    cases e with
    | set key v ok => exact ⟨h.rep.admits key, (hmore.setLocked (hgives _ rfl)).processEvictions ok⟩
    | remove key ok => exact ⟨h.rep.admits key, (hmore.setLocked (hgives _ rfl)).processEvictions ok⟩
    | get key ok =>
      refine ⟨h.rep.admits key, ?_⟩
      have hget := hmore.getFound false ok fun v hv => hgives _ ⟨v, hv, rfl⟩
      rwa [← State.get_eq_getFound] at hget
    | keys first rows =>
      obtain ⟨hevicts, hsound⟩ := Sound.loadRows rows s hmore fun row hrow v hv => hgives _ ⟨row, hrow, v, hv, rfl⟩
      exact ⟨hevicts, hsound⟩
    | saveAll ok tx => exact ⟨trivial, hmore.saveAll ok tx⟩
    | flush ok => exact ⟨trivial, hmore.flush hkeeps⟩
    | processEvictions ok => exact ⟨trivial, hmore.processEvictions ok⟩

/-- In a sound state a call leaves the store sound exactly if it keeps the queue. -/
theorem keepsQueue_iff (h : Sound codec start ⟨s, given⟩) (c : Call V R) :
    KeepsQueue ⟨s, given⟩ c ↔ SoundCall codec start ⟨s, given⟩ c := by
  refine ⟨h.call c, fun hsound => ?_⟩
  cases c with
  | get key forceLoad found ok => trivial
  | event e =>
    cases e with
    | flush ok =>
      by_contra hnot
      obtain ⟨hne, hall⟩ := not_or.mp hnot
      refine not_rep_flush hne (fun i hi => ?_) hsound.2.rep
      exact Bool.eq_true_of_not_eq_false fun hno => hall ⟨i, hi, hno⟩
    | _ => trivial

/-! ## Whole runs -/

/-- The store of a new process over a table. -/
def Traced.new (db : Database R) : Traced V R := ⟨{ db }, ∅⟩

theorem sound_new (db : Database R) : Sound codec db (Traced.new db) where
  rep := KVStore.rep_empty [] 0
  known := ⟨fun key e he => (by cases he), fun p hp => absurd hp List.not_mem_nil⟩
  rows key r hr := .inl hr

/-- In a run of the store, with any results of the database, every state is sound and every eviction moves out a
cached entry, exactly if no `flush` that saves everything finds a key in the queue. -/
theorem soundCalls_iff_keepsQueue (codec : Codec V R) (db : Database R) (calls : List (Call V R)) :
    Along (Traced.call codec) (SoundCall codec db) (Traced.new db) calls ↔
      Along (Traced.call codec) KeepsQueue (Traced.new db) calls := by
  refine (Along.iff_of_invariant (Sound codec db) ?_ ?_ calls _ (sound_new db)).symm
  · exact fun t c h hkeeps => (h.call c hkeeps).2
  · exact fun t c h => keepsQueue_iff h c

/-- A key is set and then everything is saved: the queue still lists the key. -/
theorem not_soundCalls_set_flush :
    ¬ Along (Traced.call stringCodec) (SoundCall stringCodec fun _ => none) (Traced.new fun _ => none)
      [.event (.set [] [7] fun _ => true), .event (.flush fun _ => true)] := by
  intro h
  obtain ⟨-, ⟨-, hflush⟩, -⟩ := h
  refine not_rep_flush ?_ ?_ hflush.rep
  · exact List.cons_ne_nil (0, []) []
  · exact fun i _ => rfl

end ForgottenServer.Kv
