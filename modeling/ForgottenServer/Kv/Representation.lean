import ForgottenServer.Kv.Runs
import ForgottenServer.Lib.Runs

/-! # The cache and its queue

`store_` and `lruQueue_` are two members that have to agree: `Rep` says how. Every call keeps them so, except for a
`flush` that saves everything, which clears `store_` and leaves `lruQueue_` as it is. -/

namespace ForgottenServer.Kv

/-! ## The keys of a map -/

section Keys

variable {α : Type} {β : α → Type} [DecidableEq α] {m : AList β} {a : α}

theorem perm_keys_insert (h : a ∈ m.keys) (b : β a) : (m.insert a b).keys.Perm m.keys := by
  rw [AList.keys_insert]
  exact (List.perm_cons_erase h).symm

theorem keys_insert_of_notMem (h : a ∉ m.keys) (b : β a) : (m.insert a b).keys = a :: m.keys := by
  rw [AList.keys_insert, List.erase_of_not_mem h]

theorem perm_cons_keys_erase (h : a ∈ m.keys) : (a :: (m.erase a).keys).Perm m.keys := by
  rw [AList.keys_erase]
  exact (List.perm_cons_erase h).symm

omit [DecidableEq α] in
theorem length_keys (m : AList β) : m.keys.length = m.entries.length := List.length_map _

end Keys

variable {V R : Type}

/-- The queue lists the cached keys, each once, and an entry points at the node of its key. -/
structure KVStore.Rep (kv : KVStore V) : Prop where
  keys : (kv.lruQueue.map (·.2)).Perm kv.store.keys
  nodes : ∀ key e, kv.find key = some e → (e.node, key) ∈ kv.lruQueue
  distinct : (kv.lruQueue.map (·.1)).Nodup
  fresh : ∀ n ∈ kv.lruQueue, n.1 < kv.nextNode
  size : kv.store.entries.length ≤ MAX_SIZE

/-- Everything in the store is one of the given values. -/
structure KVStore.Known (given : Set (Key × Cell V)) (kv : KVStore V) : Prop where
  cached : ∀ key e, kv.find key = some e → (key, e.value) ∈ given
  pending : ∀ p ∈ kv.pendingEvictions, p ∈ given

namespace KVStore

variable {kv : KVStore V} {key : Key}

theorem find_eq_none_iff : kv.find key = none ↔ key ∉ kv.store.keys := AList.lookup_eq_none

/-! ## A key that is cached again -/

theorem perm_spliceFront (queue : List (Nat × Key)) (node : Nat) : (spliceFront queue node).Perm queue := by
  have hfilter := List.filter_append_perm (fun n : Nat × Key => n.1 == node) queue
  exact hfilter

theorem perm_spliceBack (queue : List (Nat × Key)) (node : Nat) : (spliceBack queue node).Perm queue :=
  List.perm_append_comm.trans (perm_spliceFront queue node)

/-- The order of the queue does not matter. -/
theorem Rep.requeue (h : kv.Rep) {queue : List (Nat × Key)} (hperm : queue.Perm kv.lruQueue) :
    KVStore.Rep { kv with lruQueue := queue } where
  keys := (hperm.map _).trans h.keys
  nodes key e he := hperm.mem_iff.mpr (h.nodes key e he)
  distinct := (hperm.map _).nodup_iff.mpr h.distinct
  fresh n hn := h.fresh n (hperm.mem_iff.mp hn)
  size := h.size

theorem Rep.overwrite (h : kv.Rep) {e : StoreEntry V} (he : kv.find key = some e) (value : Cell V) :
    KVStore.Rep { kv with store := kv.store.insert key { e with value } } := by
  have hkey : key ∈ kv.store.keys := by
    by_contra hnot
    rw [find_eq_none_iff.mpr hnot] at he
    cases he
  have hperm : (kv.store.insert key { e with value }).keys.Perm kv.store.keys := perm_keys_insert hkey _
  refine ⟨h.keys.trans hperm.symm, fun k e' he' => ?_, h.distinct, h.fresh, ?_⟩
  · have hlookup : (kv.store.insert key { e with value }).lookup k = some e' := he'
    by_cases hk : k = key
    · subst hk
      rw [AList.lookup_insert] at hlookup
      obtain rfl := Option.some.inj hlookup
      exact h.nodes k e he
    · rw [AList.lookup_insert_ne hk] at hlookup
      exact h.nodes k e' hlookup
  · have hlen := hperm.length_eq
    rw [length_keys, length_keys] at hlen
    exact hlen.le.trans h.size

/-! ## A new key -/

theorem Rep.tailCached (h : kv.Rep) : kv.TailCached := by
  intro node key hlast
  have hmem : key ∈ kv.store.keys := by
    rw [← h.keys.mem_iff]
    exact List.mem_map_of_mem (List.mem_of_getLast? hlast)
  rw [Option.isSome_iff_ne_none]
  exact fun hnone => find_eq_none_iff.mp hnone hmem

theorem Rep.evictLast (codec : Codec V R) (h : kv.Rep) (hne : kv.lruQueue ≠ []) :
    (kv.evictLast codec).Rep ∧ (kv.evictLast codec).store.entries.length + 1 = kv.store.entries.length := by
  obtain ⟨queue, ⟨node, k⟩, hqueue⟩ := List.eq_nil_or_concat kv.lruQueue |>.resolve_left hne
  rw [List.concat_eq_append] at hqueue
  have hkeys : (k :: queue.map (·.2)).Perm kv.store.keys := by
    refine List.Perm.trans ?_ h.keys
    rw [hqueue, List.map_append]
    exact List.perm_append_singleton k _ |>.symm
  have herase : (k :: (kv.store.erase k).keys).Perm kv.store.keys :=
    perm_cons_keys_erase (hkeys.mem_iff.mp List.mem_cons_self)
  have hlen : (kv.store.erase k).entries.length + 1 = kv.store.entries.length := by
    have hlength := herase.length_eq
    rwa [List.length_cons, length_keys, length_keys] at hlength
  have hlast : kv.lruQueue.getLast? = some (node, k) := by rw [hqueue]; simp
  have hdrop : kv.lruQueue.dropLast = queue := by rw [hqueue]; simp
  rw [KVStore.evictLast, hlast, hdrop]
  refine ⟨⟨(hkeys.trans herase.symm).cons_inv, fun key e he => ?_, ?_, fun n hn => ?_, ?_⟩, hlen⟩
  · have hlookup : (kv.store.erase k).lookup key = some e := he
    have hk : key ≠ k := by
      rintro rfl
      rw [AList.lookup_erase] at hlookup
      cases hlookup
    rw [AList.lookup_erase_ne hk] at hlookup
    have hin := h.nodes key e hlookup
    rw [hqueue] at hin
    rcases List.mem_append.mp hin with hin | hin
    · exact hin
    · exact absurd (Prod.mk.inj (List.mem_singleton.mp hin)).2 hk
  · have hdistinct := h.distinct
    rw [hqueue, List.map_append] at hdistinct
    exact (List.nodup_append.mp hdistinct).1
  · refine h.fresh n ?_
    rw [hqueue]
    exact List.mem_append_left _ hn
  · have hsize := h.size
    show (kv.store.erase k).entries.length ≤ MAX_SIZE
    omega

theorem Rep.insert (h : kv.Rep) (hnone : kv.find key = none) (hsize : kv.store.entries.length < MAX_SIZE)
    (value : Cell V) : (kv.insert key value).Rep := by
  have hkeys : (kv.store.insert key ⟨value, kv.nextNode⟩).keys = key :: kv.store.keys :=
    keys_insert_of_notMem (find_eq_none_iff.mp hnone) _
  refine ⟨?_, fun k e he => ?_, ?_, fun n hn => ?_, ?_⟩
  · show (key :: kv.lruQueue.map (·.2)).Perm (kv.store.insert key ⟨value, kv.nextNode⟩).keys
    rw [hkeys]
    exact h.keys.cons key
  · rw [find_insert] at he
    split at he
    · rename_i hk
      obtain rfl := Option.some.inj he
      exact hk ▸ List.mem_cons_self
    · exact List.mem_cons_of_mem _ (h.nodes k e he)
  · refine List.nodup_cons.mpr ⟨fun hmem => ?_, h.distinct⟩
    obtain ⟨n, hn, heq⟩ := List.mem_map.mp hmem
    exact absurd heq (h.fresh n hn).ne
  · rcases List.mem_cons.mp hn with rfl | hn
    · exact Nat.lt_succ_self _
    · exact Nat.lt_succ_of_lt (h.fresh n hn)
  · have hlen := congrArg List.length hkeys
    rw [length_keys, List.length_cons, length_keys] at hlen
    exact hlen.trans_le hsize

/-- A cache that is not full has room. -/
theorem Rep.lt_size (h : kv.Rep) (hfull : kv.isFull = false) : kv.store.entries.length < MAX_SIZE := by
  by_contra hge
  have hempty : kv.lruQueue = [] := by
    rw [isFull, decide_eq_true (Nat.le_of_not_lt hge), Bool.true_and, Bool.not_eq_false', List.isEmpty_iff] at hfull
    exact hfull
  have hlen := h.keys.length_eq
  rw [hempty, length_keys] at hlen
  exact hge (hlen ▸ (by decide : (0 : Nat) < MAX_SIZE))

theorem ne_nil_of_isFull (hfull : kv.isFull = true) : kv.lruQueue ≠ [] := by
  rw [isFull, Bool.and_eq_true] at hfull
  simpa using hfull.2

theorem Rep.setLocked (codec : Codec V R) (h : kv.Rep) (key : Key) (value : Cell V) : (kv.setLocked codec key value).Rep := by
  rw [KVStore.setLocked]
  split
  · rename_i e he
    exact (h.overwrite he value).requeue (perm_spliceFront _ _)
  · rename_i hnone
    split
    · rename_i hfull
      obtain ⟨hrep, hlen⟩ := h.evictLast codec (ne_nil_of_isFull hfull)
      refine hrep.insert (find_evictLast_eq_none hnone) ?_ value
      have hsize := h.size
      omega
    · rename_i hfull
      exact h.insert hnone (h.lt_size (by simpa using hfull)) value

/-! ## What is in the store -/

variable {codec : Codec V R} {given : Set (Key × Cell V)}

theorem Known.mono (h : kv.Known given) {given' : Set (Key × Cell V)} (hsub : given ⊆ given') : kv.Known given' where
  cached key e he := hsub (h.cached key e he)
  pending p hp := hsub (h.pending p hp)

theorem find_of_find_evictLast {e : StoreEntry V} (h : (kv.evictLast codec).find key = some e) :
    kv.find key = some e := by
  by_contra hne
  unfold evictLast at h
  split at h
  · exact hne h
  · rename_i node k _
    have hlookup : (kv.store.erase k).lookup key = some e := h
    by_cases hk : key = k
    · subst hk
      rw [AList.lookup_erase] at hlookup
      cases hlookup
    · rw [AList.lookup_erase_ne hk] at hlookup
      exact hne hlookup

theorem Known.evictLast (h : kv.Known given) (htail : kv.TailCached) : (kv.evictLast codec).Known given := by
  refine ⟨fun key e he => h.cached key e (find_of_find_evictLast he), fun p hp => ?_⟩
  unfold KVStore.evictLast at hp
  split at hp
  · exact h.pending p hp
  · rename_i node k hlast
    obtain ⟨e, he⟩ := Option.isSome_iff_exists.mp (htail node k hlast)
    simp only [he] at hp
    rcases List.mem_append.mp hp with hp | hp
    · exact h.pending p hp
    · rw [List.mem_singleton.mp hp]
      exact h.cached k e he

theorem Known.insert (h : kv.Known given) {value : Cell V} (hgiven : (key, value) ∈ given) :
    (kv.insert key value).Known given := by
  refine ⟨fun k e he => ?_, h.pending⟩
  rw [find_insert] at he
  split at he
  · rename_i hk
    obtain rfl := Option.some.inj he
    exact hk ▸ hgiven
  · exact h.cached k e he

theorem Known.setLocked (h : kv.Known given) (hadm : kv.Admits key) {value : Cell V} (hgiven : (key, value) ∈ given) :
    (kv.setLocked codec key value).Known given := by
  rw [KVStore.setLocked]
  split
  · rename_i e _
    refine ⟨fun k e' he => ?_, h.pending⟩
    have hlookup : (kv.store.insert key { e with value }).lookup k = some e' := he
    by_cases hk : k = key
    · subst hk
      rw [AList.lookup_insert] at hlookup
      obtain rfl := Option.some.inj hlookup
      exact hgiven
    · rw [AList.lookup_insert_ne hk] at hlookup
      exact h.cached k e' hlookup
  · rename_i hnone
    split
    · rename_i hfull
      exact (h.evictLast (hadm hnone hfull)).insert hgiven
    · exact h.insert hgiven

theorem Known.getStore (h : kv.Known given) {p : Key × Cell V} (hp : p ∈ kv.getStore) : p ∈ given := by
  obtain ⟨⟨key, e⟩, he, rfl⟩ := List.mem_map.mp hp
  exact h.cached key e (AList.mem_lookup_iff.mpr he)

theorem Rep.admits (h : kv.Rep) (key : Key) : kv.Admits key := fun _ _ => h.tailCached

end KVStore

/-! ## What is in the table -/

section Table

variable (codec : Codec V R)

/-- A row that was there at the start, or is one of the given values. -/
def KnownRow (start : Database R) (given : Set (Key × Cell V)) (key : Key) (r : R) : Prop :=
  start key = some r ∨ ∃ v, (key, .value v) ∈ given ∧ r = codec.serialize v

def KnownRows (start : Database R) (given : Set (Key × Cell V)) (db : Database R) : Prop :=
  ∀ key r, db key = some r → KnownRow codec start given key r

variable {codec} {start db : Database R} {given : Set (Key × Cell V)}

theorem KnownRows.mono (h : KnownRows codec start given db) {given' : Set (Key × Cell V)} (hsub : given ⊆ given') :
    KnownRows codec start given' db := by
  intro key r hr
  rcases h key r hr with hstart | ⟨v, hv, hser⟩
  · exact .inl hstart
  · exact .inr ⟨v, hsub hv, hser⟩

theorem KnownRows.write (h : KnownRows codec start given db) {key : Key} {value : Cell V}
    (hgiven : (key, value) ∈ given) : KnownRows codec start given (write codec db key value) := by
  intro k r hr
  rw [Kv.write] at hr
  split at hr
  · rename_i hk
    subst hk
    cases value with
    | deleted => cases hr
    | value v =>
      obtain rfl := Option.some.inj hr
      exact .inr ⟨v, hgiven, rfl⟩
  · exact h k r hr

theorem KnownRows.saveEach {ok : Nat → Bool} (entries : List (Key × Cell V)) :
    ∀ (i : Nat) (db : Database R), KnownRows codec start given db → (∀ p ∈ entries, p ∈ given) →
      KnownRows codec start given (saveEach codec ok i entries db).1 := by
  induction entries with
  | nil => intro i db h _; exact h
  | cons e entries ih =>
    intro i db h hgiven
    have hrest : ∀ p ∈ entries, p ∈ given := fun p hp => hgiven p (List.mem_cons_of_mem _ hp)
    rw [Kv.saveEach]
    split
    · exact ih _ _ (h.write (hgiven e List.mem_cons_self)) hrest
    · exact ih _ _ h hrest

theorem KnownRows.prepareEach {ok : Nat → Bool} (entries : List (Key × Cell V)) :
    ∀ (i : Nat) (db db' : Database R), KnownRows codec start given db → (∀ p ∈ entries, p ∈ given) →
      prepareEach codec ok i entries db = some db' → KnownRows codec start given db' := by
  induction entries with
  | nil =>
    intro i db db' h _ hprep
    obtain rfl := Option.some.inj hprep
    exact h
  | cons e entries ih =>
    intro i db db' h hgiven hprep
    have hrest : ∀ p ∈ entries, p ∈ given := fun p hp => hgiven p (List.mem_cons_of_mem _ hp)
    rw [Kv.prepareEach] at hprep
    split at hprep
    · exact ih _ _ _ (h.write (hgiven e List.mem_cons_self)) hrest hprep
    · split at hprep
      · cases hprep
      · exact ih _ _ _ h hrest hprep

theorem saveEach_failed_eq_nil_iff {ok : Nat → Bool} (entries : List (Key × Cell V)) :
    ∀ (i : Nat) (db : Database R),
      (saveEach codec ok i entries db).2 = [] ↔ ∀ j < entries.length, ok (i + j) = true := by
  induction entries with
  | nil =>
    intro i db
    exact ⟨fun _ j hj => absurd hj (Nat.not_lt_zero j), fun _ => rfl⟩
  | cons e entries ih =>
    intro i db
    rw [saveEach, List.length_cons]
    split
    · rename_i hok
      rw [ih]
      refine ⟨fun h j hj => ?_, fun h j hj => ?_⟩
      · cases j with
        | zero => exact hok
        | succ j =>
          rw [Nat.add_comm j 1, ← Nat.add_assoc]
          exact h j (by omega)
      · rw [Nat.add_assoc, Nat.add_comm 1 j]
        exact h (j + 1) (by omega)
    · rename_i hok
      exact ⟨fun h => absurd h (List.cons_ne_nil _ _), fun h => absurd (h 0 (Nat.succ_pos _)) hok⟩

end Table

end ForgottenServer.Kv
