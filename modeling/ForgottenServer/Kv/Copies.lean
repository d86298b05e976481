import ForgottenServer.Kv.Store
import ForgottenServer.Lib.Timeline

/-! # The copies of a key

The value of a key can stand in the table, in entries of `pendingEvictions_` and in the
cache at once. `copies` lists them, the copy that a reader should see last. Every
operation of the store is described by what it does to this list. -/

namespace ForgottenServer.Kv

open Timeline

variable {V R : Type} {codec : Codec V R}

/-- A value that is read back from the row it is written to. -/
def Codec.Survives (codec : Codec V R) (c : Cell V) : Prop :=
  ∀ v, c = .value v → codec.deserialize (codec.serialize v) = some v

/-- What was read from a row survives. -/
def Codec.Stable (codec : Codec V R) : Prop :=
  ∀ r v, codec.deserialize r = some v → codec.Survives (.value v)

/-- The entries of one key in a list of entries. -/
def entriesOf (entries : List (Key × Cell V)) (key : Key) : List (Option V) :=
  (entries.filter fun e => e.1 = key).map fun e => e.2.get

def KVStore.cachedOf (kv : KVStore V) (key : Key) : List (Option V) :=
  (kv.find key).toList.map fun e => e.value.get

/-- The copies of a key outside the table. -/
def KVStore.copies (kv : KVStore V) (key : Key) : List (Option V) :=
  entriesOf kv.pendingEvictions key ++ kv.cachedOf key

def State.copies (codec : Codec V R) (s : State V R) (key : Key) : List (Option V) :=
  load codec s.db key :: s.kv.copies key

/-- Every cell of the store survives. -/
def KVStore.Survives (codec : Codec V R) (kv : KVStore V) : Prop :=
  ∀ key v, some v ∈ kv.copies key → codec.Survives (.value v)

/-! ## Writes -/

theorem survives_deleted : codec.Survives .deleted := by
  intro v h
  cases h

theorem load_write {c : Cell V} (h : codec.Survives c) (db : Database R) (key k : Key) :
    load codec (write codec db key c) k = if k = key then c.get else load codec db k := by
  rw [load, write]
  by_cases hk : k = key
  · rw [if_pos hk, if_pos hk]
    cases c with
    | deleted => rfl
    | value v => exact h v rfl
  · rw [if_neg hk, if_neg hk]
    rfl

@[simp] theorem entriesOf_nil (key : Key) : entriesOf ([] : List (Key × Cell V)) key = [] := rfl

theorem entriesOf_cons (e : Key × Cell V) (entries : List (Key × Cell V)) (key : Key) :
    entriesOf (e :: entries) key =
      if e.1 = key then e.2.get :: entriesOf entries key else entriesOf entries key := by
  by_cases h : e.1 = key <;> simp [entriesOf, h]

theorem entriesOf_append (entries entries' : List (Key × Cell V)) (key : Key) :
    entriesOf (entries ++ entries') key = entriesOf entries key ++ entriesOf entries' key := by
  simp [entriesOf]

theorem entriesOf_eq_nil {entries : List (Key × Cell V)} {key : Key}
    (h : ∀ e ∈ entries, e.1 ≠ key) : entriesOf entries key = [] := by
  rw [entriesOf, List.filter_eq_nil_iff.mpr (by simpa using h), List.map_nil]

/-- The writes of a list of entries are made in turn: where the write of an entry fails,
those of the later entries of its key fail too. -/
def InTurn (ok : Nat → Bool) : Nat → List (Key × Cell V) → Prop
  | _, [] => True
  | i, e :: entries =>
    (ok i = false → ∀ j e', entries[j]? = some e' → e'.1 = e.1 → ok (i + 1 + j) = false) ∧
      InTurn ok (i + 1) entries

theorem inTurn_of_all {ok : Nat → Bool} (h : ∀ i, ok i = true) (entries : List (Key × Cell V)) :
    ∀ i, InTurn ok i entries := by
  induction entries with
  | nil => intro i; exact trivial
  | cons e entries ih =>
    intro i
    refine ⟨fun hi => ?_, ih (i + 1)⟩
    rw [h i] at hi
    cases hi

/-- Entries of a key none of which is saved stay as they are. -/
theorem saveEach_untouched {ok : Nat → Bool} (key : Key) (entries : List (Key × Cell V)) :
    ∀ (i : Nat) (db : Database R),
      (∀ j e, entries[j]? = some e → e.1 = key → ok (i + j) = false) →
      (∀ e ∈ entries, codec.Survives e.2) →
      load codec (saveEach codec ok i entries db).1 key = load codec db key ∧
        entriesOf (saveEach codec ok i entries db).2 key = entriesOf entries key := by
  induction entries with
  | nil => intro i db _ _; exact ⟨rfl, rfl⟩
  | cons e entries ih =>
    intro i db hno hsurv
    have hno' : ∀ j e', entries[j]? = some e' → e'.1 = key → ok (i + 1 + j) = false := by
      intro j e' hj hkey
      have := hno (j + 1) e' (by simpa using hj) hkey
      rwa [Nat.add_assoc, Nat.add_comm 1 j]
    have hsurv' : ∀ e' ∈ entries, codec.Survives e'.2 := fun e' he => hsurv e' (by simp [he])
    rw [saveEach]
    split
    · rename_i hok
      have hkey : e.1 ≠ key := by
        intro hkey
        have := hno 0 e (by simp) hkey
        simp [hok] at this
      obtain ⟨hload, hentries⟩ := ih (i + 1) (write codec db e.1 e.2) hno' hsurv'
      rw [hload, hentries, load_write (hsurv e (by simp)), if_neg (Ne.symm hkey), entriesOf_cons,
        if_neg hkey]
      exact ⟨rfl, rfl⟩
    · obtain ⟨hload, hentries⟩ := ih (i + 1) db hno' hsurv'
      refine ⟨hload, ?_⟩
      rw [entriesOf_cons, hentries, ← entriesOf_cons]

/-- Writes made in turn remove the oldest copies of a key. -/
theorem saveEach_inTurn {ok : Nat → Bool} (key : Key) (entries : List (Key × Cell V)) :
    ∀ (i : Nat) (db : Database R), InTurn ok i entries → (∀ e ∈ entries, codec.Survives e.2) →
      ∃ old, load codec db key :: entriesOf entries key =
        old ++ load codec (saveEach codec ok i entries db).1 key ::
          entriesOf (saveEach codec ok i entries db).2 key := by
  induction entries with
  | nil => intro i db _ _; exact ⟨[], rfl⟩
  | cons e entries ih =>
    intro i db hturn hsurv
    have hsurv' : ∀ e' ∈ entries, codec.Survives e'.2 := fun e' he => hsurv e' (by simp [he])
    by_cases hok : ok i = true
    · rw [saveEach, if_pos hok]
      obtain ⟨old, hold⟩ := ih (i + 1) (write codec db e.1 e.2) hturn.2 hsurv'
      rw [load_write (hsurv e (by simp))] at hold
      rw [entriesOf_cons]
      by_cases hkey : e.1 = key
      · rw [if_pos hkey.symm] at hold
        rw [if_pos hkey, hold]
        exact ⟨load codec db key :: old, rfl⟩
      · rw [if_neg (Ne.symm hkey)] at hold
        rw [if_neg hkey]
        exact ⟨old, hold⟩
    · rw [saveEach, if_neg hok]
      by_cases hkey : e.1 = key
      · -- nothing of this key is saved from here on
        obtain ⟨hload, hentries⟩ := saveEach_untouched key entries (i + 1) db
          (fun j e' hj hj' => hturn.1 (by simpa using hok) j e' hj (hj'.trans hkey.symm)) hsurv'
        refine ⟨[], ?_⟩
        simp only [List.nil_append, hload, entriesOf_cons, hentries]
      · obtain ⟨old, hold⟩ := ih (i + 1) db hturn.2 hsurv'
        refine ⟨old, ?_⟩
        simp only [entriesOf_cons, if_neg hkey]
        exact hold

theorem saveEach_failed_eq_nil {ok : Nat → Bool} (h : ∀ i, ok i = true) (entries : List (Key × Cell V)) :
    ∀ (i : Nat) (db : Database R), (saveEach codec ok i entries db).2 = [] := by
  induction entries with
  | nil => intro i db; rfl
  | cons e entries ih =>
    intro i db
    rw [saveEach, if_pos (h i)]
    exact ih (i + 1) _

theorem inTurn_of_failed_eq_nil {ok : Nat → Bool} (entries : List (Key × Cell V)) :
    ∀ (i : Nat) (db : Database R), (saveEach codec ok i entries db).2 = [] → InTurn ok i entries := by
  induction entries with
  | nil => intro i db _; exact trivial
  | cons e entries ih =>
    intro i db h
    rw [saveEach] at h
    split at h
    · rename_i hok
      exact ⟨fun hno => absurd (hok.symm.trans hno) (by simp), ih _ _ h⟩
    · cases h

/-- Entries that failed are among those that were to be saved. -/
theorem mem_of_mem_failed {ok : Nat → Bool} {p : Key × Cell V} (entries : List (Key × Cell V)) :
    ∀ (i : Nat) (db : Database R), p ∈ (saveEach codec ok i entries db).2 → p ∈ entries := by
  induction entries with
  | nil => intro i db h; exact h
  | cons e entries ih =>
    intro i db h
    rw [saveEach] at h
    split at h
    · exact List.mem_cons_of_mem _ (ih _ _ h)
    · rcases List.mem_cons.mp h with rfl | h
      · exact List.mem_cons_self
      · exact List.mem_cons_of_mem _ (ih _ _ h)

/-! ## The cache -/

namespace KVStore

/-- The entry that a new key drives out. -/
def evicted (codec : Codec V R) (kv : KVStore V) : List (Key × Cell V) :=
  match kv.lruQueue.getLast? with
  | none => []
  | some (_, key) => [(key, ((kv.find key).map (·.value)).getD (.value codec.blank))]

/-- The key at the end of the queue is cached. -/
def TailCached (kv : KVStore V) : Prop :=
  ∀ node key, kv.lruQueue.getLast? = some (node, key) → (kv.find key).isSome = true

theorem find_insert (kv : KVStore V) (key k : Key) (c : Cell V) :
    (kv.insert key c).find k = if k = key then some ⟨c, kv.nextNode⟩ else kv.find k := by
  rw [find, insert]
  by_cases h : k = key
  · subst h
    rw [AList.lookup_insert, if_pos rfl]
  · rw [AList.lookup_insert_ne h, if_neg h]
    rfl

theorem cachedOf_insert (kv : KVStore V) (key k : Key) (c : Cell V) :
    (kv.insert key c).cachedOf k = if k = key then [c.get] else kv.cachedOf k := by
  rw [cachedOf, find_insert]
  split
  · rfl
  · rfl

/-- An eviction moves the cached copy behind the pending ones. -/
theorem copies_evictLast {kv : KVStore V} (h : kv.TailCached) (k : Key) :
    (kv.evictLast codec).copies k = kv.copies k := by
  unfold evictLast
  split
  · rfl
  · rename_i node key hlast
    obtain ⟨e, he⟩ := Option.isSome_iff_exists.mp (h node key hlast)
    simp only [copies, cachedOf, he, entriesOf_append, entriesOf_cons, entriesOf_nil]
    by_cases hk : key = k
    · subst hk
      rw [if_pos rfl]
      simp [find, AList.lookup_erase, show AList.lookup key kv.store = some e from he]
    · rw [if_neg hk, List.append_nil]
      simp only [find, AList.lookup_erase_ne (Ne.symm hk)]

theorem find_evictLast_eq_none {kv : KVStore V} {k : Key} (h : kv.find k = none) :
    (kv.evictLast codec).find k = none := by
  unfold evictLast
  split
  · exact h
  · rename_i node key _
    by_cases hk : k = key
    · subst hk
      exact AList.lookup_erase _ _
    · exact (AList.lookup_erase_ne hk).trans h

theorem cachedOf_eq_nil {kv : KVStore V} {k : Key} (h : kv.find k = none) : kv.cachedOf k = [] := by
  rw [cachedOf, h]
  rfl

theorem copies_insert {kv : KVStore V} {key : Key} (c : Cell V) (k : Key) :
    (kv.insert key c).copies k =
      if k = key then entriesOf kv.pendingEvictions key ++ [c.get] else kv.copies k := by
  rw [copies, cachedOf_insert]
  by_cases hk : k = key
  · rw [if_pos hk, if_pos hk, hk]
    rfl
  · rw [if_neg hk, if_neg hk]
    rfl

/-- Caching a key: its cached copy is replaced, or a new copy is the newest. -/
theorem copies_setLocked {kv : KVStore V} {key : Key} (c : Cell V)
    (h : kv.find key = none → kv.isFull = true → kv.TailCached) (k : Key) :
    (kv.setLocked codec key c).copies k =
      if k = key then entriesOf kv.pendingEvictions key ++ [c.get] else kv.copies k := by
  unfold setLocked
  split
  · -- the key is cached
    rename_i e he
    rw [copies, cachedOf, find]
    by_cases hk : k = key
    · subst hk
      rw [if_pos rfl, AList.lookup_insert]
      rfl
    · rw [if_neg hk, AList.lookup_insert_ne hk]
      rfl
  · rename_i hnone
    split
    · rename_i hfull
      have hevict : ∀ k, (kv.evictLast codec).copies k = kv.copies k := copies_evictLast (h hnone hfull)
      have hkey := hevict key
      rw [copies, copies, cachedOf_eq_nil (find_evictLast_eq_none hnone), cachedOf_eq_nil hnone,
        List.append_nil, List.append_nil] at hkey
      rw [copies_insert, hkey, hevict]
    · rw [copies_insert]

/-- What is pending once a key was cached. -/
theorem pendingEvictions_setLocked (kv : KVStore V) (key : Key) (c : Cell V) :
    (kv.setLocked codec key c).pendingEvictions =
      kv.pendingEvictions ++
        if (kv.find key).isNone && kv.isFull then kv.evicted codec else [] := by
  unfold setLocked
  split
  · rename_i e he
    simp [he]
  · rename_i hnone
    rw [hnone]
    split
    · rename_i hfull
      simp only [insert, hfull, Option.isNone_none, Bool.and_self, if_true]
      unfold evictLast evicted
      split
      · rename_i hempty
        simp [hempty]
      · rename_i node k hlast
        simp only [hlast]
        cases kv.find k <;> rfl
    · rename_i hroom
      simp [insert, hroom]

theorem Survives.of_get {c : Cell V} (h : ∀ v, c.get = some v → codec.Survives (.value v)) :
    codec.Survives c := by
  cases c with
  | deleted => exact survives_deleted
  | value v => exact h v rfl

theorem Survives.pending {kv : KVStore V} (h : kv.Survives codec) {p : Key × Cell V}
    (hp : p ∈ kv.pendingEvictions) : codec.Survives p.2 := by
  apply Survives.of_get
  intro v hv
  refine h p.1 v (List.mem_append_left _ ?_)
  rw [← hv]
  exact List.mem_map_of_mem (List.mem_filter.mpr ⟨hp, by simp⟩)

theorem Survives.getStore {kv : KVStore V} (h : kv.Survives codec) {p : Key × Cell V}
    (hp : p ∈ kv.getStore) : codec.Survives p.2 := by
  obtain ⟨⟨key, e⟩, he, rfl⟩ := List.mem_map.mp hp
  have hfind : kv.find key = some e := AList.mem_lookup_iff.mpr he
  apply Survives.of_get
  intro v hv
  refine h key v (List.mem_append_right _ ?_)
  rw [cachedOf, hfind, ← hv]
  exact List.mem_cons_self

theorem Survives.setLocked {kv : KVStore V} (hs : kv.Survives codec) {key : Key} {c : Cell V}
    (hc : codec.Survives c) (h : kv.find key = none → kv.isFull = true → kv.TailCached) :
    (kv.setLocked codec key c).Survives codec := by
  intro k v hv
  rw [copies_setLocked c h] at hv
  split at hv
  · rcases List.mem_append.mp hv with hv | hv
    · exact hs key v (List.mem_append_left _ hv)
    · have hget : c.get = some v := (List.mem_singleton.mp hv).symm
      cases c with
      | deleted => cases hget
      | value w =>
        cases hget
        exact hc
  · exact hs k v hv

end KVStore

/-- The cached entries of a key. -/
theorem entriesOf_getStore (kv : KVStore V) (key : Key) : entriesOf kv.getStore key = kv.cachedOf key := by
  have hlist : ∀ l : List (Sigma fun _ : Key => StoreEntry V), l.NodupKeys →
      entriesOf (l.map fun e => (e.1, e.2.value)) key =
        (l.dlookup key).toList.map fun e => e.value.get := by
    intro l hl
    induction l with
    | nil => rfl
    | cons e l ih =>
      obtain ⟨a, b⟩ := e
      have hrest := ih (List.nodupKeys_of_nodupKeys_cons hl)
      rw [List.map_cons, entriesOf_cons]
      by_cases ha : a = key
      · subst ha
        have hnot : List.dlookup a l = none :=
          List.dlookup_eq_none.mpr (List.notMem_keys_of_nodupKeys_cons hl)
        rw [hnot] at hrest
        rw [if_pos rfl, hrest, List.dlookup_cons_eq]
        rfl
      · rw [if_neg ha, hrest, List.dlookup_cons_ne _ _ (Ne.symm ha)]
  exact hlist kv.store.entries kv.store.nodupKeys

theorem length_cachedOf_le (kv : KVStore V) (key : Key) : (kv.cachedOf key).length ≤ 1 := by
  rw [KVStore.cachedOf, List.length_map]
  exact Option.length_toList_le

/-! ## Writes in any order -/

/-- A written row is one of the entries of its key. -/
theorem saveEach_load {ok : Nat → Bool} (key : Key) (entries : List (Key × Cell V)) :
    ∀ (i : Nat) (db : Database R), (∀ e ∈ entries, codec.Survives e.2) →
      load codec (saveEach codec ok i entries db).1 key = load codec db key ∨
        load codec (saveEach codec ok i entries db).1 key ∈ entriesOf entries key := by
  induction entries with
  | nil => intro i db _; exact .inl rfl
  | cons e entries ih =>
    intro i db hsurv
    have hsurv' : ∀ e' ∈ entries, codec.Survives e'.2 := fun e' he => hsurv e' (by simp [he])
    rw [saveEach, entriesOf_cons]
    split
    · have h := ih (i + 1) (write codec db e.1 e.2) hsurv'
      rw [load_write (hsurv e (by simp))] at h
      by_cases hkey : e.1 = key
      · rw [if_pos hkey.symm] at h
        rw [if_pos hkey]
        exact .inr (List.mem_cons.mpr h)
      · rw [if_neg (Ne.symm hkey)] at h
        rwa [if_neg hkey]
    · have h := ih (i + 1) db hsurv'
      by_cases hkey : e.1 = key
      · rw [if_pos hkey]
        exact h.imp id (List.mem_cons_of_mem _)
      · rwa [if_neg hkey]

/-- The writes of `saveAll` are those of `saveEach`, when its transaction is not stopped. -/
theorem prepareEach_eq {ok : Nat → Bool} (entries : List (Key × Cell V)) :
    ∀ (i : Nat) (db db' : Database R), prepareEach codec ok i entries db = some db' →
      db' = (saveEach codec ok i entries db).1 := by
  induction entries with
  | nil =>
    intro i db db' h
    cases h
    rfl
  | cons e entries ih =>
    intro i db db' h
    rw [prepareEach] at h
    rw [saveEach]
    split at h
    · rename_i hok
      rw [if_pos hok]
      exact ih _ _ _ h
    · rename_i hok
      rw [if_neg hok]
      split at h
      · cases h
      · exact ih _ _ _ h

theorem prepareEach_all {ok : Nat → Bool} (h : ∀ i, ok i = true) (entries : List (Key × Cell V)) :
    ∀ (i : Nat) (db : Database R),
      prepareEach codec ok i entries db = some (saveEach codec ok i entries db).1 := by
  induction entries with
  | nil => intro i db; rfl
  | cons e entries ih =>
    intro i db
    rw [prepareEach, saveEach, if_pos (h i), if_pos (h i)]
    exact ih _ _

end ForgottenServer.Kv
