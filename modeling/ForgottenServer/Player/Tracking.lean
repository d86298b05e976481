import ForgottenServer.Lib.WriteBehind
import ForgottenServer.Player.Dirty

/-! # Dirty tracking loses no update

The storage and the bestiary of a player object are two memories that are written behind their
backs, in the sense of `WriteBehind`: its rules carry the invariant of both through every
event. -/

namespace ForgottenServer

open IOLoginData

/-! ## Rows -/

/-- The storage value that a login reads. -/
def PlayerRows.storageValue (db : PlayerRows) (key : UInt32) : Option Int64 := Player.kept (db.storage.lookup key)

/-- The kills that a login reads. -/
def PlayerRows.killCount (db : PlayerRows) (raceId : UInt16) : Option UInt32 :=
  if raceId = 0 then none else db.kills.lookup raceId

section Rows

variable {κ ν : Type} [DecidableEq κ]

theorem lookup_foldl_erase (keys : List κ) (k : κ) : ∀ table : AList fun _ : κ => ν,
    (keys.foldl (fun table key => table.erase key) table).lookup k = if k ∈ keys then none else table.lookup k := by
  induction keys with
  | nil => exact fun table => rfl
  | cons key keys ih =>
    intro table
    rw [List.foldl_cons, ih]
    rcases eq_or_ne k key with rfl | hne
    · simp [AList.lookup_erase]
    · simp [AList.lookup_erase_ne hne, hne]

/-- A key that is not in the list or has no value keeps its row. -/
theorem lookup_foldl_upsert (values : κ → Option ν) (keys : List κ) (k : κ) : ∀ table : AList fun _ : κ => ν,
    ((rowsOf values keys).foldl upsert table).lookup k =
      if k ∈ keys then (values k).or (table.lookup k) else table.lookup k := by
  induction keys with
  | nil => exact fun table => rfl
  | cons key keys ih =>
    intro table
    cases hv : values key with
    | none =>
      have hrows : rowsOf values (key :: keys) = rowsOf values keys := by simp [rowsOf, hv]
      rw [hrows, ih]
      rcases eq_or_ne k key with rfl | hne
      · simp [hv]
      · simp [hne]
    | some v =>
      have hrows : rowsOf values (key :: keys) = (key, v) :: rowsOf values keys := by simp [rowsOf, hv]
      rw [hrows, List.foldl_cons, ih]
      rcases eq_or_ne k key with rfl | hne
      · simp [upsert, AList.lookup_insert, hv]
      · simp [upsert, AList.lookup_insert_ne hne, hne]

end Rows

/-! ## Acknowledgements -/

section Marks

variable {κ : Type} [DecidableEq κ]

/-- What an acknowledgement does to the marked keys of one set and to the revisions. -/
def acknowledgeMark (snapshotId : Nat) (m : List κ × (κ → Option Nat)) (key : κ) : List κ × (κ → Option Nat) :=
  if Player.isNewer (m.2 key) snapshotId then m else (eraseKey m.1 key, Function.update m.2 key none)

theorem acknowledgeMark_foldl (snapshotId : Nat) (keys : List κ) (k : κ) : ∀ m : List κ × (κ → Option Nat),
    let acknowledged := k ∈ keys ∧ Player.isNewer (m.2 k) snapshotId = false
    let m' := keys.foldl (acknowledgeMark snapshotId) m
    (k ∈ m'.1 ↔ k ∈ m.1 ∧ ¬ acknowledged) ∧ (acknowledged → m'.2 k = none) ∧ (¬ acknowledged → m'.2 k = m.2 k) := by
  induction keys with
  | nil => simp
  | cons key keys ih =>
    intro m
    simp only [List.foldl_cons]
    obtain ⟨hmem, hnone, hkept⟩ := ih (acknowledgeMark snapshotId m key)
    by_cases hnewer : Player.isNewer (m.2 key) snapshotId
    · have hm : acknowledgeMark snapshotId m key = m := if_pos hnewer
      rw [hm] at hmem hnone hkept ⊢
      have hiff : (k ∈ key :: keys ∧ Player.isNewer (m.2 k) snapshotId = false) ↔
          (k ∈ keys ∧ Player.isNewer (m.2 k) snapshotId = false) := by
        rcases eq_or_ne k key with rfl | hne
        · simp [hnewer]
        · simp [hne]
      rw [hiff]
      exact ⟨hmem, hnone, hkept⟩
    · have hm : acknowledgeMark snapshotId m key = (eraseKey m.1 key, Function.update m.2 key none) := if_neg hnewer
      rw [hm] at hmem hnone hkept ⊢
      rcases eq_or_ne k key with rfl | hne
      · -- the key is acknowledged now, and stays so
        have hfirst : k ∉ eraseKey m.1 k := by simp [eraseKey]
        have hrev : (keys.foldl (acknowledgeMark snapshotId) (eraseKey m.1 k, Function.update m.2 k none)).2 k = none := by
          by_cases hin : k ∈ keys
          · exact hnone ⟨hin, by simp [Player.isNewer]⟩
          · exact (hkept fun hcon => hin hcon.1).trans (Function.update_self ..)
        refine ⟨?_, fun _ => hrev, fun hnot => absurd ⟨List.mem_cons_self, by simpa using hnewer⟩ hnot⟩
        rw [hmem]
        simp [hfirst, hnewer]
      · simp only [Function.update_of_ne hne] at hmem hnone hkept
        have hstill : k ∈ eraseKey m.1 key ↔ k ∈ m.1 := by simp [eraseKey, hne]
        simp only [List.mem_cons, hne, false_or]
        exact ⟨hmem.trans (and_congr_left' hstill), hnone, hkept⟩

end Marks

namespace Player

/-- The sets of marked keys agree with the maps. -/
structure Ok (p : Player) : Prop where
  modified : ∀ k ∈ p.modifiedStorageKeys, (p.storageMap k).isSome
  removed : ∀ k ∈ p.removedStorageKeys, p.storageMap k = none
  kept : ∀ k, Player.kept (p.storageMap k) = p.storageMap k
  races : ∀ r ∈ p.modifiedBestiaryRaceIds, (p.bestiaryKills r).isSome
  noRace : p.bestiaryKills 0 = none

variable {p : Player}

theorem kept_kept (value : Option Int64) : kept (kept value) = kept value := by
  cases value with
  | none => rfl
  | some v => simp [kept]

/-- A storage value that does not change leaves the player as it is, any other one marks its key. -/
theorem setStorageValue_cases (key : UInt32) (value : Option Int64) :
    p.setStorageValue key value = p ∨ ∃ modified removed,
      p.setStorageValue key value =
        { p with storageMap := Function.update p.storageMap key (kept value)
                 modifiedStorageKeys := modified
                 removedStorageKeys := removed
                 storageDirtyRevision := p.storageDirtyRevision + 1
                 storageDirtyKeyRevisions :=
                   Function.update p.storageDirtyKeyRevisions key (some (p.storageDirtyRevision + 1)) } ∧
      (∀ k, k ∈ modified ↔ if k = key then (kept value).isSome = true else k ∈ p.modifiedStorageKeys) ∧
      (∀ k, k ∈ removed ↔ if k = key then kept value = none else k ∈ p.removedStorageKeys) := by
  simp only [setStorageValue, creatureSetStorageValue, getStorageValue, Function.update_self, Bool.false_eq_true,
    false_or]
  split
  · rename_i hsame
    left
    rw [← hsame, Function.update_eq_self]
  · right
    split
    · rename_i hsome
      refine ⟨_, _, rfl, fun k => ?_, fun k => ?_⟩
      · split <;> rename_i hk <;> simp [hk, hsome]
      · have hne : kept value ≠ none := Option.isSome_iff_ne_none.mp hsome
        split <;> rename_i hk <;> simp [eraseKey, hk, hne]
    · rename_i hnone
      have heq : kept value = none := by simpa using hnone
      refine ⟨_, _, rfl, fun k => ?_, fun k => ?_⟩
      · split <;> rename_i hk <;> simp [eraseKey, hk, heq]
      · split <;> rename_i hk <;> simp [hk, heq]

theorem Ok.setStorageValue (h : p.Ok) (key : UInt32) (value : Option Int64) : (p.setStorageValue key value).Ok := by
  rcases setStorageValue_cases (p := p) key value with hsame | ⟨modified, removed, heq, hmod, hrem⟩
  · rwa [hsame]
  · rw [heq]
    refine ⟨fun k hk => ?_, fun k hk => ?_, fun k => ?_, h.races, h.noRace⟩
    · rw [hmod] at hk
      rcases eq_or_ne k key with rfl | hne
      · simpa using hk
      · simp only [hne, if_false] at hk
        simpa [hne] using h.modified k hk
    · rw [hrem] at hk
      rcases eq_or_ne k key with rfl | hne
      · simpa using hk
      · simp only [hne, if_false] at hk
        simpa [hne] using h.removed k hk
    · rcases eq_or_ne k key with rfl | hne
      · simp [kept_kept]
      · simpa [hne] using h.kept k

theorem setBestiaryKillCount_cases (raceId : UInt16) (count : UInt32) :
    p.setBestiaryKillCount raceId count = p ∨ raceId ≠ 0 ∧
      p.setBestiaryKillCount raceId count =
        { p with bestiaryKills := Function.update p.bestiaryKills raceId (some count)
                 modifiedBestiaryRaceIds := p.modifiedBestiaryRaceIds.insert raceId
                 bestiaryDirtyRevision := p.bestiaryDirtyRevision + 1
                 bestiaryDirtyRaceRevisions :=
                   Function.update p.bestiaryDirtyRaceRevisions raceId (some (p.bestiaryDirtyRevision + 1)) } := by
  rw [setBestiaryKillCount]
  split
  · exact .inl rfl
  · rename_i hzero
    split
    · exact .inl rfl
    · exact .inr ⟨hzero, rfl⟩

theorem addBestiaryKillCount_cases (raceId : UInt16) (amount : UInt32) :
    p.addBestiaryKillCount raceId amount = p ∨
      ∃ count, p.addBestiaryKillCount raceId amount = p.setBestiaryKillCount raceId count := by
  simp only [addBestiaryKillCount]
  split
  · exact .inl rfl
  · exact .inr ⟨_, rfl⟩

theorem Ok.setBestiaryKillCount (h : p.Ok) (raceId : UInt16) (count : UInt32) :
    (p.setBestiaryKillCount raceId count).Ok := by
  rcases setBestiaryKillCount_cases (p := p) raceId count with hsame | ⟨hzero, heq⟩
  · rwa [hsame]
  · rw [heq]
    refine ⟨h.modified, h.removed, h.kept, fun r hr => ?_, ?_⟩
    · rcases eq_or_ne r raceId with rfl | hne
      · simp
      · rw [List.mem_insert_iff] at hr
        simpa [hne] using h.races r (hr.resolve_left hne)
    · simpa [Ne.symm hzero] using h.noRace

/-- What the acknowledgement of a snapshot leaves of the storage. -/
theorem acknowledgeStorageDirty_eq (snapshot : StorageDirtySnapshot) : ∃ modified removed revisions,
    p.acknowledgeStorageDirty snapshot =
      { p with modifiedStorageKeys := modified, removedStorageKeys := removed, storageDirtyKeyRevisions := revisions } ∧
    ∀ k, let acknowledged := (k ∈ snapshot.modifiedKeys ∨ k ∈ snapshot.removedKeys) ∧
        isNewer (p.storageDirtyKeyRevisions k) snapshot.snapshotId = false
      (k ∈ modified ↔ k ∈ p.modifiedStorageKeys ∧ ¬ acknowledged) ∧
      (k ∈ removed ↔ k ∈ p.removedStorageKeys ∧ ¬ acknowledged) ∧
      (acknowledged → revisions k = none) ∧ (¬ acknowledged → revisions k = p.storageDirtyKeyRevisions k) := by
  obtain ⟨id, modifiedKeys, removedKeys⟩ := snapshot
  have hone (p : Player) (key : UInt32) : acknowledgeKey id p key =
      { p with modifiedStorageKeys := (acknowledgeMark id (p.modifiedStorageKeys, p.storageDirtyKeyRevisions) key).1
               removedStorageKeys := (acknowledgeMark id (p.removedStorageKeys, p.storageDirtyKeyRevisions) key).1
               storageDirtyKeyRevisions :=
                 (acknowledgeMark id (p.modifiedStorageKeys, p.storageDirtyKeyRevisions) key).2 } ∧
      (acknowledgeMark id (p.modifiedStorageKeys, p.storageDirtyKeyRevisions) key).2 =
        (acknowledgeMark id (p.removedStorageKeys, p.storageDirtyKeyRevisions) key).2 := by
    simp only [acknowledgeKey, acknowledgeMark]
    split <;> exact ⟨rfl, rfl⟩
  have hall (keys : List UInt32) : ∀ p : Player, keys.foldl (acknowledgeKey id) p =
      { p with modifiedStorageKeys :=
                 (keys.foldl (acknowledgeMark id) (p.modifiedStorageKeys, p.storageDirtyKeyRevisions)).1
               removedStorageKeys :=
                 (keys.foldl (acknowledgeMark id) (p.removedStorageKeys, p.storageDirtyKeyRevisions)).1
               storageDirtyKeyRevisions :=
                 (keys.foldl (acknowledgeMark id) (p.modifiedStorageKeys, p.storageDirtyKeyRevisions)).2 } := by
    induction keys with
    | nil => exact fun p => rfl
    | cons key keys ih =>
      intro p
      obtain ⟨hkey, hsame⟩ := hone p key
      have hpair : ((acknowledgeMark id (p.removedStorageKeys, p.storageDirtyKeyRevisions) key).1,
          (acknowledgeMark id (p.modifiedStorageKeys, p.storageDirtyKeyRevisions) key).2) =
          acknowledgeMark id (p.removedStorageKeys, p.storageDirtyKeyRevisions) key := by rw [hsame]
      rw [List.foldl_cons, ih, hkey, List.foldl_cons, List.foldl_cons]
      simp only [hpair]
  refine ⟨_, _, _, hall _ p, fun k => ?_⟩
  obtain ⟨hmod, hnone, hkept⟩ := acknowledgeMark_foldl id (modifiedKeys ++ removedKeys) k
    (p.modifiedStorageKeys, p.storageDirtyKeyRevisions)
  obtain ⟨hrem, -, -⟩ := acknowledgeMark_foldl id (modifiedKeys ++ removedKeys) k
    (p.removedStorageKeys, p.storageDirtyKeyRevisions)
  rw [List.mem_append] at hmod hnone hkept hrem
  exact ⟨hmod, hrem, hnone, hkept⟩

theorem acknowledgeBestiaryDirty_eq (snapshot : BestiaryDirtySnapshot) : ∃ modified revisions,
    p.acknowledgeBestiaryDirty snapshot =
      { p with modifiedBestiaryRaceIds := modified, bestiaryDirtyRaceRevisions := revisions } ∧
    ∀ r, let acknowledged := r ∈ snapshot.modifiedRaceIds ∧
        isNewer (p.bestiaryDirtyRaceRevisions r) snapshot.snapshotId = false
      (r ∈ modified ↔ r ∈ p.modifiedBestiaryRaceIds ∧ ¬ acknowledged) ∧
      (acknowledged → revisions r = none) ∧ (¬ acknowledged → revisions r = p.bestiaryDirtyRaceRevisions r) := by
  obtain ⟨id, raceIds⟩ := snapshot
  have hone (p : Player) (r : UInt16) : acknowledgeRaceId id p r =
      { p with
        modifiedBestiaryRaceIds := (acknowledgeMark id (p.modifiedBestiaryRaceIds, p.bestiaryDirtyRaceRevisions) r).1
        bestiaryDirtyRaceRevisions :=
          (acknowledgeMark id (p.modifiedBestiaryRaceIds, p.bestiaryDirtyRaceRevisions) r).2 } := by
    simp only [acknowledgeRaceId, acknowledgeMark]
    split <;> rfl
  have hall (races : List UInt16) : ∀ p : Player, races.foldl (acknowledgeRaceId id) p =
      { p with
        modifiedBestiaryRaceIds :=
          (races.foldl (acknowledgeMark id) (p.modifiedBestiaryRaceIds, p.bestiaryDirtyRaceRevisions)).1
        bestiaryDirtyRaceRevisions :=
          (races.foldl (acknowledgeMark id) (p.modifiedBestiaryRaceIds, p.bestiaryDirtyRaceRevisions)).2 } := by
    induction races with
    | nil => exact fun p => rfl
    | cons r races ih =>
      intro p
      rw [List.foldl_cons, ih, hone, List.foldl_cons]
  exact ⟨_, _, hall _ p, fun r => acknowledgeMark_foldl id raceIds r _⟩

end Player

end ForgottenServer
