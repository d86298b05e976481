import ForgottenServer.Player.Tracking

/-! # Saves of a player object

The invariant of the storage and of the bestiary through changes, snapshots, flushes and
acknowledgements. -/

namespace ForgottenServer

open IOLoginData

/-! ## One snapshot -/

/-- The rows after a flush: a marked key has the value of the memory it was taken from. -/
theorem storageValue_flushPlayerSave {p : Player} (h : p.Ok) (hflag : p.saveFlag = true) (db : PlayerRows) (k : UInt32) :
    (flushPlayerSave (buildPlayerSave p) db).storageValue k =
      if k ∈ p.modifiedStorageKeys ∨ k ∈ p.removedStorageKeys then p.storageMap k else db.storageValue k := by
  have hlookup : (flushPlayerSave (buildPlayerSave p) db).storage.lookup k =
      if k ∈ p.modifiedStorageKeys then p.storageMap k
      else if k ∈ p.removedStorageKeys then none else db.storage.lookup k := by
    have hdel : ((if p.removedStorageKeys = [] then [] else [Query.deleteStorage p.removedStorageKeys]).foldl
        Query.execute db).storage.lookup k = if k ∈ p.removedStorageKeys then none else db.storage.lookup k := by
      split
      · rename_i hnil
        simp [hnil]
      · exact lookup_foldl_erase _ _ _
    have hups (db : PlayerRows) : ((if p.modifiedStorageKeys = [] then []
        else [Query.upsertStorage (rowsOf p.storageMap p.modifiedStorageKeys)]).foldl Query.execute db).storage.lookup k =
        if k ∈ p.modifiedStorageKeys then p.storageMap k else db.storage.lookup k := by
      split
      · rename_i hnil
        simp [hnil]
      · refine (lookup_foldl_upsert _ _ _ _).trans ?_
        split
        · rename_i hk
          obtain ⟨v, hv⟩ := Option.isSome_iff_exists.mp (h.modified k hk)
          simp [hv]
        · rfl
    have hkills (db : PlayerRows) (races : List UInt16) : ((if races = [] then []
        else [Query.upsertKills (rowsOf p.bestiaryKills races)]).foldl Query.execute db).storage = db.storage := by
      split <;> rfl
    simp only [flushPlayerSave, buildPlayerSave, Player.savePlayerQueries, hflag, Bool.true_eq_false, if_false,
      List.foldl_append]
    rw [hkills, hups, hdel]
  rw [PlayerRows.storageValue, hlookup]
  by_cases hmod : k ∈ p.modifiedStorageKeys
  · simp [hmod, h.kept k]
  · by_cases hrem : k ∈ p.removedStorageKeys
    · simp [hmod, hrem, h.removed k hrem, Player.kept]
    · simp [hmod, hrem, PlayerRows.storageValue]

theorem killCount_flushPlayerSave {p : Player} (h : p.Ok) (hflag : p.saveFlag = true) (db : PlayerRows) (r : UInt16) :
    (flushPlayerSave (buildPlayerSave p) db).killCount r =
      if r ∈ p.modifiedBestiaryRaceIds then p.bestiaryKills r else db.killCount r := by
  have hstorage (db : PlayerRows) (p : Player) : ((if p.removedStorageKeys = [] then []
      else [Query.deleteStorage p.removedStorageKeys]).foldl Query.execute db).kills = db.kills := by
    split <;> rfl
  have hups (db : PlayerRows) : ((if p.modifiedStorageKeys = [] then []
      else [Query.upsertStorage (rowsOf p.storageMap p.modifiedStorageKeys)]).foldl Query.execute db).kills = db.kills := by
    split <;> rfl
  have hkills (db : PlayerRows) (races : List UInt16) : ((if races = [] then []
      else [Query.upsertKills (rowsOf p.bestiaryKills races)]).foldl Query.execute db).kills.lookup r =
      if r ∈ races then (p.bestiaryKills r).or (db.kills.lookup r) else db.kills.lookup r := by
    split
    · rename_i hnil
      simp [hnil]
    · exact lookup_foldl_upsert _ _ _ _
  have hlookup : (flushPlayerSave (buildPlayerSave p) db).kills.lookup r =
      if r ∈ p.modifiedBestiaryRaceIds then (p.bestiaryKills r).or (db.kills.lookup r) else db.kills.lookup r := by
    simp only [flushPlayerSave, buildPlayerSave, Player.savePlayerQueries, hflag, Bool.true_eq_false, if_false,
      List.foldl_append]
    rw [hkills, hups, hstorage]
    rfl
  rw [PlayerRows.killCount, hlookup, PlayerRows.killCount]
  by_cases hr : r ∈ p.modifiedBestiaryRaceIds
  · obtain ⟨v, hv⟩ := Option.isSome_iff_exists.mp (h.races r hr)
    have hzero : r ≠ 0 := by
      rintro rfl
      rw [h.noRace] at hv
      cases hv
    simp [hr, hzero, hv]
  · simp [hr]

/-! ## A login -/

theorem load_storage (rows : List (Sigma fun _ : UInt32 => Int64)) : ∀ p : Player, rows.NodupKeys →
    rows.foldl (fun p row => p.setStorageValue row.1 (some row.2) true) p =
      { p with storageMap := fun k => ((rows.dlookup k).map fun v => Player.kept (some v)).getD (p.storageMap k) } := by
  induction rows with
  | nil => exact fun p _ => rfl
  | cons row rows ih =>
    intro p hnodup
    obtain ⟨key, v⟩ := row
    rw [List.nodupKeys_cons] at hnodup
    have hset : p.setStorageValue key (some v) true = p.creatureSetStorageValue key (some v) := by
      simp [Player.setStorageValue]
    rw [List.foldl_cons, hset, ih _ hnodup.2, Player.creatureSetStorageValue]
    congr 1
    funext k
    rcases eq_or_ne k key with rfl | hne
    · rw [List.dlookup_eq_none.mpr hnodup.1, List.dlookup_cons_eq]
      simp
    · rw [List.dlookup_cons_ne _ _ hne]
      simp [hne]

/-- The kills of a race that already had them stay as they are. -/
theorem setBestiaryKillCount_eq (p : Player) (race : UInt16) (v : UInt32) :
    ∃ modified revision revisions, p.setBestiaryKillCount race v =
      { p with bestiaryKills := if race = 0 then p.bestiaryKills else Function.update p.bestiaryKills race (some v)
               modifiedBestiaryRaceIds := modified
               bestiaryDirtyRevision := revision
               bestiaryDirtyRaceRevisions := revisions } := by
  rw [Player.setBestiaryKillCount]
  split
  · exact ⟨_, _, _, rfl⟩
  · split
    · rename_i hsame
      refine ⟨p.modifiedBestiaryRaceIds, p.bestiaryDirtyRevision, p.bestiaryDirtyRaceRevisions, ?_⟩
      rw [← hsame, Function.update_eq_self]
    · exact ⟨_, _, _, rfl⟩

theorem load_kills (rows : List (Sigma fun _ : UInt16 => UInt32)) : ∀ p : Player, rows.NodupKeys →
    ∃ modified revision revisions, rows.foldl (fun p row => p.setBestiaryKillCount row.1 row.2) p =
      { p with bestiaryKills := fun r => if r = 0 then p.bestiaryKills r else (rows.dlookup r).or (p.bestiaryKills r)
               modifiedBestiaryRaceIds := modified
               bestiaryDirtyRevision := revision
               bestiaryDirtyRaceRevisions := revisions } := by
  induction rows with
  | nil =>
    intro p _
    refine ⟨p.modifiedBestiaryRaceIds, p.bestiaryDirtyRevision, p.bestiaryDirtyRaceRevisions, ?_⟩
    simp
  | cons row rows ih =>
    intro p hnodup
    obtain ⟨race, v⟩ := row
    rw [List.nodupKeys_cons] at hnodup
    obtain ⟨_, _, _, hrow⟩ := setBestiaryKillCount_eq p race v
    obtain ⟨modified, revision, revisions, hfold⟩ := ih (p.setBestiaryKillCount race v) hnodup.2
    refine ⟨modified, revision, revisions, ?_⟩
    rw [List.foldl_cons, hfold, hrow]
    congr 1
    funext r
    by_cases hr : r = 0
    · subst hr
      by_cases hrace : race = 0
      · simp [hrace]
      · simp [hrace, Ne.symm hrace]
    · rcases eq_or_ne r race with rfl | hne
      · rw [List.dlookup_eq_none.mpr hnodup.1, List.dlookup_cons_eq]
        simp [hr]
      · rw [List.dlookup_cons_ne _ _ hne]
        by_cases hrace : race = 0
        · simp [hr, hrace]
        · simp [hr, hrace, hne]

/-- The rows are read into the maps, and nothing is marked. -/
theorem loadPlayer_eq (saveFlag : Bool) (db : PlayerRows) : ∃ revision,
    loadPlayer saveFlag db = { saveFlag, storageMap := db.storageValue, bestiaryKills := db.killCount
                               bestiaryDirtyRevision := revision } := by
  obtain ⟨_, revision, _, hfold⟩ := load_kills db.kills.entries
    (db.storage.entries.foldl (fun p row => p.setStorageValue row.1 (some row.2) true) { saveFlag }) db.kills.nodupKeys
  refine ⟨revision, ?_⟩
  simp only [loadPlayer]
  rw [hfold, load_storage _ _ db.storage.nodupKeys]
  simp only [Player.clearBestiaryDirty]
  congr 1
  · funext k
    rw [PlayerRows.storageValue, AList.lookup]
    cases db.storage.entries.dlookup k <;> rfl
  · funext r
    rw [PlayerRows.killCount, AList.lookup]
    split
    · rfl
    · simp

/-! ## The invariant -/

/-- A snapshot, as what it writes to the storage. -/
def PlayerSaveSnapshot.storageView (save : PlayerSaveSnapshot) : WriteBehind.Snapshot UInt32 (Option Int64) where
  id := save.storageSnapshotId
  keys := { k | k ∈ save.snapshotModifiedKeys ∨ k ∈ save.snapshotRemovedKeys }
  value := (flushPlayerSave save {}).storageValue

def PlayerSaveSnapshot.bestiaryView (save : PlayerSaveSnapshot) : WriteBehind.Snapshot UInt16 (Option UInt32) where
  id := save.bestiarySnapshotId
  keys := { r | r ∈ save.snapshotModifiedBestiaryRaceIds }
  value := (flushPlayerSave save {}).killCount

namespace Saving

def storageView (s : Saving) : WriteBehind.State UInt32 (Option Int64) where
  memory := s.player.storageMap
  marked := { k | k ∈ s.player.modifiedStorageKeys ∨ k ∈ s.player.removedStorageKeys }
  revision := s.player.storageDirtyKeyRevisions
  clock := s.player.storageDirtyRevision
  database := s.db.storageValue
  waiting := s.waiting.map (·.storageView)
  written := s.flushed.map (·.storageView)

def bestiaryView (s : Saving) : WriteBehind.State UInt16 (Option UInt32) where
  memory := s.player.bestiaryKills
  marked := { r | r ∈ s.player.modifiedBestiaryRaceIds }
  revision := s.player.bestiaryDirtyRaceRevisions
  clock := s.player.bestiaryDirtyRevision
  database := s.db.killCount
  waiting := s.waiting.map (·.bestiaryView)
  written := s.flushed.map (·.bestiaryView)

/-- A snapshot of a player that is saved. -/
def Built (save : PlayerSaveSnapshot) : Prop := ∃ p : Player, p.Ok ∧ p.saveFlag = true ∧ save = buildPlayerSave p

structure Inv (s : Saving) : Prop where
  ok : s.player.Ok
  flag : s.player.saveFlag = true
  built : ∀ save ∈ s.waiting ++ s.flushed, Built save
  storage : WriteBehind.Inv s.storageView
  bestiary : WriteBehind.Inv s.bestiaryView

theorem inv_start (db : PlayerRows) : Inv (start true db) := by
  obtain ⟨revision, hload⟩ := loadPlayer_eq true db
  constructor
  · rw [start, hload]
    have hzero : db.killCount 0 = none := if_pos rfl
    exact ⟨nofun, nofun, fun k => Player.kept_kept _, nofun, hzero⟩
  · rw [start, hload]
  · exact fun save hsave => absurd hsave List.not_mem_nil
  · refine WriteBehind.Inv.start ?_ (fun k => ?_) rfl rfl
    · rw [storageView, start, hload]
    · rw [storageView, start, hload]
  · refine WriteBehind.Inv.start ?_ (fun k => ?_) rfl rfl
    · rw [bestiaryView, start, hload]
    · rw [bestiaryView, start, hload]

/-! ## Steps -/

variable {s : Saving}

theorem Inv.setStorageValue (h : Inv s) (key : UInt32) (value : Option Int64) :
    Inv (s.step (.setStorageValue key value)) := by
  have hok := h.ok.setStorageValue key value
  rcases Player.setStorageValue_cases (p := s.player) key value with hsame | ⟨modified, removed, heq, hmod, hrem⟩
  · rw [step, hsame]
    exact h
  · rw [heq] at hok
    rw [step, heq]
    refine ⟨hok, h.flag, h.built, ?_, h.bestiary⟩
    refine h.storage.change key (Player.kept value) fun k => ?_
    show k ∈ modified ∨ k ∈ removed ↔ k = key ∨ (k ∈ s.player.modifiedStorageKeys ∨ k ∈ s.player.removedStorageKeys)
    rw [hmod, hrem]
    rcases eq_or_ne k key with rfl | hne
    · cases Player.kept value <;> simp
    · simp [hne]

theorem Inv.setBestiaryKillCount (h : Inv s) (raceId : UInt16) (count : UInt32) :
    Inv { s with player := s.player.setBestiaryKillCount raceId count } := by
  have hok := h.ok.setBestiaryKillCount raceId count
  rcases Player.setBestiaryKillCount_cases (p := s.player) raceId count with hsame | ⟨_, heq⟩
  · rw [hsame]
    exact h
  · rw [heq] at hok ⊢
    exact ⟨hok, h.flag, h.built, h.storage, h.bestiary.change raceId (some count) fun r => List.mem_insert_iff⟩

theorem Inv.addBestiaryKillCount (h : Inv s) (raceId : UInt16) (amount : UInt32) :
    Inv (s.step (.addBestiaryKillCount raceId amount)) := by
  rw [step]
  rcases Player.addBestiaryKillCount_cases (p := s.player) raceId amount with hsame | ⟨count, heq⟩
  · rw [hsame]
    exact h
  · rw [heq]
    exact h.setBestiaryKillCount raceId count

theorem Inv.build (h : Inv s) : Inv (s.step .build) := by
  have hbuilt : Built (buildPlayerSave s.player) := ⟨s.player, h.ok, h.flag, rfl⟩
  refine ⟨h.ok, h.flag, fun save hsave => ?_, ?_, ?_⟩
  · have hor : save ∈ s.waiting ++ s.flushed ∨ save = buildPlayerSave s.player := by
      simpa [step, or_comm, or_left_comm, or_assoc] using hsave
    rcases hor with hold | rfl
    · exact h.built save hold
    · exact hbuilt
  · have hvalue (k : UInt32) (hk : k ∈ s.storageView.marked) :
        s.player.storageMap k = (buildPlayerSave s.player).storageView.value k :=
      ((storageValue_flushPlayerSave h.ok h.flag {} k).trans (if_pos hk)).symm
    rw [storageView, step]
    simp only [List.map_append, List.map_cons, List.map_nil]
    exact h.storage.build rfl rfl hvalue
  · have hvalue (r : UInt16) (hr : r ∈ s.bestiaryView.marked) :
        s.player.bestiaryKills r = (buildPlayerSave s.player).bestiaryView.value r :=
      ((killCount_flushPlayerSave h.ok h.flag {} r).trans (if_pos hr)).symm
    rw [bestiaryView, step]
    simp only [List.map_append, List.map_cons, List.map_nil]
    exact h.bestiary.build rfl rfl hvalue

/-- Snapshots that wait may be dropped. -/
theorem Inv.drop (h : Inv s) {waiting : List PlayerSaveSnapshot} (hsub : waiting.Sublist s.waiting) :
    Inv { s with waiting } where
  ok := h.ok
  flag := h.flag
  built save hsave := h.built save ((hsub.append (List.Sublist.refl _)).subset hsave)
  storage := h.storage.drop (hsub.map _) (List.Sublist.refl _)
  bestiary := h.bestiary.drop (hsub.map _) (List.Sublist.refl _)

theorem Inv.flush (h : Inv s) {save : PlayerSaveSnapshot} {rest : List PlayerSaveSnapshot}
    (hq : s.waiting = save :: rest) :
    Inv { s with db := flushPlayerSave save s.db, waiting := rest, flushed := s.flushed ++ [save] } := by
  obtain ⟨p, hp, hflag, rfl⟩ := h.built save (by simp [hq])
  refine ⟨h.ok, h.flag, fun save' hsave' => h.built save' ?_, ?_, ?_⟩
  · simp only [hq, List.mem_append, List.mem_cons, List.not_mem_nil, or_false] at hsave' ⊢
    tauto
  · have hq' : s.storageView.waiting = (buildPlayerSave p).storageView :: rest.map (·.storageView) := by
      simp [storageView, hq]
    have hflush := storageValue_flushPlayerSave hp hflag
    rw [storageView]
    simp only [List.map_append, List.map_cons, List.map_nil]
    exact h.storage.write hq' (fun k hk => ((hflush s.db k).trans (if_pos hk)).trans
      ((hflush {} k).trans (if_pos hk)).symm) (fun k hk => (hflush s.db k).trans (if_neg hk))
  · have hq' : s.bestiaryView.waiting = (buildPlayerSave p).bestiaryView :: rest.map (·.bestiaryView) := by
      simp [bestiaryView, hq]
    have hflush := killCount_flushPlayerSave hp hflag
    rw [bestiaryView]
    simp only [List.map_append, List.map_cons, List.map_nil]
    exact h.bestiary.write hq' (fun r hr => ((hflush s.db r).trans (if_pos hr)).trans
      ((hflush {} r).trans (if_pos hr)).symm) (fun r hr => (hflush s.db r).trans (if_neg hr))

/-- A key is covered where its revision is not newer than the snapshot. -/
theorem le_iff_isNewer {revision : Option Nat} {id : Nat} :
    (∀ n ∈ revision, n ≤ id) ↔ Player.isNewer revision id = false := by
  cases revision with
  | none => simp [Player.isNewer]
  | some n => simp [Player.isNewer]

theorem covered_storage_iff {save : PlayerSaveSnapshot} {k : UInt32} :
    WriteBehind.Covered s.storageView save.storageView k ↔
      (k ∈ save.snapshotModifiedKeys ∨ k ∈ save.snapshotRemovedKeys) ∧
        Player.isNewer (s.player.storageDirtyKeyRevisions k) save.storageSnapshotId = false :=
  and_congr_right' le_iff_isNewer

theorem covered_bestiary_iff {save : PlayerSaveSnapshot} {r : UInt16} :
    WriteBehind.Covered s.bestiaryView save.bestiaryView r ↔ r ∈ save.snapshotModifiedBestiaryRaceIds ∧
      Player.isNewer (s.player.bestiaryDirtyRaceRevisions r) save.bestiarySnapshotId = false :=
  and_congr_right' le_iff_isNewer

/-- What the acknowledgement of a save leaves of the player. -/
theorem acknowledgePlayerSave_eq (save : PlayerSaveSnapshot) : ∃ modified removed revisions races raceRevisions,
    acknowledgePlayerSave save s.player =
      { s.player with modifiedStorageKeys := modified, removedStorageKeys := removed
                      storageDirtyKeyRevisions := revisions, modifiedBestiaryRaceIds := races
                      bestiaryDirtyRaceRevisions := raceRevisions } ∧
    (∀ k, let covered := WriteBehind.Covered s.storageView save.storageView k
      (k ∈ modified ↔ k ∈ s.player.modifiedStorageKeys ∧ ¬ covered) ∧
      (k ∈ removed ↔ k ∈ s.player.removedStorageKeys ∧ ¬ covered) ∧
      (covered → revisions k = none) ∧ (¬ covered → revisions k = s.player.storageDirtyKeyRevisions k)) ∧
    ∀ r, let covered := WriteBehind.Covered s.bestiaryView save.bestiaryView r
      (r ∈ races ↔ r ∈ s.player.modifiedBestiaryRaceIds ∧ ¬ covered) ∧
      (covered → raceRevisions r = none) ∧ (¬ covered → raceRevisions r = s.player.bestiaryDirtyRaceRevisions r) := by
  obtain ⟨modified, removed, revisions, hstorage, hkeys⟩ := s.player.acknowledgeStorageDirty_eq
    ⟨save.storageSnapshotId, save.snapshotModifiedKeys, save.snapshotRemovedKeys⟩
  obtain ⟨races, raceRevisions, hbestiary, hraces⟩ := Player.acknowledgeBestiaryDirty_eq
    (p := { s.player with modifiedStorageKeys := modified, removedStorageKeys := removed
                          storageDirtyKeyRevisions := revisions })
    ⟨save.bestiarySnapshotId, save.snapshotModifiedBestiaryRaceIds⟩
  refine ⟨modified, removed, revisions, races, raceRevisions, ?_, fun k => ?_, fun r => ?_⟩
  · rw [acknowledgePlayerSave, hstorage]
    exact hbestiary
  · simp only [covered_storage_iff]
    exact hkeys k
  · simp only [covered_bestiary_iff]
    exact hraces r

theorem Inv.acknowledge (h : Inv s) {save : PlayerSaveSnapshot} {rest : List PlayerSaveSnapshot}
    (hq : s.flushed = save :: rest) :
    Inv { s with player := acknowledgePlayerSave save s.player, flushed := rest } := by
  obtain ⟨modified, removed, revisions, races, raceRevisions, heq, hkeys, hraces⟩ := acknowledgePlayerSave_eq (s := s) save
  have hq' : s.storageView.written = save.storageView :: rest.map (·.storageView) := by simp [storageView, hq]
  have hq'' : s.bestiaryView.written = save.bestiaryView :: rest.map (·.bestiaryView) := by simp [bestiaryView, hq]
  rw [heq]
  refine ⟨?_, h.flag, fun save' hsave' => h.built save' ?_, ?_, ?_⟩
  · exact ⟨fun k hk => h.ok.modified k ((hkeys k).1.mp hk).1, fun k hk => h.ok.removed k ((hkeys k).2.1.mp hk).1,
      h.ok.kept, fun r hr => h.ok.races r ((hraces r).1.mp hr).1, h.ok.noRace⟩
  · rw [hq]
    simp only [List.mem_append, List.mem_cons] at hsave' ⊢
    tauto
  · refine h.storage.acknowledge hq' (fun k => ?_) (fun k => (hkeys k).2.2.1) fun k => (hkeys k).2.2.2
    show k ∈ modified ∨ k ∈ removed ↔ _
    rw [(hkeys k).1, (hkeys k).2.1, ← or_and_right]
    rfl
  · exact h.bestiary.acknowledge hq'' (fun r => (hraces r).1) (fun r => (hraces r).2.1) fun r => (hraces r).2.2

theorem Inv.step (h : Inv s) (e : SaveEvent) : Inv (s.step e) := by
  cases e with
  | setStorageValue key value => exact h.setStorageValue key value
  | setBestiaryKillCount raceId count => exact h.setBestiaryKillCount raceId count
  | addBestiaryKillCount raceId amount => exact h.addBestiaryKillCount raceId amount
  | build => exact h.build
  | discard n => exact h.drop (List.eraseIdx_sublist _ _)
  | flush success =>
    rw [Saving.step]
    split
    · exact h
    · rename_i save rest hq
      cases success with
      | true => exact h.flush hq
      | false => exact h.drop (hq ▸ List.sublist_cons_self _ _)
  | acknowledge =>
    rw [Saving.step]
    split
    · exact h
    · rename_i save rest hq
      exact h.acknowledge hq

theorem Inv.run (es : List SaveEvent) : ∀ {s : Saving}, Inv s → Inv (s.run es) := by
  induction es with
  | nil => exact fun h => h
  | cons e es ih => exact fun h => ih (h.step e)

/-! ## Whole runs -/

/-- Memory and rows agree on every key and race, and nothing is marked. -/
structure Synced (s : Saving) : Prop where
  storage : ∀ k, s.player.storageMap k = s.db.storageValue k
  kills : ∀ r, s.player.bestiaryKills r = s.db.killCount r
  modified : s.player.modifiedStorageKeys = []
  removed : s.player.removedStorageKeys = []
  races : s.player.modifiedBestiaryRaceIds = []

/-- Without a change the revisions stand still. -/
theorem revisions_step (s : Saving) {e : SaveEvent} (he : e.isChange = false) :
    (s.step e).player.storageDirtyRevision = s.player.storageDirtyRevision ∧
      (s.step e).player.bestiaryDirtyRevision = s.player.bestiaryDirtyRevision := by
  cases e with
  | setStorageValue | setBestiaryKillCount | addBestiaryKillCount => cases he
  | build | discard => exact ⟨rfl, rfl⟩
  | flush success =>
    rw [step]
    split
    · exact ⟨rfl, rfl⟩
    · split <;> exact ⟨rfl, rfl⟩
  | acknowledge =>
    rw [step]
    split
    · exact ⟨rfl, rfl⟩
    · rename_i save rest _
      obtain ⟨_, _, _, _, _, heq, _⟩ := acknowledgePlayerSave_eq (s := s) save
      rw [heq]
      exact ⟨rfl, rfl⟩

theorem revisions_run (es : List SaveEvent) : ∀ s : Saving, (∀ e ∈ es, e.isChange = false) →
    (s.run es).player.storageDirtyRevision = s.player.storageDirtyRevision ∧
      (s.run es).player.bestiaryDirtyRevision = s.player.bestiaryDirtyRevision := by
  induction es with
  | nil => exact fun s _ => ⟨rfl, rfl⟩
  | cons e es ih =>
    intro s hes
    obtain ⟨hstorage, hbestiary⟩ := revisions_step s (hes e List.mem_cons_self)
    obtain ⟨hstorage', hbestiary'⟩ := ih (s.step e) fun e' he' => hes e' (List.mem_cons_of_mem _ he')
    exact ⟨hstorage'.trans hstorage, hbestiary'.trans hbestiary⟩

/-- The acknowledgement of a snapshot with the revisions of the player settles everything. -/
theorem Inv.synced (h : Inv s) {save : PlayerSaveSnapshot} (hhead : s.flushed.head? = some save)
    (hstorage : save.storageSnapshotId = s.player.storageDirtyRevision)
    (hbestiary : save.bestiarySnapshotId = s.player.bestiaryDirtyRevision) : Synced (s.step .acknowledge) := by
  obtain ⟨rest, hq⟩ := List.head?_eq_some_iff.mp hhead
  obtain ⟨modified, removed, revisions, races, raceRevisions, heq, hkeys, hraces⟩ := acknowledgePlayerSave_eq (s := s) save
  have hmem : save.storageView ∈ s.storageView.written := by simp [storageView, hq]
  have hmem' : save.bestiaryView ∈ s.bestiaryView.written := by simp [bestiaryView, hq]
  obtain ⟨hcovered, hmemory⟩ := h.storage.settled hmem hstorage
  obtain ⟨hcovered', hmemory'⟩ := h.bestiary.settled hmem' hbestiary
  have hstep : s.step .acknowledge = { s with player := acknowledgePlayerSave save s.player, flushed := rest } := by
    rw [Saving.step, hq]
  rw [hstep, heq]
  refine ⟨congrFun hmemory, congrFun hmemory', ?_, ?_, ?_⟩
  · refine List.eq_nil_iff_forall_not_mem.mpr fun k hk => ?_
    obtain ⟨hmarked, hnot⟩ := (hkeys k).1.mp hk
    exact hnot (hcovered k (.inl hmarked))
  · refine List.eq_nil_iff_forall_not_mem.mpr fun k hk => ?_
    obtain ⟨hmarked, hnot⟩ := (hkeys k).2.1.mp hk
    exact hnot (hcovered k (.inr hmarked))
  · refine List.eq_nil_iff_forall_not_mem.mpr fun r hr => ?_
    obtain ⟨hmarked, hnot⟩ := (hraces r).1.mp hr
    exact hnot (hcovered' r hmarked)

/-- In every run of a player that is saved, every key and race that differs from its row is
marked, no key is marked as modified and as removed, and the acknowledgement of a snapshot that
was taken after the last change leaves memory and rows in agreement. -/
theorem dirty_tracking (db : PlayerRows) (es : List SaveEvent) :
    let s := (start true db).run es
    (∀ k, s.player.storageMap k ≠ s.db.storageValue k →
      k ∈ s.player.modifiedStorageKeys ∨ k ∈ s.player.removedStorageKeys) ∧
    (∀ r, s.player.bestiaryKills r ≠ s.db.killCount r → r ∈ s.player.modifiedBestiaryRaceIds) ∧
    (∀ k, ¬ (k ∈ s.player.modifiedStorageKeys ∧ k ∈ s.player.removedStorageKeys)) ∧
    ∀ before after, es = before ++ .build :: after → (∀ e ∈ after, e.isChange = false) →
      s.flushed.head? = some (buildPlayerSave ((start true db).run before).player) → Synced (s.step .acknowledge) := by
  intro s
  have hinv : Inv s := (inv_start db).run es
  refine ⟨hinv.storage.tracked, hinv.bestiary.tracked, ?_, ?_⟩
  · rintro k ⟨hmod, hrem⟩
    have hsome := hinv.ok.modified k hmod
    rw [hinv.ok.removed k hrem] at hsome
    cases hsome
  · intro before after hes hafter hhead
    have hrun : s = (((start true db).run before).step .build).run after := by
      simp only [s, hes, run, List.foldl_append, List.foldl_cons]
    obtain ⟨hstorage, hbestiary⟩ := revisions_run after (((start true db).run before).step .build) hafter
    rw [← hrun] at hstorage hbestiary
    exact hinv.synced hhead hstorage.symm hbestiary.symm

/-- A key is set, removed while the first snapshot is under way, and set again while the second
one waits. The third snapshot settles it. -/
theorem dirty_tracking_three_snapshots :
    let es : List SaveEvent := [.setStorageValue 7 (some 1), .build, .setStorageValue 7 none, .build, .flush true,
      .setStorageValue 7 (some 2), .addBestiaryKillCount 35 1, .acknowledge, .flush false, .build, .flush true]
    Synced (((start true {}).run es).step .acknowledge) := by
  intro es
  refine (dirty_tracking {} es).2.2.2 (es.take 9) [.flush true] rfl ?_ rfl
  decide

/-- A player whose save flag is off is not written, but its marks are taken away. -/
theorem not_saved_not_tracked :
    let s := (start false {}).run [.setStorageValue 7 (some 1), .build, .flush true, .acknowledge]
    s.player.storageMap 7 ≠ s.db.storageValue 7 ∧ 7 ∉ s.player.modifiedStorageKeys ∧
      7 ∉ s.player.removedStorageKeys := by
  decide

end Saving

end ForgottenServer
