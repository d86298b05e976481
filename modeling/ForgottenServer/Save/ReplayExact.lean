import ForgottenServer.Player.Tracking
import ForgottenServer.Save.Replay

/-! # What a save does, once and again

Each block of the list of queries either writes its part of the player or fails, because its rows
have no player to reference. All that is written is written as it is, but for the online time,
which is added to. -/

namespace ForgottenServer.Replay

open Transaction

/-- The queries make the change `f`, if they need no row of the player in `players` or there is one. -/
structure Writes (guid : ℕ) (queries : List SaveQuery) (needs : Prop) (f : Database → Database) : Prop where
  does : Does (queries.map SaveQuery.execute) (fun db => needs → db.players guid ≠ none) f
  keeps : ∀ db, (f db).players guid = none ↔ db.players guid = none

namespace Writes

variable {guid : ℕ} {queries queries' : List SaveQuery} {needs needs' : Prop} {f f' : Database → Database}

theorem nil (guid : ℕ) : Writes guid [] False id := by
  refine ⟨⟨fun _ => rfl, fun h => ?_⟩, fun db => Iff.rfl⟩
  exact absurd (fun hfalse => False.elim hfalse) h

theorem append (h : Writes guid queries needs f) (h' : Writes guid queries' needs' f') :
    Writes guid (queries ++ queries') (needs ∨ needs') (f' ∘ f) := by
  have hboth := h.does.append_stable h'.does fun db => by rw [ne_eq, ne_eq, h.keeps]
  refine ⟨?_, fun db => (h'.keeps (f db)).trans (h.keeps db)⟩
  rw [List.map_append]
  constructor
  · intro db hdb
    exact hboth.done ⟨fun hn => hdb (.inl hn), fun hn => hdb (.inr hn)⟩
  · intro db hdb
    exact hboth.fails fun hdb' => hdb fun hn => hn.elim hdb'.1 hdb'.2

theorem congr (h : Writes guid queries needs f) (hneeds : needs ↔ needs') (hf : f = f') :
    Writes guid queries needs' f' := by
  rw [← hf, ← propext hneeds]
  exact h

/-- A statement that always succeeds. -/
theorem single {query : SaveQuery} (hdone : ∀ db, query.execute db = some (f db))
    (hkeeps : ∀ db, (f db).players guid = none ↔ db.players guid = none) : Writes guid [query] False f := by
  refine ⟨⟨fun {db} _ => ?_, fun h => ?_⟩, hkeeps⟩
  · rw [List.map_singleton, execute, hdone db]
    rfl
  · exact absurd (fun hfalse => False.elim hfalse) h

end Writes

/-! ## The lists -/

namespace Database

variable (db : Database) (table : ListTable) (guid : ℕ)

theorem lists_setList_self (rows : List Row) : (db.setList table guid rows).lists table guid = rows := by
  simp [setList]

theorem setList_setList (rows rows' : List Row) :
    (db.setList table guid rows).setList table guid rows' = db.setList table guid rows' := by
  have hlists : ((db.setList table guid rows).setList table guid rows').lists =
      (db.setList table guid rows').lists := by
    funext t g
    by_cases h : t = table ∧ g = guid <;> simp [setList, h]
  rw [setList, setList, Database.mk.injEq]
  exact ⟨rfl, hlists, rfl, rfl⟩

end Database

variable {table : ListTable} {guid : ℕ} {db : Database} {rows : List Row}

/-- Rows that fit are inserted after those that are there. -/
theorem foldlM_insertRow (hrow : table.references = true → db.players guid ≠ none) :
    ∀ done : List Row, (∀ key, table.uniqueKey = some key → ((done ++ rows).map key).Nodup) →
      rows.foldlM (Database.insertRow table guid) (db.setList table guid done) =
        some (db.setList table guid (done ++ rows)) := by
  induction rows with
  | nil =>
    intro done _
    rw [List.append_nil]
    rfl
  | cons row rows ih =>
    intro done hkeys
    have hpass : Database.insertRow table guid (db.setList table guid done) row =
        some (db.setList table guid (done ++ [row])) := by
      have hunique : (table.uniqueKey.any fun key => key row ∈ done.map key) = false := by
        cases hkey : table.uniqueKey with
        | none => rfl
        | some key =>
          have hnodup := hkeys key hkey
          rw [List.map_append, List.map_cons, List.nodup_append] at hnodup
          rw [Option.any_some, decide_eq_false_iff_not]
          exact fun hmem => hnodup.2.2 _ hmem _ (List.mem_cons_self ..) rfl
      have hplayers : ¬(table.references = true ∧ (db.setList table guid done).players guid = none) :=
        fun h => hrow h.1 h.2
      rw [Database.insertRow, if_neg hplayers, Database.lists_setList_self, hunique, if_neg Bool.false_ne_true,
        Database.setList_setList]
    have hrest := ih (done ++ [row]) fun key hkey => by
      rw [List.append_assoc]
      exact hkeys key hkey
    rw [List.foldlM_cons, hpass]
    refine hrest.trans ?_
    rw [List.append_assoc, List.singleton_append]

theorem foldlM_insertRow_fails (href : table.references = true) (hnone : db.players guid = none) (hrows : rows ≠ []) :
    rows.foldlM (Database.insertRow table guid) db = none := by
  obtain ⟨row, rest, rfl⟩ := List.exists_cons_of_ne_nil hrows
  rw [List.foldlM_cons, Database.insertRow, if_pos ⟨href, hnone⟩]
  rfl

/-- It does not matter how the rows are put into queries. -/
theorem execute_inserts (chunks : List (List Row)) (db : Database) :
    execute ((chunks.map (.insert table guid)).map SaveQuery.execute) db =
      chunks.flatten.foldlM (Database.insertRow table guid) db := by
  induction chunks generalizing db with
  | nil => rfl
  | cons chunk chunks ih =>
    rw [List.flatten_cons, List.foldlM_append, List.map_cons, List.map_cons, execute, SaveQuery.execute]
    exact congrArg _ (funext ih)

theorem writes_list (table : ListTable) {chunks : List (List Row)} (hchunks : chunks.flatten = rows)
    (hkeys : ∀ key, table.uniqueKey = some key → (rows.map key).Nodup) :
    Writes guid (.deleteAll table guid :: chunks.map (.insert table guid)) (table.references = true ∧ rows ≠ [])
      (fun db => db.setList table guid rows) := by
  have hexec : ∀ db, execute ((SaveQuery.deleteAll table guid :: chunks.map (.insert table guid)).map
      SaveQuery.execute) db = rows.foldlM (Database.insertRow table guid) (db.setList table guid []) := by
    intro db
    rw [List.map_cons, execute, SaveQuery.execute, Option.bind_some, execute_inserts, hchunks]
  refine ⟨⟨?_, ?_⟩, fun db => Iff.rfl⟩
  · intro db hdb
    rw [hexec]
    by_cases hrows : rows = []
    · rw [hrows]
      rfl
    · exact foldlM_insertRow (fun href => hdb ⟨href, hrows⟩) [] hkeys
  · intro db hdb
    obtain ⟨⟨href, hrows⟩, hnone⟩ := Classical.not_imp.mp hdb
    rw [hexec]
    exact foldlM_insertRow_fails href (not_not.mp hnone) hrows

/-! ## The storage and the bestiary -/

def keyedRow {κ ν : Type} (row : κ × ν) : κ × Option ν := (row.1, some row.2)

theorem foldl_savePlayerQueries {p : Player} (hflag : p.saveFlag = true) (snapshot : BestiaryDirtySnapshot)
    (rows : KeyedRows) : (p.savePlayerQueries snapshot).foldl KeyedRows.execute rows =
      { storage := overwrite ((rowsOf p.storageMap p.modifiedStorageKeys).map keyedRow)
          fun k => if k ∈ p.removedStorageKeys then none else rows.storage k
        kills := overwrite ((rowsOf p.bestiaryKills snapshot.modifiedRaceIds).map keyedRow) rows.kills } := by
  have hdelete : (if p.removedStorageKeys = [] then [] else [Query.deleteStorage p.removedStorageKeys]).foldl
      KeyedRows.execute rows =
        { rows with storage := fun k => if k ∈ p.removedStorageKeys then none else rows.storage k } := by
    split
    · rename_i hnil
      simp [hnil]
    · rfl
  have hupsert : ∀ rows : KeyedRows, (if p.modifiedStorageKeys = [] then []
      else [Query.upsertStorage (rowsOf p.storageMap p.modifiedStorageKeys)]).foldl KeyedRows.execute rows =
        { rows with storage := overwrite ((rowsOf p.storageMap p.modifiedStorageKeys).map keyedRow) rows.storage } := by
    intro rows
    split
    · rename_i hnil
      rw [hnil]
      rfl
    · rfl
  have hkills : ∀ rows : KeyedRows, (if snapshot.modifiedRaceIds = [] then []
      else [Query.upsertKills (rowsOf p.bestiaryKills snapshot.modifiedRaceIds)]).foldl KeyedRows.execute rows =
        { rows with kills :=
            overwrite ((rowsOf p.bestiaryKills snapshot.modifiedRaceIds).map keyedRow) rows.kills } := by
    intro rows
    split
    · rename_i hnil
      rw [hnil]
      rfl
    · rfl
  rw [Player.savePlayerQueries, hflag, if_neg (by simp), List.foldl_append, List.foldl_append, hdelete, hupsert, hkills]

/-- What was written is forgotten when it is written again. -/
theorem foldl_savePlayerQueries_again {p : Player} (hflag : p.saveFlag = true) (snapshot : BestiaryDirtySnapshot)
    (rows : KeyedRows) :
    (p.savePlayerQueries snapshot).foldl KeyedRows.execute ((p.savePlayerQueries snapshot).foldl KeyedRows.execute rows) =
      (p.savePlayerQueries snapshot).foldl KeyedRows.execute rows := by
  rw [foldl_savePlayerQueries hflag, foldl_savePlayerQueries hflag, KeyedRows.mk.injEq]
  refine ⟨overwrite_congr fun k hk => ?_, overwrite_overwrite _ _⟩
  dsimp only
  rw [overwrite_of_notMem hk]
  split <;> rfl

/-- What a lookup finds in the rows of a player. -/
def KeyedRows.ofRows (rows : PlayerRows) : KeyedRows := ⟨rows.storage.lookup, rows.kills.lookup⟩

theorem lookup_foldl_rows {κ ν : Type} [DecidableEq κ] (new : List (κ × ν)) (table : AList fun _ : κ => ν) :
    (new.foldl upsert table).lookup = overwrite (new.map keyedRow) table.lookup := by
  induction new generalizing table with
  | nil => rfl
  | cons row new ih =>
    have hrow : (upsert table row).lookup = Function.update table.lookup row.1 (some row.2) := by
      funext k
      by_cases hk : k = row.1
      · rw [hk, upsert, AList.lookup_insert, Function.update_self]
      · rw [upsert, AList.lookup_insert_ne hk, Function.update_of_ne hk]
    rw [List.foldl_cons, ih, hrow]
    rfl

/-- The statements do to the rows what they do to the values that are looked up. -/
theorem ofRows_execute (rows : PlayerRows) (query : Query) :
    KeyedRows.ofRows (query.execute rows) = (KeyedRows.ofRows rows).execute query := by
  cases query with
  | deleteStorage keys =>
    have hlookup : (keys.foldl (fun table key => table.erase key) rows.storage).lookup =
        fun k => if k ∈ keys then none else rows.storage.lookup k :=
      funext fun k => lookup_foldl_erase keys k rows.storage
    rw [KeyedRows.ofRows, Query.execute, KeyedRows.execute, hlookup]
    rfl
  | upsertStorage new =>
    rw [KeyedRows.ofRows, Query.execute, lookup_foldl_rows]
    rfl
  | upsertKills new =>
    rw [KeyedRows.ofRows, Query.execute, lookup_foldl_rows]
    rfl

/-- Any statements about the storage and the bestiary. -/
theorem writes_keyed (guid : ℕ) (queries : List Query) :
    Writes guid (queries.map (.keyed guid)) (∃ query ∈ queries, adds query) (fun db =>
      { db with keyed := Function.update db.keyed guid (queries.foldl KeyedRows.execute (db.keyed guid)) }) := by
  induction queries with
  | nil =>
    refine (Writes.nil guid).congr (by simp) (funext fun db => ?_)
    rw [List.foldl_nil, Function.update_eq_self]
    rfl
  | cons query queries ih =>
    have hone : Writes guid [.keyed guid query] (adds query) (fun db =>
        { db with keyed := Function.update db.keyed guid ((db.keyed guid).execute query) }) := by
      refine ⟨⟨?_, ?_⟩, fun db => Iff.rfl⟩
      · intro db hdb
        rw [List.map_singleton, execute, SaveQuery.execute, if_neg fun h => hdb h.1 h.2]
        rfl
      · intro db hdb
        obtain ⟨hadds, hnone⟩ := Classical.not_imp.mp hdb
        rw [List.map_singleton, execute, SaveQuery.execute, if_pos ⟨hadds, not_not.mp hnone⟩]
        rfl
    refine (hone.append ih).congr (by simp) (funext fun db => ?_)
    simp only [Function.comp_apply, Function.update_self, Function.update_idem, List.foldl_cons]

namespace SavedPlayer

variable (p : SavedPlayer) (env : SaveEnv) (now : ℤ)

theorem writes_saveList (table : ListTable) :
    Writes p.guid (p.saveList env table) (table.references = true ∧ p.rows table ≠ [])
      (fun db => db.setList table p.guid (p.rows table)) :=
  writes_list table (DBInsert.flatten_queries ..) (p.distinct table)

theorem writes_saveAutoLootConfig : Writes p.guid p.saveAutoLootConfig False
    (fun db => db.setList .autolootconfig p.guid [[.text p.autoLootConfig]]) := by
  have hrows : ([[[.text p.autoLootConfig]]] : List (List Row)).flatten = [[.text p.autoLootConfig]] := rfl
  refine (writes_list .autolootconfig hrows ?_).congr ?_ rfl
  · intro key _
    exact List.nodup_singleton _
  · simp [ListTable.references]

theorem writes_if {guid : ℕ} {queries : List SaveQuery} {needs : Prop} {f : Database → Database} (b : Bool)
    (h : Writes guid queries needs f) :
    Writes guid (if b then queries else []) (b = true ∧ needs) (if b then f else id) := by
  cases b with
  | false => exact (Writes.nil guid).congr (by simp) rfl
  | true => exact h.congr (by simp) rfl

/-- The lists that a save writes. -/
def saves : ListTable → Bool
  | .depotitems => p.depotNeedsSave
  | _ => true

/-- The change of a whole save. -/
def write (db : Database) : Database where
  players := Function.update db.players p.guid
    ((db.players p.guid).map fun row => (p.assignments env now).foldl Assignment.apply row)
  lists t g := if g = p.guid ∧ p.saves t then p.listRows t else db.lists t g
  keyed := Function.update db.keyed p.guid
    ((p.player.savePlayerQueries p.player.getBestiaryDirtySnapshot).foldl KeyedRows.execute (db.keyed p.guid))
  bosstiary := Function.update db.bosstiary p.guid
    (some (((db.bosstiary p.guid).getD {}).setPoints p.bosstiaryPoints))

theorem writes_updatePlayer (guid : ℕ) (assignments : List Assignment) :
    Writes guid [.updatePlayer guid assignments] False (fun db =>
      { db with players := Function.update db.players guid
                  ((db.players guid).map fun row => assignments.foldl Assignment.apply row) }) := by
  refine Writes.single (fun _ => rfl) fun db => ?_
  simp

theorem writes_upsertBosstiary (guid : ℕ) (points : ℤ) :
    Writes guid [.upsertBosstiary guid points] False (fun db =>
      { db with bosstiary := Function.update db.bosstiary guid
                  (some (((db.bosstiary guid).getD {}).setPoints points)) }) :=
  Writes.single (fun _ => rfl) fun _ => Iff.rfl

/-- The save needs a row of the player if it inserts any that references it. -/
theorem writes_savePlayerQueries (hflag : p.player.saveFlag = true) :
    ∃ needs, Writes p.guid (p.savePlayerQueries env now) needs (p.write env now) := by
  have hall := (((((((((((writes_updatePlayer p.guid (p.assignments env now)).append
    (p.writes_saveList env .spells)).append (p.writes_saveList env .items)).append
    (writes_if p.depotNeedsSave (p.writes_saveList env .depotitems))).append
    (p.writes_saveList env .inboxitems)).append (p.writes_saveList env .rewarditems)).append
    (p.writes_saveList env .storeinboxitems)).append p.writes_saveAutoLootConfig).append
    (writes_keyed p.guid (p.player.savePlayerQueries p.player.getBestiaryDirtySnapshot))).append
    (writes_upsertBosstiary p.guid p.bosstiaryPoints)).append (p.writes_saveList env .outfits)).append
    (p.writes_saveList env .mounts)
  rw [savePlayerQueries, hflag, if_neg (by simp)]
  refine ⟨_, hall.congr Iff.rfl (funext fun db => ?_)⟩
  have hlists : ∀ t g, (if t = .mounts ∧ g = p.guid then p.rows .mounts else
      if t = .outfits ∧ g = p.guid then p.rows .outfits else
      if t = .autolootconfig ∧ g = p.guid then [[.text p.autoLootConfig]] else
      if t = .storeinboxitems ∧ g = p.guid then p.rows .storeinboxitems else
      if t = .rewarditems ∧ g = p.guid then p.rows .rewarditems else
      if t = .inboxitems ∧ g = p.guid then p.rows .inboxitems else
      if p.depotNeedsSave = true ∧ t = .depotitems ∧ g = p.guid then p.rows .depotitems else
      if t = .items ∧ g = p.guid then p.rows .items else
      if t = .spells ∧ g = p.guid then p.rows .spells else db.lists t g) =
      if g = p.guid ∧ p.saves t then p.listRows t else db.lists t g := by
    intro t g
    by_cases hg : g = p.guid <;> cases t <;> simp [hg, saves, listRows]
  rw [write, ← funext fun t => funext fun g => hlists t g]
  cases hdepot : p.depotNeedsSave <;> simp [Database.setList]

end SavedPlayer

/-! ## The row of the player -/

def Assignment.absolute : Assignment → Option (Column × Cell)
  | set column value => some (column, value)
  | addOnlinetime _ => none

def Assignment.seconds : Assignment → ℤ
  | set .. => 0
  | addOnlinetime seconds => seconds

theorem foldl_apply (assignments : List Assignment) (row : PlayersRow) :
    assignments.foldl Assignment.apply row =
      { cells := overwrite (assignments.filterMap Assignment.absolute) row.cells
        onlinetime := row.onlinetime + (assignments.map Assignment.seconds).sum } := by
  induction assignments generalizing row with
  | nil => simp [overwrite]
  | cons assignment assignments ih =>
    rw [List.foldl_cons, ih]
    cases assignment with
    | set column value => simp [Assignment.apply, Assignment.absolute, Assignment.seconds, overwrite]
    | addOnlinetime seconds =>
      have hnone : Assignment.absolute (.addOnlinetime seconds) = none := rfl
      rw [List.filterMap_cons_none hnone, List.map_cons, List.sum_cons, ← add_assoc]
      rfl

theorem foldl_apply_again_iff (assignments : List Assignment) (row : PlayersRow) :
    assignments.foldl Assignment.apply (assignments.foldl Assignment.apply row) =
      assignments.foldl Assignment.apply row ↔ (assignments.map Assignment.seconds).sum = 0 := by
  rw [foldl_apply, foldl_apply, PlayersRow.mk.injEq]
  dsimp only
  rw [overwrite_overwrite]
  constructor
  · intro h
    omega
  · intro h
    exact ⟨rfl, by omega⟩

namespace SavedPlayer

variable (p : SavedPlayer) (env : SaveEnv) (now : ℤ)

theorem seconds_set (columns : List Column) : ((p.set columns).map Assignment.seconds).sum = 0 := by
  induction columns with
  | nil => rfl
  | cons column columns ih =>
    rw [set, List.map_cons, List.map_cons, List.sum_cons]
    exact (zero_add _).trans ih

theorem seconds_assignments : ((p.assignments env now).map Assignment.seconds).sum =
    if p.isOffline then 0 else now - p.lastLoginSaved := by
  have hif : ∀ (c : Prop) [Decidable c] (columns : List Column),
      ((if c then p.set columns else []).map Assignment.seconds).sum = 0 := by
    intro c _ columns
    split
    · exact p.seconds_set columns
    · rfl
  have hunless : ∀ (b : Bool) (columns : List Column),
      ((if b then [] else p.set columns).map Assignment.seconds).sum = 0 := by
    intro b columns
    cases b
    · exact p.seconds_set columns
    · rfl
  have honline : ((if p.isOffline then [] else [Assignment.addOnlinetime (now - p.lastLoginSaved)]).map
      Assignment.seconds).sum = if p.isOffline then 0 else now - p.lastLoginSaved := by
    cases p.isOffline <;> simp [Assignment.seconds]
  simp only [assignments, List.map_append, List.sum_append, seconds_set, hif, hunless, honline, zero_add, add_zero]

/-! ## Replays -/

/-- A change of the row that made twice is the change made once is one of the whole database. -/
theorem write_again (hflag : p.player.saveFlag = true) {db : Database}
    (hrow : ∀ row, db.players p.guid = some row →
      (p.assignments env now).foldl Assignment.apply ((p.assignments env now).foldl Assignment.apply row) =
        (p.assignments env now).foldl Assignment.apply row) :
    p.write env now (p.write env now db) = p.write env now db := by
  have hplayers : ((db.players p.guid).map fun row => (p.assignments env now).foldl Assignment.apply row).map
      (fun row => (p.assignments env now).foldl Assignment.apply row) =
        (db.players p.guid).map fun row => (p.assignments env now).foldl Assignment.apply row := by
    cases h : db.players p.guid with
    | none => rfl
    | some row => exact congrArg some (hrow row h)
  have hlists : ∀ t g, (if g = p.guid ∧ p.saves t then p.listRows t
      else if g = p.guid ∧ p.saves t then p.listRows t else db.lists t g) =
        if g = p.guid ∧ p.saves t then p.listRows t else db.lists t g := by
    intro t g
    split <;> rfl
  have hkeyed := foldl_savePlayerQueries_again hflag p.player.getBestiaryDirtySnapshot (db.keyed p.guid)
  simp only [write, Function.update_self, Function.update_idem, hplayers, hlists, hkeyed]
  rfl

/-- The change of a save of a player who is not to be saved. -/
theorem commit_unsaved (hflag : p.player.saveFlag = false) (db : Database) :
    flushPlayerSave (p.savePlayerQueries env now) (flushPlayerSave (p.savePlayerQueries env now) db) =
      flushPlayerSave (p.savePlayerQueries env now) db := by
  rw [savePlayerQueries, if_pos hflag]
  have hwrites := writes_updatePlayer p.guid (p.set [.lastlogin, .lastip])
  refine hwrites.does.commit_commit (fun _ h => h.elim) fun _ => ?_
  have hagain : ∀ row : PlayersRow, (p.set [.lastlogin, .lastip]).foldl Assignment.apply
      ((p.set [.lastlogin, .lastip]).foldl Assignment.apply row) =
        (p.set [.lastlogin, .lastip]).foldl Assignment.apply row :=
    fun row => (foldl_apply_again_iff _ row).mpr (p.seconds_set _)
  simp only [Function.update_self, Function.update_idem, Option.map_map, Function.comp_def, hagain]

/-- A save that adds no time, or that has no row to add it to, can be replayed. -/
theorem commit_again {db : Database}
    (h : p.countsOnline = false ∨ now = p.lastLoginSaved ∨ db.players p.guid = none) :
    flushPlayerSave (p.savePlayerQueries env now) (flushPlayerSave (p.savePlayerQueries env now) db) =
      flushPlayerSave (p.savePlayerQueries env now) db := by
  cases hflag : p.player.saveFlag with
  | false => exact p.commit_unsaved env now hflag db
  | true =>
    obtain ⟨needs, hwrites⟩ := p.writes_savePlayerQueries env now hflag
    refine hwrites.does.commit_commit (fun hdb hn hnone => hdb hn ((hwrites.keeps db).mp hnone)) fun _ => ?_
    refine p.write_again env now hflag fun row hrow => ?_
    rw [foldl_apply_again_iff, seconds_assignments]
    rcases h with hcount | hnow | hnone
    · rw [countsOnline, hflag, Bool.true_and, Bool.not_eq_false'] at hcount
      rw [hcount, if_pos rfl]
    · rw [hnow, sub_self, ite_self]
    · rw [hnone] at hrow
      cases hrow

/-- The row of the player after a save. -/
theorem players_flushPlayerSave {db : Database} {row : PlayersRow} (hrow : db.players p.guid = some row) :
    ∃ row', (flushPlayerSave (p.savePlayerQueries env now) db).players p.guid = some row' ∧
      row'.onlinetime = row.onlinetime + if p.countsOnline then now - p.lastLoginSaved else 0 := by
  cases hflag : p.player.saveFlag with
  | false =>
    have hwrites := writes_updatePlayer p.guid (p.set [.lastlogin, .lastip])
    have hcommit := hwrites.does.commit_eq (s := db) fun h => h.elim
    refine ⟨(p.set [.lastlogin, .lastip]).foldl Assignment.apply row, ?_, ?_⟩
    · rw [savePlayerQueries, if_pos hflag, flushPlayerSave, hcommit]
      simp [hrow]
    · rw [foldl_apply, countsOnline, hflag, seconds_set]
      rfl
  | true =>
    obtain ⟨needs, hwrites⟩ := p.writes_savePlayerQueries env now hflag
    have hcommit := hwrites.does.commit_eq (s := db) fun _ hnone => by
      rw [hrow] at hnone
      cases hnone
    refine ⟨(p.assignments env now).foldl Assignment.apply row, ?_, ?_⟩
    · rw [flushPlayerSave, hcommit]
      simp [write, hrow]
    · rw [foldl_apply, countsOnline, hflag, seconds_assignments]
      cases p.isOffline <;> rfl

/-- Replays leave the database as it is exactly where no time is added. -/
theorem replay_iff (db : Database) :
    (∀ n, 0 < n → (flushPlayerSave (p.savePlayerQueries env now))^[n] db =
      flushPlayerSave (p.savePlayerQueries env now) db) ↔
      p.countsOnline = false ∨ now = p.lastLoginSaved ∨ db.players p.guid = none := by
  constructor
  · intro h
    by_contra hnot
    rw [not_or, not_or, Bool.not_eq_false] at hnot
    obtain ⟨hcount, hnow, hrow⟩ := hnot
    obtain ⟨row, hrow⟩ := Option.ne_none_iff_exists'.mp hrow
    obtain ⟨row', hrow', honline⟩ := p.players_flushPlayerSave env now hrow
    obtain ⟨row'', hrow'', honline'⟩ := p.players_flushPlayerSave env now hrow'
    have htwice : flushPlayerSave (p.savePlayerQueries env now) (flushPlayerSave (p.savePlayerQueries env now) db) =
        flushPlayerSave (p.savePlayerQueries env now) db := h 2 two_pos
    rw [htwice, hrow', Option.some.injEq] at hrow''
    rw [← hrow'', hcount, if_pos rfl] at honline'
    omega
  · intro h n hn
    exact commit_iterate (p.commit_again env now h) hn

end SavedPlayer

/-! ## Sessions -/

/-- A save of a session: the player as it is then, and the time. -/
structure SessionSave where
  player : SavedPlayer
  now : ℤ

def flushSaves (env : SaveEnv) (saves : List SessionSave) (db : Database) : Database :=
  saves.foldl (fun db save => flushPlayerSave (save.player.savePlayerQueries env save.now) db) db

/-- The saves that write the online time. -/
def counted (saves : List SessionSave) : List SessionSave := saves.filter fun save => save.player.countsOnline

/-- How long the player has been online at the last save that writes it. -/
def onlineSeconds (login : ℤ) (saves : List SessionSave) : ℤ :=
  ((counted saves).getLast?.map fun save => save.now - login).getD 0

/-- What is added before the last of these saves. -/
def earlierSeconds (login : ℤ) (saves : List SessionSave) : ℤ :=
  ((counted saves).dropLast.map fun save => save.now - login).sum

theorem players_flushSaves (env : SaveEnv) {guid : ℕ} {login : ℤ} {saves : List SessionSave}
    (hsession : ∀ save ∈ saves, save.player.guid = guid ∧ save.player.lastLoginSaved = login) :
    ∀ {db : Database} {row : PlayersRow}, db.players guid = some row →
      ∃ row', (flushSaves env saves db).players guid = some row' ∧
        row'.onlinetime = row.onlinetime + ((counted saves).map fun save => save.now - login).sum := by
  induction saves with
  | nil =>
    intro db row hrow
    exact ⟨row, hrow, by simp [counted]⟩
  | cons save saves ih =>
    intro db row hrow
    rw [List.forall_mem_cons] at hsession
    obtain ⟨⟨hguid, hlogin⟩, hrest⟩ := hsession
    obtain ⟨row', hrow', honline⟩ := save.player.players_flushPlayerSave env save.now (hguid ▸ hrow)
    obtain ⟨row'', hrow'', honline'⟩ := ih hrest (hguid ▸ hrow')
    refine ⟨row'', hrow'', ?_⟩
    have hcounted : counted (save :: saves) = if save.player.countsOnline then save :: counted saves else counted saves :=
      List.filter_cons
    rw [honline', honline, hlogin, hcounted]
    split
    · rw [List.map_cons, List.sum_cons, add_assoc]
    · rw [add_zero]

theorem sum_counted (login : ℤ) (saves : List SessionSave) :
    ((counted saves).map fun save => save.now - login).sum =
      earlierSeconds login saves + onlineSeconds login saves := by
  rw [earlierSeconds, onlineSeconds]
  rcases List.eq_nil_or_concat (counted saves) with hnil | ⟨earlier, last, hlast⟩
  · rw [hnil]
    rfl
  · simp [hlast]

/-- The column grows by the online time exactly where nothing was added before. -/
theorem session_iff (env : SaveEnv) {guid : ℕ} {login : ℤ} {saves : List SessionSave}
    (hsession : ∀ save ∈ saves, save.player.guid = guid ∧ save.player.lastLoginSaved = login) {db : Database}
    {row : PlayersRow} (hrow : db.players guid = some row) :
    ((flushSaves env saves db).players guid).map (·.onlinetime) =
      some (row.onlinetime + onlineSeconds login saves) ↔ earlierSeconds login saves = 0 := by
  obtain ⟨row', hrow', honline⟩ := players_flushSaves env hsession hrow
  rw [hrow', Option.map_some, Option.some.injEq, honline, sum_counted]
  omega

/-- Where no save is made before the login, nothing is added before if all is saved at once. -/
theorem earlierSeconds_eq_zero_iff {login : ℤ} {saves : List SessionSave} (hafter : ∀ save ∈ saves, login ≤ save.now) :
    earlierSeconds login saves = 0 ↔ ∀ save ∈ (counted saves).dropLast, save.now = login := by
  have hnonneg : ∀ seconds ∈ (counted saves).dropLast.map fun save => save.now - login, 0 ≤ seconds := by
    intro seconds hmem
    obtain ⟨save, hsave, rfl⟩ := List.mem_map.mp hmem
    have hle := hafter save (List.mem_of_mem_filter (List.mem_of_mem_dropLast hsave))
    omega
  constructor
  · intro h save hsave
    have hzero := List.all_zero_of_le_zero_le_of_sum_eq_zero hnonneg h (List.mem_map_of_mem hsave)
    omega
  · intro h
    refine List.sum_eq_zero fun seconds hmem => ?_
    obtain ⟨save, hsave, rfl⟩ := List.mem_map.mp hmem
    rw [h save hsave, sub_self]

/-- **A save can be replayed, and a session counts its time, exactly where no time is added twice**:
the save adds none or finds no row, and what the earlier saves of the session add is nothing. -/
theorem replay_exact (env : SaveEnv) :
    (∀ (p : SavedPlayer) now db,
      (∀ n, 0 < n → (flushPlayerSave (p.savePlayerQueries env now))^[n] db =
        flushPlayerSave (p.savePlayerQueries env now) db) ↔
        p.countsOnline = false ∨ now = p.lastLoginSaved ∨ db.players p.guid = none) ∧
    (∀ guid login saves,
      (∀ save ∈ saves, save.player.guid = guid ∧ save.player.lastLoginSaved = login) →
      (∀ db row, db.players guid = some row →
        (((flushSaves env saves db).players guid).map (·.onlinetime) =
          some (row.onlinetime + onlineSeconds login saves) ↔ earlierSeconds login saves = 0)) ∧
      ((∀ save ∈ saves, login ≤ save.now) →
        (earlierSeconds login saves = 0 ↔ ∀ save ∈ (counted saves).dropLast, save.now = login))) :=
  ⟨fun p now db => p.replay_iff env now db, fun _ _ _ hsession =>
    ⟨fun _ _ hrow => session_iff env hsession hrow, earlierSeconds_eq_zero_iff⟩⟩

/-! ## A session -/

/-- A player who has been online for some time. -/
def onlinePlayer : SavedPlayer where
  player := {}
  guid := 1
  isOffline := false
  lastLoginSaved := 100
  lastIP := 0
  cells _ := .number 0
  rows _ := []
  autoLootConfig := []
  depotNeedsSave := false
  bosstiaryPoints := 0
  distinct _ _ _ := List.nodup_nil

/-- A database in which the player has a row. -/
def smallDatabase : Database where
  players guid := if guid = 1 then some ⟨fun _ => .number 0, 0⟩ else none
  lists _ _ := []
  keyed _ := ⟨fun _ => none, fun _ => none⟩
  bosstiary _ := none

def smallEnv : SaveEnv := ⟨false, 1000, fun _ => 0, fun _ => 0⟩

/-- A single save counts the minute. -/
theorem replay_exact_minute :
    ((flushSaves smallEnv [⟨onlinePlayer, 160⟩] smallDatabase).players 1).map (·.onlinetime) = some 60 :=
  (((replay_exact smallEnv).2 1 100 [⟨onlinePlayer, 160⟩] (by simp [onlinePlayer])).1 smallDatabase
    ⟨fun _ => .number 0, 0⟩ rfl).mpr rfl

/-- After a minute online a replay adds the minute again, and a save a minute later adds two. -/
theorem replay_exact_minutes :
    flushPlayerSave (onlinePlayer.savePlayerQueries smallEnv 160)
        (flushPlayerSave (onlinePlayer.savePlayerQueries smallEnv 160) smallDatabase) ≠
      flushPlayerSave (onlinePlayer.savePlayerQueries smallEnv 160) smallDatabase ∧
    ((flushSaves smallEnv [⟨onlinePlayer, 160⟩, ⟨onlinePlayer, 220⟩] smallDatabase).players 1).map
      (·.onlinetime) ≠ some 120 := by
  have hrow : smallDatabase.players 1 = some ⟨fun _ => .number 0, 0⟩ := rfl
  constructor
  · intro h
    rcases (onlinePlayer.replay_iff smallEnv 160 smallDatabase).mp fun _ => commit_iterate h with h | h | h
    · cases h
    · cases h
    · exact Option.some_ne_none _ (hrow.symm.trans h)
  · intro h
    have hsession : ∀ save ∈ [⟨onlinePlayer, 160⟩, ⟨onlinePlayer, 220⟩],
        SavedPlayer.guid (SessionSave.player save) = 1 ∧ save.player.lastLoginSaved = 100 := by
      simp [onlinePlayer]
    have hearlier := (session_iff smallEnv hsession hrow).mp h
    cases hearlier

end ForgottenServer.Replay
