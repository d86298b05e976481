import ForgottenServer.Lib.Transaction
import ForgottenServer.Player.Dirty

/-! # The queries of a save

`savePlayerQueries` (`iologindata.cpp`) makes the list of statements that writes a player. A
flush executes it in a transaction, and so does the recovery of a flush that was under way when
the server stopped. -/

namespace ForgottenServer.Replay

open Transaction

/-! ## The database -/

inductive Cell where
  | number (n : ℤ)
  | text (bytes : List UInt8)
  deriving DecidableEq

/-- The columns of `players` that a save writes as they are. -/
inductive Column where
  | level | reset | group_id | vocation | health | healthmax | experience
  | lookbody | lookfeet | lookhead | looklegs | looktype | lookaddons | lookmount | currentmount | randomizemount
  | maglevel | mana | manamax | manaspent | soul | town_id | posx | posy | posz | cap | sex
  | lastlogin | lastip | conditions | skulltime | skull
  | lastlogout | balance | bonus_rerolls | charmpoints | task_hunting_points | bounty_points | soulseals_points
  | has_weekly_expansion | xpboost_value | xpboost_stamina | offlinetraining_time | offlinetraining_skill | stamina
  | skill_fist | skill_fist_tries | skill_club | skill_club_tries | skill_sword | skill_sword_tries
  | skill_axe | skill_axe_tries | skill_dist | skill_dist_tries | skill_shielding | skill_shielding_tries
  | skill_fishing | skill_fishing_tries | direction | protection_time
  | blessings1 | blessings2 | blessings3 | blessings4 | blessings5 | blessings6 | blessings7 | blessings8
  | blessings | token_protected | token_hash
  deriving DecidableEq

structure PlayersRow where
  cells : Column → Cell
  onlinetime : ℤ

/-- The tables whose rows of a player are deleted and inserted again. -/
inductive ListTable where
  | spells | items | depotitems | inboxitems | rewarditems | storeinboxitems | autolootconfig | outfits | mounts
  deriving DecidableEq

/-- The columns after `player_id`. -/
abbrev Row := List Cell

namespace ListTable

/-- The columns of a unique key, next to `player_id`. -/
def uniqueKey : ListTable → Option (Row → Row)
  | spells | items => none
  | depotitems | inboxitems | rewarditems | storeinboxitems => some fun row => (row.drop 1).take 1
  | autolootconfig => some fun _ => []
  | outfits | mounts => some fun row => row.take 1

/-- `player_id` references `players`. -/
def references : ListTable → Bool
  | autolootconfig | mounts => false
  | _ => true

end ListTable

/-- The rows of a player in `player_storage` and `player_bestiary_kills`. -/
structure KeyedRows where
  storage : UInt32 → Option Int64
  kills : UInt16 → Option UInt32

structure BosstiaryRow where
  points : ℤ := 0
  slotOne : ℤ := 0
  slotTwo : ℤ := 0
  removeTimes : ℤ := 0

def BosstiaryRow.setPoints (row : BosstiaryRow) (points : ℤ) : BosstiaryRow := { row with points }

structure Database where
  players : ℕ → Option PlayersRow
  lists : ListTable → ℕ → List Row
  keyed : ℕ → KeyedRows
  bosstiary : ℕ → Option BosstiaryRow

/-! ## Statements -/

inductive Assignment where
  | set (column : Column) (value : Cell)
  /-- `onlinetime = onlinetime + seconds` -/
  | addOnlinetime (seconds : ℤ)

def Assignment.apply (row : PlayersRow) : Assignment → PlayersRow
  | set column value => { row with cells := Function.update row.cells column value }
  | addOnlinetime seconds => { row with onlinetime := row.onlinetime + seconds }

inductive SaveQuery where
  | updatePlayer (guid : ℕ) (assignments : List Assignment)
  | deleteAll (table : ListTable) (guid : ℕ)
  | insert (table : ListTable) (guid : ℕ) (rows : List Row)
  /-- A statement about the storage or the bestiary. -/
  | keyed (guid : ℕ) (query : Query)
  | upsertBosstiary (guid : ℕ) (points : ℤ)

def KeyedRows.execute (rows : KeyedRows) : Query → KeyedRows
  | .deleteStorage keys => { rows with storage := fun k => if k ∈ keys then none else rows.storage k }
  | .upsertStorage new => { rows with storage := overwrite (new.map fun row => (row.1, some row.2)) rows.storage }
  | .upsertKills new => { rows with kills := overwrite (new.map fun row => (row.1, some row.2)) rows.kills }

/-- The statement inserts rows, which have to reference a player. -/
def adds : Query → Prop
  | .deleteStorage _ => False
  | .upsertStorage new => new ≠ []
  | .upsertKills new => new ≠ []

instance : DecidablePred adds := fun query => by
  cases query <;> unfold adds <;> infer_instance

namespace Database

def setList (db : Database) (table : ListTable) (guid : ℕ) (rows : List Row) : Database :=
  { db with lists := fun t g => if t = table ∧ g = guid then rows else db.lists t g }

/-- A row that references no player or repeats a unique key is an error. -/
def insertRow (table : ListTable) (guid : ℕ) (db : Database) (row : Row) : Option Database :=
  if table.references ∧ db.players guid = none then none
  else if table.uniqueKey.any fun key => key row ∈ (db.lists table guid).map key then none
  else some (db.setList table guid (db.lists table guid ++ [row]))

end Database

def SaveQuery.execute : SaveQuery → Statement Database
  | updatePlayer guid assignments, db =>
    some { db with players :=
      Function.update db.players guid ((db.players guid).map fun row => assignments.foldl Assignment.apply row) }
  | deleteAll table guid, db => some (db.setList table guid [])
  | insert table guid rows, db => rows.foldlM (Database.insertRow table guid) db
  | keyed guid query, db =>
    if adds query ∧ db.players guid = none then none
    else some { db with keyed := Function.update db.keyed guid ((db.keyed guid).execute query) }
  | upsertBosstiary guid points, db =>
    some { db with bosstiary :=
      Function.update db.bosstiary guid (some (((db.bosstiary guid).getD {}).setPoints points)) }

/-! ## `DBInsert` -/

/-- `done` has the rows of the queries that were made, `length` is that of the query under way. -/
structure DBInsert where
  done : List (List Row) := []
  values : List Row := []
  length : ℕ

namespace DBInsert

def execute (base : ℕ) (query : DBInsert) : DBInsert :=
  if query.values = [] then query else { done := query.done ++ [query.values], length := base }

/-- A query that the row would make too long is executed. -/
def makeRoom (maxQueryLength base : ℕ) (rowLength : Row → ℕ) (query : DBInsert) (row : Row) : DBInsert :=
  let hasRows := query.values ≠ []
  let projectedRowLength := rowLength row + if hasRows then 3 else 2
  if hasRows ∧ query.length + projectedRowLength > maxQueryLength then query.execute base else query

def addRow (maxQueryLength base : ℕ) (rowLength : Row → ℕ) (query : DBInsert) (row : Row) : DBInsert :=
  let query := query.makeRoom maxQueryLength base rowLength row
  { query with
    values := query.values ++ [row]
    length := query.length + rowLength row + if query.values = [] then 2 else 3 }

/-- The rows of each query for a list of rows. -/
def queries (maxQueryLength base : ℕ) (rowLength : Row → ℕ) (rows : List Row) : List (List Row) :=
  ((rows.foldl (addRow maxQueryLength base rowLength) { length := base }).execute base).done

theorem flatten_execute (base : ℕ) (query : DBInsert) :
    (query.execute base).done.flatten ++ (query.execute base).values = query.done.flatten ++ query.values := by
  rw [execute]
  split
  · rfl
  · simp

theorem flatten_addRow (maxQueryLength base : ℕ) (rowLength : Row → ℕ) (query : DBInsert) (row : Row) :
    (query.addRow maxQueryLength base rowLength row).done.flatten ++
      (query.addRow maxQueryLength base rowLength row).values = query.done.flatten ++ query.values ++ [row] := by
  have hroom : (query.makeRoom maxQueryLength base rowLength row).done.flatten ++
      (query.makeRoom maxQueryLength base rowLength row).values = query.done.flatten ++ query.values := by
    simp only [makeRoom]
    generalize (rowLength row + if query.values ≠ [] then 3 else 2) = projected
    split
    · exact flatten_execute base query
    · rfl
  rw [addRow, ← List.append_assoc, hroom]

theorem values_execute (base : ℕ) (query : DBInsert) : (query.execute base).values = [] := by
  rw [execute]
  split
  · assumption
  · rfl

/-- However the rows are put into queries, these are the rows. -/
theorem flatten_queries (maxQueryLength base : ℕ) (rowLength : Row → ℕ) (rows : List Row) :
    (queries maxQueryLength base rowLength rows).flatten = rows := by
  have hall : ∀ query : DBInsert, (rows.foldl (addRow maxQueryLength base rowLength) query).done.flatten ++
      (rows.foldl (addRow maxQueryLength base rowLength) query).values = query.done.flatten ++ query.values ++ rows := by
    induction rows with
    | nil => exact fun query => (List.append_nil _).symm
    | cons row rows ih =>
      intro query
      rw [List.foldl_cons, ih, flatten_addRow, List.append_assoc, List.singleton_append]
  have hlast := flatten_execute base (rows.foldl (addRow maxQueryLength base rowLength) { length := base })
  rw [values_execute, List.append_nil, hall] at hlast
  exact hlast

end DBInsert

/-! ## `savePlayerQueries` -/

/-- What a save reads of the server: the world type and what makes `DBInsert` end a query. -/
structure SaveEnv where
  pvpEnforced : Bool
  maxQueryLength : ℕ
  queryLength : ListTable → ℕ
  rowLength : Row → ℕ

/-- What a save reads of a player. `cells` has the values of the columns, `rows` the rows of the lists:
the number of an item, an outfit and a mount occurs once in a list. -/
structure SavedPlayer where
  player : Player
  guid : ℕ
  isOffline : Bool
  lastLoginSaved : ℤ
  lastIP : ℕ
  cells : Column → Cell
  rows : ListTable → List Row
  autoLootConfig : List UInt8
  depotNeedsSave : Bool
  bosstiaryPoints : ℤ
  distinct : ∀ table key, table.uniqueKey = some key → ((rows table).map key).Nodup

namespace SavedPlayer

variable (p : SavedPlayer)

def set (columns : List Column) : List Assignment := columns.map fun column => .set column (p.cells column)

/-- The statement that writes the row of the player itself. -/
def assignments (env : SaveEnv) (now : ℤ) : List Assignment :=
  p.set [.level, .reset, .group_id, .vocation, .health, .healthmax, .experience, .lookbody, .lookfeet, .lookhead,
    .looklegs, .looktype, .lookaddons, .lookmount, .currentmount, .randomizemount, .maglevel, .mana, .manamax,
    .manaspent, .soul, .town_id, .posx, .posy, .posz, .cap, .sex] ++
  (if p.lastLoginSaved ≠ 0 then p.set [.lastlogin] else []) ++
  (if p.lastIP ≠ 0 then p.set [.lastip] else []) ++
  p.set [.conditions] ++
  (if env.pvpEnforced then [] else p.set [.skulltime, .skull]) ++
  p.set [.lastlogout, .balance, .bonus_rerolls, .charmpoints, .task_hunting_points, .bounty_points,
    .soulseals_points, .has_weekly_expansion, .xpboost_value, .xpboost_stamina, .offlinetraining_time,
    .offlinetraining_skill, .stamina, .skill_fist, .skill_fist_tries, .skill_club, .skill_club_tries, .skill_sword,
    .skill_sword_tries, .skill_axe, .skill_axe_tries, .skill_dist, .skill_dist_tries, .skill_shielding,
    .skill_shielding_tries, .skill_fishing, .skill_fishing_tries, .direction, .protection_time] ++
  (if p.isOffline then [] else [.addOnlinetime (now - p.lastLoginSaved)]) ++
  p.set [.blessings1, .blessings2, .blessings3, .blessings4, .blessings5, .blessings6, .blessings7, .blessings8,
    .blessings, .token_protected, .token_hash]

def listRows : ListTable → List Row
  | .autolootconfig => [[.text p.autoLootConfig]]
  | table => p.rows table

/-- The rows of the player are deleted and inserted again. -/
def saveList (env : SaveEnv) (table : ListTable) : List SaveQuery :=
  .deleteAll table p.guid ::
    (DBInsert.queries env.maxQueryLength (env.queryLength table) env.rowLength (p.rows table)).map
      (.insert table p.guid)

def saveAutoLootConfig : List SaveQuery :=
  [.deleteAll .autolootconfig p.guid, .insert .autolootconfig p.guid [[.text p.autoLootConfig]]]

def savePlayerQueries (env : SaveEnv) (now : ℤ) : List SaveQuery :=
  if p.player.saveFlag = false then [.updatePlayer p.guid (p.set [.lastlogin, .lastip])]
  else
    [.updatePlayer p.guid (p.assignments env now)] ++
    p.saveList env .spells ++
    p.saveList env .items ++
    (if p.depotNeedsSave then p.saveList env .depotitems else []) ++
    p.saveList env .inboxitems ++
    p.saveList env .rewarditems ++
    p.saveList env .storeinboxitems ++
    p.saveAutoLootConfig ++
    (p.player.savePlayerQueries p.player.getBestiaryDirtySnapshot).map (.keyed p.guid) ++
    [.upsertBosstiary p.guid p.bosstiaryPoints] ++
    p.saveList env .outfits ++
    p.saveList env .mounts

/-- The save adds to the online time. -/
def countsOnline : Bool := p.player.saveFlag && !p.isOffline

end SavedPlayer

/-- `flushPlayerSave` of a snapshot, or its recovery. -/
def flushPlayerSave (queries : List SaveQuery) (db : Database) : Database :=
  commit (queries.map SaveQuery.execute) db

end ForgottenServer.Replay
