import ForgottenServer.Login.Inbox

/-! # Deliveries to inboxes

`Market::insertInboxItems` splits an amount into rows of `player_inboxitems` and inserts them in one transaction, which
is tried again after a deadlock. -/

namespace ForgottenServer.Market.Delivery

/-- A value of an `int` column. -/
abbrev IntColumn := {n : Int // -2 ^ 31 ≤ n ∧ n < 2 ^ 31}

/-- A row of `player_inboxitems`. -/
structure Row where
  sid : IntColumn
  pid : Int
  itemtype : UInt16
  count : Nat
  attributes : List UInt8

/-- The rows of `player_inboxitems` of each player, and the ids in `players`. -/
structure Database where
  players : Nat → Bool
  inbox : Nat → List Row

/-- What `insertInboxItems` reads of an item type. -/
structure ItemType where
  id : UInt16
  stackable : Bool
  stackSize : UInt8

/-- The values of a row as they stand in a query. -/
structure Values where
  sid : Nat
  pid : Int
  itemtype : UInt16
  count : Nat
  attributes : List UInt8

/-- A number that does not fit the column is an error. -/
def Values.row (values : Values) : Option Row :=
  if h : values.sid < 2 ^ 31 then
    some ⟨⟨values.sid, by omega, by omega⟩, values.pid, values.itemtype, values.count, values.attributes⟩
  else none

/-- The queries of one try of the transaction. The insertions are numbered. -/
inductive Query where
  | lockPlayer
  | selectSid
  | insert (number : Nat)
  deriving DecidableEq

/-! ## `DBInsert` -/

/-- What ends a query: its greatest length, the length without rows and the length of a row. -/
structure QueryLengths where
  maxQueryLength : Nat
  query : Nat
  row : Values → Nat

/-- `executed` counts the queries that were made. -/
structure DBInsert where
  values : List Values := []
  length : Nat
  executed : Nat := 0

section

variable (lengths : QueryLengths) (fails : Query → Bool) (playerId : Nat)

/-- All rows of a query or none. -/
def execute (state : DBInsert × Database) : Option (DBInsert × Database) :=
  let (insert, db) := state
  if insert.values.isEmpty then some (insert, db)
  else if fails (.insert insert.executed) then none
  else
    (insert.values.mapM Values.row).map fun rows =>
      ({ length := lengths.query, executed := insert.executed + 1 },
        { db with inbox := Function.update db.inbox playerId (db.inbox playerId ++ rows) })

/-- A query that the row would make too long is executed. -/
def makeRoom (state : DBInsert × Database) (row : Values) : Option (DBInsert × Database) :=
  let hasRows := !state.1.values.isEmpty
  let projectedRowLength := lengths.row row + if hasRows then 3 else 2
  if hasRows && lengths.maxQueryLength < state.1.length + projectedRowLength then
    execute lengths fails playerId state
  else some state

def addRow (state : DBInsert × Database) (row : Values) : Option (DBInsert × Database) :=
  (makeRoom lengths fails playerId state row).map fun (insert, db) =>
    ({ insert with
        values := insert.values ++ [row]
        length := insert.length + lengths.row row + if insert.values.isEmpty then 2 else 3 }, db)

end

/-! ## `insertInboxItems` -/

/-- The column `sid` of `SELECT COALESCE(MAX(`sid`), 100)`. -/
def maxSid (rows : List Row) : Int :=
  match rows.map (·.sid.val) with
  | [] => 100
  | sid :: sids => sids.foldl max sid

/-- `getNumber<uint64_t>("sid") + 1` -/
def firstSid (rows : List Row) : Nat := ((maxSid rows % 2 ^ 64).toNat + 1) % 2 ^ 64

/-- `stackSize` of the code. -/
def ItemType.stack (itemType : ItemType) : Nat := if itemType.stackable then max 1 itemType.stackSize.toNat else 1

/-- The rows of the loop, which takes a stack off the amount in each turn. -/
def stackRows (itemId : UInt16) (attributes : List UInt8) (stackSize : Nat) : Nat → Nat → Nat → List Values
  | 0, _, _ => []
  | fuel + 1, sid, remaining =>
    if remaining = 0 then []
    else
      ⟨sid, 0, itemId, min remaining stackSize, attributes⟩ ::
        stackRows itemId attributes stackSize fuel ((sid + 1) % 2 ^ 64) (remaining - min remaining stackSize)

/-- `rowCount` of the code. -/
def rowCount (itemType : ItemType) (amount : UInt32) (attributes : List UInt8) : Nat :=
  if attributes = [] then 1 + (amount.toNat - 1) / itemType.stack else 1

/-- The callback of the transaction. -/
def insertRows (lengths : QueryLengths) (playerId : Nat) (itemType : ItemType) (amount : UInt32)
    (attributes : List UInt8) (fails : Query → Bool) (db : Database) : Option Database :=
  if fails .lockPlayer || !db.players playerId then none
  else if fails .selectSid then none
  else
    let sid := firstSid (db.inbox playerId)
    if 2 ^ 32 - 1 < (sid + rowCount itemType amount attributes) % 2 ^ 64 then none
    else
      let rows := stackRows itemType.id attributes itemType.stack amount.toNat sid amount.toNat
      (rows.foldlM (addRow lengths fails playerId) ({ length := lengths.query }, db)).bind fun state =>
        (execute lengths fails playerId state).map (·.2)

/-- What a try of the transaction meets. -/
structure Try where
  begins : Bool := true
  fails : Query → Bool := fun _ => false
  commits : Bool := true
  deadlock : Bool := false

def TRANSACTION_MAX_ATTEMPTS : Nat := 3

/-- The tries that are left. A try that fails is rolled back. -/
def tryTransaction (callback : (Query → Bool) → Database → Option Database) (db : Database) :
    List Try → Bool × Database
  | [] => (false, db)
  | t :: tries =>
    if !t.begins then (false, db)
    else match callback t.fails db with
      | none => if t.deadlock then tryTransaction callback db tries else (false, db)
      | some db' =>
        if t.commits then (true, db')
        else if t.deadlock then tryTransaction callback db tries
        else (false, db)

def insertInboxItems (lengths : QueryLengths) (playerId : Nat) (itemType : ItemType) (amount : UInt32)
    (attributes : List UInt8) (tries : List Try) (db : Database) : Bool × Database :=
  if playerId = 0 ∨ itemType.id = 0 ∨ amount = 0 ∨ (attributes ≠ [] ∧ amount ≠ 1) then (false, db)
  else
    tryTransaction (insertRows lengths playerId itemType amount attributes) db (tries.take TRANSACTION_MAX_ATTEMPTS)

/-! ## The rows of an amount -/

theorem ItemType.stack_pos (itemType : ItemType) : 0 < itemType.stack := by
  rw [ItemType.stack]
  split
  · exact Nat.lt_of_lt_of_le Nat.one_pos (le_max_left ..)
  · exact Nat.one_pos

section

variable {itemId : UInt16} {attributes : List UInt8} {stackSize : Nat}

theorem stackRows_sum (itemId : UInt16) (attributes : List UInt8) (hstack : 0 < stackSize) {fuel remaining : Nat}
    (sid : Nat) (hfuel : remaining ≤ fuel) :
    ((stackRows itemId attributes stackSize fuel sid remaining).map (·.count)).sum = remaining := by
  induction fuel generalizing sid remaining with
  | zero => exact (Nat.le_zero.mp hfuel).symm
  | succ fuel ih =>
    rw [stackRows]
    split
    · next hzero => exact hzero.symm
    · rw [List.map_cons, List.sum_cons, ih _ (by omega)]
      exact Nat.add_sub_cancel' (Nat.min_le_left ..)

theorem stackRows_length (itemId : UInt16) (attributes : List UInt8) (hstack : 0 < stackSize) (fuel sid remaining : Nat) :
    (stackRows itemId attributes stackSize fuel sid remaining).length ≤ remaining := by
  induction fuel generalizing sid remaining with
  | zero => exact Nat.zero_le _
  | succ fuel ih =>
    rw [stackRows]
    split
    · exact Nat.zero_le _
    · have := ih ((sid + 1) % 2 ^ 64) (remaining - min remaining stackSize)
      rw [List.length_cons]
      omega

theorem mem_stackRows (hstack : 0 < stackSize) {fuel sid remaining : Nat} {row : Values}
    (hrow : row ∈ stackRows itemId attributes stackSize fuel sid remaining) :
    1 ≤ row.count ∧ row.count ≤ stackSize ∧ row.pid = 0 ∧ row.itemtype = itemId ∧ row.attributes = attributes := by
  induction fuel generalizing sid remaining with
  | zero => exact absurd hrow List.not_mem_nil
  | succ fuel ih =>
    rw [stackRows] at hrow
    split at hrow
    · exact absurd hrow List.not_mem_nil
    · obtain rfl | hrow := List.mem_cons.mp hrow
      · exact ⟨by show 1 ≤ min remaining stackSize; omega, Nat.min_le_right .., rfl, rfl, rfl⟩
      · exact ih hrow

/-- The rows are numbered one after another. -/
theorem stackRows_sids {fuel sid remaining : Nat} (hsid : sid < 2 ^ 64) :
    (stackRows itemId attributes stackSize fuel sid remaining).map (·.sid) =
      (List.range (stackRows itemId attributes stackSize fuel sid remaining).length).map fun i => (sid + i) % 2 ^ 64 := by
  induction fuel generalizing sid remaining with
  | zero => rfl
  | succ fuel ih =>
    rw [stackRows]
    split
    · rfl
    · rw [List.map_cons, ih (Nat.mod_lt _ (by norm_num)), List.length_cons, List.range_succ_eq_map, List.map_cons,
        List.map_map]
      refine List.cons_eq_cons.mpr ⟨(Nat.mod_eq_of_lt hsid).symm, List.map_congr_left fun i _ => ?_⟩
      show ((sid + 1) % 2 ^ 64 + i) % 2 ^ 64 = (sid + (i + 1)) % 2 ^ 64
      omega

end

/-! ## Queries -/

/-- The values with which a row was inserted. -/
def Row.values (row : Row) : Values := ⟨row.sid.val.toNat, row.pid, row.itemtype, row.count, row.attributes⟩

/-- The rows of some values are added to the inbox of a player. -/
def Adds (playerId : Nat) (db db' : Database) (values : List Values) : Prop :=
  ∃ rows : List Row, rows.map Row.values = values ∧ (∀ row ∈ rows, 0 ≤ row.sid.val) ∧
    db' = { db with inbox := Function.update db.inbox playerId (db.inbox playerId ++ rows) }

theorem row_eq_some {values : Values} {row : Row} (h : values.row = some row) :
    row.values = values ∧ 0 ≤ row.sid.val := by
  rw [Values.row] at h
  split at h
  · cases h
    exact ⟨rfl, Int.natCast_nonneg _⟩
  · cases h

theorem mapM_row {values : List Values} {rows : List Row} (h : values.mapM Values.row = some rows) :
    rows.map Row.values = values ∧ ∀ row ∈ rows, 0 ≤ row.sid.val := by
  induction values generalizing rows with
  | nil =>
    cases h
    exact ⟨rfl, fun _ hrow => absurd hrow List.not_mem_nil⟩
  | cons first values ih =>
    rw [List.mapM_cons] at h
    cases hfirst : first.row with
    | none => simp [hfirst] at h
    | some row =>
      cases hrest : values.mapM Values.row with
      | none => simp [hfirst, hrest] at h
      | some rest =>
        simp only [hfirst, hrest, Option.bind_eq_bind, Option.bind_some, Option.pure_def, Option.some.injEq] at h
        subst h
        obtain ⟨hvalues, hpos⟩ := row_eq_some hfirst
        obtain ⟨hvalues', hpos'⟩ := ih hrest
        refine ⟨by rw [List.map_cons, hvalues, hvalues'], fun r hr => ?_⟩
        obtain rfl | hr := List.mem_cons.mp hr
        · exact hpos
        · exact hpos' r hr

namespace Adds

variable {playerId : Nat} {db db' db'' : Database} {values values' : List Values}

theorem refl (playerId : Nat) (db : Database) : Adds playerId db db [] :=
  ⟨[], rfl, fun _ hrow => absurd hrow List.not_mem_nil, by simp⟩

theorem trans (h : Adds playerId db db' values) (h' : Adds playerId db' db'' values') :
    Adds playerId db db'' (values ++ values') := by
  obtain ⟨rows, hrows, hpos, rfl⟩ := h
  obtain ⟨rows', hrows', hpos', rfl⟩ := h'
  refine ⟨rows ++ rows', by rw [List.map_append, hrows, hrows'], fun row hrow => ?_, ?_⟩
  · obtain hrow | hrow := List.mem_append.mp hrow
    · exact hpos row hrow
    · exact hpos' row hrow
  · simp

end Adds

section

variable {lengths : QueryLengths} {fails : Query → Bool} {playerId : Nat} {state state' : DBInsert × Database}

theorem execute_adds (h : execute lengths fails playerId state = some state') :
    Adds playerId state.2 state'.2 state.1.values ∧ state'.1.values = [] := by
  rw [execute] at h
  split at h
  · next hempty =>
    cases h
    rw [List.isEmpty_iff.mp hempty]
    exact ⟨.refl playerId _, rfl⟩
  · split at h
    · cases h
    · obtain ⟨rows, hrows, rfl⟩ := Option.map_eq_some_iff.mp h
      obtain ⟨hvalues, hpos⟩ := mapM_row hrows
      exact ⟨⟨rows, hvalues, hpos, rfl⟩, rfl⟩

/-- What is in the queries that were made and in the one under way. -/
theorem makeRoom_adds {row : Values} (h : makeRoom lengths fails playerId state row = some state') :
    ∃ values, Adds playerId state.2 state'.2 values ∧ values ++ state'.1.values = state.1.values := by
  simp only [makeRoom] at h
  generalize (lengths.row row + if (!state.1.values.isEmpty) = true then 3 else 2) = projected at h
  split at h
  · obtain ⟨hadds, hnil⟩ := execute_adds h
    exact ⟨_, hadds, by rw [hnil, List.append_nil]⟩
  · cases h
    exact ⟨[], .refl playerId _, rfl⟩

theorem addRow_adds {row : Values} (h : addRow lengths fails playerId state row = some state') :
    ∃ values, Adds playerId state.2 state'.2 values ∧ values ++ state'.1.values = state.1.values ++ [row] := by
  rw [addRow] at h
  obtain ⟨room, hroom, rfl⟩ := Option.map_eq_some_iff.mp h
  obtain ⟨values, hadds, hvalues⟩ := makeRoom_adds hroom
  exact ⟨values, hadds, by rw [← hvalues, List.append_assoc]⟩

theorem foldlM_adds {rows : List Values} (h : rows.foldlM (addRow lengths fails playerId) state = some state') :
    ∃ values, Adds playerId state.2 state'.2 values ∧ values ++ state'.1.values = state.1.values ++ rows := by
  induction rows generalizing state with
  | nil =>
    cases h
    exact ⟨[], .refl playerId _, (List.append_nil _).symm⟩
  | cons row rows ih =>
    rw [List.foldlM_cons] at h
    obtain ⟨next, hnext, hrest⟩ := Option.bind_eq_some_iff.mp h
    obtain ⟨values, hadds, hvalues⟩ := addRow_adds hnext
    obtain ⟨values', hadds', hvalues'⟩ := ih hrest
    refine ⟨values ++ values', hadds.trans hadds', ?_⟩
    rw [List.append_assoc, hvalues', ← List.append_assoc, hvalues, List.append_assoc, List.singleton_append]

end

/-- What the callback does: the rows of the amount are added. -/
theorem insertRows_adds {lengths : QueryLengths} {playerId : Nat} {itemType : ItemType} {amount : UInt32}
    {attributes : List UInt8} {fails : Query → Bool} {db db' : Database}
    (h : insertRows lengths playerId itemType amount attributes fails db = some db') :
    Adds playerId db db' (stackRows itemType.id attributes itemType.stack amount.toNat (firstSid (db.inbox playerId))
      amount.toNat) := by
  rw [insertRows] at h
  split at h
  · cases h
  · split at h
    · cases h
    · dsimp only at h
      split at h
      · cases h
      · obtain ⟨state, hfold, hrest⟩ := Option.bind_eq_some_iff.mp h
        obtain ⟨last, hlast, rfl⟩ := Option.map_eq_some_iff.mp hrest
        obtain ⟨values, hadds, hvalues⟩ := foldlM_adds hfold
        have hall := hadds.trans (execute_adds hlast).1
        rw [hvalues, List.nil_append] at hall
        exact hall

/-! ## Whole deliveries -/

theorem foldl_max (sids : List Int) (sid : Int) :
    sid ≤ sids.foldl max sid ∧ (∀ other ∈ sids, other ≤ sids.foldl max sid) ∧
      (sids.foldl max sid = sid ∨ sids.foldl max sid ∈ sids) := by
  induction sids generalizing sid with
  | nil => exact ⟨le_refl _, fun _ h => absurd h List.not_mem_nil, .inl rfl⟩
  | cons first sids ih =>
    obtain ⟨hle, hall, hmem⟩ := ih (max sid first)
    refine ⟨(le_max_left ..).trans hle, fun other hother => ?_, ?_⟩
    · obtain rfl | hother := List.mem_cons.mp hother
      · exact (le_max_right ..).trans hle
      · exact hall other hother
    · rw [List.foldl_cons]
      obtain heq | hin := hmem
      · rw [heq]
        obtain h | h := max_choice sid first
        · exact .inl h
        · exact .inr (by rw [h]; exact List.mem_cons_self)
      · exact .inr (List.mem_cons_of_mem _ hin)

/-- The greatest `sid` is not below that of any row, and it fits its column. -/
theorem maxSid_spec (rows : List Row) :
    (∀ row ∈ rows, row.sid.val ≤ maxSid rows) ∧ -2 ^ 31 ≤ maxSid rows ∧ maxSid rows < 2 ^ 31 := by
  cases rows with
  | nil => exact ⟨fun _ h => absurd h List.not_mem_nil, by decide, by decide⟩
  | cons first rows =>
    obtain ⟨hle, hall, hmem⟩ := foldl_max (rows.map (·.sid.val)) first.sid.val
    show (∀ row ∈ first :: rows, row.sid.val ≤ (rows.map (·.sid.val)).foldl max first.sid.val) ∧
      -2 ^ 31 ≤ (rows.map (·.sid.val)).foldl max first.sid.val ∧
      (rows.map (·.sid.val)).foldl max first.sid.val < 2 ^ 31
    refine ⟨fun row hrow => ?_, ?_⟩
    · obtain rfl | hrow := List.mem_cons.mp hrow
      · exact hle
      · exact hall _ (List.mem_map_of_mem hrow)
    · obtain heq | hin := hmem
      · rw [heq]
        exact first.sid.property
      · obtain ⟨row, -, hrow⟩ := List.mem_map.mp hin
        rw [← hrow]
        exact row.sid.property

/-- The numbers of the new rows: none twice, and none that is there already. -/
theorem sids_new {rows added : List Row} {itemId : UInt16} {attributes : List UInt8} {stackSize : Nat} {amount : UInt32}
    (hstack : 0 < stackSize)
    (hadded : added.map Row.values =
      stackRows itemId attributes stackSize amount.toNat (firstSid rows) amount.toNat)
    (hpos : ∀ row ∈ added, 0 ≤ row.sid.val) :
    (added.map (·.sid)).Nodup ∧ ∀ row ∈ added, ∀ old ∈ rows, row.sid ≠ old.sid := by
  obtain ⟨hmax, hlow, hhigh⟩ := maxSid_spec rows
  have hfirst : firstSid rows < 2 ^ 64 := Nat.mod_lt _ (by norm_num)
  have hlength : added.length < 2 ^ 32 := by
    have hle := stackRows_length itemId attributes hstack amount.toNat (firstSid rows) amount.toNat
    rw [← hadded, List.length_map] at hle
    exact hle.trans_lt amount.toNat_lt
  have hsids : added.map (fun row => row.sid.val.toNat) =
      (List.range added.length).map fun i => (firstSid rows + i) % 2 ^ 64 := by
    have hall := congrArg (List.map (·.sid)) hadded
    rw [stackRows_sids hfirst, ← hadded, List.map_map, List.length_map] at hall
    exact hall
  constructor
  · have hnodup : (added.map fun row => row.sid.val.toNat).Nodup := by
      rw [hsids]
      refine List.Nodup.map_on (fun i hi j hj hij => ?_) List.nodup_range
      rw [List.mem_range] at hi hj
      omega
    refine List.Nodup.of_map (fun sid : IntColumn => sid.val.toNat) ?_
    rw [List.map_map]
    exact hnodup
  · intro row hrow old hold hsame
    have hle := hmax old hold
    have hrange : row.sid.val.toNat ∈ added.map fun row => row.sid.val.toNat := List.mem_map_of_mem hrow
    rw [hsids] at hrange
    obtain ⟨i, hi, hsid⟩ := List.mem_map.mp hrange
    have hnonneg := hpos row hrow
    rw [List.mem_range] at hi
    rw [← hsame] at hle
    rw [firstSid] at hsid
    omega

theorem tryTransaction_cases (callback : (Query → Bool) → Database → Option Database) (db : Database) (tries : List Try) :
    tryTransaction callback db tries = (false, db) ∨
    ∃ fails db', callback fails db = some db' ∧ tryTransaction callback db tries = (true, db') := by
  induction tries with
  | nil => exact .inl rfl
  | cons t tries ih =>
    rw [tryTransaction]
    split
    · exact .inl rfl
    · split
      · split
        · exact ih
        · exact .inl rfl
      · next db' hdone =>
        split
        · exact .inr ⟨t.fails, db', hdone, rfl⟩
        · split
          · exact ih
          · exact .inl rfl

/-- A delivery that succeeds adds rows whose counts sum to the amount, each with at least one item and at most a stack,
with new numbers and the `pid` of an inbox. One that fails leaves the database as it was. -/
theorem delivers_exactly (lengths : QueryLengths) (playerId : Nat) (itemType : ItemType) (amount : UInt32)
    (attributes : List UInt8) (tries : List Try) (db : Database) (env : ObjectEnv) (marketSystemEnabled : Bool) :
    let result := insertInboxItems lengths playerId itemType amount attributes tries db
    (result.1 = true → ∃ rows : List Row,
      result.2 = { db with inbox := Function.update db.inbox playerId (db.inbox playerId ++ rows) } ∧
      (rows.map (·.count)).sum = amount.toNat ∧
      (rows.map (·.sid)).Nodup ∧ (∀ row ∈ rows, ∀ old ∈ db.inbox playerId, row.sid ≠ old.sid) ∧
      ∀ row ∈ rows, 1 ≤ row.count ∧ row.count ≤ itemType.stack ∧
        ((IOLoginData.inboxBlock env marketSystemEnabled).root row.pid).isSome ∧
        row.itemtype = itemType.id ∧ row.attributes = attributes) ∧
    (result.1 = false → result.2 = db) := by
  dsimp only
  rw [insertInboxItems]
  split
  · exact ⟨fun h => (by cases h), fun _ => rfl⟩
  · obtain hfails | ⟨fails, db', hdone, hcommits⟩ := tryTransaction_cases
      (insertRows lengths playerId itemType amount attributes) db (tries.take TRANSACTION_MAX_ATTEMPTS)
    · rw [hfails]
      exact ⟨fun h => (by cases h), fun _ => rfl⟩
    · rw [hcommits]
      refine ⟨fun _ => ?_, fun h => (by cases h)⟩
      obtain ⟨rows, hvalues, hpos, rfl⟩ := insertRows_adds hdone
      obtain ⟨hnodup, hnew⟩ := sids_new itemType.stack_pos hvalues hpos
      refine ⟨rows, rfl, ?_, hnodup, hnew, fun row hrow => ?_⟩
      · have hsum := stackRows_sum itemType.id attributes itemType.stack_pos (firstSid (db.inbox playerId))
          (le_refl amount.toNat)
        rw [← hvalues, List.map_map] at hsum
        exact hsum
      · have hmem : row.values ∈ rows.map Row.values := List.mem_map_of_mem hrow
        rw [hvalues] at hmem
        obtain ⟨hpositive, hle, hpid, htype, hattributes⟩ := mem_stackRows itemType.stack_pos hmem
        refine ⟨hpositive, hle, ?_, htype, hattributes⟩
        have hzero : row.pid = 0 := hpid
        rw [hzero]
        rfl

/-- An inbox with one row. -/
def smallInbox : Database := { players := fun _ => true, inbox := fun _ => [⟨⟨105, by decide⟩, 0, 3031, 7, []⟩] }

/-- A query has room for two rows. -/
def twoRows : QueryLengths := { maxQueryLength := 200, query := 100, row := fun _ => 40 }

/-- The second query of the first try meets a deadlock. -/
def deadlockFirst : List Try := [{ fails := fun query => query = .insert 1, deadlock := true }, {}]

/-- 250 arrows in stacks of 100. -/
theorem delivers_exactly_arrows :
    ∃ rows : List Row,
      (insertInboxItems twoRows 1 ⟨3447, true, 100⟩ 250 [] deadlockFirst smallInbox).2 =
        { smallInbox with inbox := Function.update smallInbox.inbox 1 (smallInbox.inbox 1 ++ rows) } ∧
      (rows.map (·.count)).sum = 250 ∧
      (rows.map (·.sid)).Nodup ∧ (∀ row ∈ rows, ∀ old ∈ smallInbox.inbox 1, row.sid ≠ old.sid) ∧
      ∀ row ∈ rows, 1 ≤ row.count ∧ row.count ≤ 100 ∧
        ((IOLoginData.inboxBlock inboxEnv true).root row.pid).isSome ∧ row.itemtype = 3447 ∧ row.attributes = [] :=
  (delivers_exactly twoRows 1 ⟨3447, true, 100⟩ 250 [] deadlockFirst smallInbox inboxEnv true).1 rfl

end ForgottenServer.Market.Delivery
