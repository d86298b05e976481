import Mathlib

/-! # Inserts in batches

`DBInsert` collects the rows of an `INSERT` and sends them in as few queries as the maximum packet size allows. `length`
follows the length of the query, and a row that would make it too long first sends the rows before it. A character is a
byte. The lengths are those of strings in memory, so that no sum of them wraps. -/

namespace ForgottenServer.Database

abbrev Text := List Char

def DB_INSERT_PACKET_SAFETY_MARGIN : Nat := 4096

structure DBInsert where
  query : Text
  values : Text := []
  upsertClause : Text := []
  length : Nat

/-- What a call returned, and the queries it sent with what the database answered. -/
structure Call where
  result : Bool
  queries : List (Text × Bool) := []

namespace DBInsert

def new (query : Text) : DBInsert := { query, length := query.length }

def isIdentifierHead (c : Char) : Bool := c.isAlpha || c = '_'

def isIdentifierTail (c : Char) : Bool := c.isAlphanum || c = '_'

def isValidSqlIdentifier : Text → Bool
  | [] => false
  | c :: identifier => isIdentifierHead c && identifier.all isIdentifierTail

def upsertColumn (column : Text) : Text :=
  "`".toList ++ column ++ "` = VALUES(`".toList ++ column ++ "`)".toList

def upsert (columns : List Text) (insert : DBInsert) : DBInsert :=
  if columns = [] then insert
  else if columns.all isValidSqlIdentifier then
    { insert with
      upsertClause := " ON DUPLICATE KEY UPDATE ".toList ++ ", ".toList.intercalate (columns.map upsertColumn) }
  else { insert with upsertClause := [] }

variable (executeQuery : Text → Bool)

def execute (insert : DBInsert) : Call × DBInsert :=
  if insert.values = [] then ({ result := true }, insert)
  else
    let fullQuery := insert.query ++ [' '] ++ insert.values ++ insert.upsertClause
    let res := executeQuery fullQuery
    ({ result := res, queries := [(fullQuery, res)] }, { insert with values := [], length := insert.query.length })

/-- The row goes behind those that are there. -/
def append (row : Text) (insert : DBInsert) : DBInsert :=
  if insert.values = [] then
    { insert with values := ['('] ++ row ++ [')'], length := insert.length + (row.length + 2) }
  else
    { insert with
      values := insert.values ++ [','] ++ ['('] ++ row ++ [')'], length := insert.length + (row.length + 3) }

def addRow (maxPacketSize : Nat) (row : Text) (insert : DBInsert) : Call × DBInsert :=
  let maxQueryLength := if DB_INSERT_PACKET_SAFETY_MARGIN < maxPacketSize
    then maxPacketSize - DB_INSERT_PACKET_SAFETY_MARGIN else maxPacketSize
  let hasRows := insert.values ≠ []
  let projectedRowLength := row.length + if hasRows then 3 else 2
  if hasRows ∧ maxQueryLength < insert.length + projectedRowLength then
    let (call, insert) := execute executeQuery insert
    if call.result then (call, insert.append row) else (call, insert)
  else ({ result := true }, insert.append row)

end DBInsert

/-- `addRow` for each row, and `execute`. Each call has the answers that the database gives while it runs. -/
def insertAll (maxPacketSize : Nat) (last : Text → Bool) : List (Text × (Text → Bool)) → DBInsert → List Call
  | [], insert => [(insert.execute last).1]
  | (row, executeQuery) :: rows, insert =>
    let (call, insert) := insert.addRow executeQuery maxPacketSize row
    call :: insertAll maxPacketSize last rows insert

/-! ## Batches -/

def rowText (row : Text) : Text := ['('] ++ row ++ [')']

def valuesText (batch : List Text) : Text := [','].intercalate (batch.map rowText)

/-- The query for a batch. -/
def batchQuery (query upsertClause : Text) (batch : List Text) : Text :=
  query ++ [' '] ++ valuesText batch ++ upsertClause

def queriesOf (calls : List Call) : List Text := calls.flatMap fun call => call.queries.map (·.1)

/-- The insert holds the rows of `batch`, which fit in one query. -/
structure Holds (start : DBInsert) (maxPacketSize : Nat) (batch : List Text) (insert : DBInsert) : Prop where
  query : insert.query = start.query
  upsertClause : insert.upsertClause = start.upsertClause
  values : insert.values = valuesText batch
  length : insert.length = start.query.length + (valuesText batch).length
  fits : 1 < batch.length →
    start.query.length + (valuesText batch).length + DB_INSERT_PACKET_SAFETY_MARGIN ≤ maxPacketSize

theorem valuesText_singleton (row : Text) : valuesText [row] = rowText row := List.intercalate_singleton

theorem valuesText_cons {batch : List Text} (h : batch ≠ []) (row : Text) :
    valuesText (row :: batch) = rowText row ++ [','] ++ valuesText batch := by
  rw [valuesText, List.map_cons, List.intercalate_cons_of_ne_nil (by simpa using h)]
  rfl

theorem valuesText_append {batch : List Text} (h : batch ≠ []) (row : Text) :
    valuesText (batch ++ [row]) = valuesText batch ++ [','] ++ rowText row := by
  induction batch with
  | nil => exact absurd rfl h
  | cons first batch ih =>
    by_cases hnil : batch = []
    · subst hnil
      rw [valuesText_singleton, List.singleton_append, valuesText_cons (List.cons_ne_nil row []), valuesText_singleton]
    · rw [List.cons_append, valuesText_cons (by simp), ih hnil, valuesText_cons hnil]
      simp only [List.append_assoc]

theorem valuesText_eq_nil {batch : List Text} : valuesText batch = [] ↔ batch = [] := by
  constructor
  · intro h
    cases batch with
    | nil => rfl
    | cons row batch =>
      have hlength := congrArg List.length h
      by_cases hnil : batch = []
      · simp [hnil, valuesText, rowText] at hlength
      · simp [valuesText_cons hnil, rowText] at hlength
  · rintro rfl
    rfl

/-! ## One call -/

variable {start insert : DBInsert} {maxPacketSize : Nat} {batch : List Text} {executeQuery : Text → Bool}

/-- A call that sends a batch, and what the database answered. -/
def flush (start : DBInsert) (batch : List Text) (executeQuery : Text → Bool) : Call :=
  let fullQuery := batchQuery start.query start.upsertClause batch
  { result := executeQuery fullQuery, queries := [(fullQuery, executeQuery fullQuery)] }

theorem holds_new (query : Text) (columns : List Text) (maxPacketSize : Nat) :
    Holds ((DBInsert.new query).upsert columns) maxPacketSize [] ((DBInsert.new query).upsert columns) := by
  rw [DBInsert.upsert]
  split
  · exact ⟨rfl, rfl, rfl, rfl, fun h => absurd h (by decide)⟩
  · split
    · exact ⟨rfl, rfl, rfl, rfl, fun h => absurd h (by decide)⟩
    · exact ⟨rfl, rfl, rfl, rfl, fun h => absurd h (by decide)⟩

/-- `execute` sends what there is. -/
theorem Holds.execute (executeQuery : Text → Bool) (h : Holds start maxPacketSize batch insert) :
    ((insert.execute executeQuery).1 = if batch = [] then { result := true } else flush start batch executeQuery) ∧
      Holds start maxPacketSize [] (insert.execute executeQuery).2 := by
  rw [DBInsert.execute]
  split
  · rename_i hvalues
    rw [h.values, valuesText_eq_nil] at hvalues
    subst hvalues
    exact ⟨rfl, h⟩
  · rename_i hvalues
    rw [h.values, valuesText_eq_nil] at hvalues
    rw [if_neg hvalues]
    refine ⟨?_, h.query, h.upsertClause, rfl, ?_, fun hmany => absurd hmany (by decide)⟩
    · simp only [flush, batchQuery, h.query, h.upsertClause, h.values]
    · rw [← h.query]
      rfl

/-- A row that fits goes behind the others. -/
theorem Holds.append {row : Text} (h : Holds start maxPacketSize batch insert)
    (hfits : batch ≠ [] → start.query.length + (valuesText batch).length + (row.length + 3) +
      DB_INSERT_PACKET_SAFETY_MARGIN ≤ maxPacketSize) :
    Holds start maxPacketSize (batch ++ [row]) (insert.append row) := by
  rw [DBInsert.append]
  split
  · rename_i hvalues
    rw [h.values, valuesText_eq_nil] at hvalues
    subst hvalues
    refine ⟨h.query, h.upsertClause, (valuesText_singleton row).symm, ?_, fun hmany => absurd hmany (by simp)⟩
    simp only [h.length, List.nil_append, valuesText_singleton, rowText, List.length_append, List.length_singleton]
    simp only [valuesText, List.map_nil, List.intercalate_nil, List.length_nil]
    omega
  · rename_i hvalues
    rw [h.values, valuesText_eq_nil] at hvalues
    have hlength : (valuesText (batch ++ [row])).length = (valuesText batch).length + (row.length + 3) := by
      rw [valuesText_append hvalues, rowText]
      simp only [List.length_append, List.length_singleton]
      omega
    refine ⟨h.query, h.upsertClause, ?_, ?_, fun _ => ?_⟩
    · rw [valuesText_append hvalues, ← h.values]
      simp [rowText]
    · simp only [h.length, hlength, Nat.add_assoc]
    · rw [hlength, ← Nat.add_assoc]
      exact hfits hvalues

/-- What a call of `addRow` does: it adds the row, or it sends the batch first. Where that fails, nothing is left. -/
inductive RowAdded (start : DBInsert) (maxPacketSize : Nat) (batch : List Text) (row : Text)
    (executeQuery : Text → Bool) : Call → DBInsert → Prop
  | added {insert' : DBInsert} (h : Holds start maxPacketSize (batch ++ [row]) insert') :
    RowAdded start maxPacketSize batch row executeQuery { result := true } insert'
  | flushed {insert' : DBInsert} (hbatch : batch ≠ []) (hres : (flush start batch executeQuery).result = true)
    (h : Holds start maxPacketSize [row] insert') :
    RowAdded start maxPacketSize batch row executeQuery (flush start batch executeQuery) insert'
  | failed {insert' : DBInsert} (hbatch : batch ≠ []) (hres : (flush start batch executeQuery).result = false)
    (h : Holds start maxPacketSize [] insert') :
    RowAdded start maxPacketSize batch row executeQuery (flush start batch executeQuery) insert'

theorem Holds.addRow (hmax : DB_INSERT_PACKET_SAFETY_MARGIN < maxPacketSize) (executeQuery : Text → Bool) (row : Text)
    (h : Holds start maxPacketSize batch insert) : ∃ call insert',
      insert.addRow executeQuery maxPacketSize row = (call, insert') ∧
      RowAdded start maxPacketSize batch row executeQuery call insert' := by
  have hvalues : insert.values = [] ↔ batch = [] := by rw [h.values, valuesText_eq_nil]
  simp only [DBInsert.addRow, if_pos hmax, ne_eq, hvalues]
  by_cases hbatch : batch = []
  · simp only [not_not.mpr hbatch, false_and, if_false]
    exact ⟨_, _, rfl, .added (h.append fun hne => absurd hbatch hne)⟩
  · simp only [hbatch, not_false_eq_true, true_and, if_true]
    by_cases hlong : maxPacketSize - DB_INSERT_PACKET_SAFETY_MARGIN < insert.length + (row.length + 3)
    · obtain ⟨hcall, hempty⟩ := h.execute executeQuery
      rw [if_neg hbatch] at hcall
      rw [if_pos hlong, hcall]
      by_cases hres : (flush start batch executeQuery).result = true
      · rw [if_pos hres]
        exact ⟨_, _, rfl, .flushed hbatch hres (hempty.append fun hne => absurd rfl hne)⟩
      · rw [if_neg hres]
        exact ⟨_, _, rfl, .failed hbatch (Bool.eq_false_of_not_eq_true hres) hempty⟩
    · rw [if_neg hlong]
      refine ⟨_, _, rfl, .added (h.append fun _ => ?_)⟩
      rw [h.length] at hlong
      omega

/-! ## All calls -/

/-- The calls sent these batches. -/
structure Sent (start : DBInsert) (maxPacketSize : Nat) (rows : List Text) (calls : List Call)
    (batches : List (List Text)) : Prop where
  queries : queriesOf calls = batches.map (batchQuery start.query start.upsertClause)
  nonempty : ∀ batch ∈ batches, batch ≠ []
  fits : ∀ batch ∈ batches, 1 < batch.length →
    start.query.length + (valuesText batch).length + DB_INSERT_PACKET_SAFETY_MARGIN ≤ maxPacketSize
  rows : (∀ call ∈ calls, call.result = true) → batches.flatten = rows
  failed : ∀ call ∈ calls, call.result = false ↔ ∃ q ∈ call.queries, q.2 = false

variable {rows rest : List Text} {calls : List Call} {batches : List (List Text)}

/-- A call that sends nothing. -/
theorem Sent.quiet (h : Sent start maxPacketSize rows calls batches) :
    Sent start maxPacketSize rows ({ result := true } :: calls) batches where
  queries := h.queries
  nonempty := h.nonempty
  fits := h.fits
  rows hall := h.rows fun call hcall => hall call (List.mem_cons_of_mem _ hcall)
  failed call hcall := by
    obtain rfl | hcall := List.mem_cons.mp hcall
    · simp
    · exact h.failed call hcall

/-- A call that sends what the insert held. -/
theorem Sent.flush (hholds : Holds start maxPacketSize batch insert) (hbatch : batch ≠ [])
    (hrows : (flush start batch executeQuery).result = true → rows = batch ++ rest)
    (h : Sent start maxPacketSize rest calls batches) :
    Sent start maxPacketSize rows (Database.flush start batch executeQuery :: calls) (batch :: batches) where
  queries := by
    rw [queriesOf, List.flatMap_cons, ← queriesOf, h.queries]
    rfl
  nonempty := List.forall_mem_cons.mpr ⟨hbatch, h.nonempty⟩
  fits := List.forall_mem_cons.mpr ⟨hholds.fits, h.fits⟩
  rows hall := by
    rw [hrows (hall _ List.mem_cons_self), List.flatten_cons,
      h.rows fun call hcall => hall call (List.mem_cons_of_mem _ hcall)]
  failed call hcall := by
    obtain rfl | hcall := List.mem_cons.mp hcall
    · simp [Database.flush]
    · exact h.failed call hcall

theorem sent_insertAll (hmax : DB_INSERT_PACKET_SAFETY_MARGIN < maxPacketSize) (last : Text → Bool)
    (rows : List (Text × (Text → Bool))) : ∀ {batch : List Text} {insert : DBInsert},
      Holds start maxPacketSize batch insert → ∃ batches,
        Sent start maxPacketSize (batch ++ rows.map (·.1)) (insertAll maxPacketSize last rows insert) batches := by
  induction rows with
  | nil =>
    intro batch insert h
    have hnone : Sent start maxPacketSize [] [] [] := ⟨rfl, by simp, by simp, fun _ => rfl, by simp⟩
    rw [List.map_nil, List.append_nil, insertAll, (h.execute last).1]
    split
    · rename_i hnil
      rw [hnil]
      exact ⟨[], hnone.quiet⟩
    · rename_i hbatch
      exact ⟨[batch], hnone.flush h hbatch fun _ => (List.append_nil batch).symm⟩
  | cons row rows ih =>
    intro batch insert h
    obtain ⟨row, executeQuery⟩ := row
    obtain ⟨call, insert', hcall, hadded⟩ := h.addRow hmax executeQuery row
    rw [insertAll, hcall, List.map_cons]
    cases hadded with
    | added hnext =>
      obtain ⟨batches, hrest⟩ := ih hnext
      rw [List.append_assoc, List.singleton_append] at hrest
      exact ⟨batches, hrest.quiet⟩
    | flushed hbatch hres hnext =>
      obtain ⟨batches, hrest⟩ := ih hnext
      exact ⟨batch :: batches, hrest.flush h hbatch fun _ => rfl⟩
    | failed hbatch hres hnext =>
      obtain ⟨batches, hrest⟩ := ih hnext
      refine ⟨batch :: batches, hrest.flush h hbatch fun htrue => ?_⟩
      rw [hres] at htrue
      cases htrue

theorem length_batchQuery (query upsertClause : Text) (batch : List Text) :
    (batchQuery query upsertClause batch).length =
      query.length + (valuesText batch).length + 1 + upsertClause.length := by
  simp only [batchQuery, List.length_append, List.length_singleton]
  omega

/-- The queries of all calls are batches of the rows, in their order and each once if no call returned false. A query
for more than one row is short enough, and a call returns false if and only if its query failed. -/
def Batched (query : Text) (columns : List Text) (maxPacketSize : Nat) (rows : List (Text × (Text → Bool)))
    (last : Text → Bool) : Prop :=
  let start := (DBInsert.new query).upsert columns
  let calls := insertAll maxPacketSize last rows start
  ∃ batches : List (List Text),
    queriesOf calls = batches.map (batchQuery query start.upsertClause) ∧ (∀ batch ∈ batches, batch ≠ []) ∧
    ((∀ call ∈ calls, call.result = true) → batches.flatten = rows.map (·.1)) ∧
    (start.upsertClause.length < DB_INSERT_PACKET_SAFETY_MARGIN → ∀ batch ∈ batches, 1 < batch.length →
      (batchQuery query start.upsertClause batch).length ≤ maxPacketSize) ∧
    ∀ call ∈ calls, call.result = false ↔ ∃ q ∈ call.queries, q.2 = false

theorem upsert_query (insert : DBInsert) (columns : List Text) : (insert.upsert columns).query = insert.query := by
  rw [DBInsert.upsert]
  split
  · rfl
  · split <;> rfl

/-- No row is lost at a split. -/
theorem insertAll_batched (query : Text) (columns : List Text) {maxPacketSize : Nat}
    (hmax : DB_INSERT_PACKET_SAFETY_MARGIN < maxPacketSize) (rows : List (Text × (Text → Bool))) (last : Text → Bool) :
    Batched query columns maxPacketSize rows last := by
  obtain ⟨batches, h⟩ := sent_insertAll hmax last rows (holds_new query columns maxPacketSize)
  have hquery : ((DBInsert.new query).upsert columns).query = query := upsert_query (DBInsert.new query) columns
  have hqueries := h.queries
  have hfits := h.fits
  rw [hquery] at hqueries hfits
  refine ⟨batches, hqueries, h.nonempty, h.rows, fun hclause batch hbatch hmany => ?_, h.failed⟩
  have hle := hfits batch hbatch hmany
  rw [length_batchQuery]
  omega

/-- Two rows that do not fit in one query, the first of which fails. -/
theorem insertAll_batched_two : Batched ['q'] [] 4104 [(['a', 'b'], fun _ => true), (['c', 'd'], fun _ => false)]
    fun _ => true :=
  insertAll_batched ['q'] [] (by decide) _ _

example : queriesOf (insertAll 4104 (fun _ => true) [(['a', 'b'], fun _ => true), (['c', 'd'], fun _ => true)]
    (DBInsert.new ['q'])) = [['q', ' ', '(', 'a', 'b', ')'], ['q', ' ', '(', 'c', 'd', ')']] := by decide

end ForgottenServer.Database
