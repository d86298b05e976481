import Mathlib

/-! # The key-value store

`KVStore`: a bounded write-back cache over the table `kv_store`. The cache is a map
whose entries point into a queue of keys, least recently used last; an entry that has
to make room goes to `pendingEvictions_` and is written to the table at the end of the
call, and stays there when that write fails.

A call gets the outcomes of its database writes as an argument, one for each write in
order. `keys` gets the rows its query finds; the task it detaches is a call of its own
(`processEvictions`). -/

namespace ForgottenServer.Kv

abbrev Key := List UInt8

/-- A `ValueWrapper`: a value, or the mark that a key was removed. -/
inductive Cell (V : Type) where
  | deleted
  | value (v : V)
  deriving DecidableEq, Repr

namespace Cell

variable {V : Type}

def isDeleted : Cell V → Bool
  | deleted => true
  | value _ => false

/-- What a reader of the cell gets. -/
def get : Cell V → Option V
  | deleted => none
  | value v => some v

end Cell

/-- `ValueWrapper::serialize` and `deserialize`, with the columns of a row. `blank` is
the value of a default-constructed wrapper. -/
structure Codec (V R : Type) where
  serialize : V → R
  deserialize : R → Option V
  blank : V

/-- The table `kv_store`. -/
abbrev Database (R : Type) := Key → Option R

/-- An entry of the cache: the value and the queue node of its key. -/
structure StoreEntry (V : Type) where
  value : Cell V
  node : Nat

/-- The nodes of the queue are numbered in the order of their creation. -/
structure KVStore (V : Type) where
  store : AList (fun _ : Key => StoreEntry V) := ∅
  lruQueue : List (Nat × Key) := []
  pendingEvictions : List (Key × Cell V) := []
  nextNode : Nat := 0

def MAX_SIZE : Nat := 1000000

namespace KVStore

variable {V R : Type}

def find (s : KVStore V) (key : Key) : Option (StoreEntry V) := s.store.lookup key

/-- `lruQueue_.splice(lruQueue_.begin(), lruQueue_, node)`. -/
def spliceFront (queue : List (Nat × Key)) (node : Nat) : List (Nat × Key) :=
  queue.filter (fun n => n.1 == node) ++ queue.filter (fun n => n.1 != node)

def spliceBack (queue : List (Nat × Key)) (node : Nat) : List (Nat × Key) :=
  queue.filter (fun n => n.1 != node) ++ queue.filter (fun n => n.1 == node)

/-- The least recently used entry makes room. A key of the queue that is not cached is
evicted with the value that `store_[*last]` creates. -/
def evictLast (codec : Codec V R) (s : KVStore V) : KVStore V :=
  match s.lruQueue.getLast? with
  | none => s
  | some (_, evictKey) =>
    let evictValue := match s.find evictKey with
      | some e => e.value
      | none => .value codec.blank
    { s with
      store := s.store.erase evictKey
      lruQueue := s.lruQueue.dropLast
      pendingEvictions := s.pendingEvictions ++ [(evictKey, evictValue)] }

def insert (s : KVStore V) (key : Key) (value : Cell V) : KVStore V :=
  { s with
    store := s.store.insert key { value, node := s.nextNode }
    lruQueue := (s.nextNode, key) :: s.lruQueue
    nextNode := s.nextNode + 1 }

/-- Whether a new key makes the last entry of the queue go. -/
def isFull (s : KVStore V) : Bool := s.store.entries.length ≥ MAX_SIZE && !s.lruQueue.isEmpty

def setLocked (codec : Codec V R) (s : KVStore V) (key : Key) (value : Cell V) : KVStore V :=
  match s.find key with
  | some e =>
    { s with
      store := s.store.insert key { e with value }
      lruQueue := spliceFront s.lruQueue e.node }
  | none => if s.isFull then (s.evictLast codec).insert key value else s.insert key value

/-- `getStore`: the cached keys with their values. -/
def getStore (s : KVStore V) : List (Key × Cell V) := s.store.entries.map fun e => (e.1, e.2.value)

end KVStore

/-! ## Persistence -/

section Persistence

variable {V R : Type} (codec : Codec V R)

def load (db : Database R) (key : Key) : Option V := (db key).bind codec.deserialize

/-- The statement of `save`: a removed key is deleted, another one inserted or updated. -/
def write (db : Database R) (key : Key) (value : Cell V) : Database R :=
  fun k => if k = key then value.get.map codec.serialize else db k

/-- `save` of one entry after another: the table afterwards and the entries whose write
failed. The writes are numbered from `i` on. -/
def saveEach (ok : Nat → Bool) : Nat → List (Key × Cell V) → Database R →
    Database R × List (Key × Cell V)
  | _, [], db => (db, [])
  | i, (key, value) :: entries, db =>
    if ok i then saveEach ok (i + 1) entries (write codec db key value)
    else
      let saved := saveEach ok (i + 1) entries db
      (saved.1, (key, value) :: saved.2)

/-- The statements of the transaction of `saveAll`. A failed delete stops it; the result of
the insert that carries a row is not looked at. -/
def prepareEach (ok : Nat → Bool) : Nat → List (Key × Cell V) → Database R → Option (Database R)
  | _, [], db => some db
  | i, (key, value) :: entries, db =>
    if ok i then prepareEach ok (i + 1) entries (write codec db key value)
    else if value.isDeleted then none
    else prepareEach ok (i + 1) entries db

end Persistence

/-- The store and the table behind it. -/
structure State (V R : Type) where
  kv : KVStore V := {}
  db : Database R

/-- The outcomes of the transaction of `saveAll`: that it began, the writes of the cached
entries, and that its last statement and its commit succeeded. -/
structure Transaction where
  begun : Bool
  writes : Nat → Bool
  committed : Bool

namespace State

variable {V R : Type} (codec : Codec V R)

/-- `processEvictions`: whether all evictions were written. -/
def processEvictions (s : State V R) (ok : Nat → Bool) : Bool × State V R :=
  let saved := saveEach codec ok 0 s.kv.pendingEvictions s.db
  (saved.2.isEmpty, { kv := { s.kv with pendingEvictions := saved.2 }, db := saved.1 })

def set (s : State V R) (key : Key) (value : Cell V) (ok : Nat → Bool) : State V R :=
  (processEvictions codec { s with kv := s.kv.setLocked codec key value } ok).2

def remove (s : State V R) (key : Key) (ok : Nat → Bool) : State V R := s.set codec key .deleted ok

/-- `get` without `forceLoad`. -/
def get (s : State V R) (key : Key) (ok : Nat → Bool) : Option V × State V R :=
  match s.kv.find key with
  | some e =>
    let splice := if e.value.isDeleted then KVStore.spliceBack else KVStore.spliceFront
    (e.value.get, { s with kv := { s.kv with lruQueue := splice s.kv.lruQueue e.node } })
  | none =>
    match load codec s.db key with
    | none => (none, s)
    | some v => (some v, s.set codec key (.value v) ok)

/-- One row of `loadPrefix`: a key that is not cached is cached. -/
def loadRow (kv : KVStore V) (row : Key × R) : KVStore V :=
  match codec.deserialize row.2 with
  | none => kv
  | some v => if (kv.find row.1).isSome then kv else kv.setLocked codec row.1 (.value v)

/-- `keys`, with the rows whose key starts with `start`. -/
def keys (s : State V R) (start : Key) (rows : List (Key × R)) : List Key × State V R :=
  let cached := s.kv.store.entries.filter fun e => start.isPrefixOf e.1 && !e.2.value.isDeleted
  let kv := rows.foldl (loadRow codec) s.kv
  let found := rows.filter fun row => !((kv.find row.1).any fun e => e.value.isDeleted)
  (cached.map (fun e => e.1.drop start.length) ++ found.map (fun row => row.1.drop start.length),
    { s with kv })

def saveAll (s : State V R) (ok : Nat → Bool) (tx : Transaction) : Bool × State V R :=
  let evictions := s.processEvictions codec ok
  let s := evictions.2
  if !evictions.1 || !tx.begun then (false, s)
  else
    match prepareEach codec tx.writes 0 s.kv.getStore s.db with
    | none => (false, s)
    | some db => if tx.committed then (true, { s with db }) else (false, s)

/-- `flush`: the cache is written first and the pending evictions after it. -/
def flush (s : State V R) (ok : Nat → Bool) : State V R :=
  let saved := saveEach codec ok 0 (s.kv.getStore ++ s.kv.pendingEvictions) s.db
  if saved.2.isEmpty then { kv := { s.kv with store := ∅, pendingEvictions := [] }, db := saved.1 }
  else { s with db := saved.1 }

end State

end ForgottenServer.Kv
