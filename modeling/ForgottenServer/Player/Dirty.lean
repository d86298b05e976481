import Mathlib

/-! # Storage values and bestiary kills of a player

The members of `Player` (`player.cpp`) that keep track of what has to be saved, the queries
that a save makes of them and the rows that a login reads (`iologindata.cpp`). The revisions
are counters that only go up, so that they are numbers without a bound. An unordered set is a
list without repetitions. -/

namespace ForgottenServer

/-! ## The player -/

structure StorageDirtySnapshot where
  snapshotId : Nat
  modifiedKeys : List UInt32
  removedKeys : List UInt32

structure BestiaryDirtySnapshot where
  snapshotId : Nat
  modifiedRaceIds : List UInt16

structure Player where
  saveFlag : Bool := true
  storageMap : UInt32 → Option Int64 := fun _ => none
  modifiedStorageKeys : List UInt32 := []
  removedStorageKeys : List UInt32 := []
  storageDirtyRevision : Nat := 0
  storageDirtyKeyRevisions : UInt32 → Option Nat := fun _ => none
  bestiaryKills : UInt16 → Option UInt32 := fun _ => none
  modifiedBestiaryRaceIds : List UInt16 := []
  bestiaryDirtyRevision : Nat := 0
  bestiaryDirtyRaceRevisions : UInt16 → Option Nat := fun _ => none

/-- `erase` of an unordered set. -/
def eraseKey {κ : Type} [DecidableEq κ] (keys : List κ) (key : κ) : List κ := keys.filter (· ≠ key)

namespace Player

variable (p : Player)

def getStorageValue (key : UInt32) : Option Int64 := p.storageMap key

/-- A value that is kept: `value && value.value() != -1`. -/
def kept (value : Option Int64) : Option Int64 := value.filter (· ≠ -1)

/-- `Creature::setStorageValue`. No script of the server sets a storage value in the event
that follows. -/
def creatureSetStorageValue (key : UInt32) (value : Option Int64) : Player :=
  { p with storageMap := Function.update p.storageMap key (kept value) }

def setStorageValue (key : UInt32) (value : Option Int64) (isSpawn : Bool := false) : Player :=
  let oldValue := p.getStorageValue key
  let p := p.creatureSetStorageValue key value
  if isSpawn ∨ oldValue = p.getStorageValue key then p
  else
    let p := if (kept value).isSome then
        { p with removedStorageKeys := eraseKey p.removedStorageKeys key
                 modifiedStorageKeys := p.modifiedStorageKeys.insert key }
      else
        { p with modifiedStorageKeys := eraseKey p.modifiedStorageKeys key
                 removedStorageKeys := p.removedStorageKeys.insert key }
    { p with storageDirtyRevision := p.storageDirtyRevision + 1
             storageDirtyKeyRevisions :=
               Function.update p.storageDirtyKeyRevisions key (some (p.storageDirtyRevision + 1)) }

def getStorageDirtySnapshot : StorageDirtySnapshot where
  snapshotId := p.storageDirtyRevision
  modifiedKeys := p.modifiedStorageKeys
  removedKeys := p.removedStorageKeys

/-- The revision of a key is newer than the snapshot. -/
def isNewer (revision : Option Nat) (snapshotId : Nat) : Bool := revision.any (snapshotId < ·)

def acknowledgeKey (snapshotId : Nat) (p : Player) (key : UInt32) : Player :=
  if isNewer (p.storageDirtyKeyRevisions key) snapshotId then p
  else
    { p with modifiedStorageKeys := eraseKey p.modifiedStorageKeys key
             removedStorageKeys := eraseKey p.removedStorageKeys key
             storageDirtyKeyRevisions := Function.update p.storageDirtyKeyRevisions key none }

def acknowledgeStorageDirty (snapshot : StorageDirtySnapshot) : Player :=
  (snapshot.modifiedKeys ++ snapshot.removedKeys).foldl (acknowledgeKey snapshot.snapshotId) p

def getBestiaryKillCount (raceId : UInt16) : UInt32 := (p.bestiaryKills raceId).getD 0

def setBestiaryKillCount (raceId : UInt16) (count : UInt32) : Player :=
  if raceId = 0 then p
  else if p.bestiaryKills raceId = some count then p
  else
    { p with bestiaryKills := Function.update p.bestiaryKills raceId (some count)
             modifiedBestiaryRaceIds := p.modifiedBestiaryRaceIds.insert raceId
             bestiaryDirtyRevision := p.bestiaryDirtyRevision + 1
             bestiaryDirtyRaceRevisions :=
               Function.update p.bestiaryDirtyRaceRevisions raceId (some (p.bestiaryDirtyRevision + 1)) }

/-- The count stops at the largest number. -/
def addBestiaryKillCount (raceId : UInt16) (amount : UInt32) : Player :=
  let oldCount := p.getBestiaryKillCount raceId
  if raceId = 0 ∨ amount = 0 then p
  else p.setBestiaryKillCount raceId (if 0xFFFFFFFF - oldCount < amount then 0xFFFFFFFF else oldCount + amount)

def getBestiaryDirtySnapshot : BestiaryDirtySnapshot where
  snapshotId := p.bestiaryDirtyRevision
  modifiedRaceIds := p.modifiedBestiaryRaceIds

def acknowledgeRaceId (snapshotId : Nat) (p : Player) (raceId : UInt16) : Player :=
  if isNewer (p.bestiaryDirtyRaceRevisions raceId) snapshotId then p
  else
    { p with modifiedBestiaryRaceIds := eraseKey p.modifiedBestiaryRaceIds raceId
             bestiaryDirtyRaceRevisions := Function.update p.bestiaryDirtyRaceRevisions raceId none }

def acknowledgeBestiaryDirty (snapshot : BestiaryDirtySnapshot) : Player :=
  snapshot.modifiedRaceIds.foldl (acknowledgeRaceId snapshot.snapshotId) p

def clearBestiaryDirty : Player :=
  { p with modifiedBestiaryRaceIds := [], bestiaryDirtyRaceRevisions := fun _ => none }

end Player

/-! ## The database -/

/-- The rows of one player in `player_storage` and `player_bestiary_kills`, which have the key
and the race as their primary key. -/
structure PlayerRows where
  storage : AList fun _ : UInt32 => Int64 := ∅
  kills : AList fun _ : UInt16 => UInt32 := ∅

inductive Query where
  | deleteStorage (keys : List UInt32)
  | upsertStorage (rows : List (UInt32 × Int64))
  | upsertKills (rows : List (UInt16 × UInt32))

def upsert {κ ν : Type} [DecidableEq κ] (table : AList fun _ : κ => ν) (row : κ × ν) : AList fun _ : κ => ν :=
  table.insert row.1 row.2

def Query.execute (db : PlayerRows) : Query → PlayerRows
  | deleteStorage keys => { db with storage := keys.foldl (fun table key => table.erase key) db.storage }
  | upsertStorage rows => { db with storage := rows.foldl upsert db.storage }
  | upsertKills rows => { db with kills := rows.foldl upsert db.kills }

/-- The rows of the keys that have a value. -/
def rowsOf {κ ν : Type} (values : κ → Option ν) (keys : List κ) : List (κ × ν) :=
  keys.filterMap fun key => (values key).map (key, ·)

namespace Player

variable (p : Player)

/-- The part of `savePlayerQueries` for the storage and the bestiary. -/
def savePlayerQueries (bestiarySnapshot : BestiaryDirtySnapshot) : List Query :=
  if p.saveFlag = false then []
  else
    (if p.removedStorageKeys = [] then [] else [.deleteStorage p.removedStorageKeys]) ++
    (if p.modifiedStorageKeys = [] then [] else [.upsertStorage (rowsOf p.storageMap p.modifiedStorageKeys)]) ++
    (if bestiarySnapshot.modifiedRaceIds = [] then []
      else [.upsertKills (rowsOf p.bestiaryKills bestiarySnapshot.modifiedRaceIds)])

end Player

structure PlayerSaveSnapshot where
  queries : List Query
  storageSnapshotId : Nat
  snapshotModifiedKeys : List UInt32
  snapshotRemovedKeys : List UInt32
  bestiarySnapshotId : Nat
  snapshotModifiedBestiaryRaceIds : List UInt16

namespace IOLoginData

def buildPlayerSave (p : Player) : PlayerSaveSnapshot :=
  let storageSnapshot := p.getStorageDirtySnapshot
  let bestiarySnapshot := p.getBestiaryDirtySnapshot
  { queries := p.savePlayerQueries bestiarySnapshot
    storageSnapshotId := storageSnapshot.snapshotId
    snapshotModifiedKeys := storageSnapshot.modifiedKeys
    snapshotRemovedKeys := storageSnapshot.removedKeys
    bestiarySnapshotId := bestiarySnapshot.snapshotId
    snapshotModifiedBestiaryRaceIds := bestiarySnapshot.modifiedRaceIds }

/-- A flush that succeeds. One that fails is rolled back. -/
def flushPlayerSave (save : PlayerSaveSnapshot) (db : PlayerRows) : PlayerRows := save.queries.foldl Query.execute db

/-- `SaveManager::acknowledgePlayerSave`. -/
def acknowledgePlayerSave (save : PlayerSaveSnapshot) (p : Player) : Player :=
  let p := p.acknowledgeStorageDirty ⟨save.storageSnapshotId, save.snapshotModifiedKeys, save.snapshotRemovedKeys⟩
  p.acknowledgeBestiaryDirty ⟨save.bestiarySnapshotId, save.snapshotModifiedBestiaryRaceIds⟩

/-- The part of `loadPlayer` for the storage and the bestiary. -/
def loadPlayer (saveFlag : Bool) (db : PlayerRows) : Player :=
  let p : Player := { saveFlag }
  let p := db.storage.entries.foldl (fun p row => p.setStorageValue row.1 (some row.2) true) p
  let p := db.kills.entries.foldl (fun p row => p.setBestiaryKillCount row.1 row.2) p
  p.clearBestiaryDirty

end IOLoginData

/-! ## Saves under way -/

/-- A player object, its rows, the snapshots that wait for their flush and those that were
flushed and wait for their acknowledgement. -/
structure Saving where
  player : Player
  db : PlayerRows
  waiting : List PlayerSaveSnapshot := []
  flushed : List PlayerSaveSnapshot := []

/-- `discard`: a snapshot that waits gives way to a newer one. -/
inductive SaveEvent where
  | setStorageValue (key : UInt32) (value : Option Int64)
  | setBestiaryKillCount (raceId : UInt16) (count : UInt32)
  | addBestiaryKillCount (raceId : UInt16) (amount : UInt32)
  | build
  | discard (n : Nat)
  | flush (success : Bool)
  | acknowledge

def SaveEvent.isChange : SaveEvent → Bool
  | setStorageValue .. | setBestiaryKillCount .. | addBestiaryKillCount .. => true
  | _ => false

namespace Saving

open IOLoginData

def start (saveFlag : Bool) (db : PlayerRows) : Saving := { player := loadPlayer saveFlag db, db }

def step (s : Saving) : SaveEvent → Saving
  | .setStorageValue key value => { s with player := s.player.setStorageValue key value }
  | .setBestiaryKillCount raceId count => { s with player := s.player.setBestiaryKillCount raceId count }
  | .addBestiaryKillCount raceId amount => { s with player := s.player.addBestiaryKillCount raceId amount }
  | .build => { s with waiting := s.waiting ++ [buildPlayerSave s.player] }
  | .discard n => { s with waiting := s.waiting.eraseIdx n }
  | .flush success => match s.waiting with
    | [] => s
    | save :: rest =>
      if success then { s with db := flushPlayerSave save s.db, waiting := rest, flushed := s.flushed ++ [save] }
      else { s with waiting := rest }
  | .acknowledge => match s.flushed with
    | [] => s
    | save :: rest => { s with player := acknowledgePlayerSave save s.player, flushed := rest }

def run (s : Saving) (es : List SaveEvent) : Saving := es.foldl step s

end Saving

end ForgottenServer
