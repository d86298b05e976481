import ForgottenServer.Lib.ReaderStages
import ForgottenServer.MapCache.RoundTrip

/-! # Loads that fail

`loadPersistent` changes the tile store and the map while it reads the file. A file is refused
before anything is changed unless its checksum, its header and its items are right; a bad tile or
floor block is only met when the store was reset and what comes before it was put in. -/

open Reader LittleEndian

namespace ForgottenServer

namespace MapCache

/-- The part of the file up to the items. -/
structure Prelude where
  width : BitVec 32
  height : BitVec 32
  spawnfile : List UInt8
  housefile : List UInt8
  itemCount : ℕ
  tileCount : ℕ
  blockCount : ℕ
  items : List BasicItem

def readPrelude (version : CacheVersion) (fingerprint : Fingerprint) (houseCacheDigest : Digest) :
    Reader Unit Prelude := do
  readHeader version fingerprint houseCacheDigest
  let width ← readBits 32
  let height ← readBits 32
  let spawnfile ← readString (64 * 1024)
  let housefile ← readString (64 * 1024)
  let itemCount ← readSize
  let tileCount ← readSize
  let blockCount ← readSize
  require (itemCount ≤ MAX_CACHE_ENTRIES ∧ tileCount ≤ MAX_CACHE_ENTRIES ∧ blockCount ≤ MAX_CACHE_ENTRIES)
  let pendingItems ← Reader.list itemCount readItem
  let items ← ofOption (link pendingItems)
  pure { width, height, spawnfile, housefile, itemCount, tileCount, blockCount, items }

/-- The tile store, the items that its tiles refer to, and the map. -/
structure CacheState where
  items : List BasicItem := []
  tiles : List BasicTile := []
  map : BasicMap := {}

namespace CacheState

def resetStore (s : CacheState) : CacheState := { s with items := [], tiles := [] }

/-- The store is reset, the items of the file are there. -/
def resetWith (items : List BasicItem) (s : CacheState) : CacheState := { s.resetStore with items := items }

def addTile (s : CacheState) (tile : BasicTile) : CacheState :=
  { s with tiles := s.tiles ++ [{ tile with cacheId := BitVec.ofNat 32 (s.tiles.length + 1) }] }

def setBlock (s : CacheState) (block : FloorBlock) : CacheState := { s with map := s.map.setBasicFloorBlock block }

/-- The size of the map and its files. -/
def setHeader (p : Prelude) (s : CacheState) : CacheState :=
  { s with map := { s.map with
      width := p.width, height := p.height, spawnfile := p.spawnfile, housefile := p.housefile } }

end CacheState

open CacheState

def loadBlocks (blockCount : ℕ) : Reader CacheState Unit :=
  Reader.inspect fun s => Reader.times blockCount (each (onto (readBlock s.tiles.length)) setBlock)

/-- What is read after the items, into the store and the map. -/
def loadTiles (p : Prelude) : Reader CacheState Unit := do
  Reader.modify (resetWith p.items)
  Reader.times p.tileCount (each (onto (readTile p.itemCount)) addTile)
  Reader.modify (setHeader p)
  loadBlocks p.blockCount

/-- `loadPersistent` after the checksum, with what it changes. -/
def loadPayload (version : CacheVersion) (fingerprint : Fingerprint) (houseCacheDigest : Digest) :
    Reader CacheState Unit := do
  let p ← onto (readPrelude version fingerprint houseCacheDigest)
  loadTiles p

section Load

variable (sha256 : List UInt8 → Digest) (version : CacheVersion) (fingerprint : Fingerprint) (houseCacheDigest : Digest)

/-- What is left of the file before the checksum, if this is right. -/
def checkedPayload (file : List UInt8) : Option (List UInt8) :=
  if file.length < MAP_CACHE_MAGIC.length + 4 + 32 then none
  else
    let payload := file.take (file.length - 32)
    if (sha256 payload).bytes ≠ file.drop (file.length - 32) then none else some payload

/-- Whether the file is loaded, and what is there then. -/
def loadInto (s : CacheState) (file : List UInt8) : Bool × CacheState :=
  match checkedPayload sha256 file with
  | none => (false, s)
  | some payload =>
    let r := (loadPayload version fingerprint houseCacheDigest).run s payload
    (r.1.isSome, r.2.1)

/-- The part up to the items, if it is right, and what comes after it. -/
def checkedPrelude (file : List UInt8) : Option (Prelude × List UInt8) :=
  (checkedPayload sha256 file).bind fun payload =>
    let r := (readPrelude version fingerprint houseCacheDigest).run () payload
    r.1.map fun p => (p, r.2.2)

end Load

/-! ## What the tiles and blocks leave behind -/

/-- The ids that tiles get after `n` others. -/
def withCacheIdsFrom (n : ℕ) (tiles : List BasicTile) : List BasicTile :=
  tiles.mapIdx fun i tile => { tile with cacheId := BitVec.ofNat 32 (n + i + 1) }

theorem foldl_addTile (tiles : List BasicTile) (s : CacheState) :
    tiles.foldl addTile s = { s with tiles := s.tiles ++ withCacheIdsFrom s.tiles.length tiles } := by
  induction tiles generalizing s with
  | nil => simp [withCacheIdsFrom]
  | cons tile tiles ih =>
    rw [List.foldl_cons, ih]
    simp [addTile, withCacheIdsFrom, List.mapIdx_cons, Nat.add_assoc, Nat.add_comm 1]

theorem withCacheIdsFrom_zero (tiles : List BasicTile) : withCacheIdsFrom 0 tiles = withCacheIds tiles := by
  simp only [withCacheIdsFrom, withCacheIds, Nat.zero_add]

theorem foldl_setBlock (blocks : List FloorBlock) (s : CacheState) :
    blocks.foldl setBlock s = { s with map := blocks.foldl BasicMap.setBasicFloorBlock s.map } := by
  induction blocks generalizing s with
  | nil => rfl
  | cons block blocks ih => exact ih (s.setBlock block)

/-! ## A load, part by part -/

variable {p : Prelude} {s : CacheState} {rest : List UInt8}

/-- The state when some tiles were read. -/
def tilesLoaded (p : Prelude) (s : CacheState) (tiles : List BasicTile) : CacheState :=
  { items := p.items, tiles := withCacheIds tiles, map := s.map }

/-- The state when all tiles and some blocks were read. -/
def blocksLoaded (p : Prelude) (s : CacheState) (tiles : List BasicTile) (blocks : List FloorBlock) : CacheState :=
  blocks.foldl setBlock (setHeader p (tilesLoaded p s tiles))

/-- A tile is bad. -/
structure StopsAtTile (p : Prelude) (rest : List UInt8) (tiles : List BasicTile) : Prop where
  stops : ∃ k rest', k < p.tileCount ∧ StopsAfter (readTile p.itemCount) k rest tiles rest'

/-- A floor block is bad. -/
structure StopsAtBlock (p : Prelude) (rest : List UInt8) (tiles : List BasicTile) (blocks : List FloorBlock) : Prop where
  stops : ∃ k rest' rest'', (Reader.list p.tileCount (readTile p.itemCount)).run () rest = (some tiles, (), rest') ∧
    k < p.blockCount ∧ StopsAfter (readBlock tiles.length) k rest' blocks rest''

/-- The tiles and the blocks are right. -/
structure ReadsAll (p : Prelude) (rest : List UInt8) (tiles : List BasicTile) (blocks : List FloorBlock) : Prop where
  reads : ∃ rest' rest'', (Reader.list p.tileCount (readTile p.itemCount)).run () rest = (some tiles, (), rest') ∧
    (Reader.list p.blockCount (readBlock tiles.length)).run () rest' = (some blocks, (), rest'')

theorem foldl_addTile_reset (p : Prelude) (s : CacheState) (tiles : List BasicTile) :
    tiles.foldl addTile (resetWith p.items s) = tilesLoaded p s tiles := by
  rw [foldl_addTile, tilesLoaded, ← withCacheIdsFrom_zero]
  rfl

theorem run_loadTiles (p : Prelude) (s : CacheState) (rest : List UInt8) :
    (∃ tiles blocks i, ReadsAll p rest tiles blocks ∧
      (loadTiles p).run s rest = (some (), blocksLoaded p s tiles blocks, i)) ∨
    (∃ tiles i, StopsAtTile p rest tiles ∧ (loadTiles p).run s rest = (none, tilesLoaded p s tiles, i)) ∨
    (∃ tiles blocks i, StopsAtBlock p rest tiles blocks ∧
      (loadTiles p).run s rest = (none, blocksLoaded p s tiles blocks, i)) := by
  have hlength : ∀ tiles, (setHeader p (tilesLoaded p s tiles)).tiles.length = tiles.length := by
    intro tiles
    rw [setHeader, tilesLoaded, withCacheIds, List.length_mapIdx]
  rw [loadTiles, run_modify_bind]
  rcases run_times_each (readTile p.itemCount) addTile p.tileCount (resetWith p.items s) rest with
    ⟨tiles, rest', hlist, htimes⟩ | ⟨k, tiles, rest', i, hk, hstops, htimes⟩
  · rw [foldl_addTile_reset] at htimes
    rw [run_bind_some htimes, run_modify_bind, loadBlocks, run_inspect, hlength]
    rcases run_times_each (readBlock tiles.length) setBlock p.blockCount (setHeader p (tilesLoaded p s tiles)) rest' with
      ⟨blocks, rest'', hlist', htimes'⟩ | ⟨k, blocks, rest'', i, hk, hstops, htimes'⟩
    · exact .inl ⟨tiles, blocks, rest'', ⟨rest', rest'', hlist, hlist'⟩, htimes'⟩
    · exact .inr (.inr ⟨tiles, blocks, i, ⟨k, rest', rest'', hlist, hk, hstops⟩, htimes'⟩)
  · rw [foldl_addTile_reset] at htimes
    rw [run_bind_none htimes]
    exact .inr (.inl ⟨tiles, i, ⟨k, rest', hk, hstops⟩, rfl⟩)

/-! ## What a failure leaves -/

section Load

variable (sha256 : List UInt8 → Digest) (version : CacheVersion) (fingerprint : Fingerprint) (houseCacheDigest : Digest)

/-- A load that gets as far as the tiles. -/
theorem loadInto_of_prelude {file : List UInt8}
    (hprelude : checkedPrelude sha256 version fingerprint houseCacheDigest file = some (p, rest)) (s : CacheState) :
    loadInto sha256 version fingerprint houseCacheDigest s file =
      (((loadTiles p).run s rest).1.isSome, ((loadTiles p).run s rest).2.1) := by
  obtain ⟨payload, hpayload, hrun⟩ := Option.bind_eq_some_iff.mp hprelude
  obtain ⟨p', hp', heq⟩ := Option.map_eq_some_iff.mp hrun
  rw [Prod.mk.injEq] at heq
  have hread : (readPrelude version fingerprint houseCacheDigest).run () payload = (some p, (), rest) := by
    rw [← heq.1, ← heq.2, ← hp']
  rw [loadInto, hpayload]
  dsimp only
  rw [loadPayload, run_onto_bind hread]

theorem loadInto_of_no_prelude {file : List UInt8}
    (hprelude : checkedPrelude sha256 version fingerprint houseCacheDigest file = none) (s : CacheState) :
    loadInto sha256 version fingerprint houseCacheDigest s file = (false, s) := by
  rw [loadInto]
  cases hpayload : checkedPayload sha256 file with
  | none => rfl
  | some payload =>
    rw [checkedPrelude, hpayload] at hprelude
    have hfails : Fails (readPrelude version fingerprint houseCacheDigest) payload () :=
      Option.map_eq_none_iff.mp hprelude
    dsimp only
    rw [loadPayload, run_onto_bind_fails hfails]
    rfl

/-- **A load that fails before the tiles changes nothing**; one that fails at a tile leaves the reset
store with the tiles before it and the map as it was, and one that fails at a floor block leaves
all tiles in the store, and the header and the blocks before it in the map. -/
theorem loadInto_failed (s : CacheState) (file : List UInt8)
    (hfailed : (loadInto sha256 version fingerprint houseCacheDigest s file).1 = false) :
    (checkedPrelude sha256 version fingerprint houseCacheDigest file = none ∧
      (loadInto sha256 version fingerprint houseCacheDigest s file).2 = s) ∨
    ∃ p rest, checkedPrelude sha256 version fingerprint houseCacheDigest file = some (p, rest) ∧
      ((∃ tiles, StopsAtTile p rest tiles ∧
        (loadInto sha256 version fingerprint houseCacheDigest s file).2 = tilesLoaded p s tiles) ∨
      (∃ tiles blocks, StopsAtBlock p rest tiles blocks ∧
        (loadInto sha256 version fingerprint houseCacheDigest s file).2 = blocksLoaded p s tiles blocks)) := by
  cases hprelude : checkedPrelude sha256 version fingerprint houseCacheDigest file with
  | none =>
    rw [loadInto_of_no_prelude _ _ _ _ hprelude]
    exact .inl ⟨rfl, rfl⟩
  | some found =>
    obtain ⟨p, rest⟩ := found
    rw [loadInto_of_prelude _ _ _ _ hprelude] at hfailed ⊢
    refine .inr ⟨p, rest, rfl, ?_⟩
    rcases run_loadTiles p s rest with ⟨tiles, blocks, i, -, hrun⟩ | ⟨tiles, i, hstops, hrun⟩ |
      ⟨tiles, blocks, i, hstops, hrun⟩
    · rw [hrun] at hfailed
      cases hfailed
    · rw [hrun]
      exact .inl ⟨tiles, hstops, rfl⟩
    · rw [hrun]
      exact .inr ⟨tiles, blocks, hstops, rfl⟩

/-! ## The load that gives what was read -/

theorem readPayload_eq (map : BasicMap) : readPayload version fingerprint houseCacheDigest map = (do
    let p ← readPrelude version fingerprint houseCacheDigest
    let tiles ← Reader.list p.tileCount (readTile p.itemCount)
    let blocks ← Reader.list p.blockCount (readBlock p.tileCount)
    pure { items := p.items, tiles := withCacheIds tiles
           map := blocks.foldl BasicMap.setBasicFloorBlock
             { map with width := p.width, height := p.height, spawnfile := p.spawnfile, housefile := p.housefile } }) := by
  simp only [readPayload, readPrelude, bind_assoc, pure_bind]

theorem loadPersistent_eq (map : BasicMap) (file : List UInt8) :
    loadPersistent sha256 version fingerprint houseCacheDigest map file = (checkedPayload sha256 file).bind
      fun payload => ((readPayload version fingerprint houseCacheDigest map).run () payload).1 := by
  rw [loadPersistent, checkedPayload]
  split
  · rfl
  · dsimp only
    split <;> rfl

/-- Both loads accept the same files and give the same. -/
theorem loadInto_loadPersistent (s : CacheState) (file : List UInt8) :
    (∃ loaded, loadPersistent sha256 version fingerprint houseCacheDigest s.map file = some loaded ∧
      loadInto sha256 version fingerprint houseCacheDigest s file = (true, ⟨loaded.items, loaded.tiles, loaded.map⟩)) ∨
    (loadPersistent sha256 version fingerprint houseCacheDigest s.map file = none ∧
      (loadInto sha256 version fingerprint houseCacheDigest s file).1 = false) := by
  rw [loadPersistent_eq]
  cases hpayload : checkedPayload sha256 file with
  | none =>
    rw [loadInto, hpayload]
    exact .inr ⟨rfl, rfl⟩
  | some payload =>
    rw [Option.bind_some, readPayload_eq]
    rcases run_cases (readPrelude version fingerprint houseCacheDigest) payload with ⟨p, rest, hread⟩ | hfails
    · have hprelude : checkedPrelude sha256 version fingerprint houseCacheDigest file = some (p, rest) := by
        rw [checkedPrelude, hpayload, Option.bind_some, hread]
        rfl
      rw [loadInto_of_prelude _ _ _ _ hprelude, run_bind_some hread]
      rcases run_loadTiles p s rest with ⟨tiles, blocks, i, ⟨rest', rest'', htiles, hblocks⟩, hrun⟩ |
        ⟨tiles, i, ⟨k, rest', hk, hstops⟩, hrun⟩ | ⟨tiles, blocks, i, ⟨k, rest', rest'', htiles, hk, hstops⟩, hrun⟩
      · rw [length_of_run_list htiles] at hblocks
        rw [hrun, run_bind_some htiles, run_bind_some hblocks, blocksLoaded, foldl_setBlock]
        exact .inl ⟨_, rfl, rfl⟩
      · rw [hrun]
        exact .inr ⟨(hstops.fails_list hk).bind _, rfl⟩
      · rw [length_of_run_list htiles] at hstops
        rw [hrun, run_bind_some htiles]
        exact .inr ⟨(hstops.fails_list hk).bind _, rfl⟩
    · have hprelude : checkedPrelude sha256 version fingerprint houseCacheDigest file = none := by
        rw [checkedPrelude, hpayload, Option.bind_some, Option.map_eq_none_iff]
        exact hfails
      rw [loadInto_of_no_prelude _ _ _ _ hprelude]
      exact .inr ⟨hfails.bind _, rfl⟩

end Load

/-- A file that is cut off. -/
theorem loadInto_failed_truncated :
    (loadInto (fun _ => noDigest) ⟨860, 3, 57, 62⟩ noFingerprint noDigest { tiles := [{ flags := 1, cacheId := 1 }] }
      [0x54, 0x46]).2 = { tiles := [{ flags := 1, cacheId := 1 }] } := by
  rcases loadInto_failed (fun _ => noDigest) ⟨860, 3, 57, 62⟩ noFingerprint noDigest
    { tiles := [{ flags := 1, cacheId := 1 }] } [0x54, 0x46] rfl with ⟨-, hsame⟩ | ⟨p, rest, hprelude, -⟩
  · exact hsame
  · cases hprelude

/-! ## A block that is not there -/

/-- A tile without anything on it, and a floor of such tiles. -/
def plainBlock : FloorBlock := ⟨0, 0, 7, fun _ => 1⟩

def plainPrelude : Prelude := ⟨0, 0, [], [], 0, 1, 2, []⟩

/-- The header and the items of a file with a tile and two floor blocks, of which one is there. -/
def shortPrelude : List UInt8 :=
  writeHeader ⟨860, 3, 57, 62⟩ noFingerprint noDigest ++ (writeBits (0 : BitVec 32) ++ (writeBits (0 : BitVec 32) ++
    (writeString [] ++ (writeString [] ++ (writeSize 0 ++ (writeSize 1 ++ writeSize 2))))))

def shortTiles : List UInt8 := writeTile (fun _ => 0) {} ++ writeBlock plainBlock

def shortFile (sha256 : List UInt8 → Digest) : List UInt8 :=
  shortPrelude ++ shortTiles ++ (sha256 (shortPrelude ++ shortTiles)).bytes

theorem reads_shortPrelude :
    Reads (readPrelude ⟨860, 3, 57, 62⟩ noFingerprint noDigest) shortPrelude () plainPrelude () := by
  have hitems : Reads (Reader.list 0 readItem) [] () [] () := Reads.pure [] ()
  have hlink : Reads (ofOption (link [])) [] () [] () := Reads.pure [] ()
  exact (reads_header _ _ _).bind <| (Reads.readBits 0 rfl ()).bind <| (Reads.readBits 0 rfl ()).bind <|
    (reads_string (by decide) (Nat.zero_le _)).bind <| (reads_string (by decide) (Nat.zero_le _)).bind <|
    (reads_entries (Nat.zero_le _)).bind <| (reads_entries (by decide)).bind <| (reads_entries (by decide)).bindNil <|
    Reads.thenRequire ⟨by decide, by decide, by decide⟩ <| hitems.nilBind <| hlink.nilBind <| Reads.pure _ ()

theorem checkedPayload_append (sha256 : List UInt8 → Digest) {payload : List UInt8}
    (hlong : MAP_CACHE_MAGIC.length + 4 ≤ payload.length) :
    checkedPayload sha256 (payload ++ (sha256 payload).bytes) = some payload := by
  have hsize := (sha256 payload).size
  have hlength : (payload ++ (sha256 payload).bytes).length - 32 = payload.length := by
    rw [List.length_append, hsize, Nat.add_sub_cancel]
  rw [checkedPayload, if_neg (by rw [List.length_append, hsize]; omega)]
  dsimp only
  rw [hlength, List.take_left, List.drop_left, if_neg (by simp)]

theorem checkedPrelude_shortFile (sha256 : List UInt8 → Digest) :
    checkedPrelude sha256 ⟨860, 3, 57, 62⟩ noFingerprint noDigest (shortFile sha256) =
      some (plainPrelude, shortTiles) := by
  have hlong : MAP_CACHE_MAGIC.length + 4 ≤ (shortPrelude ++ shortTiles).length := by
    have hhead : 12 ≤ shortPrelude.length := by decide +kernel
    rw [List.length_append]
    exact hhead.trans (Nat.le_add_right ..)
  rw [checkedPrelude, shortFile, checkedPayload_append sha256 hlong, Option.bind_some, reads_shortPrelude shortTiles]
  rfl

/-- The tile is stored and the block is set, then the file ends. -/
theorem run_shortTiles : ∃ i, (loadTiles plainPrelude).run {} shortTiles =
    (none, blocksLoaded plainPrelude {} [{}] [plainBlock], i) := by
  have htile : Reads (readTile 0) (writeTile (fun _ => 0) {}) () {} () :=
    reads_tile (f := id) ⟨by decide, by decide⟩ (by simp) (by simp)
  have hblock : Reads (readBlock 1) (writeBlock plainBlock) () plainBlock () :=
    reads_block fun i => by simp [plainBlock]
  have hend : Fails (readBlock 1) [] () := rfl
  have htiles : (Reader.times 1 (each (onto (readTile 0)) addTile)).run (resetWith [] {}) shortTiles =
      (some (), tilesLoaded plainPrelude {} [{}], writeBlock plainBlock) := by
    rw [Reader.times, shortTiles, run_bind_some (run_each (htile _) addTile)]
    rfl
  have hblocks : (Reader.times 2 (each (onto (readBlock 1)) setBlock)).run
      (setHeader plainPrelude (tilesLoaded plainPrelude {} [{}])) (writeBlock plainBlock) =
        (none, blocksLoaded plainPrelude {} [{}] [plainBlock], []) := by
    have hread := hblock []
    rw [List.append_nil] at hread
    rw [Reader.times, run_bind_some (run_each hread setBlock)]
    exact run_bind_none (run_each_fails hend setBlock) _
  have hcount : (setHeader plainPrelude (tilesLoaded plainPrelude {} [{}])).tiles.length = 1 := rfl
  have hprelude : plainPrelude.items = [] ∧ plainPrelude.itemCount = 0 ∧ plainPrelude.tileCount = 1 ∧
      plainPrelude.blockCount = 2 := ⟨rfl, rfl, rfl, rfl⟩
  refine ⟨[], ?_⟩
  rw [loadTiles, hprelude.1, hprelude.2.1, hprelude.2.2.1, hprelude.2.2.2, run_modify_bind, run_bind_some htiles,
    run_modify_bind, loadBlocks, run_inspect, hcount]
  exact hblocks

/-- What a load of the short file returns, how many tiles are in the store then, and the id of a cell of the map. -/
def loadShortFile (sha256 : List UInt8 → Digest) : Bool × Nat × BitVec 32 :=
  let loaded := loadInto sha256 ⟨860, 3, 57, 62⟩ noFingerprint noDigest {} (shortFile sha256)
  (loaded.1, loaded.2.tiles.length, loaded.2.map.floorIds 0 0 ⟨7, by decide⟩ ⟨0, by decide⟩)

/-- With any digest the load fails, and both the store and the map have changed. -/
theorem loadInto_failed_block :
    loadShortFile = (fun _ => (false, 1, 1)) ∧
    ({} : CacheState).tiles.length = 0 ∧ ({} : CacheState).map.floorIds 0 0 ⟨7, by decide⟩ ⟨0, by decide⟩ = 0 := by
  refine ⟨funext fun sha256 => ?_, rfl, rfl⟩
  obtain ⟨i, hrun⟩ := run_shortTiles
  rw [loadShortFile, loadInto_of_prelude _ _ _ _ (checkedPrelude_shortFile sha256), hrun]
  refine Prod.ext rfl (Prod.ext rfl ?_)
  dsimp only
  show (BasicMap.setBasicFloorBlock _ plainBlock).floorIds 0 0 ⟨7, by decide⟩ ⟨0, by decide⟩ = 1
  rw [BasicMap.floorIds_setBasicFloorBlock _ (by decide) (by decide) (by decide), if_pos (by decide)]
  rfl

end MapCache

end ForgottenServer
