import ForgottenServer.MapCache.Store

/-! # Reading the cache file

`loadPersistent` and what it gives back of a file that `savePersistent` has written. -/

open Reader LittleEndian DepthFirst

namespace ForgottenServer

namespace MapCache

def readSize : Reader Unit Nat := do
  let n ← readBits 32
  pure n.toNat

def readString (maxSize : Nat) : Reader Unit (List UInt8) := do
  let size ← readSize
  require (size ≤ maxSize)
  Reader.take size

/-- An item whose nested items are still numbers of the file. -/
structure PendingItem where
  item : BasicItem
  children : List (BitVec 32)

def readItem : Reader Unit PendingItem := do
  let id ← readBits 16
  let charges ← readBits 16
  let actionId ← readBits 16
  let uniqueId ← readBits 16
  let destX ← readBits 16
  let destY ← readBits 16
  let doorOrDepotId ← readBits 16
  let destZ ← readBits 8
  let text ← readString (16 * 1024 * 1024)
  let childCount ← readSize
  require (childCount ≤ MAX_CACHE_ENTRIES)
  let children ← Reader.list childCount (readBits 32)
  pure { item := { text, id, charges, actionId, uniqueId, destX, destY, doorOrDepotId, destZ }, children }

/-- A number of an item, which is not 0 and not above the number of items, as its place. -/
def placeOf (size : Nat) (id : BitVec 32) : Option Nat :=
  if id = 0 ∨ size < id.toNat then none else some (id.toNat - 1)

def ofOption {α : Type} : Option α → Reader Unit α
  | some a => pure a
  | none => fail

/-- The nested items are put into the items. -/
def link (pendingItems : List PendingItem) : Option (List BasicItem) :=
  pendingItems.mapM fun pending => do
    let items ← pending.children.mapM (placeOf pendingItems.length)
    pure { pending.item with items }

def readTile (size : Nat) : Reader Unit BasicTile := do
  let groundId ← readBits 32
  let tileItemCount ← readSize
  require (tileItemCount ≤ MAX_CACHE_ENTRIES)
  require (groundId.toNat ≤ size)
  let items ← Reader.list tileItemCount (readBits 32 >>= fun id => ofOption (placeOf size id))
  let zoneCount ← readSize
  require (zoneCount ≤ 65535)
  let zoneIds ← Reader.list zoneCount (readBits 16)
  let flags ← readBits 32
  let houseId ← readBits 32
  let isStatic ← readBits 8
  pure { ground := if groundId = 0 then none else some (groundId.toNat - 1), items, zoneIds, flags, houseId
         isStatic := isStatic != 0 }

def readTileId (tileCount : Nat) : Reader Unit (BitVec 32) := do
  let id ← readBits 32
  require (id.toNat ≤ tileCount)
  pure id

def readBlock (tileCount : Nat) : Reader Unit FloorBlock := do
  let x ← readBits 16
  let y ← readBits 16
  let z ← readBits 8
  let ids ← Reader.list (FLOOR_SIZE * FLOOR_SIZE) (readTileId tileCount)
  pure { x, y, z, ids := fun i => ids.getD i 0 }

def readHeader (version : CacheVersion) (fingerprint : Fingerprint) (houseCacheDigest : Digest) : Reader Unit Unit := do
  let magic ← Reader.take MAP_CACHE_MAGIC.length
  require (magic = MAP_CACHE_MAGIC)
  let cacheVersion ← readBits 32
  require (cacheVersion = MAP_CACHE_VERSION)
  let clientVersion ← readBits 32
  let itemMajor ← readBits 32
  let itemMinor ← readBits 32
  let itemBuild ← readBits 32
  require (clientVersion = version.clientVersionMin ∧ itemMajor = version.majorVersion ∧
    itemMinor = version.minorVersion ∧ itemBuild = version.buildNumber)
  let storedMap ← Reader.take 32
  let storedItemsOtb ← Reader.take 32
  let storedItemsXml ← Reader.take 32
  let storedHouseDigest ← Reader.take 32
  require (storedMap = fingerprint.map.bytes ∧ storedItemsOtb = fingerprint.itemsOtb.bytes ∧
    storedItemsXml = fingerprint.itemsXml.bytes ∧ storedHouseDigest = houseCacheDigest.bytes)

/-- The tiles get their ids in the order of the file. -/
def withCacheIds (tiles : List BasicTile) : List BasicTile :=
  tiles.mapIdx fun i tile => { tile with cacheId := BitVec.ofNat 32 (i + 1) }

/-- What is loaded: the items, in the order of the file, and the tiles that refer to them, and the map. -/
structure Loaded where
  items : List BasicItem
  tiles : List BasicTile
  map : BasicMap

/-- `loadPersistent` after the checksum. -/
def readPayload (version : CacheVersion) (fingerprint : Fingerprint) (houseCacheDigest : Digest) (map : BasicMap) :
    Reader Unit Loaded := do
  readHeader version fingerprint houseCacheDigest
  let width ← readBits 32
  let height ← readBits 32
  let spawnfile ← readString (64 * 1024)
  let housefile ← readString (64 * 1024)
  let itemCount ← readSize
  let tileCount ← readSize
  let blockCount ← readSize
  require (itemCount ≤ MAX_CACHE_ENTRIES ∧ tileCount ≤ MAX_CACHE_ENTRIES ∧ blockCount ≤ MAX_CACHE_ENTRIES)
  let pendingItems ← Reader.list itemCount readItem
  let items ← ofOption (link pendingItems)
  let tiles ← Reader.list tileCount (readTile itemCount)
  let blocks ← Reader.list blockCount (readBlock tileCount)
  pure { items, tiles := withCacheIds tiles
         map := blocks.foldl BasicMap.setBasicFloorBlock { map with width, height, spawnfile, housefile } }

/-- The file is as long as a header, and its last 32 bytes are the checksum of the others. -/
def loadPersistent (sha256 : List UInt8 → Digest) (version : CacheVersion) (fingerprint : Fingerprint)
    (houseCacheDigest : Digest) (map : BasicMap) (file : List UInt8) : Option Loaded :=
  if file.length < MAP_CACHE_MAGIC.length + 4 + 32 then none
  else
    let payload := file.take (file.length - 32)
    if (sha256 payload).bytes ≠ file.drop (file.length - 32) then none
    else ((readPayload version fingerprint houseCacheDigest map).run () payload).1

/-! ## Every part of the file is read as it was written -/

theorem reads_size {n : Nat} (h : n < 2 ^ 32) : Reads readSize (writeSize n) () n () := by
  refine (Reads.readBits (BitVec.ofNat 32 n) rfl ()).bindNil ?_
  rw [BitVec.toNat_ofNat, Nat.mod_eq_of_lt h]
  exact Reads.pure n ()

theorem reads_entries {n : Nat} (h : n ≤ MAX_CACHE_ENTRIES) : Reads readSize (writeSize n) () n () :=
  reads_size (lt_of_le_of_lt h (by decide))

theorem reads_string {str : List UInt8} {maxSize : Nat} (hmax : maxSize < 2 ^ 32) (h : str.length ≤ maxSize) :
    Reads (readString maxSize) (writeString str) () str () :=
  (reads_size (lt_of_le_of_lt h hmax)).bind (Reads.thenRequire h (Reads.take str rfl ()))

/-- The limits of the reader for an item. -/
def ItemFits (item : BasicItem) : Prop := item.text.length ≤ 16 * 1024 * 1024 ∧ item.items.length ≤ MAX_CACHE_ENTRIES

/-- What is read of an item. -/
def pendingOf (itemId : Nat → BitVec 32) (item : BasicItem) : PendingItem :=
  ⟨{ item with items := [] }, item.items.map itemId⟩

theorem reads_item (itemId : Nat → BitVec 32) {item : BasicItem} (h : ItemFits item) :
    Reads readItem (writeItem itemId item) () (pendingOf itemId item) () := by
  have hchildren : Reads (Reader.list item.items.length (readBits 32)) (item.items.flatMap fun child =>
      writeBits (itemId child)) () (item.items.map itemId) () :=
    Reads.list (fun child => writeBits (itemId child)) itemId item.items fun child _ => Reads.readBits _ rfl ()
  exact (Reads.readBits item.id rfl ()).bind <| (Reads.readBits item.charges rfl ()).bind <|
    (Reads.readBits item.actionId rfl ()).bind <| (Reads.readBits item.uniqueId rfl ()).bind <|
    (Reads.readBits item.destX rfl ()).bind <| (Reads.readBits item.destY rfl ()).bind <|
    (Reads.readBits item.doorOrDepotId rfl ()).bind <| (Reads.readBits item.destZ rfl ()).bind <|
    (reads_string (by decide) h.1).bind <| (reads_entries h.2).bind <| Reads.thenRequire h.2 <|
    hchildren.bindNil (Reads.pure _ ())

/-- The limits of the reader for a tile. -/
def TileFits (tile : BasicTile) : Prop := tile.items.length ≤ MAX_CACHE_ENTRIES ∧ tile.zoneIds.length ≤ 65535

/-- `itemId` numbers the references that `f` sends to the places below `size`. -/
def Numbers (itemId : Nat → BitVec 32) (f : Nat → Nat) (size : Nat) (r : Nat) : Prop :=
  (itemId r).toNat = f r + 1 ∧ f r < size

variable {itemId : Nat → BitVec 32} {f : Nat → Nat} {size : Nat}

theorem Numbers.ne_zero {r : Nat} (h : Numbers itemId f size r) : itemId r ≠ 0 := by
  intro hzero
  have hnumber := h.1
  rw [hzero] at hnumber
  exact absurd hnumber (Nat.succ_ne_zero _).symm

theorem placeOf_eq {r : Nat} (h : Numbers itemId f size r) : placeOf size (itemId r) = some (f r) := by
  have hle : ¬ size < (itemId r).toNat := by
    rw [h.1]
    exact not_lt.mpr h.2
  rw [placeOf, if_neg (not_or.mpr ⟨h.ne_zero, hle⟩), h.1, Nat.add_sub_cancel]

theorem reads_place {r : Nat} (h : Numbers itemId f size r) :
    Reads (readBits 32 >>= fun id => ofOption (placeOf size id)) (writeBits (itemId r)) () (f r) () := by
  refine (Reads.readBits (itemId r) rfl ()).bindNil ?_
  rw [placeOf_eq h]
  exact Reads.pure _ ()

theorem reads_tile {tile : BasicTile} (h : TileFits tile) (hground : ∀ r ∈ tile.ground, Numbers itemId f size r)
    (hitems : ∀ r ∈ tile.items, Numbers itemId f size r) :
    Reads (readTile size) (writeTile itemId tile) () { tile.mapRefs f with cacheId := 0 } () := by
  have hlist : Reads (Reader.list tile.items.length (readBits 32 >>= fun id => ofOption (placeOf size id)))
      (tile.items.flatMap fun item => writeBits (itemId item)) () (tile.items.map f) () :=
    Reads.list (fun item => writeBits (itemId item)) f tile.items fun r hr => reads_place (hitems r hr)
  have hzones : Reads (Reader.list tile.zoneIds.length (readBits 16)) (tile.zoneIds.flatMap writeBits) ()
      tile.zoneIds () := by
    have hread := Reads.list (fun zone : BitVec 16 => writeBits zone) id tile.zoneIds
      fun zone _ => Reads.readBits zone rfl ()
    rwa [List.map_id] at hread
  have hle : ((tile.ground.map itemId).getD 0).toNat ≤ size := by
    cases hg : tile.ground with
    | none => exact Nat.zero_le _
    | some r =>
      have hr := hground r hg
      rw [Option.map_some, Option.getD_some, hr.1]
      exact hr.2
  have hground' : (if (tile.ground.map itemId).getD 0 = 0 then none
      else some (((tile.ground.map itemId).getD 0).toNat - 1)) = tile.ground.map f := by
    cases hg : tile.ground with
    | none => rfl
    | some r =>
      have hr := hground r hg
      rw [Option.map_some, Option.getD_some, if_neg hr.ne_zero, hr.1, Nat.add_sub_cancel, Option.map_some]
  have hstatic : ((if tile.isStatic then (1 : BitVec 8) else 0) != 0) = tile.isStatic := by
    cases tile.isStatic <;> rfl
  refine (Reads.readBits ((tile.ground.map itemId).getD 0) rfl ()).bind <| (reads_entries h.1).bind <|
    Reads.thenRequire h.1 <| Reads.thenRequire hle <| hlist.bind <|
    (reads_size (lt_of_le_of_lt h.2 (by decide))).bind <| Reads.thenRequire h.2 <| hzones.bind <|
    (Reads.readBits tile.flags rfl ()).bind <| (Reads.readBits tile.houseId rfl ()).bind <|
    (Reads.readBits (if tile.isStatic then (1 : BitVec 8) else 0) rfl ()).bindNil ?_
  rw [hground', hstatic]
  exact Reads.pure _ ()

theorem reads_tileId {id : BitVec 32} {tileCount : Nat} (h : id.toNat ≤ tileCount) :
    Reads (readTileId tileCount) (writeBits id) () id () :=
  (Reads.readBits id rfl ()).bindNil (Reads.thenRequire h (Reads.pure id ()))

theorem reads_block {block : FloorBlock} {tileCount : Nat} (h : ∀ i, (block.ids i).toNat ≤ tileCount) :
    Reads (readBlock tileCount) (writeBlock block) () block () := by
  have hids : Reads (Reader.list (FLOOR_SIZE * FLOOR_SIZE) (readTileId tileCount))
      ((List.ofFn block.ids).flatMap writeBits) () (List.ofFn block.ids) () := by
    have heach : ∀ id ∈ List.ofFn block.ids, Reads (readTileId tileCount) (writeBits id) () id () := by
      intro id hid
      obtain ⟨i, rfl⟩ := List.mem_ofFn.mp hid
      exact reads_tileId (h i)
    have hread := Reads.list writeBits id (List.ofFn block.ids) heach
    rwa [List.map_id, List.length_ofFn] at hread
  have hget : (fun i : Fin (FLOOR_SIZE * FLOOR_SIZE) => (List.ofFn block.ids).getD i 0) = block.ids := by
    funext i
    rw [List.getD_eq_getElem?_getD, List.getElem?_ofFn]
    simp
  refine (Reads.readBits block.x rfl ()).bind <| (Reads.readBits block.y rfl ()).bind <|
    (Reads.readBits block.z rfl ()).bind <| hids.bindNil ?_
  rw [hget]
  exact Reads.pure _ ()

theorem reads_header (version : CacheVersion) (fingerprint : Fingerprint) (houseCacheDigest : Digest) :
    Reads (readHeader version fingerprint houseCacheDigest) (writeHeader version fingerprint houseCacheDigest) () () () := by
  have htake (digest : Digest) : Reads (Reader.take 32) digest.bytes () digest.bytes () :=
    Reads.take digest.bytes digest.size ()
  exact (Reads.take MAP_CACHE_MAGIC rfl ()).bind <| Reads.thenRequire rfl <|
    (Reads.readBits MAP_CACHE_VERSION rfl ()).bind <| Reads.thenRequire rfl <|
    (Reads.readBits version.clientVersionMin rfl ()).bind <| (Reads.readBits version.majorVersion rfl ()).bind <|
    (Reads.readBits version.minorVersion rfl ()).bind <| (Reads.readBits version.buildNumber rfl ()).bind <|
    Reads.thenRequire ⟨rfl, rfl, rfl, rfl⟩ <| (htake fingerprint.map).bind <| (htake fingerprint.itemsOtb).bind <|
    (htake fingerprint.itemsXml).bind <| (htake houseCacheDigest).bindNil (Reads.require ⟨rfl, rfl, rfl, rfl⟩ ())

end MapCache

end ForgottenServer
