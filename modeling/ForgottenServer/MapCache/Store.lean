import ForgottenServer.Lib.DepthFirst
import ForgottenServer.Lib.QuadTree
import ForgottenServer.Lib.StreamReader

/-! # The tile store and its cache file

`MapCache` keeps the items and tiles of a map once, however often they occur (`mapcache.h`), and the map
keeps the id of a tile for every position (`map.h`). `savePersistent` writes both to a file. -/

open Reader LittleEndian DepthFirst

namespace ForgottenServer

/-- A `shared_ptr` to an item is its place in the heap. What is nested in it is on the heap before it. -/
structure BasicItem where
  text : List UInt8 := []
  id : BitVec 16 := 0
  charges : BitVec 16 := 0
  actionId : BitVec 16 := 0
  uniqueId : BitVec 16 := 0
  destX : BitVec 16 := 0
  destY : BitVec 16 := 0
  doorOrDepotId : BitVec 16 := 0
  destZ : BitVec 8 := 0
  items : List Nat := []

structure BasicTile where
  ground : Option Nat := none
  items : List Nat := []
  zoneIds : List (BitVec 16) := []
  flags : BitVec 32 := 0
  houseId : BitVec 32 := 0
  isStatic : Bool := false
  cacheId : BitVec 32 := 0

/-- The same references by other names. -/
def BasicItem.mapRefs (f : Nat → Nat) (item : BasicItem) : BasicItem := { item with items := item.items.map f }

def BasicTile.mapRefs (f : Nat → Nat) (tile : BasicTile) : BasicTile :=
  { tile with ground := tile.ground.map f, items := tile.items.map f }

structure TileStore where
  heap : Nat → BasicItem
  nested : ∀ r, ∀ c ∈ (heap r).items, c < r
  tiles : List BasicTile
  interned : ∀ i (h : i < tiles.length), tiles[i].cacheId = BitVec.ofNat 32 (i + 1)

namespace TileStore

variable (store : TileStore)

def getTileById (tiles : List BasicTile) (id : Nat) : Option BasicTile := if id = 0 then none else tiles[id - 1]?

/-- The items of the tiles, in the order in which `savePersistent` adds them. -/
def roots : List Nat := store.tiles.flatMap fun tile => tile.ground.toList ++ tile.items

/-- The items of the file: `addItem` of every item of a tile. -/
def order : List Nat := visitAll (fun r => (store.heap r).items) id store.roots

/-- `itemIds`: from 1 on, 0 is no item. -/
def itemId (r : Nat) : BitVec 32 := BitVec.ofNat 32 (store.order.idxOf r + 1)

/-- An item on a tile, or in such an item. -/
inductive Reachable : Nat → Prop
  | root {r : Nat} : r ∈ store.roots → Reachable r
  | nested {r c : Nat} : Reachable r → c ∈ (store.heap r).items → Reachable c

end TileStore

/-! ## The floors of the map -/

def FLOOR_SIZE : Nat := 8
def MAP_MAX_LAYERS : Nat := 16

/-- The ids of the tiles of a floor, those of one column after another. -/
abbrev FloorIds := Fin (FLOOR_SIZE * FLOOR_SIZE) → BitVec 32

abbrev Floors := Fin MAP_MAX_LAYERS → Option FloorIds

/-- What `Map` has beside the tiles that are loaded. The root has a level for each of the thirteen
highest bits of a coordinate. -/
structure BasicMap where
  width : BitVec 32 := 0
  height : BitVec 32 := 0
  spawnfile : List UInt8 := []
  housefile : List UInt8 := []
  root : QuadTree Floors 13 := QuadTree.empty 13

structure FloorBlock where
  x : BitVec 16
  y : BitVec 16
  z : BitVec 8
  ids : FloorIds

namespace BasicMap

/-- The blocks of a leaf that have a tile. -/
def blocksOf (leaf : Nat × Nat × Floors) : List FloorBlock :=
  (List.finRange MAP_MAX_LAYERS).filterMap fun z => (leaf.2.2 z).bind fun ids =>
    if ∃ i, ids i ≠ 0 then
      some ⟨BitVec.ofNat 16 (leaf.1 <<< 3), BitVec.ofNat 16 (leaf.2.1 <<< 3), BitVec.ofNat 8 z, ids⟩
    else none

def forEachBasicFloorBlock (map : BasicMap) : List FloorBlock := (QuadTree.leaves 13 map.root 0 0).flatMap blocksOf

def setBasicFloorBlock (map : BasicMap) (block : FloorBlock) : BasicMap :=
  if h : block.z.toNat < MAP_MAX_LAYERS then
    let setFloor (floors : Floors) : Floors := Function.update floors ⟨block.z.toNat, h⟩ (some block.ids)
    { map with root := QuadTree.update setFloor 13 map.root (block.x.toNat >>> 3) (block.y.toNat >>> 3) }
  else map

/-- The ids of a floor. A floor that is not there has none. -/
def floorIds (map : BasicMap) (x y : Nat) (z : Fin MAP_MAX_LAYERS) : FloorIds :=
  ((QuadTree.find 13 map.root x y).bind fun floors => floors z).getD fun _ => 0

end BasicMap

/-! ## The file -/

/-- `std::array<uint8_t, 32>` -/
structure Digest where
  bytes : List UInt8
  size : bytes.length = 32

structure Fingerprint where
  map : Digest
  itemsOtb : Digest
  itemsXml : Digest

/-- The versions of the server that are in the file. -/
structure CacheVersion where
  clientVersionMin : BitVec 32
  majorVersion : BitVec 32
  minorVersion : BitVec 32
  buildNumber : BitVec 32

namespace MapCache

def MAP_CACHE_MAGIC : List UInt8 := [0x54, 0x46, 0x53, 0x4D, 0x43, 0x30, 0x31, 0]
def MAP_CACHE_VERSION : BitVec 32 := 2
def MAX_CACHE_ENTRIES : Nat := 100000000

def writeSize (n : Nat) : List UInt8 := writeBits (BitVec.ofNat 32 n)

def writeString (str : List UInt8) : List UInt8 := writeSize str.length ++ str

def writeHeader (version : CacheVersion) (fingerprint : Fingerprint) (houseCacheDigest : Digest) : List UInt8 :=
  MAP_CACHE_MAGIC ++ (writeBits MAP_CACHE_VERSION ++ (writeBits version.clientVersionMin ++
    (writeBits version.majorVersion ++ (writeBits version.minorVersion ++ (writeBits version.buildNumber ++
      (fingerprint.map.bytes ++ (fingerprint.itemsOtb.bytes ++ (fingerprint.itemsXml.bytes ++
        houseCacheDigest.bytes))))))))

def writeItem (itemId : Nat → BitVec 32) (item : BasicItem) : List UInt8 :=
  writeBits item.id ++ (writeBits item.charges ++ (writeBits item.actionId ++ (writeBits item.uniqueId ++
    (writeBits item.destX ++ (writeBits item.destY ++ (writeBits item.doorOrDepotId ++ (writeBits item.destZ ++
      (writeString item.text ++ (writeSize item.items.length ++
        item.items.flatMap fun child => writeBits (itemId child))))))))))

def writeTile (itemId : Nat → BitVec 32) (tile : BasicTile) : List UInt8 :=
  writeBits ((tile.ground.map itemId).getD 0) ++ (writeSize tile.items.length ++
    ((tile.items.flatMap fun item => writeBits (itemId item)) ++ (writeSize tile.zoneIds.length ++
      (tile.zoneIds.flatMap writeBits ++ (writeBits tile.flags ++ (writeBits tile.houseId ++
        writeBits (if tile.isStatic then (1 : BitVec 8) else 0)))))))

def writeBlock (block : FloorBlock) : List UInt8 :=
  writeBits block.x ++ (writeBits block.y ++ (writeBits block.z ++ (List.ofFn block.ids).flatMap writeBits))

/-- What `savePersistent` writes before the checksum. -/
def writePayload (version : CacheVersion) (fingerprint : Fingerprint) (houseCacheDigest : Digest) (store : TileStore)
    (map : BasicMap) : List UInt8 :=
  let items := store.order.map store.heap
  let blocks := map.forEachBasicFloorBlock
  writeHeader version fingerprint houseCacheDigest ++ (writeBits map.width ++ (writeBits map.height ++
    (writeString map.spawnfile ++ (writeString map.housefile ++ (writeSize items.length ++
      (writeSize store.tiles.length ++ (writeSize blocks.length ++ (items.flatMap (writeItem store.itemId) ++
        (store.tiles.flatMap (writeTile store.itemId) ++ blocks.flatMap writeBlock)))))))))

/-- The file. `sha256` is the digest of the payload. -/
def savePersistent (sha256 : List UInt8 → Digest) (version : CacheVersion) (fingerprint : Fingerprint)
    (houseCacheDigest : Digest) (store : TileStore) (map : BasicMap) : List UInt8 :=
  let payload := writePayload version fingerprint houseCacheDigest store map
  payload ++ (sha256 payload).bytes

end MapCache

end ForgottenServer
