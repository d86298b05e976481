import ForgottenServer.MapCache.Persistent

/-! # The cache file gives back the store

The items are numbered in the order of the file, so the store that is loaded is the one that was saved
with other names for its references. The blocks of the file put the ids of the tiles back on the floors. -/

open Reader DepthFirst

namespace ForgottenServer

namespace TileStore

variable (store : TileStore)

theorem mem_order_of_reachable {r : Nat} (h : store.Reachable r) : r ∈ store.order := by
  induction h with
  | root hr => exact mem_visitAll store.nested store.roots hr
  | nested _ hc ih => exact child_mem_visitAll store.nested store.roots ih hc

theorem reachable_of_tile {tile : BasicTile} (htile : tile ∈ store.tiles) {r : Nat}
    (hr : r ∈ tile.ground.toList ++ tile.items) : store.Reachable r :=
  .root (List.mem_flatMap.mpr ⟨tile, htile, hr⟩)

end TileStore

/-! ## The floors -/

/-- The floor that a block is for. -/
def FloorBlock.At (x y : Nat) (z : Fin MAP_MAX_LAYERS) (block : FloorBlock) : Prop :=
  block.x.toNat >>> 3 = x ∧ block.y.toNat >>> 3 = y ∧ block.z.toNat = z

instance (x y : Nat) (z : Fin MAP_MAX_LAYERS) : DecidablePred (FloorBlock.At x y z) :=
  fun _ => inferInstanceAs (Decidable (_ ∧ _ ∧ _))

namespace BasicMap

/-- The place of a block is the number of its leaf with the bits inside of a floor. -/
theorem toNat_shift {x : Nat} (h : x < 2 ^ 13) : (BitVec.ofNat 16 (x <<< 3)).toNat >>> 3 = x := by
  rw [BitVec.toNat_ofNat, Nat.shiftLeft_eq, Nat.shiftRight_eq_div_pow]
  omega

theorem shift_lt (v : BitVec 16) : v.toNat >>> 3 < 2 ^ 13 := by
  rw [Nat.shiftRight_eq_div_pow]
  exact Nat.div_lt_of_lt_mul v.isLt

theorem floorIds_setBasicFloorBlock (map : BasicMap) {block : FloorBlock} (hz : block.z.toNat < MAP_MAX_LAYERS)
    {x y : Nat} (hx : x < 2 ^ 13) (hy : y < 2 ^ 13) (z : Fin MAP_MAX_LAYERS) :
    (map.setBasicFloorBlock block).floorIds x y z =
      if block.At x y z then block.ids else map.floorIds x y z := by
  rw [setBasicFloorBlock, dif_pos hz, floorIds, floorIds,
    QuadTree.find_update_root _ _ (shift_lt block.x) (shift_lt block.y) hx hy]
  by_cases hxy : block.x.toNat >>> 3 = x ∧ block.y.toNat >>> 3 = y
  · rw [if_pos hxy, Option.bind_some]
    by_cases hkey : block.z.toNat = z
    · rw [if_pos ⟨hxy.1, hxy.2, hkey⟩, (Fin.ext hkey.symm : z = ⟨block.z.toNat, hz⟩), Function.update_self,
        Option.getD_some]
    · have hne : z ≠ ⟨block.z.toNat, hz⟩ := fun heq => hkey (congrArg Fin.val heq).symm
      rw [if_neg (fun h => hkey h.2.2), Function.update_of_ne hne]
      cases QuadTree.find 13 map.root x y <;> rfl
  · rw [if_neg hxy, if_neg (fun h => hxy ⟨h.1, h.2.1⟩)]

/-- Blocks that say what the floors of `saved` are. -/
def Agrees (saved : BasicMap) (block : FloorBlock) : Prop :=
  ∃ h : block.z.toNat < MAP_MAX_LAYERS,
    block.ids = saved.floorIds (block.x.toNat >>> 3) (block.y.toNat >>> 3) ⟨block.z.toNat, h⟩

/-- A floor with a block is as it is in `saved`, any other one as it was. -/
theorem floorIds_foldl (saved : BasicMap) {x y : Nat} (hx : x < 2 ^ 13) (hy : y < 2 ^ 13) (z : Fin MAP_MAX_LAYERS)
    (blocks : List FloorBlock) : ∀ map : BasicMap, (∀ block ∈ blocks, saved.Agrees block) →
    (blocks.foldl setBasicFloorBlock map).floorIds x y z =
      if ∃ block ∈ blocks, block.At x y z then saved.floorIds x y z else map.floorIds x y z := by
  induction blocks with
  | nil =>
    intro map _
    rw [if_neg (by simp)]
    rfl
  | cons block blocks ih =>
    intro map h
    obtain ⟨hz, hids⟩ := h block List.mem_cons_self
    rw [List.foldl_cons, ih _ fun b hb => h b (List.mem_cons_of_mem block hb), floorIds_setBasicFloorBlock map hz hx hy]
    by_cases hrest : ∃ b ∈ blocks, b.At x y z
    · rw [if_pos hrest, if_pos ((List.exists_mem_cons_iff (FloorBlock.At x y z) block blocks).mpr (Or.inr hrest))]
    · rw [if_neg hrest]
      by_cases hkey : block.At x y z
      · rw [if_pos hkey, if_pos ((List.exists_mem_cons_iff (FloorBlock.At x y z) block blocks).mpr (Or.inl hkey)), hids, hkey.1, hkey.2.1]
        exact congrArg (saved.floorIds x y) (Fin.ext hkey.2.2)
      · rw [if_neg hkey, if_neg (mt (List.exists_mem_cons_iff (FloorBlock.At x y z) block blocks).mp (not_or.mpr ⟨hkey, hrest⟩))]

theorem mem_blocksOf {leaf : Nat × Nat × Floors} {block : FloorBlock} : block ∈ blocksOf leaf ↔
    ∃ z ids, leaf.2.2 z = some ids ∧ (∃ i, ids i ≠ 0) ∧
      block = ⟨BitVec.ofNat 16 (leaf.1 <<< 3), BitVec.ofNat 16 (leaf.2.1 <<< 3), BitVec.ofNat 8 z, ids⟩ := by
  rw [blocksOf, List.mem_filterMap]
  constructor
  · rintro ⟨z, _, hz⟩
    obtain ⟨ids, hids, hblock⟩ := Option.bind_eq_some_iff.mp hz
    split at hblock
    · rename_i hex
      exact ⟨z, ids, hids, hex, (Option.some.inj hblock).symm⟩
    · cases hblock
  · rintro ⟨z, ids, hids, hex, rfl⟩
    exact ⟨z, List.mem_finRange z, by rw [hids, Option.bind_some, if_pos hex]⟩

theorem toNat_layer (z : Fin MAP_MAX_LAYERS) : (BitVec.ofNat 8 z).toNat = z := by
  rw [BitVec.toNat_ofNat]
  exact Nat.mod_eq_of_lt (lt_trans z.isLt (by decide))

theorem agrees_of_mem (map : BasicMap) {block : FloorBlock} (h : block ∈ map.forEachBasicFloorBlock) :
    map.Agrees block := by
  obtain ⟨⟨x, y, floors⟩, hleaf, hblock⟩ := List.mem_flatMap.mp h
  obtain ⟨z, ids, hids, -, rfl⟩ := mem_blocksOf.mp hblock
  obtain ⟨hx, hy⟩ := QuadTree.lt_of_mem_leaves hleaf
  have hfind := (QuadTree.mem_leaves_root hx hy).mp hleaf
  have hfloor : floors z = some ids := hids
  refine ⟨(toNat_layer z).symm ▸ z.isLt, ?_⟩
  have hz : (⟨(BitVec.ofNat 8 z).toNat, (toNat_layer z).symm ▸ z.isLt⟩ : Fin MAP_MAX_LAYERS) = z :=
    Fin.ext (toNat_layer z)
  rw [hz, toNat_shift hx, toNat_shift hy, floorIds, hfind, Option.bind_some, hfloor, Option.getD_some]

/-- A floor with a tile has a block. -/
theorem exists_block (map : BasicMap) {x y : Nat} (hx : x < 2 ^ 13) (hy : y < 2 ^ 13) {z : Fin MAP_MAX_LAYERS}
    (h : ∃ i, map.floorIds x y z i ≠ 0) : ∃ block ∈ map.forEachBasicFloorBlock, block.At x y z := by
  obtain ⟨i, hi⟩ := h
  rw [floorIds] at hi
  cases hfloor : (QuadTree.find 13 map.root x y).bind fun floors => floors z with
  | none =>
    rw [hfloor] at hi
    exact absurd rfl hi
  | some ids =>
    obtain ⟨floors, hfind, hids⟩ := Option.bind_eq_some_iff.mp hfloor
    rw [hfloor] at hi
    have hleaf := (QuadTree.mem_leaves_root hx hy).mpr hfind
    refine ⟨_, List.mem_flatMap.mpr ⟨_, hleaf, mem_blocksOf.mpr ⟨z, ids, hids, ⟨i, hi⟩, rfl⟩⟩, ?_⟩
    exact ⟨toNat_shift hx, toNat_shift hy, toNat_layer z⟩

/-- No floor has a tile. -/
def NoTiles (map : BasicMap) : Prop := ∀ x < 2 ^ 13, ∀ y < 2 ^ 13, ∀ z, map.floorIds x y z = fun _ => 0

/-- The blocks of a map put all its floors on a map that has none. -/
theorem floorIds_blocks (map : BasicMap) {target : BasicMap} (h : target.NoTiles) {x y : Nat} (hx : x < 2 ^ 13)
    (hy : y < 2 ^ 13) (z : Fin MAP_MAX_LAYERS) :
    (map.forEachBasicFloorBlock.foldl setBasicFloorBlock target).floorIds x y z = map.floorIds x y z := by
  rw [floorIds_foldl map hx hy z _ target fun block hblock => agrees_of_mem map hblock]
  split
  · rfl
  · rename_i hnone
    rw [h x hx y hy z]
    by_contra hne
    obtain ⟨i, hi⟩ := Function.ne_iff.mp hne
    exact hnone (exists_block map hx hy ⟨i, hi.symm⟩)

end BasicMap

/-! ## The items -/

namespace MapCache

/-- What the reader accepts: names of 64 KiB, texts of 16 MiB, and lists with limits of their own. -/
structure Fits (store : TileStore) (map : BasicMap) : Prop where
  items : ∀ r ∈ store.order, ItemFits (store.heap r)
  tiles : ∀ tile ∈ store.tiles, TileFits tile
  spawnfile : map.spawnfile.length ≤ 64 * 1024
  housefile : map.housefile.length ≤ 64 * 1024
  itemCount : store.order.length ≤ MAX_CACHE_ENTRIES
  tileCount : store.tiles.length ≤ MAX_CACHE_ENTRIES
  blockCount : map.forEachBasicFloorBlock.length ≤ MAX_CACHE_ENTRIES

/-- The place of an item in the file. -/
def placeIn (store : TileStore) (r : Nat) : Nat := store.order.idxOf r

theorem numbers_of_mem {store : TileStore} (h : store.order.length ≤ MAX_CACHE_ENTRIES) {r : Nat} (hr : r ∈ store.order) :
    Numbers store.itemId (placeIn store) store.order.length r := by
  have hlt : store.order.idxOf r < store.order.length := List.idxOf_lt_length_of_mem hr
  refine ⟨?_, hlt⟩
  rw [TileStore.itemId, BitVec.toNat_ofNat, Nat.mod_eq_of_lt]
  · rfl
  · exact lt_of_le_of_lt (Nat.succ_le_of_lt hlt) (lt_of_le_of_lt h (by decide))

theorem mapM_map_some {α β γ : Type} (xs : List α) (f : α → β) (g : β → Option γ) (h : α → γ)
    (heq : ∀ x ∈ xs, g (f x) = some (h x)) : (xs.map f).mapM g = some (xs.map h) := by
  induction xs with
  | nil => rfl
  | cons x xs ih =>
    rw [List.map_cons, List.mapM_cons, heq x List.mem_cons_self, ih fun y hy => heq y (List.mem_cons_of_mem x hy)]
    rfl

/-- Every number of a nested item is one of the file. -/
theorem link_order {store : TileStore} (h : store.order.length ≤ MAX_CACHE_ENTRIES) :
    link ((store.order.map store.heap).map (pendingOf store.itemId)) =
      some (store.order.map fun r => (store.heap r).mapRefs (placeIn store)) := by
  rw [link, List.length_map, List.length_map, List.map_map]
  refine mapM_map_some _ _ _ _ fun r hr => ?_
  have hchildren : ((store.heap r).items.map store.itemId).mapM (placeOf store.order.length) =
      some ((store.heap r).items.map (placeIn store)) :=
    mapM_map_some _ _ _ _ fun c hc => placeOf_eq (numbers_of_mem h (child_mem_visitAll store.nested store.roots hr hc))
  show (((store.heap r).items.map store.itemId).mapM (placeOf store.order.length)).bind _ = _
  rw [hchildren]
  rfl

theorem withCacheIds_tiles (store : TileStore) (f : Nat → Nat) :
    withCacheIds (store.tiles.map fun tile => { tile.mapRefs f with cacheId := 0 }) =
      store.tiles.map (BasicTile.mapRefs f) := by
  refine List.ext_getElem (by rw [withCacheIds, List.length_mapIdx, List.length_map, List.length_map]) fun i h h' => ?_
  rw [List.length_map] at h'
  simp only [withCacheIds, List.getElem_mapIdx, List.getElem_map, ← store.interned i h']
  rfl

/-- What is loaded from the file of a store. -/
def reloaded (store : TileStore) (map target : BasicMap) : Loaded where
  items := store.order.map fun r => (store.heap r).mapRefs (placeIn store)
  tiles := store.tiles.map (BasicTile.mapRefs (placeIn store))
  map :=
    map.forEachBasicFloorBlock.foldl BasicMap.setBasicFloorBlock
      { target with width := map.width, height := map.height, spawnfile := map.spawnfile, housefile := map.housefile }

/-- The ids of the floors are ids of tiles. -/
def TilesOf (store : TileStore) (map : BasicMap) : Prop :=
  ∀ x < 2 ^ 13, ∀ y < 2 ^ 13, ∀ z i, (map.floorIds x y z i).toNat ≤ store.tiles.length

variable (version : CacheVersion) (fingerprint : Fingerprint) (houseCacheDigest : Digest)

theorem reads_payload {store : TileStore} {map : BasicMap} (hfits : Fits store map) (hids : TilesOf store map)
    (target : BasicMap) : Reads (readPayload version fingerprint houseCacheDigest target)
      (writePayload version fingerprint houseCacheDigest store map) () (reloaded store map target) () := by
  have hnumbers (r : Nat) (h : store.Reachable r) :=
    numbers_of_mem hfits.itemCount (store.mem_order_of_reachable h)
  have hitem : ∀ item ∈ store.order.map store.heap, 
      Reads readItem (writeItem store.itemId item) () (pendingOf store.itemId item) () := by
    intro item hitem
    obtain ⟨r, hr, rfl⟩ := List.mem_map.mp hitem
    exact reads_item store.itemId (hfits.items r hr)
  have htile : ∀ tile ∈ store.tiles, Reads (readTile store.order.length) (writeTile store.itemId tile) ()
      { tile.mapRefs (placeIn store) with cacheId := 0 } () := by
    intro tile htile
    have hreach {r : Nat} (hr : r ∈ tile.ground.toList ++ tile.items) := hnumbers r (store.reachable_of_tile htile hr)
    exact reads_tile (hfits.tiles tile htile) (fun r hr => hreach (List.mem_append_left _ (Option.mem_toList.mpr hr)))
      fun r hr => hreach (List.mem_append_right _ hr)
  have hblock : ∀ block ∈ map.forEachBasicFloorBlock,
      Reads (readBlock store.tiles.length) (writeBlock block) () block () := by
    intro block hblock
    obtain ⟨hz, heq⟩ := map.agrees_of_mem hblock
    exact reads_block fun i => heq ▸ hids _ (BasicMap.shift_lt block.x) _ (BasicMap.shift_lt block.y) _ i
  have hblocks := Reads.list writeBlock id _ hblock
  have hlink : Reads (ofOption (link ((store.order.map store.heap).map (pendingOf store.itemId)))) [] ()
      (store.order.map fun r => (store.heap r).mapRefs (placeIn store)) () := by
    rw [link_order hfits.itemCount]
    exact Reads.pure _ ()
  have hcount : (store.order.map store.heap).length = store.order.length := List.length_map ..
  refine (reads_header version fingerprint houseCacheDigest).bind <| (Reads.readBits map.width rfl ()).bind <|
    (Reads.readBits map.height rfl ()).bind <| (reads_string (by decide) hfits.spawnfile).bind <|
    (reads_string (by decide) hfits.housefile).bind <| (reads_entries (hcount ▸ hfits.itemCount)).bind <|
    (reads_entries hfits.tileCount).bind <| (reads_entries hfits.blockCount).bind <|
    Reads.thenRequire ⟨hcount ▸ hfits.itemCount, hfits.tileCount, hfits.blockCount⟩ <|
    (Reads.list _ _ _ hitem).bind ?_
  rw [List.map_id] at hblocks
  refine hlink.nilBind ?_
  rw [hcount]
  refine (Reads.list _ _ _ htile).bind <| hblocks.bindNil ?_
  rw [withCacheIds_tiles]
  exact Reads.pure _ ()

/-! ## The round trip -/

/-- The same tiles in the same order, up to the names of the references. Two references that were the same
are the same, and two that were not are not. -/
def SameTable (store : TileStore) (loaded : Loaded) : Prop :=
  ∃ f : Nat → Nat, Set.InjOn f { r | store.Reachable r } ∧
    (∀ r, store.Reachable r → loaded.items[f r]? = some ((store.heap r).mapRefs f)) ∧
    loaded.tiles.length = store.tiles.length ∧
    ∀ id, TileStore.getTileById loaded.tiles id = (TileStore.getTileById store.tiles id).map (BasicTile.mapRefs f)

structure SameMap (map loaded : BasicMap) : Prop where
  width : loaded.width = map.width
  height : loaded.height = map.height
  spawnfile : loaded.spawnfile = map.spawnfile
  housefile : loaded.housefile = map.housefile
  floors : ∀ x < 2 ^ 13, ∀ y < 2 ^ 13, ∀ z, loaded.floorIds x y z = map.floorIds x y z

theorem sameTable_reloaded (store : TileStore) (map target : BasicMap) : SameTable store (reloaded store map target) := by
  refine ⟨placeIn store, ?_, fun r hr => ?_, List.length_map .., fun id => ?_⟩
  · intro r hr r' _ heq
    exact (List.idxOf_inj (store.mem_order_of_reachable hr)).mp heq
  · have hmem := store.mem_order_of_reachable hr
    rw [reloaded, List.getElem?_map, placeIn, List.getElem?_idxOf hmem]
    rfl
  · rw [TileStore.getTileById, TileStore.getTileById]
    split
    · rfl
    · exact List.getElem?_map ..

/-- The blocks change only the floors. -/
theorem foldl_setBasicFloorBlock (blocks : List FloorBlock) : ∀ map : BasicMap,
    ∃ root, blocks.foldl BasicMap.setBasicFloorBlock map = { map with root } := by
  induction blocks with
  | nil => exact fun map => ⟨map.root, rfl⟩
  | cons block blocks ih =>
    intro map
    obtain ⟨root, hroot⟩ := ih (map.setBasicFloorBlock block)
    refine ⟨root, ?_⟩
    rw [List.foldl_cons, hroot, BasicMap.setBasicFloorBlock]
    split <;> rfl

theorem sameMap_reloaded (store : TileStore) (map : BasicMap) {target : BasicMap} (h : target.NoTiles) :
    SameMap map (reloaded store map target).map := by
  obtain ⟨root, hroot⟩ := foldl_setBasicFloorBlock map.forEachBasicFloorBlock
    { target with width := map.width, height := map.height, spawnfile := map.spawnfile, housefile := map.housefile }
  have hfields : (reloaded store map target).map = ⟨map.width, map.height, map.spawnfile, map.housefile, root⟩ := hroot
  have htarget : BasicMap.NoTiles { target with
    width := map.width, height := map.height, spawnfile := map.spawnfile, housefile := map.housefile } := h
  refine ⟨?_, ?_, ?_, ?_, fun x hx y hy z => map.floorIds_blocks htarget hx hy z⟩
  all_goals rw [hfields]

section File

variable (sha256 : List UInt8 → Digest)

/-- The checksum of a file that was saved is right, so the payload is read. -/
theorem loadPersistent_savePersistent (store : TileStore) (map target : BasicMap) :
    loadPersistent sha256 version fingerprint houseCacheDigest target
        (savePersistent sha256 version fingerprint houseCacheDigest store map) =
      ((readPayload version fingerprint houseCacheDigest target).run ()
        (writePayload version fingerprint houseCacheDigest store map)).1 := by
  have hlength : MAP_CACHE_MAGIC.length + 4 ≤ (writePayload version fingerprint houseCacheDigest store map).length := by
    simp only [writePayload, writeHeader, List.length_append, length_writeBits]
    omega
  unfold loadPersistent savePersistent
  simp only [List.length_append, (sha256 _).size, Nat.add_sub_cancel, List.take_left, List.drop_left]
  rw [if_neg (by omega), if_neg (by simp)]

theorem load_save {store : TileStore} {map target : BasicMap} (hfits : Fits store map) (hids : TilesOf store map)
    (htarget : target.NoTiles) :
    ∃ loaded, loadPersistent sha256 version fingerprint houseCacheDigest target
        (savePersistent sha256 version fingerprint houseCacheDigest store map) = some loaded ∧
      (readPayload version fingerprint houseCacheDigest target).run ()
        (writePayload version fingerprint houseCacheDigest store map) = (some loaded, (), []) ∧
      SameTable store loaded ∧ SameMap map loaded.map := by
  have hrun := reads_payload version fingerprint houseCacheDigest hfits hids target []
  rw [List.append_nil] at hrun
  refine ⟨reloaded store map target, ?_, hrun, sameTable_reloaded store map target, sameMap_reloaded store map htarget⟩
  rw [loadPersistent_savePersistent, hrun]

/-- A name that is longer than the reader allows. -/
theorem fails_readString {str : List UInt8} {maxSize : Nat} (h : maxSize < str.length) (hsize : str.length < 2 ^ 32)
    (rest : List UInt8) : Fails (readString maxSize) (writeString str ++ rest) () := by
  rw [writeString, List.append_assoc]
  exact (reads_size hsize).bindFails (Fails.bind (Fails.require (not_le.mpr h)) _)

theorem load_save_long {store : TileStore} {map : BasicMap} (target : BasicMap) (h : 64 * 1024 < map.spawnfile.length)
    (hsize : map.spawnfile.length < 2 ^ 32) : loadPersistent sha256 version fingerprint houseCacheDigest target
      (savePersistent sha256 version fingerprint houseCacheDigest store map) = none := by
  rw [loadPersistent_savePersistent]
  exact (reads_header version fingerprint houseCacheDigest).bindFails <| (Reads.readBits map.width rfl ()).bindFails <|
    (Reads.readBits map.height rfl ()).bindFails <| Fails.bind (fails_readString h hsize _) _

end File

/-! ## Two stores -/

def noDigest : Digest := ⟨List.replicate 32 0, by decide⟩

def noFingerprint : Fingerprint := ⟨noDigest, noDigest, noDigest⟩

/-- A bag with a coin is on two tiles. -/
def bagStore : TileStore where
  heap r := if r = 1 then { id := 1987, items := [0] } else { id := 2148, charges := 3 }
  nested := by
    intro r c hc
    split at hc
    · obtain rfl := List.mem_singleton.mp hc
      omega
    · cases hc
  tiles := [{ items := [1], flags := 1, cacheId := 1 }, { ground := some 0, items := [1, 1], cacheId := 2 }]
  interned := by decide

/-- Both tiles are on one floor. -/
def bagMap : BasicMap :=
  BasicMap.setBasicFloorBlock { width := 2048, height := 2048, spawnfile := [0x73], housefile := [0x68] }
    ⟨1000, 1000, 7, fun i => if i.val = 0 then 2 else if i.val = 9 then 1 else 0⟩

theorem bagMap_fits : Fits bagStore bagMap where
  items := by
    intro r hr
    have horder : bagStore.order = [1, 0] := by decide
    rw [horder] at hr
    rcases List.mem_cons.mp hr with rfl | hr
    · exact ⟨by decide, by decide⟩
    · obtain rfl := List.mem_singleton.mp hr
      exact ⟨by decide, by decide⟩
  tiles := by
    intro tile htile
    rcases List.mem_cons.mp htile with rfl | htile
    · exact ⟨by decide, by decide⟩
    · obtain rfl := List.mem_singleton.mp htile
      exact ⟨by decide, by decide⟩
  spawnfile := by decide
  housefile := by decide
  itemCount := by decide
  tileCount := by decide
  blockCount := by decide +kernel

theorem bagMap_tilesOf : TilesOf bagStore bagMap := by
  intro x hx y hy z i
  rw [bagMap, BasicMap.floorIds_setBasicFloorBlock _ (by decide) hx hy]
  split
  · show (if i.val = 0 then (2 : BitVec 32) else if i.val = 9 then 1 else 0).toNat ≤ 2
    split_ifs <;> decide
  · exact Nat.zero_le 2

theorem load_save_bag : ∃ loaded, loadPersistent (fun _ => noDigest) ⟨860, 3, 57, 62⟩ noFingerprint noDigest {}
      (savePersistent (fun _ => noDigest) ⟨860, 3, 57, 62⟩ noFingerprint noDigest bagStore bagMap) = some loaded ∧
    (readPayload ⟨860, 3, 57, 62⟩ noFingerprint noDigest {}).run ()
      (writePayload ⟨860, 3, 57, 62⟩ noFingerprint noDigest bagStore bagMap) = (some loaded, (), []) ∧
    SameTable bagStore loaded ∧ SameMap bagMap loaded.map :=
  load_save _ _ _ _ bagMap_fits bagMap_tilesOf fun _ _ _ _ _ => rfl

/-- The name of the directory is in front of the name in the map, which can have 65535 bytes. -/
def longMap : BasicMap := { spawnfile := List.replicate 65537 0x61 }

/-- The file is written, but no load accepts it. -/
theorem load_save_longMap : Fits bagStore { longMap with spawnfile := [] } ∧ TilesOf bagStore longMap ∧
    loadPersistent (fun _ => noDigest) ⟨860, 3, 57, 62⟩ noFingerprint noDigest {}
      (savePersistent (fun _ => noDigest) ⟨860, 3, 57, 62⟩ noFingerprint noDigest bagStore longMap) = none := by
  refine ⟨{ bagMap_fits with
    spawnfile := Nat.zero_le _, housefile := Nat.zero_le _, blockCount := by decide }, fun _ _ _ _ _ _ => Nat.zero_le _, ?_⟩
  refine load_save_long _ _ _ _ _ ?_ ?_
  all_goals rw [longMap, List.length_replicate]
  · decide
  · decide

end MapCache

end ForgottenServer
