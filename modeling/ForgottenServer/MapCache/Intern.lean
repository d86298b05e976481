import ForgottenServer.Lib.HashConsing

/-! # Interning items and tiles

`MapCache` keeps equal items and tiles once. An item lives as long as someone holds it, a tile
until the store is reset. Both are looked up under their hash, and a hash can be that of
several values. -/

namespace ForgottenServer.Intern

open HashConsing

/-! ## Items -/

/-- The members of a `BasicItem` beside the nested items. -/
structure ItemMembers where
  text : List UInt8 := []
  id : BitVec 16 := 0
  charges : BitVec 16 := 0
  actionId : BitVec 16 := 0
  uniqueId : BitVec 16 := 0
  destX : BitVec 16 := 0
  destY : BitVec 16 := 0
  doorOrDepotId : BitVec 16 := 0
  destZ : BitVec 8 := 0
  deriving DecidableEq

/-- A `BasicItem` with what its pointers lead to; a pointer can be null. The hash it keeps is not
part of it: no member is changed once the hash is computed. -/
inductive BasicItem where
  | mk (members : ItemMembers) (items : List (Option BasicItem))

/-- `size_t` -/
abbrev Hash := BitVec 64

def hashCombine (seed value : Hash) : Hash :=
  seed ^^^ (value + 0x9e3779b9 + (seed <<< 6) + (seed >>> 2))

/-- `if (value > 0) hash_combine(h, value)` -/
def combinePositive {w : ℕ} (h : Hash) (value : BitVec w) : Hash :=
  if value > 0 then hashCombine h (value.setWidth 64) else h

def ItemMembers.hash (stringHash : List UInt8 → Hash) (m : ItemMembers) : Hash :=
  let h := combinePositive 0 m.id
  let h := combinePositive h m.charges
  let h := combinePositive h m.actionId
  let h := combinePositive h m.uniqueId
  let h := combinePositive h m.destX
  let h := combinePositive h m.destY
  let h := combinePositive h m.destZ
  let h := combinePositive h m.doorOrDepotId
  if m.text ≠ [] then hashCombine h (stringHash m.text) else h

mutual

/-- `BasicItem::hash`. `stringHash` is `std::hash<std::string>`. -/
def BasicItem.hash (stringHash : List UInt8 → Hash) : BasicItem → Hash
  | .mk members items =>
    let h := members.hash stringHash
    if items.isEmpty then h else hashItems stringHash items (hashCombine h (BitVec.ofNat 64 items.length))

/-- The loop over the items. -/
def hashItems (stringHash : List UInt8 → Hash) : List (Option BasicItem) → Hash → Hash
  | [], h => h
  | item :: items, h => hashItems stringHash items (hashPointer stringHash item h)

def hashPointer (stringHash : List UInt8 → Hash) : Option BasicItem → Hash → Hash
  | none, h => h
  | some item, h => hashCombine h (item.hash stringHash)

end

mutual

/-- `BasicItem::operator==` -/
def BasicItem.eq : BasicItem → BasicItem → Bool
  | .mk members items, .mk members' items' =>
    members = members' && items.length = items'.length && eqItems items items'

/-- The loop over two vectors of one size. -/
def eqItems : List (Option BasicItem) → List (Option BasicItem) → Bool
  | item :: items, item' :: items' => eqPointer item item' && eqItems items items'
  | _, _ => true

def eqPointer : Option BasicItem → Option BasicItem → Bool
  | none, none => true
  | some item, some item' => item.eq item'
  | _, _ => false

end

mutual

theorem BasicItem.eq_iff : ∀ item item' : BasicItem, item.eq item' = true ↔ item = item'
  | .mk members items, .mk members' items' => by
    have hitems := eqItems_iff items items'
    rw [BasicItem.eq, Bool.and_eq_true, Bool.and_eq_true, decide_eq_true_eq, decide_eq_true_eq, BasicItem.mk.injEq]
    constructor
    · intro h
      exact ⟨h.1.1, (hitems h.1.2).mp h.2⟩
    · intro h
      have hlen := congrArg List.length h.2
      exact ⟨⟨h.1, hlen⟩, (hitems hlen).mpr h.2⟩

theorem eqItems_iff : ∀ items items' : List (Option BasicItem), items.length = items'.length →
    (eqItems items items' = true ↔ items = items')
  | [], items' => by
    intro hlen
    rw [List.length_nil, eq_comm, List.length_eq_zero_iff] at hlen
    rw [hlen]
    simp [eqItems]
  | item :: items, [] => by
    intro hlen
    cases hlen
  | item :: items, item' :: items' => by
    intro hlen
    have hrest := eqItems_iff items items' (Nat.succ.inj hlen)
    rw [eqItems, Bool.and_eq_true, eqPointer_iff item item', hrest, List.cons.injEq]

theorem eqPointer_iff : ∀ item item' : Option BasicItem, eqPointer item item' = true ↔ item = item'
  | none, none => by simp [eqPointer]
  | none, some item' => by simp [eqPointer]
  | some item, none => by simp [eqPointer]
  | some item, some item' => by rw [eqPointer, BasicItem.eq_iff item item', Option.some.injEq]

end

/-! ## Tiles -/

structure BasicTile where
  ground : Option BasicItem := none
  items : List (Option BasicItem) := []
  zoneIds : List (BitVec 16) := []
  flags : BitVec 32 := 0
  houseId : BitVec 32 := 0
  isStatic : Bool := false
  cacheId : BitVec 32 := 0

namespace BasicTile

def hash (stringHash : List UInt8 → Hash) (tile : BasicTile) : Hash :=
  let h := combinePositive 0 tile.flags
  let h := combinePositive h tile.houseId
  let h := if tile.isStatic then hashCombine h 1 else h
  let h :=
    if tile.zoneIds.isEmpty then h
    else tile.zoneIds.foldl (fun h zoneId => hashCombine h (zoneId.setWidth 64))
      (hashCombine h (BitVec.ofNat 64 tile.zoneIds.length))
  let h := hashPointer stringHash tile.ground h
  if tile.items.isEmpty then h
  else hashItems stringHash tile.items (hashCombine h (BitVec.ofNat 64 tile.items.length))

/-- `BasicTile::operator==` -/
def eq (tile other : BasicTile) : Bool :=
  if tile.flags ≠ other.flags ∨ tile.houseId ≠ other.houseId ∨ tile.isStatic ≠ other.isStatic ∨
      tile.zoneIds ≠ other.zoneIds then false
  else if tile.ground.isNone ≠ other.ground.isNone then false
  else if (tile.ground.any fun item => other.ground.any fun item' => !item.eq item') then false
  else if tile.items.length ≠ other.items.length then false
  else eqItems tile.items other.items

/-- Two grounds that pass both tests are equal. -/
theorem ground_eq_iff (ground ground' : Option BasicItem) :
    (ground.isNone = ground'.isNone ∧ (ground.any fun item => ground'.any fun item' => !item.eq item') = false) ↔
      ground = ground' := by
  cases ground with
  | none => cases ground' <;> simp
  | some item =>
    cases ground' with
    | none => simp
    | some item' => simp [BasicItem.eq_iff]

/-- Equal tiles differ in their ids at most. -/
theorem eq_iff (tile other : BasicTile) :
    tile.eq other = true ↔ { tile with cacheId := 0 } = { other with cacheId := 0 } := by
  have hground := ground_eq_iff tile.ground other.ground
  have hitems := eqItems_iff tile.items other.items
  rw [eq, BasicTile.mk.injEq]
  constructor
  · intro h
    split at h
    · cases h
    · split at h
      · cases h
      · split at h
        · cases h
        · split at h
          · cases h
          · simp_all
  · rintro ⟨hg, hi, hz, hf, hh, hs, -⟩
    obtain ⟨hnone, hany⟩ := hground.mpr hg
    have hlen := congrArg List.length hi
    rw [if_neg (by simp [hf, hh, hs, hz]), if_neg (by simp [hnone]), if_neg (by rw [hany]; simp), if_neg (by simp [hlen])]
    exact (hitems hlen).mpr hi

theorem hash_withId (stringHash : List UInt8 → Hash) (tile : BasicTile) :
    { tile with cacheId := 0 }.hash stringHash = tile.hash stringHash := rfl

theorem eq_refl (tile : BasicTile) : tile.eq tile = true := (eq_iff tile tile).mpr rfl

theorem eq_withId (tile : BasicTile) (id : BitVec 32) : { tile with cacheId := id }.eq tile = true :=
  (eq_iff _ tile).mpr rfl

end BasicTile

/-! ## The caches -/

/-- Hashes of the values, with whatever collisions. -/
structure Hashes where
  item : BasicItem → Hash
  tile : BasicTile → Hash
  tile_eq : ∀ t t', BasicTile.eq t t' = true → tile t = tile t'

/-- The hashes of the source. -/
def Hashes.source (stringHash : List UInt8 → Hash) : Hashes where
  item := BasicItem.hash stringHash
  tile := BasicTile.hash stringHash
  tile_eq t t' h := by
    rw [← BasicTile.hash_withId stringHash t, ← BasicTile.hash_withId stringHash t', (BasicTile.eq_iff t t').mp h]

def Hashes.items (hashes : Hashes) : Hashing BasicItem Hash where
  eq := BasicItem.eq
  hash := hashes.item
  refl item := (BasicItem.eq_iff item item).mpr rfl
  symm item item' h := (BasicItem.eq_iff item' item).mpr ((BasicItem.eq_iff item item').mp h).symm
  trans a b c h h' := (BasicItem.eq_iff a c).mpr (((BasicItem.eq_iff a b).mp h).trans ((BasicItem.eq_iff b c).mp h'))
  hash_eq item item' h := congrArg hashes.item ((BasicItem.eq_iff item item').mp h)

def Hashes.tiles (hashes : Hashes) : Hashing BasicTile Hash where
  eq := BasicTile.eq
  hash := hashes.tile
  refl := BasicTile.eq_refl
  symm t t' h := (BasicTile.eq_iff t' t).mpr ((BasicTile.eq_iff t t').mp h).symm
  trans a b c h h' := (BasicTile.eq_iff a c).mpr (((BasicTile.eq_iff a b).mp h).trans ((BasicTile.eq_iff b c).mp h'))
  hash_eq := hashes.tile_eq

/-- `heap` has the items that `make_shared` has made, none once they are gone. A pointer to an item is
its place there, one to a tile its place in `tileStore`. `items` is `itemCache` and
`itemCollisions`, `tiles` is `tileCache` and `tileCollisions`. -/
structure State where
  heap : List (Option BasicItem) := []
  items : Table Hash ℕ := {}
  tiles : Table Hash ℕ := {}
  tileStore : List BasicTile := []
  storeHasZones : Bool := false

namespace State

/-- `weak_ptr::lock` -/
def lockItem (s : State) (r : ℕ) : Option BasicItem := s.heap[r]?.join

def tileAt (s : State) (p : ℕ) : Option BasicTile := s.tileStore[p]?

def tryGetItemFromCache (hashes : Hashes) (s : State) (item : BasicItem) : ℕ × State :=
  match Table.intern s.lockItem BasicItem.eq s.heap.length (hashes.item item) item s.items with
  | (some r, items) => (r, { s with items })
  | (none, items) => (s.heap.length, { s with items, heap := s.heap ++ [some item] })

/-- `tileStore.size() + 1`, cast to `uint32_t`. -/
def nextId (s : State) : BitVec 32 := BitVec.ofNat 32 (s.tileStore.length + 1)

/-- A tile does not go, so what `Table.intern` does about values that are gone is never done. -/
def tryGetTileFromCache (hashes : Hashes) (s : State) (tile : BasicTile) : ℕ × State :=
  match Table.intern s.tileAt BasicTile.eq s.tileStore.length (hashes.tile tile) tile s.tiles with
  | (some p, tiles) => (p, { s with tiles })
  | (none, tiles) =>
    (s.tileStore.length,
      { s with tiles, tileStore := s.tileStore ++ [{ tile with cacheId := s.nextId }]
               storeHasZones := s.storeHasZones || !tile.zoneIds.isEmpty })

def getTileById (s : State) (id : BitVec 32) : Option ℕ :=
  if id = 0 ∨ id.toNat > s.tileStore.length then none else some (id.toNat - 1)

/-- The last pointer to an item is dropped. -/
def expire (s : State) (r : ℕ) : State := { s with heap := s.heap.set r none }

def cleanupExpiredEntries (s : State) : State := { s with items := s.items.cleanup s.lockItem }

def flush (s : State) : State := { s with items := {}, tiles := {} }

def resetStore (s : State) : State :=
  { s with items := {}, tiles := {}, tileStore := [], storeHasZones := false }

end State

end ForgottenServer.Intern
