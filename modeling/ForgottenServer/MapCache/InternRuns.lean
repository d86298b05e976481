import ForgottenServer.MapCache.Intern

/-! # Runs of the caches

Requests come in any order, and in between items expire, expired references are cleaned up, the
caches are flushed and the store is reset. -/

namespace ForgottenServer.Intern

open HashConsing

inductive Op where
  | item (item : BasicItem)
  | tile (tile : BasicTile)
  | expire (r : ℕ)
  | cleanup
  | flush
  | reset

/-- The operation leaves the references of the caches to what is alive. -/
def Op.KeepsCaches : Op → Prop
  | flush | reset => False
  | _ => True

def Op.KeepsStore : Op → Prop
  | reset => False
  | _ => True

theorem Op.KeepsCaches.keepsStore {op : Op} (h : op.KeepsCaches) : op.KeepsStore := by
  cases op with
  | reset => exact h.elim
  | _ => exact True.intro

namespace State

variable {hashes : Hashes} {s : State}

def step (hashes : Hashes) (s : State) : Op → State
  | .item item => (s.tryGetItemFromCache hashes item).2
  | .tile tile => (s.tryGetTileFromCache hashes tile).2
  | .expire r => s.expire r
  | .cleanup => s.cleanupExpiredEntries
  | .flush => s.flush
  | .reset => s.resetStore

def run (hashes : Hashes) (s : State) (ops : List Op) : State := ops.foldl (step hashes) s

structure Inv (hashes : Hashes) (s : State) : Prop where
  items : Table.Consistent hashes.items s.lockItem s.items
  item_lt : ∀ {h r}, s.items.Has h r → r < s.heap.length
  tiles : Table.Consistent hashes.tiles s.tileAt s.tiles
  tile_lt : ∀ {h p}, s.tiles.Has h p → p < s.tileStore.length
  ids : ∀ {p tile}, s.tileAt p = some tile → tile.cacheId = BitVec.ofNat 32 (p + 1)

theorem Inv.start (hashes : Hashes) : Inv hashes {} where
  items := .empty _ _
  item_lt h := absurd h (Table.not_has_empty _ _)
  tiles := .empty _ _
  tile_lt h := absurd h (Table.not_has_empty _ _)
  ids := by
    intro p tile h
    cases h

/-! ## A request -/

theorem getElem?_append_of_ne {α : Type} {xs : List α} {x : α} {i : ℕ} (h : i ≠ xs.length) :
    (xs ++ [x])[i]? = xs[i]? := by
  rcases Nat.lt_or_gt_of_ne h with hlt | hgt
  · exact List.getElem?_append_left hlt
  · rw [List.getElem?_eq_none (by simp; omega), List.getElem?_eq_none (by omega)]

/-- A request of an item either finds it or makes it. -/
theorem tryGetItem_cases (hashes : Hashes) (s : State) (item : BasicItem) :
    (∃ r items cached, s.tryGetItemFromCache hashes item = (r, { s with items }) ∧
      Table.Kept s.lockItem s.items items ∧ s.items.Has (hashes.item item) r ∧ s.lockItem r = some cached ∧
      cached.eq item = true) ∨
    (∃ items, s.tryGetItemFromCache hashes item =
        (s.heap.length, { s with items, heap := s.heap ++ [some item] }) ∧
      Table.Added s.lockItem (hashes.item item) s.heap.length s.items items ∧
      Table.Misses s.lockItem BasicItem.eq (hashes.item item) item s.items) := by
  rcases Table.intern_cases s.lockItem BasicItem.eq s.heap.length (hashes.item item) item s.items with
    ⟨r, items, cached, hrun, hkept, hhas, hlock, heq⟩ | ⟨items, hrun, hadd, hmiss⟩
  · exact .inl ⟨r, items, cached, by rw [tryGetItemFromCache, hrun], hkept, hhas, hlock, heq⟩
  · exact .inr ⟨items, by rw [tryGetItemFromCache, hrun], hadd, hmiss⟩

theorem tryGetTile_cases (hashes : Hashes) (s : State) (tile : BasicTile) :
    (∃ p tiles cached, s.tryGetTileFromCache hashes tile = (p, { s with tiles }) ∧
      Table.Kept s.tileAt s.tiles tiles ∧ s.tiles.Has (hashes.tile tile) p ∧ s.tileAt p = some cached ∧
      cached.eq tile = true) ∨
    (∃ tiles, s.tryGetTileFromCache hashes tile =
        (s.tileStore.length,
          { s with tiles, tileStore := s.tileStore ++ [{ tile with cacheId := s.nextId }]
                   storeHasZones := s.storeHasZones || !tile.zoneIds.isEmpty }) ∧
      Table.Added s.tileAt (hashes.tile tile) s.tileStore.length s.tiles tiles ∧
      Table.Misses s.tileAt BasicTile.eq (hashes.tile tile) tile s.tiles) := by
  rcases Table.intern_cases s.tileAt BasicTile.eq s.tileStore.length (hashes.tile tile) tile s.tiles with
    ⟨p, tiles, cached, hrun, hkept, hhas, hlock, heq⟩ | ⟨tiles, hrun, hadd, hmiss⟩
  · exact .inl ⟨p, tiles, cached, by rw [tryGetTileFromCache, hrun], hkept, hhas, hlock, heq⟩
  · exact .inr ⟨tiles, by rw [tryGetTileFromCache, hrun], hadd, hmiss⟩

/-- The item of the pointer that a request returns. -/
theorem tryGetItem_equal (hashes : Hashes) (s : State) (item : BasicItem) :
    (s.tryGetItemFromCache hashes item).2.items.Has (hashes.item item) (s.tryGetItemFromCache hashes item).1 ∧
    ∃ stored, (s.tryGetItemFromCache hashes item).2.lockItem (s.tryGetItemFromCache hashes item).1 = some stored ∧
      stored.eq item = true := by
  rcases tryGetItem_cases hashes s item with ⟨r, items, cached, hrun, hkept, hhas, hlock, heq⟩ | ⟨items, hrun, hadd, -⟩
  · rw [hrun]
    exact ⟨hkept.keep hhas hlock, cached, hlock, heq⟩
  · rw [hrun]
    exact ⟨hadd.new, item, by simp [lockItem], hashes.items.refl item⟩

theorem tryGetTile_equal (hashes : Hashes) (s : State) (tile : BasicTile) :
    (s.tryGetTileFromCache hashes tile).2.tiles.Has (hashes.tile tile) (s.tryGetTileFromCache hashes tile).1 ∧
    ∃ stored, (s.tryGetTileFromCache hashes tile).2.tileAt (s.tryGetTileFromCache hashes tile).1 = some stored ∧
      stored.eq tile = true := by
  rcases tryGetTile_cases hashes s tile with ⟨p, tiles, cached, hrun, hkept, hhas, hlock, heq⟩ | ⟨tiles, hrun, hadd, -⟩
  · rw [hrun]
    exact ⟨hkept.keep hhas hlock, cached, hlock, heq⟩
  · rw [hrun]
    exact ⟨hadd.new, _, List.getElem?_concat_length .., BasicTile.eq_withId tile _⟩

/-! ## The invariant -/

theorem Inv.item (h : Inv hashes s) (item : BasicItem) : Inv hashes (s.tryGetItemFromCache hashes item).2 := by
  rcases tryGetItem_cases hashes s item with ⟨r, items, cached, hrun, hkept, -, -, -⟩ | ⟨items, hrun, hadd, hmiss⟩
  · rw [hrun]
    exact { h with items := h.items.sub hkept.sub, item_lt := fun hr => h.item_lt (hkept.sub hr) }
  · rw [hrun]
    have hfresh : ∀ k, ¬s.items.Has k s.heap.length := fun k hr => (h.item_lt hr).ne rfl
    have hnew : ({ s with items, heap := s.heap ++ [some item] } : State).lockItem s.heap.length = some item := by
      simp [lockItem]
    have hold : ∀ r, r ≠ s.heap.length →
        ({ s with items, heap := s.heap ++ [some item] } : State).lockItem r = s.lockItem r := by
      intro r hr
      rw [lockItem, lockItem, getElem?_append_of_ne hr]
    refine { h with items := ?_, item_lt := ?_ }
    · exact h.items.added (c := hashes.items) hadd hmiss hfresh (hashes.items.refl item) hnew hold
    · intro k r hr
      rw [List.length_append, List.length_singleton]
      rcases hadd.sub hr with hr | ⟨-, rfl⟩
      · exact (h.item_lt hr).trans (Nat.lt_succ_self _)
      · exact Nat.lt_succ_self _

theorem Inv.tile (h : Inv hashes s) (tile : BasicTile) : Inv hashes (s.tryGetTileFromCache hashes tile).2 := by
  rcases tryGetTile_cases hashes s tile with ⟨p, tiles, cached, hrun, hkept, -, -, -⟩ | ⟨tiles, hrun, hadd, hmiss⟩
  · rw [hrun]
    exact { h with tiles := h.tiles.sub hkept.sub, tile_lt := fun hp => h.tile_lt (hkept.sub hp) }
  · rw [hrun]
    have hfresh : ∀ k, ¬s.tiles.Has k s.tileStore.length := fun k hp => (h.tile_lt hp).ne rfl
    have hnew : (s.tileStore ++ [{ tile with cacheId := s.nextId }])[s.tileStore.length]? =
        some { tile with cacheId := s.nextId } :=
      List.getElem?_concat_length ..
    have hold : ∀ p, p ≠ s.tileStore.length →
        (s.tileStore ++ [{ tile with cacheId := s.nextId }])[p]? = s.tileAt p := by
      intro p hp
      rw [tileAt, getElem?_append_of_ne hp]
    refine { h with tiles := ?_, tile_lt := ?_, ids := ?_ }
    · exact h.tiles.added (c := hashes.tiles) hadd hmiss hfresh (BasicTile.eq_withId tile _) hnew hold
    · intro k p hp
      rw [List.length_append, List.length_singleton]
      rcases hadd.sub hp with hp | ⟨-, rfl⟩
      · exact (h.tile_lt hp).trans (Nat.lt_succ_self _)
      · exact Nat.lt_succ_self _
    · intro p stored hstored
      by_cases hp : p = s.tileStore.length
      · rw [tileAt, hp, hnew, Option.some.injEq] at hstored
        rw [← hstored, hp, nextId]
      · exact h.ids ((hold p hp).symm.trans hstored)

/-- An item that expires leaves the others. -/
theorem lockItem_expire {r r' : ℕ} {item : BasicItem} (h : (s.expire r).lockItem r' = some item) :
    s.lockItem r' = some item := by
  rw [lockItem, expire, List.getElem?_set] at h
  split at h
  · split at h <;> cases h
  · exact h

theorem Inv.step (h : Inv hashes s) (op : Op) : Inv hashes (s.step hashes op) := by
  cases op with
  | item item => exact h.item item
  | tile tile => exact h.tile tile
  | expire r =>
    refine { h with items := h.items.expire fun r' item => lockItem_expire, item_lt := ?_ }
    intro k r' hr
    exact (h.item_lt hr).trans_eq (List.length_set ..).symm
  | cleanup =>
    have hkept := Table.Kept.cleanup s.lockItem s.items
    exact { h with items := h.items.sub hkept.sub, item_lt := fun hr => h.item_lt (hkept.sub hr) }
  | flush =>
    exact { h with
      items := .empty _ _
      item_lt := fun hr => absurd hr (Table.not_has_empty _ _)
      tiles := .empty _ _
      tile_lt := fun hp => absurd hp (Table.not_has_empty _ _) }
  | reset =>
    exact { h with
      items := .empty _ _
      item_lt := fun hr => absurd hr (Table.not_has_empty _ _)
      tiles := .empty _ _
      tile_lt := fun hp => absurd hp (Table.not_has_empty _ _)
      ids := fun hp => by cases hp }

theorem Inv.run (h : Inv hashes s) (ops : List Op) : Inv hashes (s.run hashes ops) := by
  induction ops generalizing s with
  | nil => exact h
  | cons op ops ih => exact ih (h.step op)

/-! ## What stays -/

theorem length_heap_step (hashes : Hashes) (s : State) (op : Op) :
    s.heap.length ≤ (s.step hashes op).heap.length := by
  cases op with
  | item item =>
    rw [step]
    rcases tryGetItem_cases hashes s item with ⟨r, items, cached, hrun, -, -, -, -⟩ | ⟨items, hrun, -, -⟩
    · rw [hrun]
    · rw [hrun]
      simp
  | tile tile =>
    rw [step]
    rcases tryGetTile_cases hashes s tile with ⟨p, tiles, cached, hrun, -, -, -, -⟩ | ⟨tiles, hrun, -, -⟩ <;> rw [hrun]
  | expire r => exact (List.length_set ..).ge
  | cleanup => exact le_rfl
  | flush => exact le_rfl
  | reset => exact le_rfl

/-- An item that is alive after a step and was made before it was alive before it. -/
theorem lockItem_before {op : Op} {r : ℕ} {item : BasicItem} (hr : r < s.heap.length)
    (hlock : (s.step hashes op).lockItem r = some item) : s.lockItem r = some item := by
  cases op with
  | item new =>
    rw [step] at hlock
    rcases tryGetItem_cases hashes s new with ⟨r', items, cached, hrun, -, -, -, -⟩ | ⟨items, hrun, -, -⟩
    · rw [hrun] at hlock
      exact hlock
    · rw [hrun, lockItem, getElem?_append_of_ne hr.ne] at hlock
      exact hlock
  | tile tile =>
    rw [step] at hlock
    rcases tryGetTile_cases hashes s tile with ⟨p, tiles, cached, hrun, -, -, -, -⟩ | ⟨tiles, hrun, -, -⟩ <;>
    · rw [hrun] at hlock
      exact hlock
  | expire r' => exact lockItem_expire hlock
  | cleanup => exact hlock
  | flush => exact hlock
  | reset => exact hlock

theorem lockItem_before_run (ops : List Op) {r : ℕ} {item : BasicItem} (hr : r < s.heap.length)
    (hlock : (s.run hashes ops).lockItem r = some item) : s.lockItem r = some item := by
  induction ops generalizing s with
  | nil => exact hlock
  | cons op ops ih => exact lockItem_before hr (ih (hr.trans_le (length_heap_step hashes s op)) hlock)

theorem hasItem_stays {op : Op} (hop : op.KeepsCaches) {k : Hash} {r : ℕ} {item : BasicItem}
    (hhas : s.items.Has k r) (hlock : s.lockItem r = some item) : (s.step hashes op).items.Has k r := by
  cases op with
  | item new =>
    rw [step]
    rcases tryGetItem_cases hashes s new with ⟨r', items, cached, hrun, hkept, -, -, -⟩ | ⟨items, hrun, hadd, -⟩
    · rw [hrun]
      exact hkept.keep hhas hlock
    · rw [hrun]
      exact hadd.keep hhas hlock
  | tile tile =>
    rw [step]
    rcases tryGetTile_cases hashes s tile with ⟨p, tiles, cached, hrun, -, -, -, -⟩ | ⟨tiles, hrun, -, -⟩ <;>
    · rw [hrun]
      exact hhas
  | expire r' => exact hhas
  | cleanup => exact (Table.Kept.cleanup s.lockItem s.items).keep hhas hlock
  | flush => exact hop.elim
  | reset => exact hop.elim

/-- While an item is alive the cache refers to it. -/
theorem Inv.hasItem_stays_run {ops : List Op} (h : Inv hashes s) (hops : ∀ op ∈ ops, op.KeepsCaches) {k : Hash}
    {r : ℕ} {item : BasicItem} (hhas : s.items.Has k r) (hlock : (s.run hashes ops).lockItem r = some item) :
    (s.run hashes ops).items.Has k r := by
  induction ops generalizing s with
  | nil => exact hhas
  | cons op ops ih =>
    rw [List.forall_mem_cons] at hops
    have hbefore := lockItem_before_run (op :: ops) (h.item_lt hhas) hlock
    exact ih (h.step op) hops.2 (hasItem_stays hops.1 hhas hbefore) hlock

theorem tile_stays {op : Op} (hop : op.KeepsStore) {p : ℕ} {tile : BasicTile} (htile : s.tileAt p = some tile) :
    (s.step hashes op).tileAt p = some tile := by
  cases op with
  | item new =>
    rw [State.step]
    rcases tryGetItem_cases hashes s new with ⟨r', items, cached, hrun, -, -, -, -⟩ | ⟨items, hrun, -, -⟩ <;>
    · rw [hrun]
      exact htile
  | tile new =>
    rw [State.step]
    rcases tryGetTile_cases hashes s new with ⟨p', tiles, cached, hrun, -, -, -, -⟩ | ⟨tiles, hrun, -, -⟩
    · rw [hrun]
      exact htile
    · rw [hrun]
      have hlt : p < s.tileStore.length := (List.getElem?_eq_some_iff.mp htile).1
      exact (getElem?_append_of_ne hlt.ne).trans htile
  | expire r => exact htile
  | cleanup => exact htile
  | flush => exact htile
  | reset => exact hop.elim

theorem tile_stays_run (hashes : Hashes) {ops : List Op} (hops : ∀ op ∈ ops, op.KeepsStore) {p : ℕ} {tile : BasicTile}
    (htile : s.tileAt p = some tile) : (s.run hashes ops).tileAt p = some tile := by
  induction ops generalizing s with
  | nil => exact htile
  | cons op ops ih =>
    rw [List.forall_mem_cons] at hops
    exact ih hops.2 (tile_stays hops.1 htile)

theorem hasTile_stays {op : Op} (hop : op.KeepsCaches) {k : Hash} {p : ℕ} {tile : BasicTile}
    (hhas : s.tiles.Has k p) (htile : s.tileAt p = some tile) : (s.step hashes op).tiles.Has k p := by
  cases op with
  | item item =>
    rw [step]
    rcases tryGetItem_cases hashes s item with ⟨r, items, cached, hrun, -, -, -, -⟩ | ⟨items, hrun, -, -⟩ <;>
    · rw [hrun]
      exact hhas
  | tile new =>
    rw [step]
    rcases tryGetTile_cases hashes s new with ⟨p', tiles, cached, hrun, hkept, -, -, -⟩ | ⟨tiles, hrun, hadd, -⟩
    · rw [hrun]
      exact hkept.keep hhas htile
    · rw [hrun]
      exact hadd.keep hhas htile
  | expire r => exact hhas
  | cleanup => exact hhas
  | flush => exact hop.elim
  | reset => exact hop.elim

theorem hasTile_stays_run (hashes : Hashes) {ops : List Op} (hops : ∀ op ∈ ops, op.KeepsCaches) {k : Hash} {p : ℕ} {tile : BasicTile}
    (hhas : s.tiles.Has k p) (htile : s.tileAt p = some tile) : (s.run hashes ops).tiles.Has k p := by
  induction ops generalizing s with
  | nil => exact hhas
  | cons op ops ih =>
    rw [List.forall_mem_cons] at hops
    exact ih hops.2 (hasTile_stays hops.1 hhas htile) (tile_stays (Op.KeepsCaches.keepsStore hops.1) htile)

/-! ## The requests of a run -/

/-- What the lookup finds is returned. -/
theorem tryGetItem_found {item : BasicItem} {r : ℕ}
    (h : (Table.intern s.lockItem BasicItem.eq s.heap.length (hashes.item item) item s.items).1 = some r) :
    (s.tryGetItemFromCache hashes item).1 = r := by
  rw [tryGetItemFromCache]
  split
  · rename_i r' items hrun
    rw [hrun] at h
    exact Option.some.inj h
  · rename_i items hrun
    rw [hrun] at h
    cases h

theorem tryGetTile_found {tile : BasicTile} {p : ℕ}
    (h : (Table.intern s.tileAt BasicTile.eq s.tileStore.length (hashes.tile tile) tile s.tiles).1 = some p) :
    (s.tryGetTileFromCache hashes tile).1 = p := by
  rw [tryGetTileFromCache]
  split
  · rename_i p' tiles hrun
    rw [hrun] at h
    exact Option.some.inj h
  · rename_i tiles hrun
    rw [hrun] at h
    cases h

/-- The item of a request is the one of an earlier request of an equal item that is still alive. -/
theorem Inv.item_same (h : Inv hashes s) {item item' : BasicItem} (heq : item.eq item' = true) {ops : List Op}
    (hops : ∀ op ∈ ops, op.KeepsCaches)
    (halive : ((s.tryGetItemFromCache hashes item).2.run hashes ops).lockItem
      (s.tryGetItemFromCache hashes item).1 ≠ none) :
    (((s.tryGetItemFromCache hashes item).2.run hashes ops).tryGetItemFromCache hashes item').1 =
      (s.tryGetItemFromCache hashes item).1 := by
  have hfirst := h.item item
  obtain ⟨hhas, stored, hstored, heqStored⟩ := tryGetItem_equal hashes s item
  obtain ⟨alive, hlock⟩ := Option.ne_none_iff_exists'.mp halive
  have hbefore := lockItem_before_run ops (hfirst.item_lt hhas) hlock
  rw [hstored, Option.some.injEq] at hbefore
  have hthere := hfirst.hasItem_stays_run hops hhas hlock
  have hhash : hashes.item stored = hashes.item item := hashes.items.hash_eq _ _ heqStored
  rw [← hhash] at hthere
  exact tryGetItem_found ((hfirst.run ops).items.intern_found (w := stored) hthere (hbefore ▸ hlock)
    (hashes.items.trans _ _ _ heqStored heq) _)

theorem Inv.tile_same (h : Inv hashes s) {tile tile' : BasicTile} (heq : tile.eq tile' = true) {ops : List Op}
    (hops : ∀ op ∈ ops, op.KeepsCaches) :
    (((s.tryGetTileFromCache hashes tile).2.run hashes ops).tryGetTileFromCache hashes tile').1 =
      (s.tryGetTileFromCache hashes tile).1 := by
  have hfirst := h.tile tile
  obtain ⟨hhas, stored, hstored, heqStored⟩ := tryGetTile_equal hashes s tile
  have hthere := hasTile_stays_run hashes hops hhas hstored
  have hhash : hashes.tile stored = hashes.tile tile := hashes.tile_eq _ _ heqStored
  rw [← hhash] at hthere
  have hstays := tile_stays_run hashes (fun op hop => (hops op hop).keepsStore) hstored
  exact tryGetTile_found ((hfirst.run ops).tiles.intern_found (w := stored) hthere hstays
    (hashes.tiles.trans _ _ _ heqStored heq) _)

/-- A tile is found under its id, if the ids did not run out. -/
theorem getTileById_cacheId (h : Inv hashes s) {p : ℕ} {tile : BasicTile} (htile : s.tileAt p = some tile)
    (hp : p + 1 < 2 ^ 32) : s.getTileById tile.cacheId = some p := by
  have hlt : p < s.tileStore.length := (List.getElem?_eq_some_iff.mp htile).1
  have hnat : tile.cacheId.toNat = p + 1 := by
    rw [h.ids htile, BitVec.toNat_ofNat, Nat.mod_eq_of_lt hp]
  have hne : tile.cacheId ≠ 0 := by
    intro hzero
    rw [hzero] at hnat
    cases hnat
  rw [getTileById, if_neg (by rw [not_or]; exact ⟨hne, by omega⟩), hnat, Nat.add_sub_cancel]

/-- What requests in a state can rely on, whatever comes after the first of them. -/
structure HashConsed (hashes : Hashes) (s : State) : Prop where
  item_equal : ∀ item, ∃ stored, stored.eq item = true ∧
    (s.tryGetItemFromCache hashes item).2.lockItem (s.tryGetItemFromCache hashes item).1 = some stored
  item_same : ∀ item item' ops, item.eq item' = true → (∀ op ∈ ops, op.KeepsCaches) →
    ((s.tryGetItemFromCache hashes item).2.run hashes ops).lockItem (s.tryGetItemFromCache hashes item).1 ≠ none →
    (((s.tryGetItemFromCache hashes item).2.run hashes ops).tryGetItemFromCache hashes item').1 =
      (s.tryGetItemFromCache hashes item).1
  tile_equal : ∀ tile, ∃ stored, stored.eq tile = true ∧
    (s.tryGetTileFromCache hashes tile).2.tileAt (s.tryGetTileFromCache hashes tile).1 = some stored
  tile_same : ∀ tile tile' ops, tile.eq tile' = true → (∀ op ∈ ops, op.KeepsCaches) →
    (((s.tryGetTileFromCache hashes tile).2.run hashes ops).tryGetTileFromCache hashes tile').1 =
      (s.tryGetTileFromCache hashes tile).1
  tile_id : ∀ tile ops, (∀ op ∈ ops, op.KeepsStore) →
    (s.tryGetTileFromCache hashes tile).2.tileStore.length < 2 ^ 32 →
    ∃ stored, ((s.tryGetTileFromCache hashes tile).2.run hashes ops).tileAt
        (s.tryGetTileFromCache hashes tile).1 = some stored ∧
      ((s.tryGetTileFromCache hashes tile).2.run hashes ops).getTileById stored.cacheId =
        some (s.tryGetTileFromCache hashes tile).1

/-- **After any run the caches give equal values for equal requests**, as the same object while it
is alive, and tiles by their ids while there are fewer than 2^32. -/
theorem intern_sound (hashes : Hashes) (ops : List Op) : HashConsed hashes (run hashes {} ops) := by
  have h := (Inv.start hashes).run ops
  refine ⟨?_, fun item item' ops heq => h.item_same heq, ?_, fun tile tile' ops heq => h.tile_same heq, ?_⟩
  · intro item
    obtain ⟨-, stored, hstored, heq⟩ := tryGetItem_equal hashes (run hashes {} ops) item
    exact ⟨stored, heq, hstored⟩
  · intro tile
    obtain ⟨-, stored, hstored, heq⟩ := tryGetTile_equal hashes (run hashes {} ops) tile
    exact ⟨stored, heq, hstored⟩
  · intro tile ops' hops hcount
    obtain ⟨hhas, stored, hstored, -⟩ := tryGetTile_equal hashes (run hashes {} ops) tile
    have hstays := tile_stays_run hashes hops hstored
    have hlt := (h.tile tile).tile_lt hhas
    exact ⟨stored, hstays, getTileById_cacheId ((h.tile tile).run ops') hstays (by omega)⟩

/-! ## More tiles than ids -/

/-- Tiles that differ in their flags. -/
def flagTile (n : ℕ) : BasicTile := { flags := BitVec.ofNat 32 n }

def flagTiles (n : ℕ) : List Op := (List.range n).map fun i => .tile (flagTile i)

theorem run_flagTiles_succ (hashes : Hashes) (n : ℕ) :
    run hashes {} (flagTiles (n + 1)) = ((run hashes {} (flagTiles n)).tryGetTileFromCache hashes (flagTile n)).2 := by
  rw [flagTiles, List.range_succ, List.map_append, run, List.foldl_append]
  rfl

/-- Each of them is stored, up to the last that has flags of its own. -/
theorem tileAt_flagTiles (hashes : Hashes) {n : ℕ} (hn : n ≤ 2 ^ 32) :
    (run hashes {} (flagTiles n)).tileStore.length = n ∧
    ∀ p tile, (run hashes {} (flagTiles n)).tileAt p = some tile → tile.flags = BitVec.ofNat 32 p := by
  induction n with
  | zero => exact ⟨rfl, fun p tile h => by cases h⟩
  | succ n ih =>
    obtain ⟨hlen, hflags⟩ := ih (Nat.le_of_succ_le hn)
    rw [run_flagTiles_succ]
    rcases tryGetTile_cases hashes (run hashes {} (flagTiles n)) (flagTile n) with
      ⟨p, tiles, cached, -, -, -, htile, heq⟩ | ⟨tiles, hrun, -, -⟩
    · -- None of those before has its flags.
      have hlt : p < n := hlen ▸ (List.getElem?_eq_some_iff.mp htile).1
      have hsame : cached.flags = BitVec.ofNat 32 n :=
        congrArg BasicTile.flags ((BasicTile.eq_iff cached (flagTile n)).mp heq)
      rw [hflags p cached htile] at hsame
      have hnat := congrArg BitVec.toNat hsame
      rw [BitVec.toNat_ofNat, BitVec.toNat_ofNat, Nat.mod_eq_of_lt (by omega), Nat.mod_eq_of_lt (by omega)] at hnat
      omega
    · rw [hrun]
      refine ⟨by rw [List.length_append, hlen, List.length_singleton], fun p tile htile => ?_⟩
      by_cases hp : p = (run hashes {} (flagTiles n)).tileStore.length
      · rw [tileAt, hp, List.getElem?_concat_length, Option.some.injEq] at htile
        rw [← htile, hp, hlen]
        rfl
      · rw [tileAt, getElem?_append_of_ne hp] at htile
        exact hflags p tile htile

/-- What the request of one more tile returns has its place as flags. -/
theorem tryGetTile_flagTile (hashes : Hashes) {n : ℕ} (hn : n + 1 = 2 ^ 32) :
    ∃ stored, ((run hashes {} (flagTiles n)).tryGetTileFromCache hashes (flagTile n)).2.tileAt
        ((run hashes {} (flagTiles n)).tryGetTileFromCache hashes (flagTile n)).1 = some stored ∧
      ((run hashes {} (flagTiles n)).tryGetTileFromCache hashes (flagTile n)).2.getTileById stored.cacheId = none := by
  obtain ⟨-, stored, hstored, heq⟩ := tryGetTile_equal hashes (run hashes {} (flagTiles n)) (flagTile n)
  refine ⟨stored, hstored, ?_⟩
  have hinv := ((Inv.start hashes).run (flagTiles n)).tile (flagTile n)
  obtain ⟨hlen, hflags⟩ := tileAt_flagTiles hashes hn.le
  rw [run_flagTiles_succ] at hlen hflags
  have hlt := (List.getElem?_eq_some_iff.mp hstored).1
  have hsame : stored.flags = BitVec.ofNat 32 n :=
    congrArg BasicTile.flags ((BasicTile.eq_iff stored (flagTile n)).mp heq)
  rw [hflags _ stored hstored] at hsame
  have hnat := congrArg BitVec.toNat hsame
  rw [BitVec.toNat_ofNat, BitVec.toNat_ofNat, Nat.mod_eq_of_lt (by omega), Nat.mod_eq_of_lt (by omega)] at hnat
  rw [hinv.ids hstored, hnat, hn, getTileById, if_pos (.inl (by decide))]

/-- The last of 2^32 tiles gets the id 0, which is that of no tile. -/
theorem intern_sound_ids_run_out :
    ∃ stored, ((run (.source fun _ => 0) {} (flagTiles 4294967295)).tryGetTileFromCache (.source fun _ => 0)
        (flagTile 4294967295)).2.tileAt
          ((run (.source fun _ => 0) {} (flagTiles 4294967295)).tryGetTileFromCache (.source fun _ => 0)
            (flagTile 4294967295)).1 = some stored ∧
      ((run (.source fun _ => 0) {} (flagTiles 4294967295)).tryGetTileFromCache (.source fun _ => 0)
        (flagTile 4294967295)).2.getTileById stored.cacheId = none :=
  tryGetTile_flagTile _ (by norm_num)

end State

end ForgottenServer.Intern
