import Mathlib
import ForgottenServer.World.Links

/-! # The map as a finite map

What the map is for: at each position there is nothing, a tile, or the id of a cached tile that nobody asked for yet.
Every call changes the positions it is about and no other, and `getTile` answers with what is there. -/

namespace ForgottenServer.World

variable {T : Type}

/-! ## The finite map -/

/-- What is at a position. -/
inductive Content (T : Type) where
  | nothing
  | cachedTile (id : UInt32)
  | realTile (tile : T)
  deriving DecidableEq

namespace Content

/-- The first tile stays, and the later ones are merged into it. -/
def set (tiles : Tiles T) (newTile : T) : Content T → Content T
  | realTile tile => realTile (tiles.merge tile newTile)
  | _ => realTile newTile

/-- A cached tile is hidden by a real one, and the id 0 stands for none. -/
def install (id : UInt32) : Content T → Content T
  | realTile tile => realTile tile
  | _ => if id = 0 then nothing else cachedTile id

/-- The tile, made now from the cached one or at an earlier call. -/
def tile (tiles : Tiles T) (pos : Position) : Content T → Option T
  | nothing => none
  | cachedTile id => tiles.create id pos
  | realTile tile => some tile

/-- A cached tile gives way to the one made from it. -/
def materialise (tiles : Tiles T) (pos : Position) (content : Content T) : Content T :=
  match content.tile tiles pos with
  | none => nothing
  | some tile => realTile tile

end Content

/-- The positions a call is about. -/
def Op.touches : Op T → Position → Prop
  | .setTile pos _, q => q = pos
  | .removeTile pos, q => q = pos
  | .setBasicTile pos _, q => q = pos
  | .setBasicFloorBlock pos _, q =>
    SameBlock (q.x.toNat, q.y.toNat) (pos.x.toNat, pos.y.toNat) ∧ q.z = pos.z
  | .getTile pos, q => q = pos

instance (op : Op T) (q : Position) : Decidable (op.touches q) := by
  cases op <;> unfold Op.touches <;> infer_instance

/-- What a call does at a position it is about. -/
def Op.effect (tiles : Tiles T) (q : Position) : Op T → Content T → Content T
  | .setTile _ newTile, content => content.set tiles newTile
  | .removeTile _, _ => .nothing
  | .setBasicTile _ cacheId, content => content.install cacheId
  | .setBasicFloorBlock _ ids, content => content.install (ids (offset q.x) (offset q.y))
  | .getTile _, content => content.materialise tiles q

/-- What is at a position after the calls: only those count that are about the position. -/
def contentAfter (tiles : Tiles T) (q : Position) (ops : List (Op T)) : Content T :=
  (ops.filter (·.touches q)).foldl (fun content op => op.effect tiles q content) .nothing

/-! ## Cells -/

/-- What a cell stands for. -/
def Cell.content (cell : Cell T) : Content T :=
  match cell.tile with
  | some tile => .realTile tile
  | none => if cell.cacheId = 0 then .nothing else .cachedTile cell.cacheId

theorem content_setTile (tiles : Tiles T) (newTile : T) (cell : Cell T) :
    (cell.setTile tiles newTile).content = cell.content.set tiles newTile := by
  obtain ⟨_ | tile, cacheId⟩ := cell
  · unfold Cell.setTile Cell.content
    dsimp only
    split <;> rfl
  · rfl

theorem content_install (id : UInt32) (cell : Cell T) :
    ({ cell with cacheId := id } : Cell T).content = cell.content.install id := by
  obtain ⟨_ | tile, cacheId⟩ := cell
  · unfold Cell.content Content.install
    by_cases hid : cacheId = 0
    · simp only [if_pos hid]
    · simp only [if_neg hid]
  · rfl

theorem fst_getTile (tiles : Tiles T) (pos : Position) (cell : Cell T) :
    (cell.getTile tiles pos).1 = cell.content.tile tiles pos := by
  obtain ⟨_ | tile, cacheId⟩ := cell
  · unfold Cell.getTile Cell.content
    dsimp only
    split <;> rfl
  · rfl

theorem content_getTile (tiles : Tiles T) (pos : Position) (cell : Cell T) :
    (cell.getTile tiles pos).2.content = cell.content.materialise tiles pos := by
  obtain ⟨_ | tile, cacheId⟩ := cell
  · unfold Cell.getTile Cell.content Content.materialise
    by_cases hid : cacheId = 0
    · simp only [if_pos hid, Content.tile]
    · simp only [if_neg hid, Content.tile]
      cases tiles.create cacheId pos <;> rfl
  · rfl

/-! ## Cells of the map -/

theorem offset_block {x x' : UInt16} : x = x' ↔ block x.toNat = block x'.toNat ∧ offset x = offset x' := by
  have hx := x.toNat_lt
  have hx' := x'.toNat_lt
  constructor
  · rintro rfl
    exact ⟨rfl, rfl⟩
  · rintro ⟨hblock, hoffset⟩
    have hmod : x.toNat % 8 = x'.toNat % 8 := congrArg Fin.val hoffset
    unfold block at hblock
    exact UInt16.toNat_inj.mp (by omega)

namespace Map

/-- The cell of a position on the map, or an empty one where no floor is. -/
def cellAt (map : Map T) (q : Position) (hz : q.z.toNat < MAP_MAX_LAYERS) : Cell T :=
  match map.leafAt (q.x.toNat, q.y.toNat) with
  | none => {}
  | some leaf => (((map.leaves leaf).array ⟨q.z.toNat, hz⟩).getD {}).tiles (offset q.x) (offset q.y)

/-- A leaf that is opened has no other cells than before. -/
theorem cellAt_opened {map map' : Map T} {p : Nat × Nat} {leaf : LeafRef} (hopen : Opened map map' p leaf)
    (q : Position) (hz : q.z.toNat < MAP_MAX_LAYERS) : map'.cellAt q hz = map.cellAt q hz := by
  unfold cellAt
  rw [hopen.leafAt]
  simp only [hopen.array]
  by_cases hblock : SameBlock (q.x.toNat, q.y.toNat) p
  · rw [if_pos hblock, map.leafAt_congr hblock]
    obtain hfound | ⟨hnone, hblank⟩ := hopen.found
    · rw [hfound]
    · simp only [hnone, hblank]
      rfl
  · rw [if_neg hblock]

/-- A change of the cells of a floor. -/
theorem cellAt_modifyFloor {map : Map T} (h : map.Linked) {p : Nat × Nat} {leaf : LeafRef} (hleaf : map.leafAt p = some leaf)
    (z : Fin MAP_MAX_LAYERS) {f : Floor T → Floor T} {g : Fin FLOOR_SIZE → Fin FLOOR_SIZE → Cell T → Cell T}
    (hf : ∀ floor i j, (f floor).tiles i j = g i j (floor.tiles i j)) (q : Position)
    (hz : q.z.toNat < MAP_MAX_LAYERS) : (map.modifyFloor leaf z f).cellAt q hz =
      if SameBlock (q.x.toNat, q.y.toNat) p ∧ q.z.toNat = z then g (offset q.x) (offset q.y) (map.cellAt q hz)
      else map.cellAt q hz := by
  unfold cellAt modifyFloor
  rw [leafAt_modifyLeaf]
  by_cases hblock : SameBlock (q.x.toNat, q.y.toNat) p
  · rw [map.leafAt_congr hblock, hleaf]
    simp only [leaves_modifyLeaf, if_pos]
    by_cases hfloor : q.z.toNat = z
    · obtain rfl : (⟨q.z.toNat, hz⟩ : Fin MAP_MAX_LAYERS) = z := Fin.ext hfloor
      rw [if_pos ⟨hblock, rfl⟩, Function.update_self, Option.getD_some, hf]
    · rw [if_neg fun hboth => hfloor hboth.2, Function.update_of_ne fun heq => hfloor (congrArg Fin.val heq)]
  · rw [if_neg fun hboth => hblock hboth.1]
    cases hq : map.leafAt (q.x.toNat, q.y.toNat) with
    | none => rfl
    | some other =>
      have hne : other ≠ leaf := fun heq => hblock (h.inj hq (heq ▸ hleaf))
      simp only [leaves_modifyLeaf, if_neg hne]

theorem Valid.modifyFloor {map : Map T} (h : map.Valid) {p : Nat × Nat} {leaf : LeafRef} (hleaf : map.leafAt p = some leaf)
    (z : Fin MAP_MAX_LAYERS) (f : Floor T → Floor T) : (map.modifyFloor leaf z f).Valid :=
  h.modifyLeaf (h.fresh hleaf) (fun _ => rfl) fun _ => rfl

/-- A change of one cell of a floor. -/
theorem cellAt_setCell {map : Map T} (h : map.Linked) {pos : Position} {leaf : LeafRef}
    (hleaf : map.leafAt (pos.x.toNat, pos.y.toNat) = some leaf) (hpos : pos.z.toNat < MAP_MAX_LAYERS)
    (change : Cell T → Cell T) (q : Position) (hz : q.z.toNat < MAP_MAX_LAYERS) :
    (map.modifyFloor leaf ⟨pos.z.toNat, hpos⟩ fun floor => floor.setCell (offset pos.x) (offset pos.y)
      (change (floor.tiles (offset pos.x) (offset pos.y)))).cellAt q hz =
      if q = pos then change (map.cellAt q hz) else map.cellAt q hz := by
  have hf (floor : Floor T) (i j : Fin FLOOR_SIZE) :
      (floor.setCell (offset pos.x) (offset pos.y) (change (floor.tiles (offset pos.x) (offset pos.y)))).tiles i j =
        if i = offset pos.x ∧ j = offset pos.y then change (floor.tiles i j) else floor.tiles i j := by
    unfold Floor.setCell
    dsimp only
    split
    · rename_i hij
      rw [hij.1, hij.2]
    · rfl
  rw [cellAt_modifyFloor h hleaf ⟨pos.z.toNat, hpos⟩
    (g := fun i j cell => if i = offset pos.x ∧ j = offset pos.y then change cell else cell) hf q hz]
  have hq : q = pos ↔ (SameBlock (q.x.toNat, q.y.toNat) (pos.x.toNat, pos.y.toNat) ∧ q.z.toNat = pos.z.toNat) ∧
      offset q.x = offset pos.x ∧ offset q.y = offset pos.y := by
    obtain ⟨qx, qy, qz⟩ := q
    obtain ⟨px, py, pz⟩ := pos
    rw [Position.mk.injEq, offset_block, @offset_block qy, ← UInt8.toNat_inj]
    unfold SameBlock
    tauto
  by_cases hsame : SameBlock (q.x.toNat, q.y.toNat) (pos.x.toNat, pos.y.toNat) ∧ q.z.toNat = pos.z.toNat
  · rw [if_pos hsame]
    simp only [hq, hsame, true_and]
  · rw [if_neg hsame, if_neg fun heq => hsame (hq.mp heq).1]

/-- The creatures are not touched. -/
theorem keeps_modifyFloor {map map' : Map T} (h : Keeps map map') (leaf : LeafRef) (z : Fin MAP_MAX_LAYERS)
    (f : Floor T → Floor T) : Keeps map (map'.modifyFloor leaf z f) := by
  refine ⟨h.leafAt, fun b => ?_, fun b => ?_⟩ <;> unfold modifyFloor <;> rw [leaves_modifyLeaf]
  · rw [← h.creatureList]
    split
    · rw [‹b = leaf›]
    · rfl
  · rw [← h.playerList]
    split
    · rw [‹b = leaf›]
    · rfl

/-! ## Calls -/

/-- What a call does: the map stays valid, and every position has what the finite map has there. -/
structure Simulates (tiles : Tiles T) (map : Map T) (op : Op T) : Prop where
  valid : (map.step tiles op).Valid
  keeps : Keeps map (map.step tiles op)
  content : ∀ q hz, ((map.step tiles op).cellAt q hz).content =
    if op.touches q then op.effect tiles q (map.cellAt q hz).content else (map.cellAt q hz).content

section Calls

variable {tiles : Tiles T} {map : Map T}

/-- A call that changes nothing, because nothing of the map is where it is about. -/
theorem Simulates.skip (h : map.Valid) {op : Op T} (hstep : map.step tiles op = map)
    (htouch : ∀ q hz, op.touches q → op.effect tiles q (map.cellAt q hz).content = (map.cellAt q hz).content) :
    Simulates tiles map op := by
  refine ⟨hstep.symm ▸ h, hstep.symm ▸ Keeps.refl map, fun q hz => ?_⟩
  rw [hstep]
  split
  · exact (htouch q hz ‹_›).symm
  · rfl

/-- A call that changes one cell. -/
theorem Simulates.cell {op : Op T} {pos : Position} {map' : Map T} {leaf : LeafRef} (change : Cell T → Cell T)
    (hopen : Opened map map' (pos.x.toNat, pos.y.toNat) leaf) (hpos : pos.z.toNat < MAP_MAX_LAYERS)
    (hstep : map.step tiles op = map'.modifyFloor leaf ⟨pos.z.toNat, hpos⟩ fun floor =>
      floor.setCell (offset pos.x) (offset pos.y) (change (floor.tiles (offset pos.x) (offset pos.y))))
    (htouch : ∀ q, op.touches q ↔ q = pos)
    (hchange : ∀ cell, (change cell).content = op.effect tiles pos cell.content) : Simulates tiles map op := by
  have hleaf := (hopen.leafAt (pos.x.toNat, pos.y.toNat)).trans (if_pos ⟨rfl, rfl⟩)
  refine ⟨hstep.symm ▸ hopen.valid.modifyFloor hleaf _ _, hstep.symm ▸ keeps_modifyFloor hopen.keeps _ _ _,
    fun q hz => ?_⟩
  rw [hstep, cellAt_setCell hopen.valid.toLinked hleaf hpos change, cellAt_opened hopen]
  by_cases hq : q = pos
  · subst hq
    rw [if_pos rfl, if_pos ((htouch q).mpr rfl), hchange]
  · rw [if_neg hq, if_neg fun ht => hq ((htouch q).mp ht)]

theorem simulates_setTile (h : map.Valid) (pos : Position) (newTile : T) :
    Simulates tiles map (.setTile pos newTile) := by
  by_cases hpos : pos.z.toNat < MAP_MAX_LAYERS
  · exact .cell (Cell.setTile tiles newTile) (opened_getOrCreateLeaf h pos.x.toNat pos.y.toNat) hpos (dif_pos hpos)
      (fun q => Iff.rfl) (content_setTile tiles newTile)
  · exact .skip h (dif_neg hpos) fun q hz hq => absurd (congrArg Position.z hq ▸ hz) hpos

theorem simulates_setBasicTile (h : map.Valid) (pos : Position) (cacheId : UInt32) :
    Simulates tiles map (.setBasicTile pos cacheId) := by
  by_cases hpos : pos.z.toNat < MAP_MAX_LAYERS
  · exact .cell (fun cell => { cell with cacheId }) (opened_getOrCreateLeaf h pos.x.toNat pos.y.toNat) hpos
      (dif_pos hpos) (fun q => Iff.rfl) (content_install cacheId)
  · exact .skip h (dif_neg hpos) fun q hz hq => absurd (congrArg Position.z hq ▸ hz) hpos

theorem simulates_setBasicFloorBlock (h : map.Valid) (pos : Position)
    (ids : Fin FLOOR_SIZE → Fin FLOOR_SIZE → UInt32) : Simulates tiles map (.setBasicFloorBlock pos ids) := by
  by_cases hpos : pos.z.toNat < MAP_MAX_LAYERS
  · have hopen := opened_getOrCreateLeaf h pos.x.toNat pos.y.toNat
    have hleaf := (hopen.leafAt (pos.x.toNat, pos.y.toNat)).trans (if_pos ⟨rfl, rfl⟩)
    have hstep : map.step tiles (.setBasicFloorBlock pos ids) = _ := dif_pos hpos
    refine ⟨hstep ▸ hopen.valid.modifyFloor hleaf _ _, hstep ▸ keeps_modifyFloor hopen.keeps _ _ _, fun q hz => ?_⟩
    rw [hstep, cellAt_modifyFloor hopen.valid.toLinked hleaf ⟨pos.z.toNat, hpos⟩
      (g := fun i j cell => { cell with cacheId := ids i j }) (fun _ _ _ => rfl), cellAt_opened hopen,
      apply_ite Cell.content, content_install]
    refine if_congr (and_congr Iff.rfl ?_) rfl rfl
    exact UInt8.toNat_inj
  · refine .skip h (dif_neg hpos) fun q hz hq => absurd (hq.2 ▸ hz) hpos

/-- A floor that is not there has nothing. -/
theorem cellAt_of_getFloor {pos : Position} (hpos : pos.z.toNat < MAP_MAX_LAYERS)
    (hnone : map.getFloor pos.x.toNat pos.y.toNat ⟨pos.z.toNat, hpos⟩ = none) : map.cellAt pos hpos = {} := by
  unfold getFloor at hnone
  unfold cellAt leafAt
  cases hleaf : map.getLeaf pos.x.toNat pos.y.toNat with
  | none => rfl
  | some leaf =>
    rw [hleaf] at hnone
    simp only [Option.map_eq_none_iff.mp hnone]
    rfl

theorem getFloor_some {pos : Position} {z : Fin MAP_MAX_LAYERS} {leaf : LeafRef} {floor : Floor T}
    (hsome : map.getFloor pos.x.toNat pos.y.toNat z = some (leaf, floor)) :
    map.leafAt (pos.x.toNat, pos.y.toNat) = some leaf ∧ (map.leaves leaf).array z = some floor := by
  unfold getFloor at hsome
  unfold leafAt
  cases hleaf : map.getLeaf pos.x.toNat pos.y.toNat with
  | none =>
    rw [hleaf] at hsome
    cases hsome
  | some found =>
    rw [hleaf] at hsome
    obtain ⟨floor', harray, heq⟩ := Option.map_eq_some_iff.mp hsome
    obtain ⟨rfl, rfl⟩ := Prod.mk.inj heq
    exact ⟨rfl, harray⟩

theorem simulates_removeTile (h : map.Valid) (pos : Position) : Simulates tiles map (.removeTile pos) := by
  by_cases hpos : pos.z.toNat < MAP_MAX_LAYERS
  · have hstep : map.step tiles (.removeTile pos) = _ := dif_pos hpos
    cases hfloor : map.getFloor pos.x.toNat pos.y.toNat ⟨pos.z.toNat, hpos⟩ with
    | none =>
      refine .skip h (hstep.trans (by rw [hfloor])) fun q hz hq => ?_
      obtain rfl : q = pos := hq
      rw [cellAt_of_getFloor hpos hfloor]
      rfl
    | some found =>
      refine .cell (fun _ => {}) (opened_of_leafAt h (getFloor_some hfloor).1) hpos
        (hstep.trans (by rw [hfloor])) (fun q => Iff.rfl) fun cell => rfl
  · exact .skip h (dif_neg hpos) fun q hz hq => absurd (congrArg Position.z hq ▸ hz) hpos

/-- The floor is the only one that the change is asked for. -/
theorem modifyFloor_congr {leaf : LeafRef} {z : Fin MAP_MAX_LAYERS} {floor : Floor T} {f g : Floor T → Floor T}
    (harray : (map.leaves leaf).array z = some floor) (hfg : f floor = g floor) :
    map.modifyFloor leaf z f = map.modifyFloor leaf z g := by
  unfold modifyFloor modifyLeaf
  simp only [harray, Option.getD_some, hfg]

/-- The cell of a floor that is there. -/
theorem cellAt_of_array {pos : Position} (hpos : pos.z.toNat < MAP_MAX_LAYERS) {leaf : LeafRef} {floor : Floor T}
    (hleaf : map.leafAt (pos.x.toNat, pos.y.toNat) = some leaf)
    (harray : (map.leaves leaf).array ⟨pos.z.toNat, hpos⟩ = some floor) :
    map.cellAt pos hpos = floor.tiles (offset pos.x) (offset pos.y) := by
  unfold cellAt
  simp only [hleaf, harray, Option.getD_some]

theorem simulates_getTile (h : map.Valid) (pos : Position) : Simulates tiles map (.getTile pos) := by
  by_cases hpos : pos.z.toNat < MAP_MAX_LAYERS
  · have hstep : map.step tiles (.getTile pos) = _ := congrArg Prod.snd (dif_pos hpos)
    cases hfloor : map.getFloor pos.x.toNat pos.y.toNat ⟨pos.z.toNat, hpos⟩ with
    | none =>
      refine .skip h (hstep.trans (by rw [hfloor])) fun q hz hq => ?_
      obtain rfl : q = pos := hq
      rw [cellAt_of_getFloor hpos hfloor]
      rfl
    | some found =>
      obtain ⟨leaf, floor⟩ := found
      obtain ⟨hleaf, harray⟩ := getFloor_some hfloor
      refine .cell (fun cell => (cell.getTile tiles pos).2) (opened_of_leafAt h hleaf) hpos
        (hstep.trans ?_) (fun q => Iff.rfl) (content_getTile tiles pos)
      simp only [hfloor]
      exact modifyFloor_congr harray rfl
  · refine .skip h (congrArg Prod.snd (dif_neg hpos)) fun q hz hq => absurd (congrArg Position.z hq ▸ hz) hpos

theorem simulates_step (h : map.Valid) (op : Op T) : Simulates tiles map op := by
  cases op with
  | setTile pos newTile => exact simulates_setTile h pos newTile
  | removeTile pos => exact simulates_removeTile h pos
  | setBasicTile pos cacheId => exact simulates_setBasicTile h pos cacheId
  | setBasicFloorBlock pos ids => exact simulates_setBasicFloorBlock h pos ids
  | getTile pos => exact simulates_getTile h pos

/-- `getTile` answers with the tile of the cell. -/
theorem getTile_answer {pos : Position} (hpos : pos.z.toNat < MAP_MAX_LAYERS) :
    (map.getTile tiles pos).1 = (map.cellAt pos hpos).content.tile tiles pos := by
  rw [← fst_getTile]
  have hget : map.getTile tiles pos = _ := dif_pos hpos
  rw [hget]
  cases hfloor : map.getFloor pos.x.toNat pos.y.toNat ⟨pos.z.toNat, hpos⟩ with
  | none =>
    rw [cellAt_of_getFloor hpos hfloor]
    rfl
  | some found =>
    obtain ⟨leaf, floor⟩ := found
    obtain ⟨hleaf, harray⟩ := getFloor_some hfloor
    rw [cellAt_of_array hpos hleaf harray]

end Calls

/-! ## Runs -/

/-- The calls from an empty map on. -/
def run (tiles : Tiles T) (ops : List (Op T)) : Map T := ops.foldl (step tiles) {}

/-- A run keeps the map valid, and every position has what the finite map has there. -/
theorem run_simulates (tiles : Tiles T) (ops : List (Op T)) : (run tiles ops).Valid ∧
    ∀ q hz, ((run tiles ops).cellAt q hz).content = contentAfter tiles q ops := by
  induction ops using List.reverseRecOn with
  | nil => exact ⟨valid_empty, fun q hz => rfl⟩
  | append_singleton ops op ih =>
    have hrun : run tiles (ops ++ [op]) = (run tiles ops).step tiles op := List.foldl_concat ..
    have hsim : Simulates tiles (run tiles ops) op := simulates_step ih.1 op
    obtain ⟨hvalid, _, hcontent⟩ := hsim
    rw [hrun]
    refine ⟨hvalid, fun q hz => ?_⟩
    rw [hcontent, ih.2 q hz]
    unfold contentAfter
    rw [List.filter_append, List.foldl_append]
    by_cases hq : op.touches q
    · rw [if_pos hq, List.filter_singleton, decide_eq_true hq]
      rfl
    · rw [if_neg hq, List.filter_singleton, decide_eq_false hq]
      rfl

/-- After every run `getTile` answers with what the calls about its position left there, and the links of the leaves
are their neighbours. -/
theorem run_finiteMap (tiles : Tiles T) (ops : List (Op T)) :
    (∀ pos : Position, pos.z.toNat < MAP_MAX_LAYERS →
      ((run tiles ops).getTile tiles pos).1 = (contentAfter tiles pos ops).tile tiles pos) ∧
    ∀ x y leaf, (run tiles ops).getLeaf x y = some leaf →
      ((run tiles ops).leaves leaf).leafE = (run tiles ops).getLeaf (x + 8) y ∧
      ((run tiles ops).leaves leaf).leafS = (run tiles ops).getLeaf x (y + 8) := by
  obtain ⟨hvalid, hcontent⟩ := run_simulates tiles ops
  refine ⟨fun pos hpos => ?_, fun x y leaf hleaf => ?_⟩
  · rw [getTile_answer hpos, hcontent]
  · exact ⟨hvalid.east (x, y) leaf hleaf, hvalid.south (x, y) leaf hleaf⟩

/-- Tiles that are lists of things. -/
def listTiles : Tiles (List Nat) := ⟨fun tile newTile => tile ++ newTile, fun _ _ => none⟩

/-- The tile that was set last is not what `getTile` answers with. -/
theorem getTile_ne_lastSet : ¬ ∀ (tiles : Tiles (List Nat)) (ops : List (Op (List Nat))) (pos : Position)
    (newTile : List Nat), pos.z.toNat < MAP_MAX_LAYERS →
      ((run tiles (ops ++ [.setTile pos newTile])).getTile tiles pos).1 = some newTile := by
  intro h
  have hlast := h listTiles [.setTile ⟨100, 100, 7⟩ [1]] ⟨100, 100, 7⟩ [2] (by decide)
  rw [getTile_answer (by decide), (run_simulates listTiles _).2] at hlast
  exact absurd hlast (by decide)

end Map

end ForgottenServer.World
