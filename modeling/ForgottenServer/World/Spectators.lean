import ForgottenServer.World.Creatures

/-! # The search for spectators

`getSpectatorsInternal` walks through the leaves of a rectangle of blocks, from each leaf to its neighbours, and looks
at the creatures of every leaf. Sums of signed numbers that overflow mean nothing in the source, so that they are taken
as they are. -/

namespace ForgottenServer.World

/-- The ranges around the centre, and the creatures that are asked for. -/
structure Search where
  minRangeX : Int
  maxRangeX : Int
  minRangeY : Int
  maxRangeY : Int
  minRangeZ : Int
  maxRangeZ : Int
  onlyPlayers : Bool := false
  onlyMonsters : Bool := false
  onlyNpcs : Bool := false
  deriving DecidableEq, Repr

namespace Position

def getX (p : Position) : Int := p.x.toNat
def getY (p : Position) : Int := p.y.toNat
def getZ (p : Position) : Int := p.z.toNat
def getOffsetZ (p q : Position) : Int := p.getZ - q.getZ

end Position

/-- `static_cast<uint16_t>(std::min<uint32_t>(0xFFFF, std::max<int32_t>(0, v)))`. -/
def clamp (v : Int) : Nat := min 0xFFFF (max 0 v).toNat

/-- What the loop over the creatures of a leaf asks of a creature. -/
def Search.accepts (search : Search) (centerPos : Position) (creature : Creature) : Bool :=
  let cpos := creature.position
  let offsetZ := centerPos.getOffsetZ cpos
  !creature.isRemoved &&
  !(search.onlyMonsters && creature.type != .monster) &&
  !(search.onlyNpcs && creature.type != .npc) &&
  !(search.minRangeZ > cpos.getZ || search.maxRangeZ < cpos.getZ) &&
  !(centerPos.getY + search.minRangeY + offsetZ > cpos.getY || centerPos.getY + search.maxRangeY + offsetZ < cpos.getY ||
    centerPos.getX + search.minRangeX + offsetZ > cpos.getX || centerPos.getX + search.maxRangeX + offsetZ < cpos.getX)

namespace Town

variable {T : Type}

/-- The creatures of a leaf that are spectators. -/
def spectatorsOf (town : Town T) (search : Search) (centerPos : Position) (leaf : LeafRef) : List Nat :=
  let node := town.map.leaves leaf
  (if search.onlyPlayers then node.playerList else node.creatureList).filter fun c =>
    search.accepts centerPos (town.creatures c)

/-- The loop over `nx`. -/
def walkRow (town : Town T) (search : Search) (centerPos : Position) (ny endx2 nx : Nat) (leafE : Option LeafRef)
    (spectators : List Nat) : List Nat :=
  if nx ≤ endx2 then
    match leafE with
    | some leaf => walkRow town search centerPos ny endx2 (nx + FLOOR_SIZE) (town.map.leaves leaf).leafE
        (spectators ++ town.spectatorsOf search centerPos leaf)
    | none => walkRow town search centerPos ny endx2 (nx + FLOOR_SIZE) (town.map.getLeaf (nx + FLOOR_SIZE) ny) spectators
  else spectators
termination_by endx2 + 1 - nx
decreasing_by all_goals (have : FLOOR_SIZE = 8 := rfl; omega)

/-- The loop over `ny`. -/
def walkRows (town : Town T) (search : Search) (centerPos : Position) (startx1 endx2 endy2 ny : Nat)
    (leafS : Option LeafRef) (spectators : List Nat) : List Nat :=
  if ny ≤ endy2 then
    let spectators := town.walkRow search centerPos ny endx2 startx1 leafS spectators
    let leafS := match leafS with
      | some leaf => (town.map.leaves leaf).leafS
      | none => town.map.getLeaf startx1 (ny + FLOOR_SIZE)
    walkRows town search centerPos startx1 endx2 endy2 (ny + FLOOR_SIZE) leafS spectators
  else spectators
termination_by endy2 + 1 - ny
decreasing_by all_goals (have : FLOOR_SIZE = 8 := rfl; omega)

def getSpectatorsInternal (town : Town T) (spectators : List Nat) (centerPos : Position) (search : Search) : List Nat :=
  let minoffset := centerPos.getZ - search.maxRangeZ
  let x1 := clamp (centerPos.getX + search.minRangeX + minoffset)
  let y1 := clamp (centerPos.getY + search.minRangeY + minoffset)
  let maxoffset := centerPos.getZ - search.minRangeZ
  let x2 := clamp (centerPos.getX + search.maxRangeX + maxoffset)
  let y2 := clamp (centerPos.getY + search.maxRangeY + maxoffset)
  let startx1 := base x1
  let starty1 := base y1
  town.walkRows search centerPos startx1 (base x2) (base y2) starty1 (town.map.getLeaf startx1 starty1) spectators

end Town

/-! ## The walk -/

/-- The blocks from one coordinate to another. -/
def steps (start stop : Nat) : List Nat :=
  (List.range ((stop + FLOOR_SIZE - start) / FLOOR_SIZE)).map fun i => start + FLOOR_SIZE * i

theorem steps_of_le {start stop : Nat} (h : start ≤ stop) : steps start stop = start :: steps (start + FLOOR_SIZE) stop := by
  have hcount : (stop + FLOOR_SIZE - start) / FLOOR_SIZE = (stop + FLOOR_SIZE - (start + FLOOR_SIZE)) / FLOOR_SIZE + 1 := by
    rw [floorSize_eq]
    omega
  unfold steps
  rw [hcount, List.range_succ_eq_map, List.map_cons, List.map_map, Nat.mul_zero, Nat.add_zero]
  refine congrArg _ (List.map_congr_left fun i _ => ?_)
  rw [Function.comp_apply, Nat.mul_succ]
  omega

theorem steps_of_lt {start stop : Nat} (h : stop < start) : steps start stop = [] := by
  have hcount : (stop + FLOOR_SIZE - start) / FLOOR_SIZE = 0 := by
    rw [floorSize_eq]
    omega
  unfold steps
  rw [hcount]
  rfl

theorem mem_steps {start stop x : Nat} :
    x ∈ steps start stop ↔ start ≤ x ∧ x ≤ stop ∧ (x - start) % FLOOR_SIZE = 0 := by
  unfold steps
  simp only [List.mem_map, List.mem_range, floorSize_eq]
  constructor
  · rintro ⟨i, hi, rfl⟩
    omega
  · rintro ⟨hstart, hstop, hmod⟩
    exact ⟨(x - start) / 8, by omega, by omega⟩

theorem nodup_steps (start stop : Nat) : (steps start stop).Nodup := by
  refine List.Nodup.map (fun i j hij => ?_) List.nodup_range
  simp only [floorSize_eq] at hij
  omega

namespace Town

variable {T : Type} {town : Town T}

/-- The spectators of a block, which has a leaf or not. -/
def spectatorsAt (town : Town T) (search : Search) (centerPos : Position) (x y : Nat) : List Nat :=
  (town.map.getLeaf x y).elim [] fun leaf => town.spectatorsOf search centerPos leaf

/-- A row is walked from block to block, over leaves and over holes. -/
theorem walkRow_eq (h : town.map.Linked) (search : Search) (centerPos : Position) (ny endx2 nx : Nat)
    (leafE : Option LeafRef) (spectators : List Nat) (hleaf : leafE = town.map.getLeaf nx ny) :
    town.walkRow search centerPos ny endx2 nx leafE spectators =
      spectators ++ (steps nx endx2).flatMap fun x => town.spectatorsAt search centerPos x ny := by
  fun_induction walkRow town search centerPos ny endx2 nx leafE spectators with
  | case1 nx spectators hle leaf ih =>
    rw [ih (h.east (nx, ny) leaf hleaf.symm), steps_of_le hle, List.flatMap_cons, ← List.append_assoc]
    unfold spectatorsAt
    rw [← hleaf, Option.elim_some]
  | case2 nx spectators hle ih =>
    rw [ih rfl, steps_of_le hle, List.flatMap_cons]
    unfold spectatorsAt
    rw [← hleaf, Option.elim_none, List.nil_append]
  | case3 nx leafE spectators hlt =>
    rw [steps_of_lt (Nat.lt_of_not_le hlt), List.flatMap_nil, List.append_nil]

/-- And so are the rows. -/
theorem walkRows_eq (h : town.map.Linked) (search : Search) (centerPos : Position) (startx1 endx2 endy2 ny : Nat)
    (leafS : Option LeafRef) (spectators : List Nat) (hleaf : leafS = town.map.getLeaf startx1 ny) :
    town.walkRows search centerPos startx1 endx2 endy2 ny leafS spectators =
      spectators ++ (steps ny endy2).flatMap fun y => (steps startx1 endx2).flatMap fun x =>
        town.spectatorsAt search centerPos x y := by
  fun_induction walkRows town search centerPos startx1 endx2 endy2 ny leafS spectators with
  | case1 ny leafS spectators hle found next ih =>
    have hnext : next = town.map.getLeaf startx1 (ny + FLOOR_SIZE) := by
      cases leafS with
      | none => rfl
      | some leaf => exact h.south (startx1, ny) leaf hleaf.symm
    rw [ih hnext, steps_of_le hle, List.flatMap_cons, ← List.append_assoc]
    exact congrArg (· ++ _) (walkRow_eq h search centerPos ny endx2 startx1 leafS spectators hleaf)
  | case2 ny leafS spectators hlt =>
    rw [steps_of_lt (Nat.lt_of_not_le hlt), List.flatMap_nil, List.append_nil]

end Town

/-- The creatures that a search is for: of the kind and on the floors asked for, and within the ranges around the
centre, moved by one field for each floor between. -/
structure Search.Wants (search : Search) (centerPos : Position) (creature : Creature) : Prop where
  present : creature.isRemoved = false
  players : search.onlyPlayers → creature.type = .player
  monsters : search.onlyMonsters → creature.type = .monster
  npcs : search.onlyNpcs → creature.type = .npc
  floor : search.minRangeZ ≤ creature.position.getZ ∧ creature.position.getZ ≤ search.maxRangeZ
  rangeX : search.minRangeX ≤ creature.position.getX - centerPos.getOffsetZ creature.position - centerPos.getX ∧
    creature.position.getX - centerPos.getOffsetZ creature.position - centerPos.getX ≤ search.maxRangeX
  rangeY : search.minRangeY ≤ creature.position.getY - centerPos.getOffsetZ creature.position - centerPos.getY ∧
    creature.position.getY - centerPos.getOffsetZ creature.position - centerPos.getY ≤ search.maxRangeY

theorem Search.wants_iff {search : Search} {centerPos : Position} {creature : Creature} :
    search.Wants centerPos creature ↔
      (search.onlyPlayers → creature.type = .player) ∧ search.accepts centerPos creature := by
  unfold Search.accepts
  simp only [Bool.and_eq_true, Bool.not_eq_true', Bool.or_eq_false_iff, Bool.and_eq_false_iff, decide_eq_false_iff_not,
    bne_eq_false_iff_eq]
  constructor
  · intro h
    have hx := h.rangeX
    have hy := h.rangeY
    refine ⟨h.players, ⟨⟨⟨h.present, ?_⟩, ?_⟩, ?_⟩, ?_⟩
    · cases hm : search.onlyMonsters
      · exact .inl rfl
      · exact .inr (h.monsters hm)
    · cases hn : search.onlyNpcs
      · exact .inl rfl
      · exact .inr (h.npcs hn)
    · have hfloor := h.floor
      refine ⟨?_, ?_⟩ <;> omega
    · refine ⟨⟨⟨?_, ?_⟩, ?_⟩, ?_⟩ <;> omega
  · rintro ⟨hplayers, ⟨⟨⟨hpresent, hmonsters⟩, hnpcs⟩, hfloor⟩, ⟨⟨hminY, hmaxY⟩, hminX⟩, hmaxX⟩
    refine ⟨hpresent, hplayers, fun hm => ?_, fun hn => ?_, ⟨?_, ?_⟩, ⟨?_, ?_⟩, ⟨?_, ?_⟩⟩
    · exact hmonsters.resolve_left (by rw [hm]; exact Bool.noConfusion)
    · exact hnpcs.resolve_left (by rw [hn]; exact Bool.noConfusion)
    all_goals omega

/-! ## The rectangle -/

theorem base_mono {x x' : Nat} (h : x ≤ x') : base x ≤ base x' := by
  unfold base
  rw [floorSize_eq]
  omega

theorem clamp_le (v : Int) : clamp v ≤ 65535 := Nat.min_le_left _ _

/-- A coordinate between two numbers is between them when they are clamped. -/
theorem clamp_bounds {x : UInt16} {lower upper : Int} (hlower : lower ≤ x.toNat) (hupper : (x.toNat : Int) ≤ upper) :
    clamp lower ≤ x.toNat ∧ x.toNat ≤ clamp upper := by
  have hx := x.toNat_lt
  unfold clamp
  omega

/-- The block of a coordinate is among those of the walk. -/
theorem base_mem_steps {x a b : Nat} (ha : a ≤ x) (hb : x ≤ b) : base x ∈ steps (base a) (base b) := by
  refine mem_steps.mpr ⟨base_mono ha, base_mono hb, ?_⟩
  unfold base
  rw [floorSize_eq]
  omega

/-- Two steps of the walk are never in the same block. -/
theorem eq_of_mem_steps {x x' a b : Nat} (hb : b ≤ 65535) (hx : x ∈ steps (base a) (base b))
    (hx' : x' ∈ steps (base a) (base b)) (h : block x = block x') : x = x' := by
  rw [mem_steps] at hx hx'
  unfold base at hx hx'
  unfold block at h
  rw [floorSize_eq] at hx hx'
  omega

/-- The floors between the centre and a creature keep it within the widened ranges. -/
theorem Search.Wants.bounds {search : Search} {centerPos : Position} {creature : Creature}
    (h : search.Wants centerPos creature) :
    (clamp (centerPos.getX + search.minRangeX + (centerPos.getZ - search.maxRangeZ)) ≤ creature.position.x.toNat ∧
      creature.position.x.toNat ≤ clamp (centerPos.getX + search.maxRangeX + (centerPos.getZ - search.minRangeZ))) ∧
    (clamp (centerPos.getY + search.minRangeY + (centerPos.getZ - search.maxRangeZ)) ≤ creature.position.y.toNat ∧
      creature.position.y.toNat ≤ clamp (centerPos.getY + search.maxRangeY + (centerPos.getZ - search.minRangeZ))) := by
  obtain ⟨hminZ, hmaxZ⟩ := h.floor
  obtain ⟨hminX, hmaxX⟩ := h.rangeX
  obtain ⟨hminY, hmaxY⟩ := h.rangeY
  unfold Position.getOffsetZ at hminX hmaxX hminY hmaxY
  refine ⟨clamp_bounds ?_ ?_, clamp_bounds ?_ ?_⟩
  · show _ ≤ creature.position.getX
    omega
  · show creature.position.getX ≤ _
    omega
  · show _ ≤ creature.position.getY
    omega
  · show creature.position.getY ≤ _
    omega

/-! ## What the search finds -/

namespace Town

variable {T : Type} {town : Town T}

theorem mem_spectatorsOf (hreg : town.Registered) {search : Search} {centerPos : Position} {leaf : LeafRef} {c : Nat} :
    c ∈ town.spectatorsOf search centerPos leaf ↔
      c ∈ (town.map.leaves leaf).creatureList ∧ search.Wants centerPos (town.creatures c) := by
  unfold spectatorsOf
  rw [Search.wants_iff, List.mem_filter]
  cases hp : search.onlyPlayers with
  | false => simp
  | true =>
    simp only [if_true, (hreg.players leaf).mem_iff, List.mem_filter, isPlayer, beq_iff_eq, true_implies]
    exact and_assoc

theorem nodup_spectatorsOf (hreg : town.Registered) (search : Search) (centerPos : Position) (leaf : LeafRef) :
    (town.spectatorsOf search centerPos leaf).Nodup := by
  unfold spectatorsOf
  refine List.Nodup.filter _ ?_
  split
  · exact (hreg.players leaf).nodup_iff.mpr ((hreg.once leaf).filter _)
  · exact hreg.once leaf

theorem mem_spectatorsAt (h : town.map.Linked) (hreg : town.Registered) {search : Search} {centerPos : Position}
    {x y c : Nat} : c ∈ town.spectatorsAt search centerPos x y ↔
      town.onMap c ∧ search.Wants centerPos (town.creatures c) ∧
      SameBlock ((town.creatures c).position.x.toNat, (town.creatures c).position.y.toNat) (x, y) := by
  unfold spectatorsAt
  constructor
  · intro hc
    cases hleaf : town.map.getLeaf x y with
    | none =>
      rw [hleaf] at hc
      cases hc
    | some leaf =>
      rw [hleaf] at hc
      obtain ⟨hlist, hwants⟩ := (mem_spectatorsOf hreg).mp hc
      obtain ⟨hon, hcover⟩ := (hreg.mem leaf c).mp hlist
      exact ⟨hon, hwants, h.inj hcover hleaf⟩
  · rintro ⟨hon, hwants, hblock⟩
    obtain ⟨leaf, hcover⟩ := hreg.covered c hon
    have hleaf : town.map.getLeaf x y = some leaf := (town.map.leafAt_congr hblock).symm.trans hcover
    rw [hleaf]
    exact (mem_spectatorsOf hreg).mpr ⟨(hreg.mem leaf c).mpr ⟨hon, hcover⟩, hwants⟩

theorem nodup_spectatorsAt (hreg : town.Registered) (search : Search) (centerPos : Position) (x y : Nat) :
    (town.spectatorsAt search centerPos x y).Nodup := by
  unfold spectatorsAt
  cases town.map.getLeaf x y with
  | none => exact List.nodup_nil
  | some leaf => exact nodup_spectatorsOf hreg search centerPos leaf

/-- What is found in the rectangle of blocks. -/
def found (town : Town T) (centerPos : Position) (search : Search) : List Nat :=
  let minoffset := centerPos.getZ - search.maxRangeZ
  let maxoffset := centerPos.getZ - search.minRangeZ
  (steps (base (clamp (centerPos.getY + search.minRangeY + minoffset)))
    (base (clamp (centerPos.getY + search.maxRangeY + maxoffset)))).flatMap fun y =>
      (steps (base (clamp (centerPos.getX + search.minRangeX + minoffset)))
        (base (clamp (centerPos.getX + search.maxRangeX + maxoffset)))).flatMap fun x =>
          town.spectatorsAt search centerPos x y

theorem getSpectatorsInternal_eq (h : town.map.Linked) (spectators : List Nat) (centerPos : Position) (search : Search) :
    town.getSpectatorsInternal spectators centerPos search = spectators ++ town.found centerPos search :=
  walkRows_eq h search centerPos _ _ _ _ _ spectators rfl

theorem mem_found (h : town.map.Linked) (hreg : town.Registered) {centerPos : Position} {search : Search} {c : Nat} :
    c ∈ town.found centerPos search ↔ town.onMap c ∧ search.Wants centerPos (town.creatures c) := by
  unfold found
  simp only [List.mem_flatMap, mem_spectatorsAt h hreg]
  constructor
  · rintro ⟨y, _, x, _, hon, hwants, _⟩
    exact ⟨hon, hwants⟩
  · rintro ⟨hon, hwants⟩
    obtain ⟨hx, hy⟩ := hwants.bounds
    exact ⟨_, base_mem_steps hy.1 hy.2, _, base_mem_steps hx.1 hx.2, hon, hwants, (block_base _).symm,
      (block_base _).symm⟩

theorem nodup_found (h : town.map.Linked) (hreg : town.Registered) (centerPos : Position) (search : Search) :
    (town.found centerPos search).Nodup := by
  refine List.nodup_flatMap.mpr ⟨fun y _ => List.nodup_flatMap.mpr ⟨fun x _ => ?_, ?_⟩, ?_⟩
  · exact nodup_spectatorsAt hreg search centerPos x y
  · refine (nodup_steps _ _).pairwise_of_forall_ne fun x hx x' hx' hne c hc hc' => hne ?_
    have hblock := ((mem_spectatorsAt h hreg).mp hc).2.2
    have hblock' := ((mem_spectatorsAt h hreg).mp hc').2.2
    exact eq_of_mem_steps (clamp_le _) hx hx' (hblock.1.symm.trans hblock'.1)
  · refine (nodup_steps _ _).pairwise_of_forall_ne fun y hy y' hy' hne c hc hc' => hne ?_
    obtain ⟨x, _, hat⟩ := List.mem_flatMap.mp hc
    obtain ⟨x', _, hat'⟩ := List.mem_flatMap.mp hc'
    have hblock := ((mem_spectatorsAt h hreg).mp hat).2.2
    have hblock' := ((mem_spectatorsAt h hreg).mp hat').2.2
    exact eq_of_mem_steps (clamp_le _) hy hy' (hblock.2.symm.trans hblock'.2)

/-- The search adds exactly the creatures it is for, each once, wherever the centre is. -/
theorem getSpectatorsInternal_filter (h : town.map.Linked) (hreg : town.Registered) (spectators : List Nat)
    (centerPos : Position) (search : Search) : ∃ found,
      town.getSpectatorsInternal spectators centerPos search = spectators ++ found ∧ found.Nodup ∧
      ∀ c, c ∈ found ↔ town.onMap c ∧ search.Wants centerPos (town.creatures c) :=
  ⟨town.found centerPos search, getSpectatorsInternal_eq h spectators centerPos search,
    nodup_found h hreg centerPos search, fun _ => mem_found h hreg⟩

/-- A town with a monster at the eastern edge of the map. -/
def edgeTown : Town Unit :=
  [Event.tileCall (.setTile ⟨65535, 3, 7⟩ ()), .creature (.placeCreature 1 ⟨65535, 3, 7⟩)].foldl
    (step ⟨fun _ _ => (), fun _ _ => none⟩) {}

theorem kept_edgeTown : edgeTown.Kept := kept_run _ _

def edgeSearch : Search := ⟨-11, 11, -11, 11, 5, 7, false, true, false⟩

/-- From two floors above, beyond the edge. -/
theorem spectators_edgeTown : edgeTown.map.Linked ∧ edgeTown.Registered ∧ ∃ found,
    edgeTown.getSpectatorsInternal [2] ⟨65534, 0, 5⟩ edgeSearch = [2] ++ found ∧ found.Nodup ∧
      (∀ c, c ∈ found ↔ edgeTown.onMap c ∧ edgeSearch.Wants ⟨65534, 0, 5⟩ (edgeTown.creatures c)) ∧ 1 ∈ found := by
  refine ⟨kept_edgeTown.valid.toLinked, kept_edgeTown.registered, ?_⟩
  obtain ⟨found, happend, hnodup, hmem⟩ := getSpectatorsInternal_filter kept_edgeTown.valid.toLinked
    kept_edgeTown.registered [2] ⟨65534, 0, 5⟩ edgeSearch
  refine ⟨found, happend, hnodup, hmem, (hmem 1).mpr ⟨by decide, Search.wants_iff.mpr ⟨by decide, by decide⟩⟩⟩

end Town

end ForgottenServer.World
