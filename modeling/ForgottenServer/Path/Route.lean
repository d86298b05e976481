import ForgottenServer.Path.Matching

/-! # The route along a path

The directions are followed from the last one to the first one. -/

namespace ForgottenServer.Path

open World (Position)
open Request

variable {τ γ : Type} [DecidableEq τ] {r : Request τ γ}

def getNextPosition : Direction → Position → Position
  | .north, pos => { pos with y := pos.y - 1 }
  | .south, pos => { pos with y := pos.y + 1 }
  | .west, pos => { pos with x := pos.x - 1 }
  | .east, pos => { pos with x := pos.x + 1 }
  | .southwest, pos => { pos with x := pos.x - 1, y := pos.y + 1 }
  | .northwest, pos => { pos with x := pos.x - 1, y := pos.y - 1 }
  | .northeast, pos => { pos with x := pos.x + 1, y := pos.y - 1 }
  | .southeast, pos => { pos with x := pos.x + 1, y := pos.y + 1 }

/-- The positions that are visited from `pos` on. -/
def walk : Position → List Direction → List Position
  | _, [] => []
  | pos, d :: ds => getNextPosition d pos :: walk (getNextPosition d pos) ds

def arrival (pos : Position) (ds : List Direction) : Position := ds.foldl (fun pos d => getNextPosition d pos) pos

theorem walk_append (pos : Position) (ds ds' : List Direction) :
    walk pos (ds ++ ds') = walk pos ds ++ walk (arrival pos ds) ds' := by
  induction ds generalizing pos with
  | nil => rfl
  | cons d ds ih =>
    rw [List.cons_append, walk, walk, ih]
    rfl

theorem arrival_append (pos : Position) (ds ds' : List Direction) :
    arrival pos (ds ++ ds') = arrival (arrival pos ds) ds' := List.foldl_append

/-- No tile lies at the limits of the coordinates. -/
def InnerTiles (map : Map τ γ) : Prop :=
  ∀ x y z, (map.getTile x y z).isSome → 0 < x.toNat ∧ x.toNat < 65535 ∧ 0 < y.toNat ∧ y.toNat < 65535

theorem isSome_getTile {map : Map τ γ} {creature : Creature τ γ} {pos : Position}
    (h : (canWalkTo map creature pos).isSome) : (map.getTile pos.x pos.y pos.z).isSome := by
  rw [canWalkTo] at h
  split at h
  · obtain ⟨tile, htile⟩ := Option.isSome_iff_exists.mp h
    rw [(Option.filter_eq_some_iff.mp htile).1]
    rfl
  · exact h

/-- To a tile away from the limits no coordinate wraps. -/
theorem offset_of_inner {map : Map τ γ} (hinner : InnerTiles map) {creature : Creature τ γ}
    {pos : Position} {d : Int × Int}
    (hd : d ∈ allNeighbors) (h : (canWalkTo map creature (shift pos d)).isSome) :
    int (shift pos d).x = int pos.x + d.1 ∧ int (shift pos d).y = int pos.y + d.2 := by
  obtain ⟨hx, hx', hy, hy'⟩ := hinner _ _ _ (isSome_getTile h)
  have hunit : ∀ d ∈ allNeighbors, (d.1 = -1 ∨ d.1 = 0 ∨ d.1 = 1) ∧ (d.2 = -1 ∨ d.2 = 0 ∨ d.2 = 1) := by decide
  have hone := hunit d hd
  have hnewx := toNat_ofInt (int pos.x + d.1)
  have hnewy := toNat_ofInt (int pos.y + d.2)
  have hxlt := pos.x.toNat_lt
  have hylt := pos.y.toNat_lt
  change 0 < (UInt16.ofInt (int pos.x + d.1)).toNat at hx
  change (UInt16.ofInt (int pos.x + d.1)).toNat < 65535 at hx'
  change 0 < (UInt16.ofInt (int pos.y + d.2)).toNat at hy
  change (UInt16.ofInt (int pos.y + d.2)).toNat < 65535 at hy'
  change int (UInt16.ofInt (int pos.x + d.1)) = _ ∧ int (UInt16.ofInt (int pos.y + d.2)) = _
  simp only [int] at *
  omega

theorem shift_eq (pos : Position) (d : Int × Int) :
    shift pos d = ⟨pos.x + UInt16.ofInt d.1, pos.y + UInt16.ofInt d.2, pos.z⟩ := by
  have hadd : ∀ (n : UInt16) (a : Int), UInt16.ofInt (int n + a) = n + UInt16.ofInt a := by
    intro n a
    have hsum := toNat_ofInt (int n + a)
    have ha := toNat_ofInt a
    rw [int] at *
    refine UInt16.toNat_inj.mp ?_
    rw [UInt16.toNat_add]
    omega
  rw [shift, hadd, hadd]

/-- The direction that the code appends for an offset leads back along it. -/
theorem getNextPosition_eq {d : Int × Int} (hd : d ∈ allNeighbors) (pos : Position) :
    ∃ direction, pathDirection (-d.1) (-d.2) = some direction ∧ getNextPosition direction pos = shift pos d := by
  simp only [allNeighbors, List.mem_cons, List.not_mem_nil, or_false] at hd
  have hzero : UInt16.ofInt 0 = 0 := rfl
  rw [shift_eq]
  obtain rfl | rfl | rfl | rfl | rfl | rfl | rfl | rfl := hd
  · exact ⟨.west, rfl, by simp [getNextPosition, hzero, UInt16.sub_eq_add_neg]⟩
  · exact ⟨.south, rfl, by simp [getNextPosition, hzero]⟩
  · exact ⟨.east, rfl, by simp [getNextPosition, hzero]⟩
  · exact ⟨.north, rfl, by simp [getNextPosition, hzero, UInt16.sub_eq_add_neg]⟩
  · exact ⟨.northwest, rfl, by simp [getNextPosition, UInt16.sub_eq_add_neg]⟩
  · exact ⟨.northeast, rfl, by simp [getNextPosition, UInt16.sub_eq_add_neg]⟩
  · exact ⟨.southeast, rfl, by simp [getNextPosition]⟩
  · exact ⟨.southwest, rfl, by simp [getNextPosition, UInt16.sub_eq_add_neg]⟩

/-- Along a chain of parents the directions lead from the start over the places of the nodes. -/
theorem walk_pathOf {s : AStarNodes} (h : r.Explored s) (hinner : InnerTiles r.map) {n : Nat} {chain : List Nat}
    (hn : n < s.currentNode) (hchain : Climb.Above (parentOf s.nodes) n chain) :
    r.start :: walk r.start (pathOf s.nodes chain).reverse = (chain.map fun m => r.place (s.nodes m)).reverse ∧
    arrival r.start (pathOf s.nodes chain).reverse = r.place (s.nodes n) ∧
    (∀ pos ∈ walk r.start (pathOf s.nodes chain).reverse, r.Admits pos) ∧ chain.getLast? = some 0 := by
  induction hchain with
  | @top n htop =>
    obtain rfl | hpos := Nat.eq_zero_or_pos n
    · have hstart : r.place (s.nodes 0) = r.start := by
        rw [h.start_eq]
        rfl
      refine ⟨?_, ?_, fun pos hpos => absurd hpos List.not_mem_nil, rfl⟩
      · rw [List.map_singleton, hstart]
        rfl
      · rw [hstart]
        rfl
    · obtain ⟨p, -, hparent, -⟩ := (h.linked n hpos hn).parent
      rw [parentOf, hparent] at htop
      cases htop
  | @step n p chain hparent above ih =>
    have hpos : 0 < n := by
      refine Nat.pos_of_ne_zero ?_
      rintro rfl
      rw [parentOf, h.start_eq] at hparent
      cases hparent
    have hlinked := h.linked n hpos hn
    obtain ⟨p', hp, hparent', -, d, hd, hplace, -⟩ := hlinked.parent
    rw [parentOf, hparent', Option.some.injEq] at hparent
    subst hparent
    obtain ⟨hwalk, harrival, hadmits, hlast⟩ := ih hp
    obtain ⟨hx, hy⟩ := offset_of_inner hinner hd (hplace ▸ hlinked.admits.2)
    rw [← hplace] at hx hy
    obtain ⟨direction, hdirection, hnext⟩ := getNextPosition_eq hd (r.place (s.nodes p'))
    have hback : pathDirection (int (s.nodes p').x - int (s.nodes n).x) (int (s.nodes p').y - int (s.nodes n).y) =
        some direction := by
      rw [← hdirection]
      change int (s.nodes n).x = int (s.nodes p').x + d.1 at hx
      change int (s.nodes n).y = int (s.nodes p').y + d.2 at hy
      congr 1 <;> omega
    have hpath : (pathOf s.nodes (n :: chain)).reverse = (pathOf s.nodes chain).reverse ++ [direction] := by
      cases above <;> rw [pathOf, hback, List.reverse_append] <;> rfl
    have hstep : walk (r.place (s.nodes p')) [direction] = [r.place (s.nodes n)] := by
      rw [walk, walk, hnext, ← hplace]
    rw [hpath, walk_append, harrival, hstep]
    refine ⟨?_, ?_, fun pos hmem => ?_, ?_⟩
    · rw [← List.cons_append, hwalk, List.map_cons, List.reverse_cons]
    · rw [arrival_append, harrival, hplace, ← hnext]
      rfl
    · obtain hmem | hmem := List.mem_append.mp hmem
      · exact hadmits pos hmem
      · rw [List.mem_singleton.mp hmem]
        exact hlinked.admits
    · rw [List.getLast?_cons, hlast]
      rfl

/-! ## Every search -/

/-- The workspaces that the searches of a thread can leave. -/
inductive Reached : AStarWorkspace → Prop
  | new : Reached {}
  | search {τ γ : Type} [DecidableEq τ] (r : Request τ γ) {fuel : Nat} {w : AStarWorkspace} {dirList : List Direction}
      {result : AStarWorkspace × Bool × List Direction} (h : Reached w)
      (hsearch : getPathMatching fuel w r dirList = some result) : Reached result.1

theorem Reached.idle {w : AStarWorkspace} (h : Reached w) : Idle w := by
  induction h with
  | new => exact .new
  | @search _ _ _ r fuel w dirList result _ hsearch ih =>
    obtain ⟨enough, w', ok, appended, hends, hidle, -⟩ := getPathMatching_ends ih r dirList
    have hresult := getPathMatching_mono hsearch (le_max_left fuel enough)
    rw [hends _ (le_max_right ..), Option.some.injEq] at hresult
    rw [← hresult]
    exact hidle

theorem Request.Admits.within {pos : Position} (h : r.Admits pos) (hdist : r.fpp.maxSearchDist ≠ 0) :
    Sight.getDistanceX r.start pos ≤ r.fpp.maxSearchDist ∧ Sight.getDistanceY r.start pos ≤ r.fpp.maxSearchDist := by
  have hskips := h.1
  simp only [Request.skips, Bool.or_eq_false_iff, Bool.and_eq_false_iff, decide_eq_false_iff_not, not_lt] at hskips
  exact hskips.1.resolve_left fun hnot => hnot hdist

/-- Every search ends. A path that it found leads over tiles that it may walk on and that are near enough, and to a
position that matched. The parents that were followed lead to the start without a cycle. -/
theorem getPathMatching_valid {w : AStarWorkspace} (hw : Reached w) (r : Request τ γ) (hinner : InnerTiles r.map)
    (dirList : List Direction) :
    ∃ fuel w' ok appended, (∀ more, fuel ≤ more → getPathMatching more w r dirList = some (w', ok, dirList ++ appended)) ∧
      (ok = true →
        (∀ pos ∈ walk r.start appended.reverse, (canWalkTo r.map r.creature pos).isSome ∧
          (r.fpp.maxSearchDist ≠ 0 → Sight.getDistanceX r.start pos ≤ r.fpp.maxSearchDist ∧
            Sight.getDistanceY r.start pos ≤ r.fpp.maxSearchDist)) ∧
        (∃ best, (r.pathCondition.call r.start (arrival r.start appended.reverse) r.fpp best).1 = true) ∧
        ∃ found chain, Climb.Above (parentOf w'.nodes) found chain ∧ chain.Nodup ∧ chain.getLast? = some 0 ∧
          r.start :: walk r.start appended.reverse = (chain.map fun n => r.place (w'.nodes n)).reverse) := by
  obtain ⟨fuel, w', ok, appended, hends, -, -, hpath⟩ := getPathMatching_ends hw.idle r dirList
  refine ⟨fuel, w', ok, appended, hends, fun hok => ?_⟩
  obtain ⟨⟨st, hsound, found, hfound, chain, habove, rfl, rfl⟩⟩ := hpath hok
  obtain ⟨hlt, hplace, best, hmatch⟩ := hsound.found found hfound
  obtain ⟨hwalk, harrival, hadmits, hlast⟩ := walk_pathOf hsound.explored hinner hlt habove
  refine ⟨fun pos hpos => ⟨(hadmits pos hpos).2, fun hdist => (hadmits pos hpos).within hdist⟩, ⟨best, ?_⟩,
    found, chain, habove, habove.nodup, hlast, hwalk⟩
  rw [harrival, hplace]
  exact hmatch

/-- A map with the tiles of a list, without creatures and fields. -/
def plainMap (tiles : List (UInt16 × UInt16)) : Map (UInt16 × UInt16) Unit where
  getTile x y _ := if (x, y) ∈ tiles then some (x, y) else none
  queryAdd _ := true
  getTopVisibleCreature _ := false
  getFieldItem _ := none

def traveller : Creature (UInt16 × UInt16) Unit where
  position := ⟨100, 100, 7⟩
  tile := some (100, 100)
  isImmune _ := false
  hasCondition _ := false
  monster := none

/-- A search for the tile to the north-east, with the next tiles in the four directions missing. -/
def corner : Request (UInt16 × UInt16) Unit where
  map := plainMap [(100, 100), (101, 99)]
  creature := traveller
  pathCondition := frozenPathingConditionCall (fun _ _ => true) ⟨101, 99, 7⟩
  fpp := { allowDiagonal := false, maxTargetDist := 0 }

theorem getPathMatching_valid_corner :
    ∃ fuel w' ok appended, (∀ more, fuel ≤ more → getPathMatching more {} corner [] = some (w', ok, [] ++ appended)) ∧
      (ok = true →
        (∀ pos ∈ walk corner.start appended.reverse, (canWalkTo corner.map corner.creature pos).isSome ∧
          (corner.fpp.maxSearchDist ≠ 0 → Sight.getDistanceX corner.start pos ≤ corner.fpp.maxSearchDist ∧
            Sight.getDistanceY corner.start pos ≤ corner.fpp.maxSearchDist)) ∧
        (∃ best, (corner.pathCondition.call corner.start (arrival corner.start appended.reverse) corner.fpp best).1 =
          true) ∧
        ∃ found chain, Climb.Above (parentOf w'.nodes) found chain ∧ chain.Nodup ∧ chain.getLast? = some 0 ∧
          corner.start :: walk corner.start appended.reverse =
            (chain.map fun n => corner.place (w'.nodes n)).reverse) := by
  refine getPathMatching_valid .new corner (fun x y z htile => ?_) []
  have hmem : (x, y) ∈ [((100 : UInt16), (100 : UInt16)), (101, 99)] := by
    by_contra hnot
    rw [show corner.map.getTile x y z = none from if_neg hnot] at htile
    cases htile
  simp only [List.mem_cons, Prod.mk.injEq, List.not_mem_nil, or_false] at hmem
  obtain ⟨rfl, rfl⟩ | ⟨rfl, rfl⟩ := hmem <;> decide

end ForgottenServer.Path
