import ForgottenServer.Path.Route

/-! # Diagonal steps when they are not allowed

The start visits its diagonal neighbours also then. A path has a diagonal step at most at its beginning. -/

namespace ForgottenServer.Path

open World (Position)
open Request
open Sight (getDistanceX getDistanceY)

variable {τ γ : Type} [DecidableEq τ] {r : Request τ γ}

def Direction.IsCardinal (d : Direction) : Prop := d = .north ∨ d = .east ∨ d = .south ∨ d = .west

theorem pathDirection_cardinal {dx dy : Int} {direction : Direction} (h : pathDirection dx dy = some direction)
    (hnot : ¬ ((dx = 1 ∨ dx = -1) ∧ (dy = 1 ∨ dy = -1))) : direction.IsCardinal := by
  rw [pathDirection, if_neg (by omega), if_neg (by omega), if_neg (by omega), if_neg (by omega)] at h
  split at h
  · exact .inr (.inr (.inr (Option.some.inj h).symm))
  split at h
  · exact .inr (.inl (Option.some.inj h).symm)
  split at h
  · exact .inl (Option.some.inj h).symm
  split at h
  · exact .inr (.inr (.inl (Option.some.inj h).symm))
  · cases h

/-- No diagonal neighbour of the creature's position may be walked on. -/
def NoCorner (map : Map τ γ) (creature : Creature τ γ) : Prop :=
  ∀ pos : Position, pos.z = creature.position.z → getDistanceX creature.position pos = 1 →
    getDistanceY creature.position pos = 1 → canWalkTo map creature pos = none

/-- A coordinate that changed by one did so by the offset. -/
theorem offset_eq {a b : UInt16} {d : Int} (hd : d = -1 ∨ d = 0 ∨ d = 1) (hb : b = UInt16.ofInt (int a + d))
    (hone : int a - int b = 1 ∨ int a - int b = -1) : d ≠ 0 := by
  rintro rfl
  have h := toNat_ofInt (int a + 0)
  have ha := a.toNat_lt
  rw [← hb] at h
  simp only [int] at *
  omega

theorem pathOf_cardinal {s : AStarNodes} (h : r.Explored s) (hallow : r.fpp.allowDiagonal = false)
    (hcorner : NoCorner r.map r.creature) {n : Nat} {chain : List Nat} (hn : n < s.currentNode)
    (hchain : Climb.Above (parentOf s.nodes) n chain) : ∀ d ∈ pathOf s.nodes chain, d.IsCardinal := by
  induction hchain with
  | top => exact fun d hd => absurd hd List.not_mem_nil
  | @step n p chain hparent above ih =>
    have hpos : 0 < n := by
      refine Nat.pos_of_ne_zero ?_
      rintro rfl
      rw [parentOf, h.start_eq] at hparent
      cases hparent
    have hlinked := h.linked n hpos hn
    obtain ⟨p', hp, hparent', -, d, hd, hplace, hstraight⟩ := hlinked.parent
    rw [parentOf, hparent', Option.some.injEq] at hparent
    subst hparent
    have hunit : ∀ d ∈ allNeighbors, (d.1 = -1 ∨ d.1 = 0 ∨ d.1 = 1) ∧ (d.2 = -1 ∨ d.2 = 0 ∨ d.2 = 1) := by decide
    have hpath : pathOf s.nodes (n :: chain) =
        (pathDirection (int (s.nodes p').x - int (s.nodes n).x) (int (s.nodes p').y - int (s.nodes n).y)).toList ++
          pathOf s.nodes chain := by
      cases above <;> rw [pathOf]
    intro direction hdirection
    rw [hpath, List.mem_append, Option.mem_toList] at hdirection
    obtain hdirection | hdirection := hdirection
    · refine pathDirection_cardinal hdirection ?_
      rintro ⟨hdx, hdy⟩
      have hx := offset_eq (hunit d hd).1 (congrArg Position.x hplace) hdx
      have hy := offset_eq (hunit d hd).2 (congrArg Position.y hplace) hdy
      by_cases hzero : p' = 0
      · subst hzero
        have hstart : r.place (s.nodes 0) = r.creature.position := by
          rw [h.start_eq]
          rfl
        have hblocked := hcorner (r.place (s.nodes n)) rfl ?_ ?_
        · have hadmits := hlinked.admits.2
          rw [hblocked] at hadmits
          cases hadmits
        · rw [← hstart, getDistanceX, Sight.offset]
          change int (s.nodes 0).x - int (s.nodes n).x = 1 ∨ _ at hdx
          simp only [int] at hdx
          change (((s.nodes 0).x.toNat : Int) - (s.nodes n).x.toNat).natAbs = 1
          omega
        · rw [← hstart, getDistanceY, Sight.offset]
          simp only [int] at hdy
          change (((s.nodes 0).y.toNat : Int) - (s.nodes n).y.toNat).natAbs = 1
          omega
      · exact (hstraight hzero hallow).elim hx hy
    · exact ih hp direction hdirection

/-! ## A corner that the search reaches -/

theorem visitAll_skipped {nodeIdx : Nat} {gScore : Int} {s : AStarNodes} {ds : List (Int × Int)}
    (h : ∀ d ∈ ds, r.skips (shift (r.place (s.nodes nodeIdx)) d) = true) (ds' : List (Int × Int)) :
    r.visitAll nodeIdx gScore (ds ++ ds') s = r.visitAll nodeIdx gScore ds' s := by
  induction ds with
  | nil => rfl
  | cons d ds ih =>
    rw [List.forall_mem_cons] at h
    rw [List.cons_append, Request.visitAll, Request.visit]
    dsimp only
    rw [if_pos h.1]
    exact ih h.2

/-- The search for one position, which goes to no other one. -/
def cornerRequest (map : Map τ γ) (creature : Creature τ γ) (isSightClear : Position → Position → Bool) (pos : Position) :
    Request τ γ where
  map
  creature
  pathCondition := frozenPathingConditionCall isSightClear pos
  fpp := { allowDiagonal := false, keepDistance := true, clearSight := false, maxTargetDist := 0 }

theorem isInRange_zero (pos startPos testPos : Position) :
    isInRange pos startPos testPos
        { allowDiagonal := false, keepDistance := true, clearSight := false, maxTargetDist := 0 } =
      decide (testPos.x = pos.x ∧ testPos.y = pos.y) := by
  rw [isInRange]
  simp only [if_true, add_zero, sub_zero]
  by_cases hsame : testPos.x = pos.x ∧ testPos.y = pos.y
  · rw [decide_eq_true hsame, hsame.1, hsame.2]
    simp
  · have hints : ¬ (int testPos.x = int pos.x ∧ int testPos.y = int pos.y) := by
      rw [int, int, int, int, Nat.cast_inj, Nat.cast_inj, UInt16.toNat_inj, UInt16.toNat_inj]
      exact hsame
    rw [decide_eq_false hsame]
    repeat' split
    all_goals first | rfl | omega

variable {map : Map τ γ} {creature : Creature τ γ} (isSightClear : Position → Position → Bool) {pos : Position}

omit [DecidableEq τ] in
theorem skips_cornerRequest (q : Position) :
    (cornerRequest map creature isSightClear pos).skips q = !decide (q.x = pos.x ∧ q.y = pos.y) := by
  rw [Request.skips]
  simp only [cornerRequest, frozenPathingConditionCall, isInRange_zero]
  simp

omit [DecidableEq τ] in
theorem call_cornerRequest (q : Position) (best : Int) :
    (cornerRequest map creature isSightClear pos).pathCondition.call creature.position q
      (cornerRequest map creature isSightClear pos).fpp best =
      if q.x = pos.x ∧ q.y = pos.y then (true, 0) else (false, best) := by
  simp only [cornerRequest, frozenPathingConditionCall, isInRange_zero]
  by_cases h : q.x = pos.x ∧ q.y = pos.y
  · simp [h, getDistanceX, getDistanceY, Sight.offset]
  · simp [h]

/-- Different offsets lead to different positions. -/
theorem shift_inj {d d' : Int × Int} (hd : d ∈ allNeighbors) (hd' : d' ∈ allNeighbors) {p : Position}
    (hx : (shift p d).x = (shift p d').x) (hy : (shift p d).y = (shift p d').y) : d = d' := by
  have hall : ∀ d ∈ allNeighbors, ∀ d' ∈ allNeighbors, UInt16.ofInt d.1 = UInt16.ofInt d'.1 →
      UInt16.ofInt d.2 = UInt16.ofInt d'.2 → d = d' := by decide
  simp only [shift_eq, UInt16.add_right_inj] at hx hy
  exact hall d hd d' hd' hx hy

section Corner

variable {s : AStarNodes} (hs : Started s creature.position.x creature.position.y) {d : Int × Int}
  (hd : d ∈ allNeighbors) (hpos : pos = shift creature.position d)

include hs in
omit [DecidableEq τ] in
theorem place_started : (cornerRequest map creature isSightClear pos).place (s.nodes 0) = creature.position := by
  rw [hs.node_eq]
  rfl

include hd hpos in
omit [DecidableEq τ] in
/-- Every other neighbour is skipped. -/
theorem skips_of_ne {d' : Int × Int} (hd' : d' ∈ allNeighbors) (hne : d' ≠ d) :
    (cornerRequest map creature isSightClear pos).skips (shift creature.position d') = true := by
  rw [skips_cornerRequest, Bool.not_eq_true', decide_eq_false_iff_not, hpos]
  intro ⟨hx, hy⟩
  exact hne (shift_inj hd' hd hx hy)

include hs hd hpos in
/-- The corner gets the second node. -/
theorem visit_corner (hwalk : (canWalkTo map creature pos).isSome) :
    ∃ s', (cornerRequest map creature isSightClear pos).visit 0 0 s d = some (.next s') ∧ Valid s' ∧
      (∃ f gScore, s'.nodes = Function.update s.nodes s.currentNode ⟨some 0, f, gScore, pos.x, pos.y⟩) ∧
      (∀ n, s'.IsOpen n ↔ n = s.currentNode ∨ s.IsOpen n) ∧ s'.closedNodes = s.closedNodes := by
  obtain ⟨found, hfind, hfound⟩ := hs.valid.getNodeByPosition pos.x pos.y
  have hnew : ∀ n < s.currentNode, s.positionOf n ≠ (pos.x, pos.y) := by
    intro n hn hat
    rw [hs.currentNode_eq, Nat.lt_one_iff] at hn
    rw [hn, AStarNodes.positionOf, hs.node_eq, Prod.mk.injEq, hpos] at hat
    refine shift_ne hd creature.position ?_
    rw [shift, Position.mk.injEq]
    exact ⟨hat.1.symm, hat.2.symm, rfl⟩
  have hnone : found = none := by
    cases found with
    | none => rfl
    | some n => exact absurd ((hfound n).mp rfl).2 (hnew n ((hfound n).mp rfl).1)
  obtain ⟨tile, htile⟩ := Option.isSome_iff_exists.mp hwalk
  have hskip : (cornerRequest map creature isSightClear pos).skips pos = false := by
    rw [skips_cornerRequest]
    simp
  have hroom : s.currentNode < MAX_NODES := by
    rw [hs.currentNode_eq]
    decide
  rw [Request.visit]
  dsimp only
  rw [place_started isSightClear hs, ← hpos, hskip, if_neg Bool.false_ne_true, hfind, hnone]
  dsimp only [Option.bind_eq_bind, Option.bind_some, Option.isSome_none]
  rw [if_neg Bool.false_ne_true, show canWalkTo (cornerRequest map creature isSightClear pos).map
    (cornerRequest map creature isSightClear pos).creature pos = some tile from htile]
  dsimp only
  obtain ⟨s', hcreate, hvalid, hnodes, -, -, hclosed, hopen⟩ := hs.valid.createOpenNode hroom hnew (some 0)
    (0 + getMapWalkCost (s.nodes 0) pos + getTileWalkCost (cornerRequest map creature isSightClear pos).map
      (cornerRequest map creature isSightClear pos).creature tile +
      (cornerRequest map creature isSightClear pos).manhattanHeuristic pos)
    (0 + getMapWalkCost (s.nodes 0) pos + getTileWalkCost (cornerRequest map creature isSightClear pos).map
      (cornerRequest map creature isSightClear pos).creature tile)
  rw [hcreate]
  exact ⟨s', rfl, hvalid, ⟨_, _, hnodes⟩, hopen, hclosed⟩

include hs hd hpos in
/-- The loop over the neighbours of the start creates a node for the corner, and no other one. -/
theorem visitAll_corner (hwalk : (canWalkTo map creature pos).isSome) :
    ∃ s', (cornerRequest map creature isSightClear pos).visitAll 0 0 allNeighbors s = some (s', false) ∧ Valid s' ∧
      (s'.nodes 1).parent = some 0 ∧ s'.positionOf 1 = (pos.x, pos.y) ∧ s'.nodes 0 = s.nodes 0 ∧
      (∀ n, s'.IsOpen n ↔ n = 1 ∨ n = 0) ∧ s'.closedNodes = 0 := by
  obtain ⟨before, after, hsplit⟩ := List.append_of_mem hd
  have hplace : (cornerRequest map creature isSightClear pos).place (s.nodes 0) = creature.position :=
    place_started isSightClear hs
  have hnodup : allNeighbors.Nodup := by decide
  rw [hsplit, List.nodup_append, List.nodup_cons] at hnodup
  have hbefore : ∀ d' ∈ before,
      (cornerRequest map creature isSightClear pos).skips (shift creature.position d') = true :=
    fun d' hd' => skips_of_ne isSightClear hd hpos (hsplit ▸ List.mem_append_left _ hd') fun hsame =>
      hnodup.2.2 d' hd' d List.mem_cons_self hsame
  have hafter : ∀ d' ∈ after,
      (cornerRequest map creature isSightClear pos).skips (shift creature.position d') = true := by
    intro d' hd'
    refine skips_of_ne isSightClear hd hpos (hsplit ▸ List.mem_append_right _ (List.mem_cons_of_mem _ hd')) ?_
    intro hsame
    exact hnodup.2.1.1 (hsame ▸ hd')
  obtain ⟨s', hvisit, hvalid, ⟨f, gScore, hnodes⟩, hopen, hclosed⟩ := visit_corner isSightClear hs hd hpos hwalk
  rw [hs.currentNode_eq] at hnodes hopen
  have hzero : s'.nodes 0 = s.nodes 0 := by rw [hnodes, Function.update_of_ne (by decide)]
  have hone : s'.nodes 1 = ⟨some 0, f, gScore, pos.x, pos.y⟩ := by rw [hnodes, Function.update_self]
  refine ⟨s', ?_, hvalid, by rw [hone], by rw [AStarNodes.positionOf, hone], hzero, fun n => ?_, ?_⟩
  · rw [hsplit, visitAll_skipped (by rwa [hplace]), Request.visitAll, hvisit]
    have hrest : (cornerRequest map creature isSightClear pos).visitAll 0 0 (after ++ []) s' =
        (cornerRequest map creature isSightClear pos).visitAll 0 0 [] s' :=
      visitAll_skipped (by rwa [hzero, hplace]) []
    rw [List.append_nil] at hrest
    exact hrest
  · rw [hopen, hs.isOpen_iff]
  · rw [hclosed, hs.closedNodes_eq]

end Corner

theorem getBestNode_eq {s : AStarNodes} (h : Valid s) {n : Nat} (hopen : ∀ m, s.IsOpen m ↔ m = n) :
    s.getBestNode = some n := by
  cases hbest : s.getBestNode with
  | none => exact absurd ((hopen n).mpr rfl) (h.getBestNode_eq_none.mp hbest n)
  | some best => rw [(hopen best).mp (h.getBestNode_eq_some hbest).1]

/-- A turn with the answer of the condition. -/
theorem turn_eq {st : State} {n : Nat} {matched : Bool} {best : Int}
    (hgo : r.fpp.maxSearchDist ≠ 0 ∨ st.nodes.closedNodes < 100) (hbest : st.nodes.getBestNode = some n)
    (hcall : r.pathCondition.call r.start (r.place (st.nodes.nodes n)) r.fpp st.bestMatch = (matched, best)) :
    r.turn st =
      if matched && best = 0 then some (.stop (.leave (st.answered n (r.place (st.nodes.nodes n)) matched best)))
      else r.expand n (st.answered n (r.place (st.nodes.nodes n)) matched best) := by
  rw [Request.turn, if_pos hgo]
  simp only [hbest, hcall]

/-- The turn that expands the start. -/
theorem turn_start {s : AStarNodes} (hs : Started s creature.position.x creature.position.y) {d : Int × Int}
    (hd : d ∈ allNeighbors) (hpos : pos = shift creature.position d) (hne : creature.position.x ≠ pos.x)
    (hwalk : (canWalkTo map creature pos).isSome) :
    ∃ s', (cornerRequest map creature isSightClear pos).turn { nodes := s, endPosition := creature.position } =
        some (.again { nodes := s', endPosition := creature.position }) ∧ Valid s' ∧
      (s'.nodes 1).parent = some 0 ∧ s'.positionOf 1 = (pos.x, pos.y) ∧ s'.nodes 0 = s.nodes 0 ∧
      (∀ n, s'.IsOpen n ↔ n = 1) ∧ s'.closedNodes = 1 := by
  obtain ⟨s', hvisit, hvalid, hparent, hat, hzero, hopen, hclosed⟩ :=
    visitAll_corner isSightClear hs hd hpos hwalk
  obtain ⟨hvalid', hopen'⟩ := hvalid.closeNode ((hopen 0).mpr (.inr rfl))
  refine ⟨s'.closeNode 0, ?_, hvalid', hparent, hat, hzero, fun n => ?_, ?_⟩
  · have hplace : (cornerRequest map creature isSightClear pos).place (s.nodes 0) = creature.position := by
      rw [hs.node_eq]
      rfl
    have hds : neighbors (cornerRequest map creature isSightClear pos).fpp.allowDiagonal (xyOffset s (s.nodes 0)) =
        allNeighbors := by
      rw [xyOffset, hs.node_eq]
      rfl
    have hcall : (cornerRequest map creature isSightClear pos).pathCondition.call creature.position
        ((cornerRequest map creature isSightClear pos).place (s.nodes 0))
        (cornerRequest map creature isSightClear pos).fpp 0 = (false, 0) := by
      rw [hplace, call_cornerRequest, if_neg fun h => hne h.1]
    have hgo : (cornerRequest map creature isSightClear pos).fpp.maxSearchDist ≠ 0 ∨ s.closedNodes < 100 := by
      rw [hs.closedNodes_eq]
      exact .inr (by decide)
    have hbest := getBestNode_eq hs.valid hs.isOpen_iff
    rw [turn_eq hgo hbest hcall, Bool.false_and, if_neg Bool.false_ne_true,
      State.answered, if_neg Bool.false_ne_true, Request.expand]
    dsimp only
    rw [hds, show (s.nodes 0).gScore = 0 by rw [hs.node_eq], hvisit]
    rfl
  · rw [hopen', hopen]
    omega
  · rw [show (s'.closeNode 0).closedNodes = s'.closedNodes + 1 from rfl, hclosed]
    rfl

theorem pathDirection_diagonal (dx dy : Int) (hdx : dx = 1 ∨ dx = -1) (hdy : dy = 1 ∨ dy = -1) :
    ∃ direction, pathDirection dx dy = some direction ∧ ¬ direction.IsCardinal := by
  obtain rfl | rfl := hdx <;> obtain rfl | rfl := hdy
  · exact ⟨.northwest, rfl, by simp [Direction.IsCardinal]⟩
  · exact ⟨.southwest, rfl, by simp [Direction.IsCardinal]⟩
  · exact ⟨.northeast, rfl, by simp [Direction.IsCardinal]⟩
  · exact ⟨.southeast, rfl, by simp [Direction.IsCardinal]⟩

/-- A corner that may be walked on is reached by a diagonal step. -/
theorem exists_diagonal {d : Int × Int} (hd : d ∈ allNeighbors) (hpos : pos = shift creature.position d)
    (hdiagonal : getDistanceX creature.position pos = 1 ∧ getDistanceY creature.position pos = 1)
    (hwalk : (canWalkTo map creature pos).isSome) :
    ∃ w direction, getPathMatching 3 {} (cornerRequest map creature isSightClear pos) [] = some (w, true, [direction]) ∧
      ¬ direction.IsCardinal := by
  obtain ⟨s, hstart, hs⟩ := Idle.new.start creature.position.x creature.position.y
  have hne : creature.position.x ≠ pos.x := by
    intro hsame
    rw [getDistanceX, hsame, Sight.offset, sub_self] at hdiagonal
    exact absurd hdiagonal.1 (by decide)
  obtain ⟨s', hturn, hvalid, hparent, hat, hzero, hopen, hclosed⟩ := turn_start isSightClear hs hd hpos hne hwalk
  have hplace : (cornerRequest map creature isSightClear pos).place (s'.nodes 1) = pos := by
    rw [place_eq, hat, hpos]
    rfl
  have hfound : (cornerRequest map creature isSightClear pos).turn { nodes := s', endPosition := creature.position } =
      some (.stop (.leave { nodes := s', found := some 1, endPosition := pos })) := by
    have hcall : (cornerRequest map creature isSightClear pos).pathCondition.call creature.position
        ((cornerRequest map creature isSightClear pos).place (s'.nodes 1))
        (cornerRequest map creature isSightClear pos).fpp 0 = (true, 0) := by
      rw [hplace, call_cornerRequest, if_pos ⟨rfl, rfl⟩]
    have hgo : (cornerRequest map creature isSightClear pos).fpp.maxSearchDist ≠ 0 ∨ s'.closedNodes < 100 := by
      rw [hclosed]
      exact .inr (by decide)
    have hbest := getBestNode_eq hvalid hopen
    rw [turn_eq hgo hbest hcall, hplace]
    rfl
  have hrun : Loop.run (cornerRequest map creature isSightClear pos).turn 3
      { nodes := s, endPosition := creature.position } =
      some (.leave { nodes := s', found := some 1, endPosition := pos }) := by
    rw [Loop.run_again hturn, Loop.run_stop hfound]
  obtain ⟨direction, hdirection, hnot⟩ := pathDirection_diagonal
    (int creature.position.x - int pos.x) (int creature.position.y - int pos.y)
    (by rw [int, int]; rw [getDistanceX, Sight.offset] at hdiagonal; omega)
    (by rw [int, int]; rw [getDistanceY, Sight.offset] at hdiagonal; omega)
  have hway : followParents s'.nodes 3 (s'.nodes 1).parent pos.x pos.y [] = some [direction] := by
    rw [hparent, followParents, hzero, hs.node_eq]
    dsimp only
    rw [hdirection]
    rfl
  have hstart' : ({} : AStarWorkspace).start (cornerRequest map creature isSightClear pos).start.x
      (cornerRequest map creature isSightClear pos).start.y = some s := hstart
  have hrun' : Loop.run (cornerRequest map creature isSightClear pos).turn 3
      { nodes := s, endPosition := (cornerRequest map creature isSightClear pos).start } =
      some (.leave { nodes := s', found := some 1, endPosition := pos }) := hrun
  refine ⟨s'.release, direction, ?_, hnot⟩
  simp only [getPathMatching, hstart', hrun', hway, Option.bind_eq_bind, Option.bind_some]

/-! ## Exactly when no step is diagonal -/

theorem exists_offset {start pos : Position} (hz : pos.z = start.z) (hx : getDistanceX start pos = 1)
    (hy : getDistanceY start pos = 1) : ∃ d ∈ allNeighbors, pos = shift start d := by
  rw [getDistanceX, Sight.offset] at hx
  rw [getDistanceY, Sight.offset] at hy
  have hback : ∀ a b : UInt16, b = UInt16.ofInt (int a + (int b - int a)) := by
    intro a b
    have h := toNat_ofInt (int a + (int b - int a))
    have hb := b.toNat_lt
    refine UInt16.toNat_inj.mp ?_
    simp only [int] at *
    omega
  refine ⟨(int pos.x - int start.x, int pos.y - int start.y), ?_, ?_⟩
  · have hdx : int pos.x - int start.x = 1 ∨ int pos.x - int start.x = -1 := by
      simp only [int]
      omega
    have hdy : int pos.y - int start.y = 1 ∨ int pos.y - int start.y = -1 := by
      simp only [int]
      omega
    obtain hdx | hdx := hdx <;> obtain hdy | hdy := hdy <;> rw [hdx, hdy] <;> decide
  · rw [shift, ← hback, ← hback, ← hz]

/-- For a map and a creature: when diagonal steps are not allowed, every search for every target appends only steps to
the north, east, south and west, if and only if no corner of the creature's position may be walked on. -/
theorem cardinal_iff_noCorner (map : Map τ γ) (creature : Creature τ γ) :
    (∀ w, Reached w → ∀ fuel targetPos fpp dirList w' ok appended, fpp.allowDiagonal = false →
      getPathMatching fuel w ⟨map, creature, frozenPathingConditionCall isSightClear targetPos, fpp⟩ dirList =
        some (w', ok, dirList ++ appended) → ∀ d ∈ appended, d.IsCardinal) ↔
    NoCorner map creature := by
  constructor
  · intro h pos hz hx hy
    by_contra hwalk
    obtain ⟨d, hd, hpos⟩ := exists_offset hz hx hy
    obtain ⟨w, direction, hsearch, hnot⟩ := exists_diagonal isSightClear hd hpos ⟨hx, hy⟩
      (Option.isSome_iff_ne_none.mpr hwalk)
    exact hnot (h {} .new 3 pos _ [] w true [direction] rfl hsearch direction (List.mem_singleton_self _))
  · intro hcorner w hw fuel targetPos fpp dirList w' ok appended hallow hsearch
    obtain ⟨enough, w'', ok', appended', hends, -, hfalse, hpath⟩ := getPathMatching_ends hw.idle
      ⟨map, creature, frozenPathingConditionCall isSightClear targetPos, fpp⟩ dirList
    have hresult := getPathMatching_mono hsearch (le_max_left fuel enough)
    rw [hends _ (le_max_right ..), Option.some.injEq, Prod.mk.injEq, Prod.mk.injEq] at hresult
    have hsame : appended' = appended := List.append_cancel_left hresult.2.2
    subst hsame
    cases ok' with
    | false =>
      rw [hfalse rfl]
      exact fun d hd => absurd hd List.not_mem_nil
    | true =>
      obtain ⟨⟨st, hsound, found, hfound, chain, habove, rfl, rfl⟩⟩ := hpath rfl
      exact pathOf_cardinal hsound.explored hallow hcorner (hsound.found found hfound).1 habove

/-- Without the tiles between, the step to the north-east is taken although it is not allowed. -/
theorem corner_diagonal : corner.fpp.allowDiagonal = false ∧
    (getPathMatching 5 {} corner []).map (fun result => result.2) = some (true, [.northeast]) := by
  decide +kernel

end ForgottenServer.Path
