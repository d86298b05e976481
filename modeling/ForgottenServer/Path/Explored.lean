import ForgottenServer.Path.Search
import ForgottenServer.Path.Workspace

/-! # What a search has explored

Scores fall along the links to the parents, also when a node gets a cheaper parent: the links have no cycle. A turn
creates a node, lowers a score or closes a node for good, so the search ends. -/

namespace ForgottenServer.Path

open World (Position)

variable {τ γ : Type} [DecidableEq τ]

/-! ## Offsets -/

theorem toNat_ofInt (a : Int) : ((UInt16.ofInt a).toNat : Int) = a % 2 ^ 16 := by
  have h : 0 ≤ a % 2 ^ 16 := Int.emod_nonneg _ (by decide)
  have hlt : a % 2 ^ 16 < 2 ^ 16 := Int.emod_lt_of_pos _ (by decide)
  rw [UInt16.ofInt, UInt16.toNat_ofNat']
  omega

/-- An offset of a neighbour leads away. -/
theorem shift_ne {d : Int × Int} (hd : d ∈ allNeighbors) (position : Position) : shift position d ≠ position := by
  intro h
  have hx := toNat_ofInt (int position.x + d.1)
  have hy := toNat_ofInt (int position.y + d.2)
  rw [show UInt16.ofInt (int position.x + d.1) = position.x from congrArg Position.x h, int] at hx
  rw [show UInt16.ofInt (int position.y + d.2) = position.y from congrArg Position.y h, int] at hy
  have hxlt := position.x.toNat_lt
  have hylt := position.y.toNat_lt
  have hunit : ∀ d ∈ allNeighbors, (d.1 = -1 ∨ d.1 = 0 ∨ d.1 = 1) ∧ (d.2 = -1 ∨ d.2 = 0 ∨ d.2 = 1) ∧
      ¬ (d.1 = 0 ∧ d.2 = 0) := by decide
  have := hunit d hd
  omega

/-- Only the start has diagonal neighbours when they are not allowed. -/
theorem mem_neighbors {allowDiagonal : Bool} {offset : Option (Int × Int)} {d : Int × Int}
    (hd : d ∈ neighbors allowDiagonal offset) :
    d ∈ allNeighbors ∧ (offset.isSome → allowDiagonal = false → d.1 = 0 ∨ d.2 = 0) := by
  have hall : ∀ direction : Direction, ∀ d ∈ dirNeighbors direction, d ∈ allNeighbors := by
    intro direction
    cases direction <;> decide
  have hstraight : ∀ direction : Direction, direction = .north ∨ direction = .east ∨ direction = .south ∨
      direction = .west →
      ∀ d ∈ (dirNeighbors direction).take 3, d.1 = 0 ∨ d.2 = 0 := by
    rintro direction (rfl | rfl | rfl | rfl) <;> decide
  cases offset with
  | none => exact ⟨hd, fun h => by cases h⟩
  | some offset =>
    rw [neighbors] at hd
    refine ⟨hall _ d (List.mem_of_mem_take hd), fun _ hallow => ?_⟩
    subst hallow
    refine hstraight _ ?_ d hd
    by_cases hy : offset.2 = 0
    · rw [if_pos hy]
      split <;> simp
    · rw [if_neg hy, if_pos (by simp)]
      split <;> simp

/-! ## The invariant -/

namespace Request

variable (r : Request τ γ)

/-- The search may go to the position. -/
def Admits (position : Position) : Prop :=
  r.skips position = false ∧ (canWalkTo r.map r.creature position).isSome

/-- What holds of a node other than the start. -/
structure Linked (nodes : Nat → AStarNode) (currentNode n : Nat) : Prop where
  nonneg : 0 ≤ (nodes n).gScore
  f_eq : (nodes n).f = (nodes n).gScore + r.manhattanHeuristic (r.place (nodes n))
  admits : r.Admits (r.place (nodes n))
  parent : ∃ p < currentNode, (nodes n).parent = some p ∧ (nodes p).gScore < (nodes n).gScore ∧
    ∃ d ∈ allNeighbors, r.place (nodes n) = shift (r.place (nodes p)) d ∧
      (p ≠ 0 → r.fpp.allowDiagonal = false → d.1 = 0 ∨ d.2 = 0)

structure Explored (s : AStarNodes) : Prop where
  valid : Valid s
  pos : 0 < s.currentNode
  start_eq : s.nodes 0 = { x := r.start.x, y := r.start.y }
  linked : ∀ n, 0 < n → n < s.currentNode → r.Linked s.nodes s.currentNode n

/-- Where the search can still go: nodes to create, scores to lower. -/
def weight (s : AStarNodes) : Nat ×ₗ Nat :=
  toLex (MAX_NODES - s.currentNode, ∑ n ∈ Finset.range s.currentNode, (s.nodes n).gScore.toNat)

/-- From `s` to `s'`, nodes stay where they are and open nodes stay open. -/
structure Grows (s s' : AStarNodes) : Prop where
  current_le : s.currentNode ≤ s'.currentNode
  position_eq : ∀ n < s.currentNode, s'.positionOf n = s.positionOf n
  isOpen : ∀ n, s.IsOpen n → s'.IsOpen n
  weight_lt : s' = s ∨ weight s' < weight s

end Request

open Request

variable {r : Request τ γ} {s s' : AStarNodes}

theorem Request.Grows.refl (s : AStarNodes) : Grows s s := ⟨le_rfl, fun _ _ => rfl, fun _ h => h, .inl rfl⟩

theorem Request.Grows.trans {s'' : AStarNodes} (h : Grows s s') (h' : Grows s' s'') : Grows s s'' := by
  refine ⟨h.current_le.trans h'.current_le, fun n hn => ?_, fun n hn => h'.isOpen n (h.isOpen n hn), ?_⟩
  · rw [h'.position_eq n (hn.trans_le h.current_le), h.position_eq n hn]
  · obtain rfl | hlt' := h'.weight_lt
    · exact h.weight_lt
    · obtain rfl | hlt := h.weight_lt
      · exact .inr hlt'
      · exact .inr (hlt'.trans hlt)

omit [DecidableEq τ] in
theorem place_eq {n : Nat} : r.place (s.nodes n) = ⟨(s.positionOf n).1, (s.positionOf n).2, r.start.z⟩ := rfl

omit [DecidableEq τ] in
theorem manhattanHeuristic_nonneg (r : Request τ γ) (position : Position) : 0 ≤ r.manhattanHeuristic position :=
  mul_nonneg (add_nonneg (abs_nonneg _) (abs_nonneg _)) (by decide)

theorem getMapWalkCost_pos (node : AStarNode) (position : Position) : 0 < getMapWalkCost node position := by
  rw [getMapWalkCost]
  split <;> decide

omit [DecidableEq τ] in
theorem getTileWalkCost_nonneg (map : Map τ γ) (creature : Creature τ γ) (tile : τ) :
    0 ≤ getTileWalkCost map creature tile := by
  rw [getTileWalkCost]
  refine add_nonneg ?_ ?_
  · split <;> decide
  · split
    · exact le_rfl
    · split <;> decide

/-- A link stays one when scores of parents fall. -/
theorem Request.Linked.mono {nodes nodes' : Nat → AStarNode} {currentNode currentNode' n : Nat}
    (h : r.Linked nodes currentNode n) (hle : currentNode ≤ currentNode') (hsame : nodes' n = nodes n)
    (hparents : ∀ p < currentNode, r.place (nodes' p) = r.place (nodes p) ∧ (nodes' p).gScore ≤ (nodes p).gScore) :
    r.Linked nodes' currentNode' n := by
  obtain ⟨p, hp, hparent, hlt, d, hd, hplace, hstraight⟩ := h.parent
  obtain ⟨hsamePlace, hfall⟩ := hparents p hp
  refine ⟨by rw [hsame]; exact h.nonneg, by rw [hsame]; exact h.f_eq, by rw [hsame]; exact h.admits,
    p, hp.trans_le hle, by rw [hsame]; exact hparent, ?_, d, hd, ?_, hstraight⟩
  · rw [hsame]
    exact hfall.trans_lt hlt
  · rw [hsame, hsamePlace]
    exact hplace

namespace Request.Explored

theorem gScore_nonneg (h : r.Explored s) {n : Nat} (hn : n < s.currentNode) : 0 ≤ (s.nodes n).gScore := by
  obtain rfl | hpos := Nat.eq_zero_or_pos n
  · rw [h.start_eq]
  · exact (h.linked n hpos hn).nonneg

/-- Closing a node keeps what has been explored. -/
theorem of_valid (h : r.Explored s) (hv : Valid s') (hnodes : s'.nodes = s.nodes)
    (hcurrent : s'.currentNode = s.currentNode) :
    r.Explored s' := by
  refine ⟨hv, ?_, ?_, ?_⟩
  · rw [hcurrent]
    exact h.pos
  · rw [hnodes]
    exact h.start_eq
  · rw [hnodes, hcurrent]
    exact h.linked

/-- The start of a search. -/
theorem start (hs : Started s r.start.x r.start.y) : r.Explored s := by
  refine ⟨hs.valid, by rw [hs.currentNode_eq]; exact Nat.one_pos, hs.node_eq, fun n hpos hn => ?_⟩
  rw [hs.currentNode_eq] at hn
  omega

variable {nodeIdx n : Nat} {d : Int × Int} {gScore : Int}

/-- A node gets a cheaper parent. -/
theorem reparent (h : r.Explored s) (hnode : nodeIdx < s.currentNode) (hn : n < s.currentNode) (hd : d ∈ allNeighbors)
    (hstraight : nodeIdx ≠ 0 → r.fpp.allowDiagonal = false → d.1 = 0 ∨ d.2 = 0)
    (hplace : r.place (s.nodes n) = shift (r.place (s.nodes nodeIdx)) d) (hg : (s.nodes nodeIdx).gScore < gScore)
    (hf : gScore + r.manhattanHeuristic (r.place (s.nodes n)) < s.f n) :
    let s' := (s.setScores n (some nodeIdx) (gScore + r.manhattanHeuristic (r.place (s.nodes n))) gScore).openNode n
    r.Explored s' ∧ Grows s s' ∧ s'.nodes nodeIdx = s.nodes nodeIdx := by
  intro s'
  have hgNode := h.gScore_nonneg hnode
  have hne : n ≠ nodeIdx := by
    rintro rfl
    exact shift_ne hd _ hplace.symm
  -- The `f` of the start is 0 and does not become less.
  have hpos : 0 < n := by
    refine Nat.pos_of_ne_zero ?_
    rintro rfl
    have hh := manhattanHeuristic_nonneg r (r.place (s.nodes 0))
    have hzero : s.f 0 = 0 := by rw [AStarNodes.f, h.start_eq]
    omega
  have hold := (h.linked n hpos hn).f_eq
  have hfall : gScore < (s.nodes n).gScore := by
    rw [AStarNodes.f, hold] at hf
    omega
  obtain ⟨hvalid, hopen⟩ := h.valid.openNode hn (some nodeIdx) gScore hf.le
  have hnodes : s'.nodes = Function.update s.nodes n { s.nodes n with
      parent := some nodeIdx, f := gScore + r.manhattanHeuristic (r.place (s.nodes n)), gScore } :=
    AStarNodes.nodes_openNode _ n
  have hcurrent : s'.currentNode = s.currentNode := AStarNodes.currentNode_openNode _ n
  have hself : s'.nodes n = { s.nodes n with
      parent := some nodeIdx, f := gScore + r.manhattanHeuristic (r.place (s.nodes n)), gScore } := by
    rw [hnodes, Function.update_self]
  have hother : ∀ m, m ≠ n → s'.nodes m = s.nodes m := fun m hm => by rw [hnodes, Function.update_of_ne hm]
  have hparents : ∀ p < s.currentNode, r.place (s'.nodes p) = r.place (s.nodes p) ∧
      (s'.nodes p).gScore ≤ (s.nodes p).gScore := by
    intro p _
    by_cases hp : p = n
    · rw [hp, hself]
      exact ⟨rfl, hfall.le⟩
    · rw [hother p hp]
      exact ⟨rfl, le_rfl⟩
  refine ⟨⟨hvalid, hcurrent ▸ h.pos, by rw [hother 0 hpos.ne]; exact h.start_eq, fun m hm hmlt => ?_⟩,
    ⟨hcurrent.ge, fun m hm => ?_, fun m hm => (hopen m).mpr (.inr hm), .inr ?_⟩, hother nodeIdx hne.symm⟩
  · rw [hcurrent] at hmlt ⊢
    by_cases hmn : m = n
    · subst hmn
      refine ⟨?_, ?_, ?_, nodeIdx, hnode, by rw [hself], ?_, d, hd, ?_, hstraight⟩
      · rw [hself]
        exact (hgNode.trans_lt hg).le
      · rw [hself]
        rfl
      · rw [hself]
        exact (h.linked m hpos hn).admits
      · rw [hself, hother nodeIdx hne.symm]
        exact hg
      · rw [hself, hother nodeIdx hne.symm]
        exact hplace
    · exact (h.linked m hm hmlt).mono le_rfl (hother m hmn) hparents
  · have hsame := (hparents m hm).1
    rw [place_eq, place_eq] at hsame
    exact Prod.ext (congrArg Position.x hsame) (congrArg Position.y hsame)
  · rw [weight, weight, hcurrent]
    refine Prod.Lex.toLex_lt_toLex.mpr (.inr ⟨rfl, ?_⟩)
    refine Finset.sum_lt_sum (fun m hm => ?_) ⟨n, Finset.mem_range.mpr hn, ?_⟩
    · exact Int.toNat_le_toNat (hparents m (Finset.mem_range.mp hm)).2
    · have hlower : (s'.nodes n).gScore = gScore := by rw [hself]
      rw [hlower]
      omega

/-- A neighbour gets a node. -/
theorem create (h : r.Explored s) (hnode : nodeIdx < s.currentNode) (hroom : s.currentNode < MAX_NODES)
    (hd : d ∈ allNeighbors) (hstraight : nodeIdx ≠ 0 → r.fpp.allowDiagonal = false → d.1 = 0 ∨ d.2 = 0)
    {position : Position} (hposition : position = shift (r.place (s.nodes nodeIdx)) d)
    (hnew : ∀ m < s.currentNode, s.positionOf m ≠ (position.x, position.y)) (hadmits : r.Admits position)
    (hg : (s.nodes nodeIdx).gScore < gScore) :
    ∃ s', s.createOpenNode (some nodeIdx) position.x position.y (gScore + r.manhattanHeuristic position) gScore =
        some (s', some s.currentNode) ∧
      r.Explored s' ∧ Grows s s' ∧ s'.nodes nodeIdx = s.nodes nodeIdx := by
  obtain ⟨s', hcreate, hvalid, hnodes, hcurrent, -, -, hopen⟩ :=
    h.valid.createOpenNode hroom hnew (some nodeIdx) (gScore + r.manhattanHeuristic position) gScore
  have hother : ∀ m < s.currentNode, s'.nodes m = s.nodes m := fun m hm => by
    rw [hnodes, Function.update_of_ne hm.ne]
  have hself : s'.nodes s.currentNode =
      ⟨some nodeIdx, gScore + r.manhattanHeuristic position, gScore, position.x, position.y⟩ := by
    rw [hnodes, Function.update_self]
  have hplace : r.place (s'.nodes s.currentNode) = position := by
    rw [hself, hposition]
    rfl
  refine ⟨s', hcreate, ⟨hvalid, by omega, by rw [hother 0 h.pos]; exact h.start_eq, fun m hm hmlt => ?_⟩,
    ⟨by omega, fun m hm => ?_, fun m hm => (hopen m).mpr (.inr hm), .inr ?_⟩, hother nodeIdx hnode⟩
  · rw [hcurrent] at hmlt ⊢
    obtain hmlt | rfl := Nat.lt_succ_iff_lt_or_eq.mp hmlt
    · exact (h.linked m hm hmlt).mono (Nat.le_succ _) (hother m hmlt)
        fun p hp => by rw [hother p hp]; exact ⟨rfl, le_rfl⟩
    · refine ⟨?_, ?_, by rw [hplace]; exact hadmits, nodeIdx, Nat.lt_succ_of_lt hnode, by rw [hself], ?_, d, hd, ?_,
        hstraight⟩
      · rw [hself]
        exact ((h.gScore_nonneg hnode).trans_lt hg).le
      · rw [hplace, hself]
      · rw [hself, hother nodeIdx hnode]
        exact hg
      · rw [hplace, hother nodeIdx hnode]
        exact hposition
  · rw [AStarNodes.positionOf, hother m hm, AStarNodes.positionOf]
  · rw [weight, weight]
    refine Prod.Lex.toLex_lt_toLex.mpr (.inl ?_)
    rw [hcurrent]
    omega

/-- A visit from the node has ended: without room, or in a state with the same invariant. -/
def Visited (r : Request τ γ) (s : AStarNodes) (nodeIdx : Nat) (visit : Option Visit) : Prop :=
  visit = some .full ∨ ∃ s', visit = some (.next s') ∧ r.Explored s' ∧ Grows s s' ∧ s'.nodes nodeIdx = s.nodes nodeIdx

theorem visit (h : r.Explored s) (hnode : nodeIdx < s.currentNode) (hg : (s.nodes nodeIdx).gScore = gScore)
    (hd : d ∈ allNeighbors) (hstraight : nodeIdx ≠ 0 → r.fpp.allowDiagonal = false → d.1 = 0 ∨ d.2 = 0) :
    Visited r s nodeIdx (r.visit nodeIdx gScore s d) := by
  have hstay : Visited r s nodeIdx (some (.next s)) := .inr ⟨s, rfl, h, .refl s, rfl⟩
  rw [Request.visit]
  dsimp only
  obtain ⟨position, hposition⟩ : ∃ position, position = shift (r.place (s.nodes nodeIdx)) d := ⟨_, rfl⟩
  rw [← hposition]
  obtain ⟨found, hfind, hfound⟩ := h.valid.getNodeByPosition position.x position.y
  rw [hfind]
  by_cases hskip : r.skips position = true
  · rw [if_pos hskip]
    exact hstay
  · rw [if_neg hskip]
    dsimp only [Option.bind_eq_bind, Option.bind_some]
    split
    · exact hstay
    · next tile htile =>
      have hcost := getMapWalkCost_pos (s.nodes nodeIdx) position
      have hextra := getTileWalkCost_nonneg r.map r.creature tile
      have hlt : (s.nodes nodeIdx).gScore <
          gScore + getMapWalkCost (s.nodes nodeIdx) position + getTileWalkCost r.map r.creature tile := by omega
      generalize gScore + getMapWalkCost (s.nodes nodeIdx) position + getTileWalkCost r.map r.creature tile = cost
        at hlt ⊢
      cases found with
      | some n =>
        obtain ⟨hn, hat⟩ := (hfound n).mp rfl
        have hplace : r.place (s.nodes n) = position := by
          rw [place_eq, hat, hposition]
          rfl
        dsimp only
        split
        · exact hstay
        · next hle =>
          rw [← hplace] at hle ⊢
          obtain ⟨hexplored, hgrows, hsame⟩ :=
            h.reparent hnode hn hd hstraight (hplace.trans hposition) hlt (lt_of_not_ge hle)
          exact .inr ⟨_, rfl, hexplored, hgrows, hsame⟩
      | none =>
        have hnew : ∀ m < s.currentNode, s.positionOf m ≠ (position.x, position.y) := by
          intro m hm hat
          cases (hfound m).mpr ⟨hm, hat⟩
        have hadmits : r.Admits position := by
          refine ⟨Bool.eq_false_of_not_eq_true hskip, ?_⟩
          rw [show canWalkTo r.map r.creature position = some tile from htile]
          rfl
        dsimp only
        by_cases hroom : MAX_NODES ≤ s.currentNode
        · rw [AStarNodes.createOpenNode, if_pos hroom]
          exact .inl rfl
        · obtain ⟨s', hcreate, hexplored, hgrows, hsame⟩ :=
            h.create hnode (lt_of_not_ge hroom) hd hstraight hposition hnew hadmits hlt
          rw [hcreate]
          exact .inr ⟨s', rfl, hexplored, hgrows, hsame⟩

/-- The loop over the neighbours ends. -/
theorem visitAll (h : r.Explored s) (hnode : nodeIdx < s.currentNode) (hg : (s.nodes nodeIdx).gScore = gScore)
    {ds : List (Int × Int)} (hds : ∀ d ∈ ds, d ∈ allNeighbors ∧
      (nodeIdx ≠ 0 → r.fpp.allowDiagonal = false → d.1 = 0 ∨ d.2 = 0)) :
    ∃ s' full, r.visitAll nodeIdx gScore ds s = some (s', full) ∧ r.Explored s' ∧ Grows s s' := by
  induction ds generalizing s with
  | nil => exact ⟨s, false, rfl, h, .refl s⟩
  | cons d ds ih =>
    rw [List.forall_mem_cons] at hds
    rw [Request.visitAll]
    obtain hfull | ⟨next, hnext, hexplored, hgrows, hsame⟩ := h.visit hnode hg hds.1.1 hds.1.2
    · rw [hfull]
      exact ⟨s, true, rfl, h, .refl s⟩
    · obtain ⟨s', full, hrest, hexplored', hgrows'⟩ :=
        ih hexplored (hnode.trans_le hgrows.current_le) (by rw [hsame, hg]) hds.2
      rw [hnext]
      exact ⟨s', full, hrest, hexplored', hgrows.trans hgrows'⟩

end Request.Explored

end ForgottenServer.Path
