import ForgottenServer.Path.Explored
import ForgottenServer.Lib.Climb

/-! # The paths that are found

The parents from the node that matched lead to the start, and the directions on the way back are the path. -/

namespace ForgottenServer.Path

open World (Position)
open Request

variable {τ γ : Type} [DecidableEq τ] {r : Request τ γ}

/-! ## The loop -/

/-- The invariant of the loop. -/
structure Sound (r : Request τ γ) (st : State) : Prop where
  explored : r.Explored st.nodes
  found : ∀ n, st.found = some n → n < st.nodes.currentNode ∧ r.place (st.nodes.nodes n) = st.endPosition ∧
    ∃ best, (r.pathCondition.call r.start st.endPosition r.fpp best).1 = true

def Ended (r : Request τ γ) : Ending → Prop
  | .leave st => Sound r st
  | .fail s => Valid s

def measure (st : State) : (Nat ×ₗ Nat) ×ₗ Nat := toLex (weight st.nodes, st.nodes.heapSize)

omit [DecidableEq τ] in
theorem Request.Grows.place_eq {s s' : AStarNodes} (h : Grows s s') {n : Nat} (hn : n < s.currentNode) :
    r.place (s'.nodes n) = r.place (s.nodes n) := by
  rw [Path.place_eq, h.position_eq n hn, ← Path.place_eq]

namespace Sound

variable {st : State} {nodeIdx : Nat}

/-- The expansion of an open node. -/
theorem expand (h : Sound r st) (hopen : st.nodes.IsOpen nodeIdx) :
    (∃ st', r.expand nodeIdx st = some (.again st') ∧ Sound r st' ∧ measure st' < measure st) ∨
      ∃ e, r.expand nodeIdx st = some (.stop e) ∧ Ended r e := by
  have hnode := h.explored.valid.open_lt nodeIdx hopen
  have hds : ∀ d ∈ neighbors r.fpp.allowDiagonal (xyOffset st.nodes (st.nodes.nodes nodeIdx)), d ∈ allNeighbors ∧
      (nodeIdx ≠ 0 → r.fpp.allowDiagonal = false → d.1 = 0 ∨ d.2 = 0) := by
    intro d hd
    obtain ⟨hall, hstraight⟩ := mem_neighbors hd
    refine ⟨hall, fun hne => hstraight ?_⟩
    obtain ⟨p, -, hparent, -⟩ := (h.explored.linked nodeIdx (Nat.pos_of_ne_zero hne) hnode).parent
    rw [xyOffset, hparent]
    rfl
  obtain ⟨s', full, hvisit, hexplored, hgrows⟩ := h.explored.visitAll hnode rfl hds
  rw [Request.expand, hvisit]
  dsimp only [Option.bind_eq_bind, Option.bind_some]
  split
  · exact .inr ⟨_, rfl, hexplored.valid⟩
  · left
    obtain ⟨hclosed, -⟩ := hexplored.valid.closeNode (hgrows.isOpen nodeIdx hopen)
    refine ⟨_, rfl, ⟨hexplored.of_valid hclosed rfl rfl, fun n hn => ?_⟩, ?_⟩
    · obtain ⟨hlt, hplace, hmatch⟩ := h.found n hn
      exact ⟨hlt.trans_le hgrows.current_le, (hgrows.place_eq hlt).trans hplace, hmatch⟩
    · have hweight : weight (s'.closeNode nodeIdx) = weight s' := rfl
      rw [measure, measure, hweight]
      obtain rfl | hlt := hgrows.weight_lt
      · refine Prod.Lex.toLex_lt_toLex.mpr (.inr ⟨rfl, ?_⟩)
        obtain ⟨i, hi, -⟩ := (h.explored.valid.isHeap.indexed.isSome_iff nodeIdx).mp hopen
        exact Nat.sub_lt (Nat.zero_lt_of_lt hi) Nat.one_pos
      · exact Prod.Lex.toLex_lt_toLex.mpr (.inl hlt)

theorem nodes_answered (st : State) (nodeIdx : Nat) (position : Position) (matched : Bool) (bestMatch : Int) :
    (st.answered nodeIdx position matched bestMatch).nodes = st.nodes := by
  rw [State.answered]
  split <;> rfl

theorem measure_answered (st : State) (nodeIdx : Nat) (position : Position) (matched : Bool) (bestMatch : Int) :
    measure (st.answered nodeIdx position matched bestMatch) = measure st := by
  rw [measure, measure, nodes_answered]

/-- The answer of the condition at an open node. -/
theorem answered (h : Sound r st) (hopen : st.nodes.IsOpen nodeIdx) :
    let answer := r.pathCondition.call r.start (r.place (st.nodes.nodes nodeIdx)) r.fpp st.bestMatch
    Sound r (st.answered nodeIdx (r.place (st.nodes.nodes nodeIdx)) answer.1 answer.2) := by
  intro answer
  refine ⟨by rw [nodes_answered]; exact h.explored, fun n hn => ?_⟩
  rw [State.answered] at hn ⊢
  by_cases hmatched : answer.1 = true
  · rw [if_pos hmatched] at hn ⊢
    obtain rfl := Option.some.inj hn
    exact ⟨h.explored.valid.open_lt nodeIdx hopen, rfl, st.bestMatch, hmatched⟩
  · rw [if_neg hmatched] at hn ⊢
    exact h.found n hn

theorem turn (h : Sound r st) :
    (∃ st', r.turn st = some (.again st') ∧ Sound r st' ∧ measure st' < measure st) ∨
      ∃ e, r.turn st = some (.stop e) ∧ Ended r e := by
  rw [Request.turn]
  split
  · cases hbest : st.nodes.getBestNode with
    | none =>
      refine .inr ⟨_, rfl, ?_⟩
      split
      · exact h
      · exact h.explored.valid
    | some nodeIdx =>
      have hopen := (h.explored.valid.getBestNode_eq_some hbest).1
      have hsound := h.answered hopen
      dsimp only
      split
      · exact .inr ⟨_, rfl, hsound⟩
      · obtain ⟨st', hst', hs', hlt⟩ | hstop := hsound.expand (by rw [nodes_answered]; exact hopen)
        · exact .inl ⟨st', hst', hs', by rwa [measure_answered] at hlt⟩
        · exact .inr hstop
  · exact .inr ⟨_, rfl, h⟩

/-- The loop ends. -/
theorem exists_run (h : Sound r st) : ∃ fuel e, Loop.run r.turn fuel st = some e ∧ Ended r e :=
  Loop.exists_run (Sound r) (Ended r) measure (fun _ hs => hs.turn) h

end Sound

/-! ## The way back -/

/-- The directions between the nodes of a chain of parents. -/
def pathOf (nodes : Nat → AStarNode) : List Nat → List Direction
  | n :: p :: chain =>
    (pathDirection (int (nodes p).x - int (nodes n).x) (int (nodes p).y - int (nodes n).y)).toList ++
      pathOf nodes (p :: chain)
  | _ => []

def parentOf (nodes : Nat → AStarNode) (n : Nat) : Option Nat := (nodes n).parent

theorem followParents_eq {nodes : Nat → AStarNode} {n : Nat} {chain : List Nat}
    (h : Climb.Above (parentOf nodes) n chain) {fuel : Nat} (hfuel : chain.length ≤ fuel) (dirList : List Direction) :
    followParents nodes fuel (nodes n).parent (nodes n).x (nodes n).y dirList =
      some (dirList ++ pathOf nodes chain) := by
  induction h generalizing fuel dirList with
  | top htop =>
    obtain ⟨fuel, rfl⟩ := Nat.exists_eq_add_of_le' hfuel
    rw [parentOf] at htop
    rw [htop, show ∀ n, pathOf nodes [n] = [] from fun _ => rfl, List.append_nil]
    rfl
  | @step n p chain hparent above ih =>
    obtain ⟨fuel, rfl⟩ := Nat.exists_eq_add_of_le' (Nat.le_trans (Nat.le_add_left 1 _) hfuel)
    rw [parentOf] at hparent
    rw [hparent, followParents, ih (Nat.le_of_succ_le_succ hfuel)]
    cases above <;> rw [pathOf, List.append_assoc]

theorem followParents_mono {nodes : Nat → AStarNode} {fuel more : Nat} {found : Option Nat} {x y : UInt16}
    {dirList dirList' : List Direction} (h : followParents nodes fuel found x y dirList = some dirList')
    (hle : fuel ≤ more) : followParents nodes more found x y dirList = some dirList' := by
  induction fuel generalizing more found x y dirList with
  | zero => cases h
  | succ fuel ih =>
    obtain ⟨more, rfl⟩ := Nat.exists_eq_add_of_le' (Nat.le_trans (Nat.le_add_left 1 _) hle)
    cases found with
    | none => exact h
    | some n =>
      rw [followParents] at h ⊢
      exact ih h (by omega)

/-- From every node the parents lead to the start. -/
theorem Request.Explored.exists_above {s : AStarNodes} (h : r.Explored s) {n : Nat} (hn : n < s.currentNode) :
    ∃ chain, Climb.Above (parentOf s.nodes) n chain := by
  induction hg : (s.nodes n).gScore.toNat using Nat.strongRecOn generalizing n with
  | ind g ih =>
    obtain rfl | hpos := Nat.eq_zero_or_pos n
    · exact ⟨[0], .top (by rw [parentOf, h.start_eq])⟩
    · obtain ⟨p, hp, hparent, hlt, -⟩ := (h.linked n hpos hn).parent
      have hnonneg := h.gScore_nonneg hp
      obtain ⟨chain, hchain⟩ := ih (s.nodes p).gScore.toNat (by omega) hp rfl
      exact ⟨n :: chain, .step hparent hchain⟩

/-! ## The function -/

/-- A search that found a path: the state at its end, and the chain of nodes from the one that matched. -/
structure FoundPath (r : Request τ γ) (w : AStarWorkspace) (appended : List Direction) where
  st : State
  sound : Sound r st
  found : Nat
  found_eq : st.found = some found
  chain : List Nat
  above : Climb.Above (parentOf st.nodes.nodes) found chain
  appended_eq : appended = pathOf st.nodes.nodes chain
  released : w = st.nodes.release

theorem getPathMatching_mono {fuel more : Nat} {w : AStarWorkspace} {dirList : List Direction}
    {result : AStarWorkspace × Bool × List Direction} (h : getPathMatching fuel w r dirList = some result)
    (hle : fuel ≤ more) : getPathMatching more w r dirList = some result := by
  rw [getPathMatching] at h ⊢
  obtain ⟨s, hstart, h⟩ := Option.bind_eq_some_iff.mp h
  obtain ⟨e, hloop, h⟩ := Option.bind_eq_some_iff.mp h
  simp only [hstart, Loop.run_mono hloop hle, Option.bind_eq_bind, Option.bind_some]
  cases e with
  | fail s => exact h
  | leave st =>
    dsimp only at h ⊢
    cases hfound : st.found with
    | none =>
      rw [hfound] at h
      exact h
    | some found =>
      rw [hfound] at h
      obtain ⟨dirs, hdirs, h⟩ := Option.bind_eq_some_iff.mp h
      dsimp only
      rw [followParents_mono hdirs hle]
      exact h

/-- The function ends, and leaves the workspace to the next search. -/
theorem getPathMatching_ends {w : AStarWorkspace} (h : Idle w) (r : Request τ γ) (dirList : List Direction) :
    ∃ fuel w' ok appended, (∀ more, fuel ≤ more → getPathMatching more w r dirList = some (w', ok, dirList ++ appended)) ∧
      Idle w' ∧ (ok = false → appended = []) ∧ (ok = true → Nonempty (FoundPath r w' appended)) := by
  obtain ⟨s, hstart, hs⟩ := h.start r.start.x r.start.y
  have hsound : Sound r { nodes := s, endPosition := r.start } := ⟨.start hs, fun n hn => by cases hn⟩
  obtain ⟨fuel, e, hloop, hended⟩ := hsound.exists_run
  cases e with
  | fail s' =>
    refine ⟨fuel, s'.release, false, [], fun more hle => ?_, Valid.release hended, fun _ => rfl, fun h => by cases h⟩
    simp only [getPathMatching, hstart, Loop.run_mono hloop hle, Option.bind_eq_bind, Option.bind_some, List.append_nil]
  | leave st =>
    have hst : Sound r st := hended
    cases hfound : st.found with
    | none =>
      refine ⟨fuel, st.nodes.release, false, [], fun more hle => ?_, hst.explored.valid.release, fun _ => rfl,
        fun h => by cases h⟩
      simp only [getPathMatching, hstart, Loop.run_mono hloop hle, hfound, Option.bind_eq_bind, Option.bind_some,
        List.append_nil]
    | some found =>
      obtain ⟨hlt, hplace, -⟩ := hst.found found hfound
      obtain ⟨chain, hchain⟩ := hst.explored.exists_above hlt
      refine ⟨max fuel chain.length, st.nodes.release, true, pathOf st.nodes.nodes chain, fun more hle => ?_,
        hst.explored.valid.release, fun h => Bool.noConfusion h,
        fun _ => ⟨⟨st, hst, found, hfound, chain, hchain, rfl, rfl⟩⟩⟩
      have hway := followParents_eq hchain ((le_max_right fuel chain.length).trans hle) dirList
      have hx : st.endPosition.x = (st.nodes.nodes found).x := congrArg Position.x hplace.symm
      have hy : st.endPosition.y = (st.nodes.nodes found).y := congrArg Position.y hplace.symm
      simp only [getPathMatching, hstart, Loop.run_mono hloop ((le_max_left fuel chain.length).trans hle), hfound, hx,
        hy,
        hway, Option.bind_eq_bind, Option.bind_some]

end ForgottenServer.Path
