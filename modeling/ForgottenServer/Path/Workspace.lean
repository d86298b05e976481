import ForgottenServer.Path.Nodes
import ForgottenServer.Lib.Runs

/-! # The workspace of a thread over its searches

`Valid` is what every call of a search keeps, and `Idle` what a search leaves to the next one. -/

namespace ForgottenServer.Path

open IndexedHeap ProbingTable

namespace AStarNodes

/-- What the table must hold: the nodes by their keys. -/
def Created (s : AStarNodes) (key : UInt32) (node : Nat) : Prop :=
  node < s.currentNode ∧ nodeKey (s.positionOf node).1 (s.positionOf node).2 = key

/-- The node is in the heap. -/
def IsOpen (s : AStarNodes) (node : Nat) : Prop := (s.nodeToHeap node).isSome

/-- Every slot in use is remembered. -/
def Remembered (w : AStarWorkspace) : Prop :=
  ∀ slot, (w.hTableValues slot).isSome → slot ∈ (List.range w.usedCount).map w.usedNodes

end AStarNodes

open AStarNodes

structure Valid (s : AStarNodes) : Prop where
  current_le : s.currentNode ≤ MAX_NODES
  usedCount_eq : s.usedCount = s.currentNode
  remembered : Remembered s.toAStarWorkspace
  holds : Holds ASTAR_HASH_SIZE homeSlot s.table s.Created
  distinct : ∀ m n, m < s.currentNode → n < s.currentNode → s.positionOf m = s.positionOf n → m = n
  isHeap : IsHeap s.f s.queue s.heapSize
  open_lt : ∀ n, s.IsOpen n → n < s.currentNode

structure Idle (w : AStarWorkspace) : Prop where
  remembered : Remembered w
  open_lt : ∀ n, (w.nodeToHeap n).isSome → n < w.previousNode

theorem Idle.new : Idle {} := ⟨fun _ h => (Bool.false_ne_true h).elim, fun _ h => (Bool.false_ne_true h).elim⟩

theorem Valid.release {s : AStarNodes} (h : Valid s) : Idle s.release := ⟨h.remembered, h.open_lt⟩

/-- A heap does not depend on the keys of what is not in it. -/
theorem isHeap_congr {key key' : Nat → Int} {h : IndexedHeap.Heap Nat} {size : Nat} (hh : IsHeap key h size)
    (hsame : ∀ n, (h.position n).isSome → key' n = key n) : IsHeap key' h size := by
  have hitem : ∀ i < size, key' (h.items i) = key (h.items i) := fun i hi =>
    hsame _ (by rw [hh.indexed.position_items hi, Option.isSome_some])
  refine ⟨hh.indexed, fun i hi hisize => ?_⟩
  rw [hitem i hisize, hitem _ ((parent_lt hi).trans hisize)]
  exact hh.ordered i hi hisize

/-! ## The table -/

section Table

variable {s : AStarNodes}

/-- The table has a free slot as long as there are fewer nodes than slots. -/
theorem exists_free {w : AStarWorkspace} (hr : Remembered w) (hcount : w.usedCount < ASTAR_HASH_SIZE) :
    ∃ slot < ASTAR_HASH_SIZE, (w.hTableValues slot).isNone := by
  obtain ⟨slot, hslot, hnot⟩ := exists_notMem
    (show ((List.range w.usedCount).map w.usedNodes).length < ASTAR_HASH_SIZE by
      rwa [List.length_map, List.length_range])
  refine ⟨slot, hslot, ?_⟩
  rw [← Option.not_isSome, Bool.not_eq_true', Bool.eq_false_iff]
  exact fun hsome => hnot (hr slot hsome)

/-- `Insert` ends, and the table holds the new key as well. -/
theorem insert_spec (key : UInt32) (node : Nat) {has : UInt32 → Nat → Prop} (hr : Remembered s.toAStarWorkspace)
    (hcount : s.usedCount < ASTAR_HASH_SIZE) (hholds : Holds ASTAR_HASH_SIZE homeSlot s.table has) :
    ∃ table slot, s.insert key node = some (s.setTable table slot) ∧
      Remembered (s.setTable table slot).toAStarWorkspace ∧
      Holds ASTAR_HASH_SIZE homeSlot table fun k n => has k n ∨ k = key ∧ n = node := by
  obtain ⟨free, hslot, hfree⟩ := exists_free hr hcount
  obtain ⟨slot, -, hinsert, -, hput⟩ := hholds.insert_spec node (homeSlot_lt key) hslot hfree
  refine ⟨_, slot, by rw [AStarNodes.insert, hinsert]; rfl, fun other hother => ?_, hput⟩
  rw [usedCount_setTable, List.range_succ, List.map_append, List.mem_append]
  by_cases hsame : other = slot
  · right
    simp [hsame, setTable]
  · left
    have hkept : (s.table.put slot key node).values other = s.hTableValues other := Table.values_put_of_ne hsame
    obtain ⟨i, hi, rfl⟩ := List.mem_map.mp (hr other (by rw [← hkept]; exact hother))
    refine List.mem_map.mpr ⟨i, hi, ?_⟩
    exact Function.update_of_ne (List.mem_range.mp hi).ne ..

end Table

namespace Valid

variable {s : AStarNodes} {x y : UInt16} {node : Nat}

theorem usedCount_lt (h : Valid s) : s.usedCount < ASTAR_HASH_SIZE := by
  have hle := h.current_le
  rw [h.usedCount_eq, ASTAR_HASH_SIZE]
  rw [MAX_NODES] at hle
  omega

theorem getNodeByPosition (h : Valid s) (x y : UInt16) :
    ∃ found, s.getNodeByPosition x y = some found ∧
      ∀ n, found = some n ↔ n < s.currentNode ∧ s.positionOf n = (x, y) := by
  have hfun : ∀ key m n, s.Created key m → s.Created key n → m = n := by
    rintro key m n ⟨hm, rfl⟩ ⟨hn, hkey⟩
    exact h.distinct m n hm hn (nodeKey_inj hkey).symm
  obtain ⟨slot, hslot, hfree⟩ := exists_free h.remembered h.usedCount_lt
  obtain ⟨found, hfind, hfound⟩ := h.holds.find_spec hfun (homeSlot_lt (nodeKey x y)) hslot hfree
  refine ⟨found, hfind, fun n => (hfound n).trans (and_congr_right fun _ => ?_)⟩
  exact ⟨fun hkey => nodeKey_inj hkey, fun hat => by rw [hat]⟩

theorem getBestNode_eq_none (h : Valid s) : s.getBestNode = none ↔ ∀ n, ¬ s.IsOpen n := by
  rw [AStarNodes.getBestNode]
  by_cases hzero : s.heapSize = 0
  · rw [if_pos hzero]
    refine iff_of_true rfl fun n hopen => ?_
    obtain ⟨i, hi, -⟩ := (h.isHeap.indexed.isSome_iff n).mp hopen
    omega
  · rw [if_neg hzero]
    refine iff_of_false (fun h => by cases h) fun hnone => hnone (s.heap 0) ?_
    exact (h.isHeap.indexed.isSome_iff _).mpr ⟨0, Nat.pos_of_ne_zero hzero, rfl⟩

theorem getBestNode_eq_some (h : Valid s) {best : Nat} (hbest : s.getBestNode = some best) :
    s.IsOpen best ∧ ∀ n, s.IsOpen n → s.f best ≤ s.f n := by
  rw [AStarNodes.getBestNode] at hbest
  split at hbest
  · cases hbest
  · next hsize =>
    obtain rfl := Option.some.inj hbest
    refine ⟨(h.isHeap.indexed.isSome_iff _).mpr ⟨0, Nat.pos_of_ne_zero hsize, rfl⟩, fun n hopen => ?_⟩
    obtain ⟨i, hi, rfl⟩ := (h.isHeap.indexed.isSome_iff n).mp hopen
    exact h.isHeap.root_le hi

end Valid

/-! ## The start of a search -/

/-- What a workspace of any contents has when a search starts: one node, and nothing of another search. -/
structure Started (s : AStarNodes) (x y : UInt16) : Prop where
  valid : Valid s
  currentNode_eq : s.currentNode = 1
  closedNodes_eq : s.closedNodes = 0
  node_eq : s.nodes 0 = { x, y }
  isOpen_iff : ∀ n, s.IsOpen n ↔ n = 0

namespace Idle

variable {w : AStarWorkspace}

theorem hTableValues_cleared (h : Idle w) (x y : UInt16) (slot : Nat) : (w.cleared x y).hTableValues slot = none := by
  rw [show (w.cleared x y).hTableValues slot = clear ((List.range w.usedCount).map w.usedNodes) w.hTableValues slot
    from rfl, clear_apply]
  split
  · rfl
  · next hnot => exact Option.not_isSome_iff_eq_none.mp fun hsome => hnot (h.remembered slot hsome)

theorem nodeToHeap_cleared (h : Idle w) (x y : UInt16) (n : Nat) :
    (w.cleared x y).nodeToHeap n = if n = 0 then some 0 else none := by
  rw [show (w.cleared x y).nodeToHeap n =
    Function.update (clear (List.range w.previousNode) w.nodeToHeap) 0 (some 0) n from rfl, Function.update_apply,
    clear_apply]
  refine if_congr Iff.rfl rfl ?_
  split
  · rfl
  · next hnot => exact Option.not_isSome_iff_eq_none.mp fun hsome => hnot (List.mem_range.mpr (h.open_lt n hsome))

theorem isOpen_cleared (h : Idle w) (x y : UInt16) (n : Nat) : (w.cleared x y).IsOpen n ↔ n = 0 := by
  rw [AStarNodes.IsOpen, h.nodeToHeap_cleared]
  split <;> simp [*]

theorem node_cleared (w : AStarWorkspace) (x y : UInt16) : (w.cleared x y).nodes 0 = { x, y } := by
  rw [show (w.cleared x y).nodes = Function.update w.nodes 0 { x, y } from rfl, Function.update_self]

theorem isHeap_cleared (h : Idle w) (x y : UInt16) : IsHeap (w.cleared x y).f (w.cleared x y).queue 1 := by
  refine ⟨fun n i => ?_, fun i hi hisize => by omega⟩
  rw [show (w.cleared x y).queue.position n = if n = 0 then some 0 else none from h.nodeToHeap_cleared x y n,
    show (w.cleared x y).queue.items = Function.update w.heap 0 0 from rfl]
  split
  · next hn =>
    rw [hn, Option.some.injEq]
    constructor
    · rintro rfl
      exact ⟨Nat.one_pos, Function.update_self ..⟩
    · rintro ⟨hi, -⟩
      omega
  · next hn =>
    refine iff_of_false (fun h => by cases h) ?_
    rintro ⟨hi, hin⟩
    rw [show i = 0 by omega, Function.update_self] at hin
    exact hn hin.symm

theorem start (h : Idle w) (x y : UInt16) : ∃ s, w.start x y = some s ∧ Started s x y := by
  obtain ⟨table, slot, hinsert, hremembered, hholds⟩ := insert_spec (nodeKey x y) 0
    (show Remembered (w.cleared x y).toAStarWorkspace from fun slot hslot => by
      rw [h.hTableValues_cleared] at hslot
      cases hslot)
    (show 0 < ASTAR_HASH_SIZE by decide) (Holds.empty (h.hTableValues_cleared x y))
  have hone : ((w.cleared x y).setTable table slot).currentNode = 1 := rfl
  refine ⟨_, hinsert, ⟨by rw [hone]; decide, rfl, hremembered, hholds.congr fun key n => ?_, fun m n hm hn _ => ?_,
    h.isHeap_cleared x y, fun n hopen => ?_⟩, rfl, rfl, node_cleared w x y, h.isOpen_cleared x y⟩
  · rw [AStarNodes.Created, hone, Nat.lt_one_iff, false_or, and_comm]
    refine and_congr_right ?_
    rintro rfl
    rw [AStarNodes.positionOf, nodes_setTable, node_cleared]
    exact eq_comm
  · rw [hone] at hm hn
    omega
  · rw [(h.isOpen_cleared x y n).mp hopen, hone]
    exact Nat.one_pos

end Idle

/-! ## The calls of a search -/

namespace Valid

variable {s : AStarNodes} {x y : UInt16} {node : Nat}

theorem positionOf_addNode_of_lt {added : AStarNode} {n : Nat} (hn : n < s.currentNode) :
    (s.addNode added).positionOf n = s.positionOf n := by
  rw [AStarNodes.positionOf, show (s.addNode added).nodes = Function.update s.nodes s.currentNode added from rfl,
    Function.update_of_ne hn.ne, AStarNodes.positionOf]

theorem positionOf_addNode_self {added : AStarNode} :
    (s.addNode added).positionOf s.currentNode = (added.x, added.y) := by
  rw [AStarNodes.positionOf, show (s.addNode added).nodes = Function.update s.nodes s.currentNode added from rfl,
    Function.update_self]

/-- A new node that the table finds, and that is not yet open. -/
theorem insert (h : Valid s) (hroom : s.currentNode < MAX_NODES) (added : AStarNode)
    (hnew : ∀ n < s.currentNode, s.positionOf n ≠ (added.x, added.y)) :
    ∃ table slot, (s.addNode added).insert (nodeKey added.x added.y) s.currentNode =
        some ((s.addNode added).setTable table slot) ∧ Valid ((s.addNode added).setTable table slot) := by
  obtain ⟨table, slot, hinsert, hremembered, hholds⟩ :=
    insert_spec (s := s.addNode added) (nodeKey added.x added.y) s.currentNode h.remembered h.usedCount_lt h.holds
  have hcurrent : ((s.addNode added).setTable table slot).currentNode = s.currentNode + 1 := rfl
  refine ⟨table, slot, hinsert, ⟨by rw [hcurrent]; exact hroom, congrArg (· + 1) h.usedCount_eq, hremembered,
    hholds.congr fun key n => ?_, fun m n hm hn hat => ?_, isHeap_congr h.isHeap fun n hopen => ?_,
    fun n hopen => Nat.lt_succ_of_lt (h.open_lt n hopen)⟩⟩
  · rw [Created, Created, hcurrent, positionOf_setTable]
    constructor
    · rintro (⟨hn, hkey⟩ | ⟨rfl, rfl⟩)
      · exact ⟨Nat.lt_succ_of_lt hn, by rw [positionOf_addNode_of_lt hn, hkey]⟩
      · exact ⟨Nat.lt_succ_self _, by rw [positionOf_addNode_self]⟩
    · rintro ⟨hn, hkey⟩
      obtain hn | rfl := Nat.lt_succ_iff_lt_or_eq.mp hn
      · rw [positionOf_addNode_of_lt hn] at hkey
        exact .inl ⟨hn, hkey⟩
      · rw [positionOf_addNode_self] at hkey
        exact .inr ⟨hkey.symm, rfl⟩
  · rw [hcurrent] at hm hn
    rw [positionOf_setTable] at hat
    obtain hm | rfl := Nat.lt_succ_iff_lt_or_eq.mp hm
    · obtain hn | rfl := Nat.lt_succ_iff_lt_or_eq.mp hn
      · rw [positionOf_addNode_of_lt hm, positionOf_addNode_of_lt hn] at hat
        exact h.distinct m n hm hn hat
      · rw [positionOf_addNode_of_lt hm, positionOf_addNode_self] at hat
        exact absurd hat (hnew m hm)
    · obtain hn | rfl := Nat.lt_succ_iff_lt_or_eq.mp hn
      · rw [positionOf_addNode_of_lt hn, positionOf_addNode_self] at hat
        exact absurd hat.symm (hnew n hn)
      · rfl
  · have hlt := h.open_lt n hopen
    rw [f_setTable, AStarNodes.f, show (s.addNode added).nodes = Function.update s.nodes s.currentNode added from rfl,
      Function.update_of_ne hlt.ne, AStarNodes.f]

/-- A closed node becomes open. -/
theorem pushOpen (h : Valid s) (hnode : node < s.currentNode) (hclosed : ¬ s.IsOpen node) :
    Valid (s.pushOpen node) ∧ ∀ n, (s.pushOpen node).IsOpen n ↔ n = node ∨ s.IsOpen n := by
  have hnone : s.queue.position node = none := Option.not_isSome_iff_eq_none.mp hclosed
  obtain ⟨hheap, hmembers⟩ := push_spec h.isHeap hnone
  refine ⟨⟨h.current_le, h.usedCount_eq, h.remembered, h.holds, h.distinct, hheap, fun n hopen => ?_⟩, hmembers⟩
  obtain rfl | hopen := (hmembers n).mp hopen
  · exact hnode
  · exact h.open_lt n hopen

theorem createOpenNode (h : Valid s) (hroom : s.currentNode < MAX_NODES)
    (hnew : ∀ n < s.currentNode, s.positionOf n ≠ (x, y)) (parent : Option Nat) (f gScore : Int) :
    ∃ s', s.createOpenNode parent x y f gScore = some (s', some s.currentNode) ∧ Valid s' ∧
      s'.nodes = Function.update s.nodes s.currentNode { parent, f, gScore, x, y } ∧
      s'.currentNode = s.currentNode + 1 ∧ s'.heapSize = s.heapSize + 1 ∧ s'.closedNodes = s.closedNodes ∧
      ∀ n, s'.IsOpen n ↔ n = s.currentNode ∨ s.IsOpen n := by
  obtain ⟨table, slot, hinsert, hvalid⟩ := h.insert hroom { parent, f, gScore, x, y } hnew
  have hclosed : ¬ s.IsOpen s.currentNode := fun hopen => lt_irrefl _ (h.open_lt _ hopen)
  obtain ⟨hpushed, hopen⟩ := hvalid.pushOpen (Nat.lt_succ_self s.currentNode) hclosed
  refine ⟨_, ?_, hpushed, rfl, rfl, rfl, rfl, hopen⟩
  rw [AStarNodes.createOpenNode, if_neg (not_le_of_gt hroom), hinsert]
  rfl

theorem closeNode (h : Valid s) (hopen : s.IsOpen node) :
    Valid (s.closeNode node) ∧ ∀ n, (s.closeNode node).IsOpen n ↔ n ≠ node ∧ s.IsOpen n := by
  obtain ⟨i, hi, -⟩ := (h.isHeap.indexed.isSome_iff node).mp hopen
  obtain ⟨size, hsize⟩ := Nat.exists_eq_succ_of_ne_zero (Nat.ne_of_gt (Nat.zero_lt_of_lt hi))
  have hsized : IsHeap s.f s.queue (size + 1) := by
    rw [← Nat.succ_eq_add_one, ← hsize]
    exact h.isHeap
  obtain ⟨hheap, hmembers⟩ := remove_spec hsized (show (s.queue.position node).isSome from hopen)
  have hqueue : (s.closeNode node).queue = s.queue.remove s.f (size + 1) node := by
    rw [← Nat.succ_eq_add_one, ← hsize]
    rfl
  have hmembers' : ∀ n, (s.closeNode node).IsOpen n ↔ n ≠ node ∧ s.IsOpen n := by
    intro n
    rw [← hqueue] at hmembers
    exact hmembers n
  refine ⟨⟨h.current_le, h.usedCount_eq, h.remembered, h.holds, h.distinct, ?_, fun n hn =>
    h.open_lt n ((hmembers' n).mp hn).2⟩, hmembers'⟩
  rw [hqueue, show (s.closeNode node).heapSize = s.heapSize - 1 from rfl, hsize, Nat.succ_sub_one]
  exact hheap

theorem setScores_nodes (s : AStarNodes) (node : Nat) (parent : Option Nat) (f gScore : Int) :
    (s.setScores node parent f gScore).nodes =
      Function.update s.nodes node { s.nodes node with parent, f, gScore } := rfl

theorem positionOf_setScores (s : AStarNodes) (node : Nat) (parent : Option Nat) (f gScore : Int) :
    (s.setScores node parent f gScore).positionOf = s.positionOf := by
  funext n
  rw [AStarNodes.positionOf, AStarNodes.positionOf, setScores_nodes]
  by_cases hn : n = node
  · rw [hn, Function.update_self]
  · rw [Function.update_of_ne hn]

/-- A node whose `f` became less is open, whether it was open or closed. -/
theorem openNode (h : Valid s) (hnode : node < s.currentNode) (parent : Option Nat) {f : Int} (gScore : Int)
    (hle : f ≤ s.f node) :
    Valid ((s.setScores node parent f gScore).openNode node) ∧
      ∀ n, ((s.setScores node parent f gScore).openNode node).IsOpen n ↔ n = node ∨ s.IsOpen n := by
  have hself : (s.setScores node parent f gScore).f node = f := by
    rw [AStarNodes.f, setScores_nodes, Function.update_self]
  have hothers : ∀ n, n ≠ node → (s.setScores node parent f gScore).f n = s.f n := by
    intro n hn
    rw [AStarNodes.f, setScores_nodes, Function.update_of_ne hn, AStarNodes.f]
  have hat := positionOf_setScores s node parent f gScore
  have hholds : Holds ASTAR_HASH_SIZE homeSlot s.table (s.setScores node parent f gScore).Created :=
    h.holds.congr fun key n => by rw [Created, Created, hat]; exact Iff.rfl
  have hdistinct : ∀ m n, m < s.currentNode → n < s.currentNode →
      (s.setScores node parent f gScore).positionOf m = (s.setScores node parent f gScore).positionOf n → m = n := by
    rw [hat]
    exact h.distinct
  rw [AStarNodes.openNode, show (s.setScores node parent f gScore).nodeToHeap = s.nodeToHeap from rfl]
  cases hposition : s.nodeToHeap node with
  | none =>
    have hclosed : ¬ s.IsOpen node := by rw [AStarNodes.IsOpen, hposition]; exact Bool.false_ne_true
    have hheap : IsHeap (s.setScores node parent f gScore).f s.queue s.heapSize := by
      refine isHeap_congr h.isHeap fun n hopen => hothers n ?_
      rintro rfl
      exact hclosed hopen
    have hscored : Valid (s.setScores node parent f gScore) :=
      ⟨h.current_le, h.usedCount_eq, h.remembered, hholds, hdistinct, hheap, h.open_lt⟩
    obtain ⟨hv, hopen⟩ := hscored.pushOpen hnode hclosed
    exact ⟨⟨hv.current_le, hv.usedCount_eq, hv.remembered, hv.holds, hv.distinct, hv.isHeap, hv.open_lt⟩, hopen⟩
  | some position =>
    obtain ⟨hheap, hmembers⟩ := decrease_spec h.isHeap hposition (by rwa [hself]) hothers
    have hopen : s.IsOpen node := by rw [AStarNodes.IsOpen, hposition]; rfl
    refine ⟨⟨h.current_le, h.usedCount_eq, h.remembered, hholds, hdistinct, hheap, fun n hn =>
      h.open_lt n ((hmembers n).mp hn)⟩, fun n => (hmembers n).trans ?_⟩
    refine ⟨.inr, fun hn => ?_⟩
    obtain rfl | hn := hn
    · exact hopen
    · exact hn

end Valid

/-! ## Searches -/

/-- A search as its callers see it: the positions of its nodes, which of them are open, and their `f`. -/
structure Search where
  created : List (UInt16 × UInt16)
  opened : Finset Nat
  f : Nat → Int

inductive Call where
  | createOpenNode (parent : Option Nat) (x y : UInt16) (f gScore : Int)
  | openNode (node : Nat) (parent : Option Nat) (f gScore : Int)
  | closeNode (node : Nat)

def Search.start (x y : UInt16) : Search := ⟨[(x, y)], {0}, fun _ => 0⟩

def Search.step (a : Search) : Call → Search
  | .createOpenNode _ x y f _ =>
    if MAX_NODES ≤ a.created.length then a
    else ⟨a.created ++ [(x, y)], insert a.created.length a.opened, Function.update a.f a.created.length f⟩
  | .openNode node _ f _ => { a with opened := insert node a.opened, f := Function.update a.f node f }
  | .closeNode node => { a with opened := a.opened.erase node }

/-- The calls of the code: a new position, a lower `f` of a node, an open node. -/
def Search.Allowed (a : Search) : Call → Prop
  | .createOpenNode _ x y _ _ => (x, y) ∉ a.created
  | .openNode node _ f _ => node < a.created.length ∧ f ≤ a.f node
  | .closeNode node => node ∈ a.opened

def AStarNodes.call (s : AStarNodes) : Call → Option AStarNodes
  | .createOpenNode parent x y f gScore => (s.createOpenNode parent x y f gScore).map Prod.fst
  | .openNode node parent f gScore => some ((s.setScores node parent f gScore).openNode node)
  | .closeNode node => some (s.closeNode node)

/-- A whole search: where it starts, and its calls. -/
structure Use where
  x : UInt16
  y : UInt16
  calls : List Call

def Use.Allowed (use : Use) : Prop := Runs.Along Search.step Search.Allowed (Search.start use.x use.y) use.calls

def Use.end (use : Use) : Search := use.calls.foldl Search.step (Search.start use.x use.y)

def AStarWorkspace.search (w : AStarWorkspace) (use : Use) : Option AStarNodes := do
  let s ← w.start use.x use.y
  use.calls.foldlM AStarNodes.call s

/-- The searches of a thread, one after the other. -/
def AStarWorkspace.searches (w : AStarWorkspace) (uses : List Use) : Option AStarWorkspace :=
  uses.foldlM (fun w use => (w.search use).map AStarNodes.release) w

/-- The workspace is what the callers see. -/
structure Tied (s : AStarNodes) (a : Search) : Prop where
  valid : Valid s
  created_eq : a.created = (List.range s.currentNode).map s.positionOf
  opened_iff : ∀ n, n ∈ a.opened ↔ s.IsOpen n
  f_eq : ∀ n < s.currentNode, s.f n = a.f n

namespace Tied

variable {s : AStarNodes} {a : Search} {w : AStarWorkspace}

theorem length_created (h : Tied s a) : a.created.length = s.currentNode := by
  rw [h.created_eq, List.length_map, List.length_range]

theorem start (h : Idle w) (x y : UInt16) : ∃ s, w.start x y = some s ∧ Tied s (Search.start x y) := by
  obtain ⟨s, hstart, hs⟩ := h.start x y
  refine ⟨s, hstart, hs.valid, ?_, fun n => ?_, fun n hn => ?_⟩
  · rw [hs.currentNode_eq, List.range_one, List.map_singleton, AStarNodes.positionOf, hs.node_eq, Search.start]
  · rw [hs.isOpen_iff, Search.start, Finset.mem_singleton]
  · rw [hs.currentNode_eq, Nat.lt_one_iff] at hn
    rw [hn, AStarNodes.f, hs.node_eq, Search.start]

/-- Every allowed call ends, and the workspace is again what the callers see. -/
theorem call (h : Tied s a) {call : Call} (hallowed : a.Allowed call) :
    ∃ s', s.call call = some s' ∧ Tied s' (a.step call) := by
  cases call with
  | createOpenNode parent x y f gScore =>
    rw [AStarNodes.call, Search.step, h.length_created]
    by_cases hroom : MAX_NODES ≤ s.currentNode
    · exact ⟨s, by rw [AStarNodes.createOpenNode, if_pos hroom]; rfl, by rwa [if_pos hroom]⟩
    · rw [if_neg hroom]
      have hnew : ∀ n < s.currentNode, s.positionOf n ≠ (x, y) := by
        intro n hn hat
        refine hallowed ?_
        rw [h.created_eq]
        exact List.mem_map.mpr ⟨n, List.mem_range.mpr hn, hat⟩
      obtain ⟨s', hcreate, hvalid, hnodes, hcurrent, -, -, hopen⟩ :=
        h.valid.createOpenNode (lt_of_not_ge hroom) hnew parent f gScore
      have hat : ∀ n < s.currentNode, s'.positionOf n = s.positionOf n := by
        intro n hn
        rw [AStarNodes.positionOf, hnodes, Function.update_of_ne hn.ne, AStarNodes.positionOf]
      refine ⟨s', by rw [hcreate]; rfl, hvalid, ?_, fun n => ?_, fun n hn => ?_⟩
      · have hsame : (List.range s.currentNode).map s'.positionOf = (List.range s.currentNode).map s.positionOf :=
          List.map_congr_left fun n hn => hat n (List.mem_range.mp hn)
        rw [hcurrent, List.range_succ, List.map_append, hsame, ← h.created_eq, List.map_singleton,
          AStarNodes.positionOf, hnodes, Function.update_self]
      · rw [Finset.mem_insert, hopen, h.opened_iff]
      · rw [hcurrent] at hn
        rw [AStarNodes.f, hnodes]
        change _ = Function.update a.f s.currentNode f n
        obtain hn | rfl := Nat.lt_succ_iff_lt_or_eq.mp hn
        · rw [Function.update_of_ne hn.ne, Function.update_of_ne hn.ne]
          exact h.f_eq n hn
        · rw [Function.update_self, Function.update_self]
  | openNode node parent f gScore =>
    obtain ⟨hnode, hle⟩ := hallowed
    rw [h.length_created] at hnode
    have hlower : f ≤ s.f node := by
      rw [h.f_eq node hnode]
      exact hle
    obtain ⟨hvalid, hopen⟩ := h.valid.openNode hnode parent gScore hlower
    have hnodes : ((s.setScores node parent f gScore).openNode node).nodes =
        Function.update s.nodes node { s.nodes node with parent, f, gScore } := nodes_openNode _ node
    have hat : ((s.setScores node parent f gScore).openNode node).positionOf = s.positionOf := by
      rw [← Valid.positionOf_setScores s node parent f gScore]
      funext n
      rw [AStarNodes.positionOf, AStarNodes.positionOf, nodes_openNode]
    have hcurrent : ((s.setScores node parent f gScore).openNode node).currentNode = s.currentNode :=
      currentNode_openNode _ node
    refine ⟨_, rfl, hvalid, ?_, fun n => ?_, fun n hn => ?_⟩
    · rw [hat, hcurrent]
      exact h.created_eq
    · rw [hopen, ← h.opened_iff]
      exact Finset.mem_insert
    · rw [hcurrent] at hn
      rw [AStarNodes.f, hnodes]
      change _ = Function.update a.f node f n
      by_cases hsame : n = node
      · rw [hsame, Function.update_self, Function.update_self]
      · rw [Function.update_of_ne hsame, Function.update_of_ne hsame]
        exact h.f_eq n hn
  | closeNode node =>
    obtain ⟨hvalid, hopen⟩ := h.valid.closeNode ((h.opened_iff node).mp hallowed)
    exact ⟨_, rfl, hvalid, h.created_eq, fun n => by rw [hopen, ← h.opened_iff]; exact Finset.mem_erase, h.f_eq⟩

theorem run {calls : List Call} (h : Tied s a) (hallowed : Runs.Along Search.step Search.Allowed a calls) :
    ∃ s', calls.foldlM AStarNodes.call s = some s' ∧ Tied s' (calls.foldl Search.step a) := by
  induction calls generalizing s a with
  | nil => exact ⟨s, rfl, h⟩
  | cons call calls ih =>
    obtain ⟨next, hcall, hnext⟩ := h.call hallowed.1
    obtain ⟨s', hrun, hs'⟩ := ih hnext hallowed.2
    exact ⟨s', by rw [List.foldlM_cons, hcall]; exact hrun, hs'⟩

theorem search (h : Idle w) {use : Use} (hallowed : use.Allowed) : ∃ s, w.search use = some s ∧ Tied s use.end := by
  obtain ⟨s, hstart, hs⟩ := start h use.x use.y
  obtain ⟨s', hrun, hs'⟩ := hs.run hallowed
  exact ⟨s', by rw [AStarWorkspace.search, hstart]; exact hrun, hs'⟩

end Tied

theorem Idle.searches {w : AStarWorkspace} (h : Idle w) {uses : List Use} (hallowed : ∀ use ∈ uses, use.Allowed) :
    ∃ w', w.searches uses = some w' ∧ Idle w' := by
  induction uses generalizing w with
  | nil => exact ⟨w, rfl, h⟩
  | cons use uses ih =>
    rw [List.forall_mem_cons] at hallowed
    obtain ⟨s, hsearch, hs⟩ := Tied.search h hallowed.1
    obtain ⟨w', hrest, hw'⟩ := ih hs.valid.release hallowed.2
    exact ⟨w', by rw [AStarWorkspace.searches, List.foldlM_cons, hsearch]; exact hrest, hw'⟩

/-- What the callers of a search can rely on. -/
structure Agrees (s : AStarNodes) (a : Search) : Prop where
  /-- The search in the table ends for every position, and finds the nodes of this search and no others. -/
  found : ∀ x y, ∃ found, s.getNodeByPosition x y = some found ∧ ∀ n, found = some n ↔ a.created[n]? = some (x, y)
  f_eq : ∀ n < a.created.length, (s.nodes n).f = a.f n
  perm : ((List.range s.heapSize).map s.heap).Perm a.opened.toList
  ordered : ∀ i, 0 < i → i < s.heapSize → (s.nodes (s.heap ((i - 1) / 2))).f ≤ (s.nodes (s.heap i)).f
  inverse : ∀ n i, s.nodeToHeap n = some i ↔ i < s.heapSize ∧ s.heap i = n
  invalid : ∀ n, n ∉ a.opened → s.nodeToHeap n = none
  empty : a.opened = ∅ → s.getBestNode = none
  best : a.opened.Nonempty → ∃ n ∈ a.opened, s.getBestNode = some n ∧ ∀ m ∈ a.opened, (s.nodes n).f ≤ (s.nodes m).f
  /-- All arrays are long enough. -/
  inside : s.heapSize ≤ MAX_NODES ∧ s.usedCount ≤ MAX_NODES

theorem Tied.agrees {s : AStarNodes} {a : Search} (h : Tied s a) : Agrees s a := by
  have hv := h.valid
  have hx := hv.isHeap.indexed
  have hmem : ∀ n, n ∈ (List.range s.heapSize).map s.heap ↔ n ∈ a.opened := by
    intro n
    rw [h.opened_iff, AStarNodes.IsOpen, show s.nodeToHeap n = s.queue.position n from rfl, hx.isSome_iff, List.mem_map]
    simp only [List.mem_range]
    exact Iff.rfl
  have hnodup : ((List.range s.heapSize).map s.heap).Nodup := List.nodup_range.map_on fun i hi j hj hij =>
    hx.items_inj (List.mem_range.mp hi) (List.mem_range.mp hj) hij
  have hperm : ((List.range s.heapSize).map s.heap).Perm a.opened.toList :=
    (List.perm_ext_iff_of_nodup hnodup a.opened.nodup_toList).mpr fun n => by rw [hmem, Finset.mem_toList]
  refine ⟨fun x y => ?_, fun n hn => ?_, hperm, hv.isHeap.ordered, hx, fun n hn => ?_, fun hempty => ?_,
    fun hsome => ?_, ?_, ?_⟩
  · obtain ⟨found, hfind, hfound⟩ := hv.getNodeByPosition x y
    refine ⟨found, hfind, fun n => (hfound n).trans ?_⟩
    rw [h.created_eq, List.getElem?_map, Option.map_eq_some_iff]
    simp only [List.getElem?_eq_some_iff, List.length_range, List.getElem_range]
    constructor
    · rintro ⟨hn, hat⟩
      exact ⟨n, ⟨hn, rfl⟩, hat⟩
    · rintro ⟨m, ⟨hn, rfl⟩, hat⟩
      exact ⟨hn, hat⟩
  · rw [h.length_created] at hn
    exact h.f_eq n hn
  · rw [h.opened_iff] at hn
    exact Option.not_isSome_iff_eq_none.mp hn
  · rw [hv.getBestNode_eq_none]
    intro n hn
    rw [← h.opened_iff, hempty] at hn
    exact Finset.notMem_empty n hn
  · obtain ⟨m, hm⟩ := hsome
    cases hbest : s.getBestNode with
    | none => exact absurd ((h.opened_iff m).mp hm) (hv.getBestNode_eq_none.mp hbest m)
    | some best =>
      obtain ⟨hopen, hleast⟩ := hv.getBestNode_eq_some hbest
      exact ⟨best, (h.opened_iff best).mpr hopen, rfl, fun n hn => hleast n ((h.opened_iff n).mp hn)⟩
  · have hsub : (List.range s.heapSize).map s.heap ⊆ List.range s.currentNode := by
      intro n hn
      exact List.mem_range.mpr (hv.open_lt n ((h.opened_iff n).mp ((hmem n).mp hn)))
    have hle := (hnodup.subperm hsub).length_le
    rw [List.length_map, List.length_range, List.length_range] at hle
    exact hle.trans hv.current_le
  · rw [hv.usedCount_eq]
    exact hv.current_le

/-- On one thread, after any searches and any allowed calls of a further one: all loops ended, and the workspace is what
the callers see of that search. -/
theorem workspace_agrees (uses : List Use) (last : Use) (hallowed : ∀ use ∈ uses ++ [last], use.Allowed) :
    ∃ w s, ({} : AStarWorkspace).searches uses = some w ∧ w.search last = some s ∧ Agrees s last.end := by
  obtain ⟨w, hsearches, hidle⟩ := Idle.new.searches fun use huse => hallowed use (List.mem_append_left _ huse)
  obtain ⟨s, hsearch, hs⟩ := Tied.search hidle (hallowed last (List.mem_append_right _ (List.mem_singleton_self _)))
  exact ⟨w, s, hsearches, hsearch, hs.agrees⟩

/-- A search that closes and opens nodes, and one that starts where that had a node. -/
def walks : List Use :=
  [⟨100, 100, [.createOpenNode (some 0) 101 100 30 10, .createOpenNode (some 0) 100 101 20 10, .closeNode 0,
    .openNode 1 (some 2) 15 5, .closeNode 1, .openNode 1 (some 2) 12 2]⟩]

theorem workspace_agrees_walks :
    ∃ w s, ({} : AStarWorkspace).searches walks = some w ∧
      w.search ⟨101, 100, [.createOpenNode (some 0) 100 100 30 10, .closeNode 0]⟩ = some s ∧
      Agrees s (Use.end ⟨101, 100, [.createOpenNode (some 0) 100 100 30 10, .closeNode 0]⟩) := by
  refine workspace_agrees walks ⟨101, 100, [.createOpenNode (some 0) 100 100 30 10, .closeNode 0]⟩ fun use huse => ?_
  simp only [walks, List.mem_append, List.mem_singleton] at huse
  obtain rfl | rfl := huse <;>
    simp [Use.Allowed, Runs.Along, Search.Allowed, Search.step, Search.start, MAX_NODES]

end ForgottenServer.Path
