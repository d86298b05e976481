import ForgottenServer.World.Store
import ForgottenServer.Lib.IndexedHeap
import ForgottenServer.Lib.ProbingTable

/-! # The nodes of a search for a path

A thread has one workspace for all its searches. It has the nodes, a table that finds a node by its position and a heap
of the open nodes, and a new search clears only what the one before it used. Where a number would be `0xFFFF`, here is
`none`. -/

namespace ForgottenServer.Path

open IndexedHeap ProbingTable

def MAX_NODES : Nat := 512
def ASTAR_HASH_BITS : UInt32 := 10
def ASTAR_HASH_SIZE : Nat := 1024
def FIB_MULT : UInt32 := 2654435761

structure AStarNode where
  parent : Option Nat := none
  f : Int := 0
  gScore : Int := 0
  x : UInt16 := 0
  y : UInt16 := 0
  deriving DecidableEq

structure AStarWorkspace where
  nodes : Nat → AStarNode := fun _ => {}
  heap : Nat → Nat := fun _ => 0
  nodeToHeap : Nat → Option Nat := fun _ => none
  hTableKeys : Nat → UInt32 := fun _ => 0
  hTableValues : Nat → Option Nat := fun _ => none
  usedNodes : Nat → Nat := fun _ => 0
  usedCount : Nat := 0
  previousNode : Nat := 0

/-- A search, with the workspace of its thread. -/
structure AStarNodes extends AStarWorkspace where
  heapSize : Nat
  currentNode : Nat
  closedNodes : Int

/-- `(x << 16) | y` -/
def nodeKey (x y : UInt16) : UInt32 := x.toUInt32 <<< 16 ||| y.toUInt32

/-- The slot at which the search for a key begins. -/
def homeSlot (key : UInt32) : Nat := ((key * FIB_MULT) >>> (32 - ASTAR_HASH_BITS)).toNat

namespace AStarNodes

variable (s : AStarNodes)

def table : Table UInt32 Nat := ⟨s.hTableKeys, s.hTableValues⟩

def queue : IndexedHeap.Heap Nat := ⟨s.heap, s.nodeToHeap⟩

def setQueue (queue : IndexedHeap.Heap Nat) : AStarNodes := { s with heap := queue.items, nodeToHeap := queue.position }

def f (node : Nat) : Int := (s.nodes node).f

/-- The position of a node. -/
def positionOf (node : Nat) : UInt16 × UInt16 := ((s.nodes node).x, (s.nodes node).y)

/-- The table with one more slot in use, which is remembered. -/
def setTable (table : Table UInt32 Nat) (slot : Nat) : AStarNodes :=
  { s with
    hTableKeys := table.keys
    hTableValues := table.values
    usedNodes := Function.update s.usedNodes s.usedCount slot
    usedCount := s.usedCount + 1 }

def insert (key : UInt32) (node : Nat) : Option AStarNodes :=
  (s.table.insert ASTAR_HASH_SIZE homeSlot key node).map fun (slot, table) => s.setTable table slot

/-- A new last node, in the array only. -/
def addNode (node : AStarNode) : AStarNodes :=
  { s with currentNode := s.currentNode + 1, nodes := Function.update s.nodes s.currentNode node }

/-- A node that is not in the heap comes into it. -/
def pushOpen (node : Nat) : AStarNodes :=
  { s.setQueue (s.queue.push s.f s.heapSize node) with heapSize := s.heapSize + 1 }

def createOpenNode (parent : Option Nat) (x y : UInt16) (f gScore : Int) : Option (AStarNodes × Option Nat) :=
  if MAX_NODES ≤ s.currentNode then some (s, none)
  else
    ((s.addNode { parent, f, gScore, x, y }).insert (nodeKey x y) s.currentNode).map fun inserted =>
      (inserted.pushOpen s.currentNode, some s.currentNode)

def getBestNode : Option Nat := if s.heapSize = 0 then none else some (s.heap 0)

def closeNode (node : Nat) : AStarNodes :=
  { s.setQueue (s.queue.remove s.f s.heapSize node) with
    closedNodes := s.closedNodes + 1
    heapSize := s.heapSize - 1 }

def openNode (node : Nat) : AStarNodes :=
  match s.nodeToHeap node with
  | none => { s.pushOpen node with closedNodes := s.closedNodes - 1 }
  | some position => s.setQueue (s.queue.rise s.f position)

/-- Outside, whether the search in the table ends. -/
def getNodeByPosition (x y : UInt16) : Option (Option Nat) :=
  s.table.find ASTAR_HASH_SIZE homeSlot (nodeKey x y)

/-- A search writes a node before it calls `openNode`. -/
def setScores (node : Nat) (parent : Option Nat) (f gScore : Int) : AStarNodes :=
  { s with nodes := Function.update s.nodes node { s.nodes node with parent, f, gScore } }

/-- The destructor. -/
def release : AStarWorkspace := { s.toAStarWorkspace with previousNode := s.currentNode }

theorem nodes_openNode (node : Nat) : (s.openNode node).nodes = s.nodes := by
  rw [openNode]
  split <;> rfl

theorem currentNode_openNode (node : Nat) : (s.openNode node).currentNode = s.currentNode := by
  rw [openNode]
  split <;> rfl

section SetTable

variable (table : Table UInt32 Nat) (slot : Nat)

@[simp] theorem nodes_setTable : (s.setTable table slot).nodes = s.nodes := rfl

@[simp] theorem positionOf_setTable : (s.setTable table slot).positionOf = s.positionOf := rfl

@[simp] theorem f_setTable : (s.setTable table slot).f = s.f := rfl

@[simp] theorem table_setTable : (s.setTable table slot).table = table := rfl

@[simp] theorem queue_setTable : (s.setTable table slot).queue = s.queue := rfl

@[simp] theorem heapSize_setTable : (s.setTable table slot).heapSize = s.heapSize := rfl

@[simp] theorem currentNode_setTable : (s.setTable table slot).currentNode = s.currentNode := rfl

@[simp] theorem usedCount_setTable : (s.setTable table slot).usedCount = s.usedCount + 1 := rfl

end SetTable

end AStarNodes

/-- The constructor of `AStarNodes` up to its `Insert`: what the search before used is cleared. -/
def AStarWorkspace.cleared (w : AStarWorkspace) (x y : UInt16) : AStarNodes :=
  { w with
    hTableValues := clear ((List.range w.usedCount).map w.usedNodes) w.hTableValues
    nodeToHeap := Function.update (clear (List.range w.previousNode) w.nodeToHeap) 0 (some 0)
    usedCount := 0
    nodes := Function.update w.nodes 0 { x, y }
    heap := Function.update w.heap 0 0
    heapSize := 1
    currentNode := 1
    closedNodes := 0 }

/-- The constructor of `AStarNodes`. -/
def AStarWorkspace.start (w : AStarWorkspace) (x y : UInt16) : Option AStarNodes :=
  (w.cleared x y).insert (nodeKey x y) 0

/-! ## Keys -/

theorem toNat_nodeKey (x y : UInt16) : (nodeKey x y).toNat = x.toNat * 2 ^ 16 + y.toNat := by
  have hx := x.toNat_lt
  have hy := y.toNat_lt
  rw [nodeKey, UInt32.toNat_or, UInt32.toNat_shiftLeft, UInt16.toNat_toUInt32, UInt16.toNat_toUInt32]
  rw [show (16 : UInt32).toNat % 32 = 16 by rfl, Nat.mod_eq_of_lt (by rw [Nat.shiftLeft_eq]; omega),
    ← Nat.shiftLeft_add_eq_or_of_lt hy, Nat.shiftLeft_eq]

theorem nodeKey_inj {x y x' y' : UInt16} (h : nodeKey x y = nodeKey x' y') : (x, y) = (x', y') := by
  have hkey := congrArg UInt32.toNat h
  have hy := y.toNat_lt
  have hy' := y'.toNat_lt
  rw [toNat_nodeKey, toNat_nodeKey] at hkey
  rw [Prod.mk.injEq]
  exact ⟨UInt16.toNat_inj.mp (by omega), UInt16.toNat_inj.mp (by omega)⟩

theorem homeSlot_lt (key : UInt32) : homeSlot key < ASTAR_HASH_SIZE := by
  have h := (key * FIB_MULT).toNat_lt
  rw [homeSlot, UInt32.toNat_shiftRight, show (32 - ASTAR_HASH_BITS).toNat % 32 = 22 by rfl, Nat.shiftRight_eq_div_pow,
    ASTAR_HASH_SIZE]
  omega

end ForgottenServer.Path
