import ForgottenServer.World.SightLine
import ForgottenServer.Path.Nodes
import ForgottenServer.Lib.Loop

/-! # The search for a path

`getPathMatching` expands the open node with the least `f` until a node matches, and follows the parents back. What it
asks of tiles and of the creature is given by functions. -/

namespace ForgottenServer.Path

open World (Position)
open Sight (getDistanceX getDistanceY)

inductive Direction where
  | north
  | east
  | south
  | west
  | southwest
  | southeast
  | northwest
  | northeast
  deriving DecidableEq

structure FindPathParams where
  fullPathSearch : Bool := true
  clearSight : Bool := true
  allowDiagonal : Bool := true
  keepDistance : Bool := false
  maxSearchDist : Int := 0
  minTargetDist : Int := -1
  maxTargetDist : Int := -1

/-! ## Target conditions -/

/-- The condition on the target, which also updates the best match so far. -/
structure PathCondition where
  targetPos : Position
  isInRange : Position → Position → FindPathParams → Bool
  call : Position → Position → FindPathParams → Int → Bool × Int

def int (n : UInt16) : Int := n.toNat

def isInRange (targetPos startPos testPos : Position) (fpp : FindPathParams) : Bool :=
  if fpp.fullPathSearch then
    if int testPos.x > int targetPos.x + fpp.maxTargetDist then false
    else if int testPos.x < int targetPos.x - fpp.maxTargetDist then false
    else if int testPos.y > int targetPos.y + fpp.maxTargetDist then false
    else if int testPos.y < int targetPos.y - fpp.maxTargetDist then false
    else true
  else
    let dx := int startPos.x - int targetPos.x
    let dxMax := if dx ≥ 0 then fpp.maxTargetDist else 0
    let dxMin := if dx ≤ 0 then fpp.maxTargetDist else 0
    let dy := int startPos.y - int targetPos.y
    let dyMax := if dy ≥ 0 then fpp.maxTargetDist else 0
    let dyMin := if dy ≤ 0 then fpp.maxTargetDist else 0
    if int testPos.x > int targetPos.x + dxMax then false
    else if int testPos.x < int targetPos.x - dxMin then false
    else if int testPos.y > int targetPos.y + dyMax then false
    else if int testPos.y < int targetPos.y - dyMin then false
    else true

/-- `FrozenPathingConditionCall`, with the sight that the map gives. -/
def frozenPathingConditionCall (isSightClear : Position → Position → Bool) (targetPos : Position) : PathCondition where
  targetPos
  isInRange := isInRange targetPos
  call startPos testPos fpp bestMatchDist :=
    if !isInRange targetPos startPos testPos fpp then (false, bestMatchDist)
    else if fpp.clearSight && !isSightClear testPos targetPos then (false, bestMatchDist)
    else
      let testDist : Int := max (getDistanceX targetPos testPos) (getDistanceY targetPos testPos)
      if fpp.maxTargetDist = 1 then
        if testDist < fpp.minTargetDist ∨ testDist > fpp.maxTargetDist then (false, bestMatchDist)
        else (true, bestMatchDist)
      else if testDist ≤ fpp.maxTargetDist then
        if testDist < fpp.minTargetDist then (false, bestMatchDist)
        else if testDist = fpp.maxTargetDist then (true, 0)
        else if testDist > bestMatchDist then (true, testDist)
        else (false, bestMatchDist)
      else (false, bestMatchDist)

/-! ## Tiles -/

/-- The tiles, and what they answer for the creature. `γ` are the combat types. -/
structure Map (τ γ : Type) where
  getTile : UInt16 → UInt16 → UInt8 → Option τ
  /-- `queryAdd` with the flags of the search returns `RETURNVALUE_NOERROR`. -/
  queryAdd : τ → Bool
  getTopVisibleCreature : τ → Bool
  /-- The combat type of the field. -/
  getFieldItem : τ → Option γ

structure Creature (τ γ : Type) where
  position : Position
  tile : Option τ
  isImmune : γ → Bool
  /-- It has the condition of the combat type. -/
  hasCondition : γ → Bool
  /-- `canWalkOnFieldType` of a monster. -/
  monster : Option (γ → Bool)

variable {τ γ : Type} [DecidableEq τ]

def canWalkTo (map : Map τ γ) (creature : Creature τ γ) (pos : Position) : Option τ :=
  let tile := map.getTile pos.x pos.y pos.z
  if creature.tile ≠ tile then tile.filter map.queryAdd else tile

def MAP_NORMALWALKCOST : Int := 10
def MAP_DIAGONALWALKCOST : Int := 25

def getMapWalkCost (node : AStarNode) (neighborPos : Position) : Int :=
  if |int node.x - int neighborPos.x| = |int node.y - int neighborPos.y| then MAP_DIAGONALWALKCOST
  else MAP_NORMALWALKCOST

def getTileWalkCost (map : Map τ γ) (creature : Creature τ γ) (tile : τ) : Int :=
  let crowded := if map.getTopVisibleCreature tile then MAP_NORMALWALKCOST * 3 else 0
  let field :=
    match map.getFieldItem tile with
    | none => 0
    | some combatType =>
      if !creature.isImmune combatType && !creature.hasCondition combatType &&
          creature.monster.any fun canWalkOnFieldType => !canWalkOnFieldType combatType then MAP_NORMALWALKCOST * 18
      else 0
  crowded + field

/-! ## Neighbours -/

def dirNeighbors : Direction → List (Int × Int)
  | .north => [(-1, 0), (0, 1), (1, 0), (1, 1), (-1, 1)]
  | .east => [(-1, 0), (0, 1), (0, -1), (-1, -1), (-1, 1)]
  | .south => [(-1, 0), (1, 0), (0, -1), (-1, -1), (1, -1)]
  | .west => [(0, 1), (1, 0), (0, -1), (1, -1), (1, 1)]
  | .southwest => [(1, 0), (0, -1), (-1, -1), (1, -1), (1, 1)]
  | .southeast => [(-1, 0), (0, -1), (-1, -1), (1, -1), (-1, 1)]
  | .northwest => [(0, 1), (1, 0), (1, -1), (1, 1), (-1, 1)]
  | .northeast => [(-1, 0), (0, 1), (-1, -1), (1, 1), (-1, 1)]

def allNeighbors : List (Int × Int) := [(-1, 0), (0, 1), (1, 0), (0, -1), (-1, -1), (1, -1), (1, 1), (-1, 1)]

/-- The neighbours to visit from a node, by the way to its parent. The start has none. -/
def neighbors (allowDiagonal : Bool) : Option (Int × Int) → List (Int × Int)
  | none => allNeighbors
  | some (xOffset, yOffset) =>
    let direction : Direction :=
      if yOffset = 0 then if xOffset = -1 then .west else .east
      else if !allowDiagonal || xOffset = 0 then if yOffset = -1 then .north else .south
      else if yOffset = -1 then if xOffset = -1 then .northwest else .northeast
      else if xOffset = -1 then .southwest else .southeast
    (dirNeighbors direction).take (if allowDiagonal then 5 else 3)

/-- The position at an offset. Its coordinates are `uint16_t` again. -/
def shift (position : Position) (d : Int × Int) : Position :=
  ⟨UInt16.ofInt (int position.x + d.1), UInt16.ofInt (int position.y + d.2), position.z⟩

/-! ## The search -/

/-- The arguments of `getPathMatching`. -/
structure Request (τ γ : Type) where
  map : Map τ γ
  creature : Creature τ γ
  pathCondition : PathCondition
  fpp : FindPathParams

namespace Request

variable (r : Request τ γ)

def start : Position := r.creature.position

/-- The position of a node. -/
def place (node : AStarNode) : Position := ⟨node.x, node.y, r.start.z⟩

def manhattanHeuristic (position : Position) : Int :=
  (|int position.x - int r.pathCondition.targetPos.x| + |int position.y - int r.pathCondition.targetPos.y|) *
    MAP_NORMALWALKCOST

/-- The search does not go to the position. -/
def skips (position : Position) : Bool :=
  (r.fpp.maxSearchDist ≠ 0 && (r.fpp.maxSearchDist < getDistanceX r.start position ||
    r.fpp.maxSearchDist < getDistanceY r.start position)) ||
  (r.fpp.keepDistance && !r.pathCondition.isInRange r.start position r.fpp)

/-- What a neighbour does to the search. `full`: there is no room for its node. -/
inductive Visit where
  | next (s : AStarNodes)
  | full

/-- One turn of the loop over the neighbours of the node `nodeIdx`. `none`: a search in the table does not end. -/
def visit (nodeIdx : Nat) (parentGScore : Int) (s : AStarNodes) (d : Int × Int) : Option Visit := do
  let node := s.nodes nodeIdx
  let position := shift (r.place node) d
  if r.skips position then return .next s
  let neighborNodeIdx ← s.getNodeByPosition position.x position.y
  let tile :=
    if neighborNodeIdx.isSome then r.map.getTile position.x position.y position.z
    else canWalkTo r.map r.creature position
  match tile with
  | none => return .next s
  | some tile =>
    let gScore := parentGScore + getMapWalkCost node position + getTileWalkCost r.map r.creature tile
    let f := gScore + r.manhattanHeuristic position
    match neighborNodeIdx with
    | some neighbor =>
      if s.f neighbor ≤ f then return .next s
      else return .next ((s.setScores neighbor (some nodeIdx) f gScore).openNode neighbor)
    | none =>
      let (s, created) ← s.createOpenNode (some nodeIdx) position.x position.y f gScore
      if created.isNone then return .full else return .next s

/-- The loop over the neighbours, and whether it was left because there was no room. -/
def visitAll (nodeIdx : Nat) (parentGScore : Int) : List (Int × Int) → AStarNodes → Option (AStarNodes × Bool)
  | [], s => some (s, false)
  | d :: ds, s => do
    match ← r.visit nodeIdx parentGScore s d with
    | .next s => visitAll nodeIdx parentGScore ds s
    | .full => some (s, true)

structure State where
  nodes : AStarNodes
  found : Option Nat := none
  endPosition : Position
  bestMatch : Int := 0

/-- The state behind the answer of the condition at a node. -/
def State.answered (st : State) (nodeIdx : Nat) (position : Position) (matched : Bool) (bestMatch : Int) : State :=
  if matched then { st with found := some nodeIdx, endPosition := position, bestMatch } else { st with bestMatch }

/-- How the `while` loop ends: it is left, or the function returns `false` in it. -/
inductive Ending where
  | leave (st : State)
  | fail (s : AStarNodes)

def xyOffset (s : AStarNodes) (node : AStarNode) : Option (Int × Int) :=
  node.parent.map fun parent => (int (s.nodes parent).x - int node.x, int (s.nodes parent).y - int node.y)

/-- The loop's body behind the test of the condition. -/
def expand (nodeIdx : Nat) (st : State) : Option (Loop.Turn State Ending) := do
  let node := st.nodes.nodes nodeIdx
  let ds := neighbors r.fpp.allowDiagonal (xyOffset st.nodes node)
  let (s, full) ← r.visitAll nodeIdx node.gScore ds st.nodes
  if full && st.found.isNone then return .stop (.fail s) else return .again { st with nodes := s.closeNode nodeIdx }

def turn (st : State) : Option (Loop.Turn State Ending) :=
  if r.fpp.maxSearchDist ≠ 0 ∨ st.nodes.closedNodes < 100 then
    match st.nodes.getBestNode with
    | none => some (.stop (if st.found.isSome then .leave st else .fail st.nodes))
    | some nodeIdx =>
      let position := r.place (st.nodes.nodes nodeIdx)
      let (matched, bestMatch) := r.pathCondition.call r.start position r.fpp st.bestMatch
      let st := st.answered nodeIdx position matched bestMatch
      if matched && bestMatch = 0 then some (.stop (.leave st)) else r.expand nodeIdx st
  else some (.stop (.leave st))

end Request

/-! ## The path -/

/-- The direction from a node to the one before it on the way back, if it is one. -/
def pathDirection (dx dy : Int) : Option Direction :=
  if dx = 1 ∧ dy = 1 then some .northwest
  else if dx = -1 ∧ dy = 1 then some .northeast
  else if dx = 1 ∧ dy = -1 then some .southwest
  else if dx = -1 ∧ dy = -1 then some .southeast
  else if dx = 1 then some .west
  else if dx = -1 then some .east
  else if dy = 1 then some .north
  else if dy = -1 then some .south
  else none

/-- The `while` loop over the parents. -/
def followParents (nodes : Nat → AStarNode) : Nat → Option Nat → UInt16 → UInt16 → List Direction →
    Option (List Direction)
  | 0, _, _, _, _ => none
  | _ + 1, none, _, _, dirList => some dirList
  | fuel + 1, some found, prevx, prevy, dirList =>
    let node := nodes found
    let direction := pathDirection (int node.x - int prevx) (int node.y - int prevy)
    followParents nodes fuel node.parent node.x node.y (dirList ++ direction.toList)

/-- The workspace of the thread, the answer and the list of directions. `none`: some loop does not end in `fuel`
turns. -/
def getPathMatching (fuel : Nat) (w : AStarWorkspace) (r : Request τ γ) (dirList : List Direction) :
    Option (AStarWorkspace × Bool × List Direction) := do
  let nodes ← w.start r.start.x r.start.y
  match ← Loop.run r.turn fuel { nodes, endPosition := r.start } with
  | .fail s => some (s.release, false, dirList)
  | .leave st =>
    match st.found with
    | none => some (st.nodes.release, false, dirList)
    | some found =>
      let dirList ← followParents st.nodes.nodes fuel (st.nodes.nodes found).parent st.endPosition.x st.endPosition.y
        dirList
      some (st.nodes.release, true, dirList)

end ForgottenServer.Path
