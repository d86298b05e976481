import ForgottenServer.View.MapDescription

/-! # The window of the client

The client shows a window of the map around its player. A message that tells about a part of the map has no
coordinates: the client knows where its window is, and moves it as the messages say. A step of the player is told as the
rows and the columns that come into the window, so that the server and the client have to agree about where it is. -/

namespace ForgottenServer.View
open ForgottenServer.World GapCoding

def maxClientViewportX : Int := 8
def maxClientViewportY : Int := 6
def MAX_STACKPOS_THINGS : Int := 10

/-- The messages about the map, by their opcodes. -/
inductive Message (T : Type) where
  /-- 0x64 -/
  | mapDescription (pos : Position) (pieces : List (Piece T))
  /-- 0x65 -/
  | mapNorth (pieces : List (Piece T))
  /-- 0x66 -/
  | mapEast (pieces : List (Piece T))
  /-- 0x67 -/
  | mapSouth (pieces : List (Piece T))
  /-- 0x68 -/
  | mapWest (pieces : List (Piece T))
  /-- 0x69 -/
  | updateTile (pos : Position) (tile : Option T)
  /-- 0x6C -/
  | removeTileThing (pos : Position) (stackpos : Int)
  /-- 0x6D -/
  | moveThing (oldPos : Position) (stackpos : Int) (newPos : Position)
  /-- 0xBE -/
  | floorUp (pieces : List (Piece T))
  /-- 0xBF -/
  | floorDown (pieces : List (Piece T))
  deriving DecidableEq

variable {T : Type}

/-! ## The server -/

def canSee (myPos : Position) (x y z : Int) : Bool :=
  let floor := if myPos.getZ ≤ 7 then !decide (z > 7) else !decide ((myPos.getZ - z).natAbs > 2)
  let offsetz := myPos.getZ - z
  floor && decide (x ≥ myPos.getX - maxClientViewportX + offsetz ∧ x ≤ myPos.getX + (maxClientViewportX + 1) + offsetz ∧
    y ≥ myPos.getY - maxClientViewportY + offsetz ∧ y ≤ myPos.getY + (maxClientViewportY + 1) + offsetz)

def RemoveTileThing (pos : Position) (stackpos : Int) : List (Message T) :=
  if stackpos ≥ MAX_STACKPOS_THINGS then [] else [.removeTileThing pos stackpos]

def sendRemoveTileThing (myPos pos : Position) (stackpos : Int) : List (Message T) :=
  if canSee myPos pos.getX pos.getY pos.getZ then RemoveTileThing pos stackpos else []

def sendUpdateTile (myPos pos : Position) (tile : Option T) : List (Message T) :=
  if canSee myPos pos.getX pos.getY pos.getZ then [.updateTile pos tile] else []

section
variable (getTile : Position → Option T)

/-- The description of the whole window. -/
def GetWindow (pos : Position) : List (Piece T) :=
  GetMapDescription getTile (pos.getX - maxClientViewportX) (pos.getY - maxClientViewportY) pos.getZ
    (maxClientViewportX * 2 + 2) (maxClientViewportY * 2 + 2)

/-- A floor of the window. -/
def GetWindowFloor (pos : Position) (nz offset : Int) (out : Int × List (Piece T)) : Int × List (Piece T) :=
  GetFloorDescription getTile (pos.getX - maxClientViewportX) (pos.getY - maxClientViewportY) nz
    (maxClientViewportX * 2 + 2) (maxClientViewportY * 2 + 2) offset out

def sendMapDescription (pos : Position) : List (Message T) := [.mapDescription pos (GetWindow getTile pos)]

def MoveUpCreature (newPos oldPos : Position) : List (Message T) :=
  let floor := GetWindowFloor getTile oldPos
  let floors :=
    -- going to surface: floor 7 and 6 already set
    if newPos.getZ = 7 then finish ([5, 4, 3, 2, 1, 0].foldl (fun out i => floor i (8 - i) out) (-1, []))
    -- underground, going one floor up
    else if newPos.getZ > 7 then finish (floor (oldPos.getZ - 3) 3 (-1, []))
    else []
  [.floorUp floors,
    .mapWest (GetMapDescription getTile (oldPos.getX - maxClientViewportX) (oldPos.getY - (maxClientViewportY - 1))
      newPos.getZ 1 (maxClientViewportY * 2 + 2)),
    .mapNorth (GetMapDescription getTile (oldPos.getX - maxClientViewportX) (oldPos.getY - maxClientViewportY)
      newPos.getZ (maxClientViewportX * 2 + 2) 1)]

def MoveDownCreature (newPos oldPos : Position) : List (Message T) :=
  let floor := GetWindowFloor getTile oldPos
  let floors :=
    -- going from surface to underground
    if newPos.getZ = 8 then finish ([0, 1, 2].foldl (fun out i => floor (newPos.getZ + i) (-i - 1) out) (-1, []))
    -- going further down
    else if newPos.getZ > oldPos.getZ ∧ newPos.getZ > 8 ∧ newPos.getZ < 14 then
      finish (floor (newPos.getZ + 2) (-3) (-1, []))
    else []
  [.floorDown floors,
    .mapEast (GetMapDescription getTile (oldPos.getX + (maxClientViewportX + 1))
      (oldPos.getY - (maxClientViewportY + 1)) newPos.getZ 1 (maxClientViewportY * 2 + 2)),
    .mapSouth (GetMapDescription getTile (oldPos.getX - maxClientViewportX) (oldPos.getY + (maxClientViewportY + 1))
      newPos.getZ (maxClientViewportX * 2 + 2) 1)]

/-- What `sendMoveCreature` is told of a move of the player. -/
structure Move where
  newPos : Position
  newStackPos : Int
  oldPos : Position
  oldStackPos : Int
  teleport : Bool
  deriving DecidableEq, Repr

/-- The rows and the columns that come into the window. -/
def sendStrips (newPos oldPos : Position) : List (Message T) :=
  (if oldPos.getY > newPos.getY then
    [.mapNorth (GetMapDescription getTile (oldPos.getX - maxClientViewportX) (newPos.getY - maxClientViewportY)
      newPos.getZ (maxClientViewportX * 2 + 2) 1)]
  else if oldPos.getY < newPos.getY then
    [.mapSouth (GetMapDescription getTile (oldPos.getX - maxClientViewportX) (newPos.getY + (maxClientViewportY + 1))
      newPos.getZ (maxClientViewportX * 2 + 2) 1)]
  else []) ++
  (if oldPos.getX < newPos.getX then
    [.mapEast (GetMapDescription getTile (newPos.getX + (maxClientViewportX + 1)) (newPos.getY - maxClientViewportY)
      newPos.getZ 1 (maxClientViewportY * 2 + 2))]
  else if oldPos.getX > newPos.getX then
    [.mapWest (GetMapDescription getTile (newPos.getX - maxClientViewportX) (newPos.getY - maxClientViewportY)
      newPos.getZ 1 (maxClientViewportY * 2 + 2))]
  else [])

/-- The branch of `sendMoveCreature` for the player of the client, who is at the new position already. -/
def sendMoveCreature (isOTC : Bool) (m : Move) : List (Message T) :=
  if m.teleport || m.oldStackPos ≥ MAX_STACKPOS_THINGS then
    sendRemoveTileThing m.newPos m.oldPos m.oldStackPos ++ sendMapDescription getTile m.newPos
  else
    (if m.oldPos.getZ = 7 ∧ m.newPos.getZ ≥ 8 then RemoveTileThing m.oldPos m.oldStackPos
      else [.moveThing m.oldPos m.oldStackPos m.newPos]) ++
    (if m.newPos.getZ > m.oldPos.getZ then MoveDownCreature getTile m.newPos m.oldPos
      else if m.newPos.getZ < m.oldPos.getZ then MoveUpCreature getTile m.newPos m.oldPos
      else []) ++
    (if !isOTC && m.newStackPos ≥ MAX_STACKPOS_THINGS then [.mapDescription m.newPos (GetWindow getTile m.newPos)]
      else sendStrips getTile m.newPos m.oldPos)

end

/-! ## The client -/

/-- The middle of the window, and the tiles that are shown. -/
structure Client (T : Type) where
  center : Field
  tiles : Field → Option T

def Field.shift (field : Field) (x y z : Int) : Field := ⟨field.x + x, field.y + y, field.z + z⟩

/-- The fields of the window around a field. -/
def windowFields (c : Field) : List Field := mapFields (c.x - 8) (c.y - 6) c.z 18 14

/-- The floors that come into the window from above when the middle has come to `c`. -/
def floorsAbove (c : Field) : List Field :=
  if c.z = 7 then [5, 4, 3, 2, 1, 0].flatMap fun i => floorFields (c.x - 8) (c.y - 6) i 18 14 (8 - i)
  else if c.z > 7 then floorFields (c.x - 8) (c.y - 6) (c.z - 2) 18 14 3
  else []

def floorsBelow (c : Field) : List Field :=
  if c.z = 8 then [0, 1, 2].flatMap fun i => floorFields (c.x - 8) (c.y - 6) (c.z + i) 18 14 (-i - 1)
  else if c.z > 8 ∧ c.z < 14 then floorFields (c.x - 8) (c.y - 6) (c.z + 2) 18 14 (-3)
  else []

/-- The pieces of a message are shown on the fields it is about. A client that does not get a cell for each of them, or
gets more, is lost. -/
def fill (tiles : Field → Option T) (fields : List Field) (pieces : List (Piece T)) : Option (Field → Option T) :=
  match receive fields.length 0 pieces with
  | some (cells, []) => some ((fields.zip cells).foldl (fun tiles p => Function.update tiles p.1 p.2) tiles)
  | _ => none

namespace Client

/-- The window comes to `c`, and a message tells about some fields of it. -/
def move (client : Client T) (c : Field) (fields : List Field) (pieces : List (Piece T)) : Option (Client T) :=
  (fill client.tiles fields pieces).map fun tiles => ⟨c, tiles⟩

def read (client : Client T) : Message T → Option (Client T)
  | .mapDescription pos pieces => client.move (fieldOf pos) (windowFields (fieldOf pos)) pieces
  | .mapNorth pieces =>
    let c := client.center.shift 0 (-1) 0
    client.move c (mapFields (c.x - 8) (c.y - 6) c.z 18 1) pieces
  | .mapEast pieces =>
    let c := client.center.shift 1 0 0
    client.move c (mapFields (c.x + 9) (c.y - 6) c.z 1 14) pieces
  | .mapSouth pieces =>
    let c := client.center.shift 0 1 0
    client.move c (mapFields (c.x - 8) (c.y + 7) c.z 18 1) pieces
  | .mapWest pieces =>
    let c := client.center.shift (-1) 0 0
    client.move c (mapFields (c.x - 8) (c.y - 6) c.z 1 14) pieces
  | .updateTile pos tile => some { client with tiles := Function.update client.tiles (fieldOf pos) tile }
  | .removeTileThing .. => some client
  | .moveThing .. => some client
  -- a floor up is a field to the south-east, as the floors are drawn
  | .floorUp pieces => client.move (client.center.shift 1 1 (-1)) (floorsAbove (client.center.shift 0 0 (-1))) pieces
  | .floorDown pieces => client.move (client.center.shift (-1) (-1) 1) (floorsBelow (client.center.shift 0 0 1)) pieces

def readAll (client : Client T) : List (Message T) → Option (Client T)
  | [] => some client
  | message :: messages => (client.read message).bind fun client => client.readAll messages

end Client

end ForgottenServer.View
