import ForgottenServer.Item.ItemType
import ForgottenServer.Lib.ByteMemory
import ForgottenServer.Lib.LittleEndian
import ForgottenServer.Network.Latin1

/-! # Network messages

`NetworkMessage`: a buffer of fixed size with a 16-bit write/read position and
length. Every primitive write asks `canAdd` for room and does nothing without it;
every read asks `canRead`, which sets the overrun flag. The functions are in
`Option`: no result means that the program would touch memory outside the buffer. -/

namespace ForgottenServer.Network

open ByteMemory LittleEndian

def NETWORKMESSAGE_MAXSIZE : Nat := 65500
def INITIAL_BUFFER_POSITION : Nat := 8
def HEADER_LENGTH : Nat := 2
def CHECKSUM_LENGTH : Nat := 4
def XTEA_MULTIPLE : Nat := 8
def MAX_BODY_LENGTH : Nat :=
  NETWORKMESSAGE_MAXSIZE - HEADER_LENGTH - CHECKSUM_LENGTH - XTEA_MULTIPLE
def MAX_PROTOCOL_BODY_LENGTH : Nat := MAX_BODY_LENGTH - 10

/-- `MsgSize_t` arithmetic. -/
def u16 (n : Nat) : Nat := n % 65536

structure NetworkMessage where
  buffer : List UInt8
  length : Nat
  position : Nat
  overrun : Bool
  buffer_size : buffer.length = NETWORKMESSAGE_MAXSIZE

structure Position where
  x : Nat
  y : Nat
  z : Nat
  deriving DecidableEq, Repr

namespace NetworkMessage

/-- `std::memcpy(buffer.data() + pos, ...)`. -/
def write (m : NetworkMessage) (pos : Nat) (bytes : List UInt8) : Option NetworkMessage :=
  match h : store m.buffer pos bytes with
  | none => none
  | some buffer => some { m with buffer, buffer_size := (length_store h).trans m.buffer_size }

/-- A message as it is constructed. -/
def new : NetworkMessage where
  buffer := List.replicate NETWORKMESSAGE_MAXSIZE 0
  length := 0
  position := INITIAL_BUFFER_POSITION
  overrun := false
  buffer_size := List.length_replicate

def reset (m : NetworkMessage) : NetworkMessage :=
  { m with length := 0, position := INITIAL_BUFFER_POSITION, overrun := false }

/-! ## Writing -/

def canAdd (m : NetworkMessage) (size : Nat) : Bool := size + m.position < MAX_BODY_LENGTH

/-- The bytes at the write position, with position and length moved behind them. -/
def put (m : NetworkMessage) (bytes : List UInt8) : Option NetworkMessage := do
  let m' ← m.write m.position bytes
  some { m' with
    position := u16 (m.position + bytes.length)
    length := u16 (m.length + bytes.length) }

def addByte (m : NetworkMessage) (value : UInt8) : Option NetworkMessage :=
  if !m.canAdd 1 then some m else m.put [value]

/-- `add<T>` for a type of `size` bytes; the value is its little-endian representation. -/
def add (m : NetworkMessage) (size value : Nat) : Option NetworkMessage :=
  if !m.canAdd size then some m else m.put (leBytes size value)

def addString (simd : Simdutf) (m : NetworkMessage) (value : List UInt8) : Option NetworkMessage :=
  let stringLen := simd.latin1_length_from_utf8 value
  if !m.canAdd (stringLen + 2) || 8192 < stringLen then some m
  else do
    let prefixed ← m.add 2 (u16 stringLen)
    let latin1 := simd.convert_utf8_to_latin1 value
    let written ← prefixed.write prefixed.position latin1
    if latin1.length ≠ stringLen then
      some { written with position := m.position, length := m.length }
    else
      some { written with
        position := u16 (prefixed.position + latin1.length)
        length := u16 (prefixed.length + latin1.length) }

def addBytes (m : NetworkMessage) (bytes : List UInt8) : Option NetworkMessage :=
  if !m.canAdd bytes.length || 8192 < bytes.length then some m else m.put bytes

/-- Padding is written behind the body; only the length grows. -/
def addPaddingBytes (m : NetworkMessage) (n : Nat) : Option NetworkMessage :=
  if !m.canAdd n then some m
  else do
    let m' ← m.write m.position (List.replicate n 0x33)
    some { m' with length := u16 (m.length + n) }

/-! ## Reading -/

/-- `setBufferPosition`: the position is counted from the header space on. -/
def setBufferPosition (m : NetworkMessage) (pos : Nat) : NetworkMessage :=
  if pos < NETWORKMESSAGE_MAXSIZE - INITIAL_BUFFER_POSITION then
    { m with position := u16 (pos + INITIAL_BUFFER_POSITION) }
  else m

/-- The test of `canRead`, in `int`. -/
def readable (m : NetworkMessage) (size : Nat) : Bool :=
  !(decide ((m.position + size : Int) > m.length + 8) ||
    decide ((size : Int) ≥ NETWORKMESSAGE_MAXSIZE - m.position))

def setOverrun (m : NetworkMessage) : NetworkMessage := { m with overrun := true }

/-- The bytes at the read position, and the message behind them. -/
def take (m : NetworkMessage) (size : Nat) : Option (List UInt8 × NetworkMessage) := do
  let bytes ← load m.buffer m.position size
  some (bytes, { m with position := u16 (m.position + size) })

/-- `get<T>` for a type of `size` bytes, and `getByte` for `size = 1`. -/
def get (m : NetworkMessage) (size : Nat) : Option (Nat × NetworkMessage) :=
  if !m.readable size then some (0, m.setOverrun)
  else do
    let (bytes, m') ← m.take size
    some (leNat bytes, m')

def getByte (m : NetworkMessage) : Option (Nat × NetworkMessage) := m.get 1

/-- A text of known length. The conversion writes into a string of the length that was
computed first. -/
def getText (simd : Simdutf) (m : NetworkMessage) (stringLen : Nat) :
    Option (List UInt8 × NetworkMessage) :=
  if !m.readable stringLen then some ([], m.setOverrun)
  else do
    let (bytes, m') ← m.take stringLen
    let out := simd.convert_latin1_to_utf8 bytes
    if simd.utf8_length_from_latin1 bytes < out.length then none else some (out, m')

def getString (simd : Simdutf) (m : NetworkMessage) (stringLen : Nat) :
    Option (List UInt8 × NetworkMessage) :=
  if stringLen = 0 then do
    let (stringLen, m) ← m.get 2
    m.getText simd stringLen
  else m.getText simd stringLen

def getPosition (m : NetworkMessage) : Option (Position × NetworkMessage) := do
  let (x, m) ← m.get 2
  let (y, m) ← m.get 2
  let (z, m) ← m.getByte
  some (⟨x, y, z⟩, m)

/-- `skipBytes`: any signed 16-bit count, in 16-bit arithmetic. -/
def skipBytes (m : NetworkMessage) (count : Int) : NetworkMessage :=
  { m with position := ((m.position + count) % 65536).toNat }

end NetworkMessage

end ForgottenServer.Network
