import ForgottenServer.Network.Calls
import ForgottenServer.Network.Xtea

/-! # Packets

Sending: `OutputMessage` prepends its headers into the eight bytes before the body,
and `Protocol::onSendMessage` writes the inner length, pads, encrypts, and adds the
checksum and the outer length. Receiving: `Connection` reads the outer length and then
that many bytes into one reused message, tests the checksum, and `XTEA_decrypt` reads
the inner length. No result still means an access outside the buffer. -/

namespace ForgottenServer.Network

open ByteMemory LittleEndian

/-! ## Checksum -/

def adlerStep (s : UInt32 × UInt32) (byte : UInt8) : UInt32 × UInt32 :=
  let a := s.1 + byte.toUInt32
  (a, s.2 + a)

/-- The sums are reduced after every 5552 bytes. -/
def adlerLoop (a b : UInt32) (data : List UInt8) : UInt32 × UInt32 :=
  if data.length = 0 then (a, b)
  else
    let s := (data.take 5552).foldl adlerStep (a, b)
    adlerLoop (s.1 % 65521) (s.2 % 65521) (data.drop 5552)
termination_by data.length
decreasing_by
  rw [List.length_drop]
  omega

def adlerChecksum (data : List UInt8) : UInt32 :=
  if data.length > NETWORKMESSAGE_MAXSIZE then 0
  else
    let s := adlerLoop 1 0 data
    (s.2 <<< 16) ||| s.1

/-- Replace the buffer by the result of an operation that keeps its size. -/
def NetworkMessage.onBuffer (m : NetworkMessage) (op : List UInt8 → Option (List UInt8))
    (hop : ∀ {mem mem'}, op mem = some mem' → mem'.length = mem.length) : Option NetworkMessage :=
  match h : op m.buffer with
  | none => none
  | some buffer => some { m with buffer, buffer_size := (hop h).trans m.buffer_size }

/-! ## Sending -/

structure OutputMessage extends NetworkMessage where
  outputBufferStart : Nat

namespace OutputMessage

def new : OutputMessage := { NetworkMessage.new with outputBufferStart := INITIAL_BUFFER_POSITION }

/-- The write functions inherited from `NetworkMessage`. -/
def add (simd : Simdutf) (items : Items) (config : Config) (msg : OutputMessage) (c : Call) :
    Option OutputMessage := do
  let m ← runWrites simd msg.toNetworkMessage (c.writes items config)
  some { m with outputBufferStart := msg.outputBufferStart }

/-- `append(std::span<const uint8_t>)`. -/
def appendBytes (msg : OutputMessage) (bytes : List UInt8) : Option OutputMessage :=
  if msg.position + bytes.length > NETWORKMESSAGE_MAXSIZE then some msg
  else do
    let m ← msg.put bytes
    some { m with outputBufferStart := msg.outputBufferStart }

/-- `append(const NetworkMessage&)` and `append(const OutputMessage_ptr&)`. -/
def append (msg : OutputMessage) (other : NetworkMessage) : Option OutputMessage :=
  if msg.position + other.length > NETWORKMESSAGE_MAXSIZE then some msg
  else do
    let bytes ← load other.buffer 8 other.length
    msg.appendBytes bytes

def addHeader (msg : OutputMessage) (size value : Nat) : Option OutputMessage :=
  if msg.outputBufferStart < size then some msg
  else do
    let start := msg.outputBufferStart - size
    let m ← msg.write start (leBytes size value)
    some { m with length := u16 (msg.length + size), outputBufferStart := start }

def writeMessageLength (msg : OutputMessage) : Option OutputMessage := msg.addHeader 2 msg.length

def addChecksum (msg : OutputMessage) : Option OutputMessage := do
  let data ← load msg.buffer msg.outputBufferStart msg.length
  msg.addHeader 4 (adlerChecksum data).toNat

def addCryptoHeader (msg : OutputMessage) (checksum : Bool) : Option OutputMessage :=
  if checksum then do
    let msg ← msg.addChecksum
    msg.writeMessageLength
  else msg.writeMessageLength

end OutputMessage

/-- The message must be a multiple of 8. -/
def NetworkMessage.padToBlock (m : NetworkMessage) : Option NetworkMessage :=
  let paddingBytes := m.length % 8
  if paddingBytes ≠ 0 then m.addPaddingBytes (8 - paddingBytes) else some m

def XTEA_encrypt (msg : OutputMessage) (k : Xtea.RoundKeys) : Option OutputMessage := do
  let m ← msg.padToBlock
  let m ← m.onBuffer (fun mem => Xtea.encrypt mem msg.outputBufferStart m.length k) Xtea.length_encrypt
  some { m with outputBufferStart := msg.outputBufferStart }

/-- The settings of a protocol object. -/
structure Protocol where
  key : Xtea.RoundKeys
  encryptionEnabled : Bool
  checksumEnabled : Bool
  rawMessages : Bool

def Protocol.onSendMessage (p : Protocol) (msg : OutputMessage) : Option OutputMessage :=
  if p.rawMessages then some msg
  else do
    let msg ← msg.writeMessageLength
    if p.encryptionEnabled then do
      let msg ← XTEA_encrypt msg p.key
      msg.addCryptoHeader p.checksumEnabled
    else some msg

/-- The bytes `Connection::internalSend` writes to the socket. -/
def OutputMessage.packet (msg : OutputMessage) : Option (List UInt8) :=
  load msg.buffer msg.outputBufferStart msg.length

/-! ## Receiving -/

/-- The outer length, from the first two bytes of the buffer. -/
def NetworkMessage.getLengthHeader (m : NetworkMessage) : Nat := leNat (m.buffer.take 2)

/-- Packet sizes `Connection::parseHeader` admits. -/
def admitsSize (size : Nat) : Bool := !(size == 0 || size ≥ NETWORKMESSAGE_MAXSIZE - 16)

/-- `parseHeader` on a message whose first two bytes were read: no result when the
connection is closed. `getBodyBuffer` moves the position behind the header. -/
def parseHeader (m : NetworkMessage) : Option NetworkMessage :=
  let size := m.getLengthHeader
  if !admitsSize size then none
  else some { m with length := u16 (size + HEADER_LENGTH), position := 2 }

/-- The checksum of what follows the checksum field. -/
def NetworkMessage.checksum (m : NetworkMessage) : Option Nat :=
  let len : Int := m.length - m.position - CHECKSUM_LENGTH
  if len > 0 then do
    let data ← load m.buffer (m.position + CHECKSUM_LENGTH) len.toNat
    some (adlerChecksum data).toNat
  else some 0

/-- The checksum test: where it fails the field might not have been the checksum, and is
stepped back over. -/
def testChecksum (m : NetworkMessage) : Option (Bool × NetworkMessage) := do
  let checksum ← m.checksum
  let (recvChecksum, m) ← m.get 4
  if recvChecksum ≠ checksum then some (false, m.skipBytes (-CHECKSUM_LENGTH))
  else some (true, m)

/-- What a connection knows when a packet arrives. -/
structure Connection where
  receivedFirst : Bool
  hasProtocol : Bool

/-- The first message of a connection: `make_protocol` reads the protocol id, or it is
skipped when the protocol exists already. -/
def Connection.skipProtocolId (c : Connection) (m : NetworkMessage) : Option NetworkMessage :=
  if c.hasProtocol then some (m.skipBytes 1)
  else do
    let (_, m) ← m.getByte
    some m

/-- The inner length, read from the decrypted packet, becomes the length. -/
def NetworkMessage.readInnerLength (m : NetworkMessage) : Option (Bool × NetworkMessage) := do
  let (innerLength, m) ← m.get 2
  if innerLength + 8 > m.length then some (false, m)
  else some (true, { m with length := innerLength })

def XTEA_decrypt (m : NetworkMessage) (k : Xtea.RoundKeys) : Option (Bool × NetworkMessage) :=
  let length : Int := (m.length : Int) - 6
  if length % 8 ≠ 0 then some (false, m)
  else do
    let m ← m.onBuffer (fun mem => Xtea.decrypt mem m.position length.toNat k) Xtea.length_decrypt
    m.readInnerLength

/-- What becomes of a packet: `first` is handed to `onRecvFirstMessage`, the other
messages go through `XTEA_decrypt`. -/
inductive Received where
  | closed
  | incomplete
  | first (checksummed : Bool) (m : NetworkMessage)
  | refused (checksummed : Bool) (m : NetworkMessage)
  | accepted (checksummed : Bool) (m : NetworkMessage)

/-- `onRecvMessage` of a protocol with encryption. -/
def onRecvMessage (k : Xtea.RoundKeys) (checksummed : Bool) (m : NetworkMessage) : Option Received := do
  let (ok, m) ← XTEA_decrypt m k
  if ok then some (.accepted checksummed m) else some (.refused checksummed m)

/-- `Connection::parsePacket` on a message that holds a packet. -/
def Connection.parsePacket (c : Connection) (m : NetworkMessage) (k : Xtea.RoundKeys) :
    Option Received := do
  let (checksummed, m) ← testChecksum m
  if c.receivedFirst then onRecvMessage k checksummed m
  else do
    let m ← c.skipProtocolId m
    some (.first checksummed m)

/-- The bytes of one packet arrive in the reused message `m` of a connection. -/
def Connection.receive (c : Connection) (m : NetworkMessage) (k : Xtea.RoundKeys)
    (packet : List UInt8) : Option Received :=
  if packet.length < 2 then some .incomplete
  else do
    let m ← m.write 0 (packet.take 2)
    match parseHeader m with
    | none => some .closed
    | some m =>
      if packet.length ≠ m.length then some .incomplete
      else do
        let m ← m.write m.position (packet.drop 2)
        c.parsePacket m k

end ForgottenServer.Network
