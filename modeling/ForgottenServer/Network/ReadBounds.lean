import ForgottenServer.Network.PacketRoundTrip

/-! # Reads of a received packet

The message of a connection is reused, and position and length are 16-bit numbers that
reads and `skipBytes` move anywhere. Two messages that agree on their first `k` bytes
give the same answers to all reads as long as no read that `canRead` admits reaches
behind `k` (`Same`). With the whole buffer for `k` this says that no read leaves the
buffer; with the packet for `k` it says that no read sees what an earlier packet left. -/

namespace ForgottenServer.Network

open ByteMemory LittleEndian

/-- A call on a received message. -/
inductive ReadOp where
  | read (r : Read)
  | skipBytes (count : Int)
  deriving DecidableEq, Repr

/-- The answer of a call, and whether the call set the overrun flag: the flag is cleared
before each call. -/
def ReadOp.run (simd : Simdutf) (m : NetworkMessage) :
    ReadOp → Option (Option (Value × Bool) × NetworkMessage)
  | .read r => do
    let (v, m') ← r.run simd { m with overrun := false }
    some (some (v, m'.overrun), m')
  | .skipBytes count => some (none, m.skipBytes count)

def runOps (simd : Simdutf) : NetworkMessage → List ReadOp →
    Option (List (Option (Value × Bool)) × NetworkMessage)
  | m, [] => some ([], m)
  | m, op :: ops => do
    let (v, m') ← op.run simd m
    let (vs, m'') ← runOps simd m' ops
    some (v :: vs, m'')

/-- Two messages that differ in bytes behind the first `k` only, which no admitted read
reaches. -/
structure Same (k : Nat) (m₁ m₂ : NetworkMessage) : Prop where
  position_eq : m₁.position = m₂.position
  length_eq : m₁.length = m₂.length
  take_eq : m₁.buffer.take k = m₂.buffer.take k
  le_size : k ≤ NETWORKMESSAGE_MAXSIZE
  covers : m₁.length + 8 ≤ k ∨ k = NETWORKMESSAGE_MAXSIZE

/-- Both results are there, with the same answer. -/
def Alike {α : Type} (k : Nat) (r₁ r₂ : Option (α × NetworkMessage)) : Prop :=
  ∃ a m₁ m₂, r₁ = some (a, m₁) ∧ r₂ = some (a, m₂) ∧ Same k m₁ m₂ ∧ m₁.overrun = m₂.overrun

theorem Same.refl {m : NetworkMessage} : Same NETWORKMESSAGE_MAXSIZE m m :=
  ⟨rfl, rfl, rfl, le_rfl, .inr rfl⟩

section

variable {k : Nat} {m₁ m₂ : NetworkMessage}

theorem Same.readable_eq (h : Same k m₁ m₂) (size : Nat) : m₁.readable size = m₂.readable size := by
  rw [NetworkMessage.readable, NetworkMessage.readable, h.position_eq, h.length_eq]

theorem Same.moved (h : Same k m₁ m₂) {position₁ position₂ : Nat} (hpos : position₁ = position₂)
    {overrun₁ overrun₂ : Bool} :
    Same k { m₁ with position := position₁, overrun := overrun₁ }
      { m₂ with position := position₂, overrun := overrun₂ } :=
  ⟨hpos, h.length_eq, h.take_eq, h.le_size, h.covers⟩

/-- An admitted read loads the same bytes from both. -/
theorem Same.take (h : Same k m₁ m₂) (ho : m₁.overrun = m₂.overrun) {size : Nat}
    (hread : m₁.readable size = true) : Alike k (m₁.take size) (m₂.take size) := by
  obtain ⟨hend, hmax⟩ := NetworkMessage.readable_iff.mp hread
  have hk : m₁.position + size ≤ k := by
    rcases h.covers with hcov | hcov <;> omega
  have hle := h.le_size
  have hload : load m₁.buffer m₁.position size = load m₂.buffer m₂.position size := by
    rw [← h.position_eq]
    exact load_congr h.take_eq hk (by rw [m₁.buffer_size]; exact hle) (by rw [m₂.buffer_size]; exact hle)
  have hsome := load_eq_some (show m₁.position + size ≤ m₁.buffer.length by rw [m₁.buffer_size]; omega)
  refine ⟨(m₁.buffer.drop m₁.position).take size, { m₁ with position := u16 (m₁.position + size) },
    { m₂ with position := u16 (m₂.position + size) }, ?_, ?_, h.moved (by rw [h.position_eq]), ho⟩
  · rw [NetworkMessage.take, hsome]
    rfl
  · rw [NetworkMessage.take, ← hload, hsome]
    rfl

theorem Same.get (h : Same k m₁ m₂) (ho : m₁.overrun = m₂.overrun) (size : Nat) :
    Alike k (m₁.get size) (m₂.get size) := by
  rw [NetworkMessage.get, NetworkMessage.get, ← h.readable_eq]
  by_cases hread : m₁.readable size = true
  · obtain ⟨bytes, n₁, n₂, h₁, h₂, hsame, hover⟩ := h.take ho hread
    rw [hread, if_neg (by simp), if_neg (by simp), h₁, h₂]
    exact ⟨_, n₁, n₂, rfl, rfl, hsame, hover⟩
  · rw [if_pos (by simpa using hread), if_pos (by simpa using hread)]
    exact ⟨0, _, _, rfl, rfl, h.moved h.position_eq, rfl⟩

theorem Same.getText {simd : Simdutf} (hsimd : simd.Correct) (h : Same k m₁ m₂)
    (ho : m₁.overrun = m₂.overrun) (stringLen : Nat) :
    Alike k (m₁.getText simd stringLen) (m₂.getText simd stringLen) := by
  rw [NetworkMessage.getText, NetworkMessage.getText, ← h.readable_eq]
  by_cases hread : m₁.readable stringLen = true
  · obtain ⟨bytes, n₁, n₂, h₁, h₂, hsame, hover⟩ := h.take ho hread
    rw [hread, if_neg (by simp), if_neg (by simp), h₁, h₂]
    simp only [Option.bind_eq_bind, Option.bind_some, hsimd.to_utf8, hsimd.utf8_length,
      Nat.lt_irrefl, if_false]
    exact ⟨_, n₁, n₂, rfl, rfl, hsame, hover⟩
  · rw [if_pos (by simpa using hread), if_pos (by simpa using hread)]
    exact ⟨[], _, _, rfl, rfl, h.moved h.position_eq, rfl⟩

theorem Same.getString {simd : Simdutf} (hsimd : simd.Correct) (h : Same k m₁ m₂)
    (ho : m₁.overrun = m₂.overrun) (stringLen : Nat) :
    Alike k (m₁.getString simd stringLen) (m₂.getString simd stringLen) := by
  rw [NetworkMessage.getString, NetworkMessage.getString]
  split
  · obtain ⟨n, n₁, n₂, h₁, h₂, hsame, hover⟩ := h.get ho 2
    rw [h₁, h₂]
    exact hsame.getText hsimd hover n
  · exact h.getText hsimd ho stringLen

theorem Same.getPosition (h : Same k m₁ m₂) (ho : m₁.overrun = m₂.overrun) :
    Alike k m₁.getPosition m₂.getPosition := by
  obtain ⟨x, a₁, a₂, ha₁, ha₂, hsame, hover⟩ := h.get ho 2
  obtain ⟨y, b₁, b₂, hb₁, hb₂, hsame, hover⟩ := hsame.get hover 2
  obtain ⟨z, c₁, c₂, hc₁, hc₂, hsame, hover⟩ := hsame.get hover 1
  refine ⟨⟨x, y, z⟩, c₁, c₂, ?_, ?_, hsame, hover⟩
  · simp only [NetworkMessage.getPosition, NetworkMessage.getByte, ha₁, hb₁, hc₁, Option.bind_eq_bind,
      Option.bind_some]
  · simp only [NetworkMessage.getPosition, NetworkMessage.getByte, ha₂, hb₂, hc₂, Option.bind_eq_bind,
      Option.bind_some]

/-- A read answers with a value made from the answer of the underlying function. -/
theorem Alike.map {α β : Type} {r₁ r₂ : Option (α × NetworkMessage)} (h : Alike k r₁ r₂) (f : α → β) :
    Alike k (r₁.bind fun p => some (f p.1, p.2)) (r₂.bind fun p => some (f p.1, p.2)) := by
  obtain ⟨a, n₁, n₂, rfl, rfl, hsame, hover⟩ := h
  exact ⟨f a, n₁, n₂, rfl, rfl, hsame, hover⟩

theorem Same.read {simd : Simdutf} (hsimd : simd.Correct) (h : Same k m₁ m₂)
    (ho : m₁.overrun = m₂.overrun) (r : Read) : Alike k (r.run simd m₁) (r.run simd m₂) := by
  cases r with
  | getByte => exact (h.get ho 1).map Value.number
  | get size => exact (h.get ho size).map Value.number
  | getString stringLen => exact (h.getString hsimd ho stringLen).map Value.text
  | getPosition => exact (h.getPosition ho).map Value.position

/-- One call, whatever the overrun flags were. -/
theorem Same.op {simd : Simdutf} (hsimd : simd.Correct) (h : Same k m₁ m₂) (op : ReadOp) :
    ∃ v n₁ n₂, op.run simd m₁ = some (v, n₁) ∧ op.run simd m₂ = some (v, n₂) ∧ Same k n₁ n₂ := by
  cases op with
  | read r =>
    obtain ⟨v, n₁, n₂, h₁, h₂, hsame, hover⟩ := Same.read hsimd (h.moved h.position_eq) rfl r
    refine ⟨some (v, n₁.overrun), n₁, n₂, ?_, ?_, hsame⟩
    · rw [ReadOp.run, h₁]
      rfl
    · rw [ReadOp.run, h₂, hover]
      rfl
  | skipBytes count =>
    refine ⟨none, _, _, rfl, rfl, ?_⟩
    exact ⟨by rw [NetworkMessage.skipBytes, NetworkMessage.skipBytes, h.position_eq], h.length_eq,
      h.take_eq, h.le_size, h.covers⟩

/-- Any sequence of calls stays inside both buffers and gets the same answers. -/
theorem Same.runOps {simd : Simdutf} (hsimd : simd.Correct) (ops : List ReadOp) :
    ∀ {m₁ m₂ : NetworkMessage}, Same k m₁ m₂ →
      ∃ vs n₁ n₂, runOps simd m₁ ops = some (vs, n₁) ∧ runOps simd m₂ ops = some (vs, n₂) := by
  induction ops with
  | nil => intro m₁ m₂ _; exact ⟨[], m₁, m₂, rfl, rfl⟩
  | cons op ops ih =>
    intro m₁ m₂ h
    obtain ⟨v, n₁, n₂, h₁, h₂, hsame⟩ := h.op hsimd op
    obtain ⟨vs, p₁, p₂, hp₁, hp₂⟩ := ih hsame
    refine ⟨v :: vs, p₁, p₂, ?_, ?_⟩
    · simp only [Network.runOps, h₁, hp₁, Option.bind_eq_bind, Option.bind_some]
    · simp only [Network.runOps, h₂, hp₂, Option.bind_eq_bind, Option.bind_some]

end

/-! ## From the packet to its reads -/

theorem NetworkMessage.get_eq {m : NetworkMessage} {size : Nat} (hread : m.readable size = true) :
    m.get size = some (leNat ((m.buffer.drop m.position).take size),
      { m with position := m.position + size }) := by
  obtain ⟨_, hmax⟩ := readable_iff.mp hread
  have hu : u16 (m.position + size) = m.position + size := by
    rw [u16]
    rw [NETWORKMESSAGE_MAXSIZE] at hmax
    omega
  rw [NetworkMessage.get, hread, if_neg (by simp), NetworkMessage.take,
    load_eq_some (by rw [m.buffer_size]; omega)]
  simp only [Option.bind_eq_bind, Option.bind_some, hu]

/-- The checksum field of a packet and the checksum of what follows it. -/
def checksumField (buffer : List UInt8) : Nat := leNat ((buffer.drop 2).take 4)

def checksumOf (buffer : List UInt8) (length : Nat) : Nat :=
  if 6 < length then (adlerChecksum ((buffer.drop 6).take (length - 6))).toNat else 0

/-- A packet in the message: the checksum test reads inside the buffer and leaves the
position behind the field, or in front of it. -/
theorem testChecksum_eq {m : NetworkMessage} (hpos : m.position = 2) (hlen : m.length ≤ 65485) :
    testChecksum m = some (if checksumField m.buffer = checksumOf m.buffer m.length then
      (true, { m with position := 6 }) else (false, m)) := by
  have hsize := m.buffer_size
  rw [NETWORKMESSAGE_MAXSIZE] at hsize
  have hsum : m.checksum = some (checksumOf m.buffer m.length) := by
    rw [NetworkMessage.checksum, checksumOf, hpos, CHECKSUM_LENGTH]
    by_cases hlong : 6 < m.length
    · rw [if_pos (by omega), if_pos hlong,
        show ((m.length : Int) - (2 : Nat) - (4 : Nat)).toNat = m.length - 6 by omega,
        load_eq_some (by omega)]
      rfl
    · rw [if_neg (by omega), if_neg hlong]
  have hget : m.get 4 = some (checksumField m.buffer, { m with position := 6 }) := by
    rw [NetworkMessage.get_eq (by rw [NetworkMessage.readable_iff, NETWORKMESSAGE_MAXSIZE]; omega), hpos]
    rfl
  simp only [testChecksum, hsum, hget, Option.bind_eq_bind, Option.bind_some]
  by_cases heq : checksumField m.buffer = checksumOf m.buffer m.length
  · rw [if_pos heq, if_neg (not_not.mpr heq)]
  · have hback : ({ m with position := 6 } : NetworkMessage).skipBytes (-CHECKSUM_LENGTH) = m := by
      rw [NetworkMessage.skipBytes]
      congr
      exact hpos.symm
    rw [if_neg heq, if_pos heq, hback]

/-- The position behind the checksum test. -/
theorem testChecksum_position {m : NetworkMessage} (hpos : m.position = 2) (hlen : m.length ≤ 65485) :
    ∃ b p, (p = 2 ∨ p = 6) ∧ testChecksum m = some (b, { m with position := p }) := by
  rw [testChecksum_eq hpos hlen]
  split
  · exact ⟨true, 6, .inr rfl, rfl⟩
  · refine ⟨false, 2, .inl rfl, ?_⟩
    rw [← hpos]

/-- Packets of at least six bytes: the test reads the packet only. -/
theorem testChecksum_same {m₁ m₂ : NetworkMessage} (hpos₁ : m₁.position = 2) (hpos₂ : m₂.position = 2)
    (hlen : m₁.length = m₂.length) (hmin : 6 ≤ m₁.length) (hmax : m₁.length ≤ 65485)
    (htake : m₁.buffer.take m₁.length = m₂.buffer.take m₁.length) :
    ∃ b p, (p = 2 ∨ p = 6) ∧ testChecksum m₁ = some (b, { m₁ with position := p }) ∧
      testChecksum m₂ = some (b, { m₂ with position := p }) := by
  have hfield : checksumField m₁.buffer = checksumField m₂.buffer := by
    rw [checksumField, checksumField, slice_congr htake (by omega)]
  have hsum : checksumOf m₁.buffer m₁.length = checksumOf m₂.buffer m₂.length := by
    rw [checksumOf, checksumOf, ← hlen]
    by_cases hlong : 6 < m₁.length
    · rw [if_pos hlong, if_pos hlong, slice_congr htake (by omega)]
    · rw [if_neg hlong, if_neg hlong]
  rw [testChecksum_eq hpos₁ hmax, testChecksum_eq hpos₂ (by omega), ← hfield, ← hsum]
  split
  · exact ⟨true, 6, .inr rfl, rfl, rfl⟩
  · refine ⟨false, 2, .inl rfl, ?_, ?_⟩
    · rw [← hpos₁]
    · rw [← hpos₂]

/-- The inner length of a message at a position in its first bytes. -/
theorem readInnerLength_eq {m : NetworkMessage} {p : Nat} (hp : p ≤ 6) (hpos : m.position = p)
    (hmax : m.length ≤ 65485) :
    m.readInnerLength = some (if leNat ((m.buffer.drop p).take 2) + 8 > m.length then
        (false, { m with position := p + 2 })
      else (true, { m with position := p + 2, length := leNat ((m.buffer.drop p).take 2) })) := by
  have hget : m.get 2 = some (leNat ((m.buffer.drop p).take 2), { m with position := p + 2 }) := by
    rw [NetworkMessage.get_eq (by rw [NetworkMessage.readable_iff, NETWORKMESSAGE_MAXSIZE]; omega), hpos]
  simp only [NetworkMessage.readInnerLength, hget, Option.bind_eq_bind, Option.bind_some]
  split <;> rfl

/-- Decryption reads inside the buffer; an accepted packet has an inner length that ends
inside the packet, and two messages that hold the same packet decrypt alike. -/
theorem XTEA_decrypt_same (m₁ m₂ : NetworkMessage) (k : Xtea.RoundKeys) {p : Nat} (hp : p ≤ 6)
    (hpos₁ : m₁.position = p) (hpos₂ : m₂.position = p) (hlen : m₁.length = m₂.length)
    (hmin : 3 ≤ m₁.length) (hmax : m₁.length ≤ 65485)
    (htake : m₁.buffer.take m₁.length = m₂.buffer.take m₁.length) :
    ∃ b n₁ n₂, XTEA_decrypt m₁ k = some (b, n₁) ∧ XTEA_decrypt m₂ k = some (b, n₂) ∧
      (b = true → Same m₁.length n₁ n₂ ∧ n₁.length + 8 ≤ m₁.length) := by
  by_cases hblocks : ((m₁.length : Int) - 6) % 8 = 0
  · obtain ⟨n, hn⟩ : ∃ n : Nat, m₁.length = n * 8 + 6 := ⟨(m₁.length - 6) / 8, by omega⟩
    have hbound : m₁.length ≤ NETWORKMESSAGE_MAXSIZE := by
      rw [NETWORKMESSAGE_MAXSIZE]
      omega
    obtain ⟨out₁, out₂, hout₁, hout₂, hagree⟩ := Xtea.decrypt_congr k htake
      (show p + n * 8 ≤ m₁.length by omega) (by rw [m₁.buffer_size]; exact hbound)
    obtain ⟨q₁, h₁, hbuf₁, hq₁, hlen₁⟩ := XTEA_decrypt_blocks hn (by rw [hpos₁, hout₁])
    obtain ⟨q₂, h₂, hbuf₂, hq₂, hlen₂⟩ := XTEA_decrypt_blocks (hlen ▸ hn) (by rw [hpos₂, hout₂])
    rw [← hbuf₁, ← hbuf₂] at hagree
    rw [h₁, h₂, readInnerLength_eq hp (hq₁.trans hpos₁) (by omega),
      readInnerLength_eq hp (hq₂.trans hpos₂) (by omega)]
    rcases Nat.eq_zero_or_pos n with rfl | hpositive
    · -- a packet without blocks is too short for any inner length
      rw [if_pos (by omega), if_pos (by omega)]
      exact ⟨false, _, _, rfl, rfl, by simp⟩
    · rw [slice_congr hagree (show p + 2 ≤ m₁.length by omega), hlen₁, hlen₂, ← hlen]
      split
      · exact ⟨false, _, _, rfl, rfl, by simp⟩
      · rename_i hinner
        refine ⟨true, _, _, rfl, rfl, fun _ => ⟨⟨rfl, rfl, ?_, hbound, .inl ?_⟩, ?_⟩⟩
        · exact hagree
        · exact Nat.le_of_not_lt hinner
        · exact Nat.le_of_not_lt hinner
  · rw [XTEA_decrypt, XTEA_decrypt, if_pos hblocks, if_pos (by rw [← hlen]; exact hblocks)]
    exact ⟨false, m₁, m₂, rfl, rfl, by simp⟩

theorem parsePacket_accepted_iff {c : Connection} {m n : NetworkMessage} {k : Xtea.RoundKeys} {b : Bool} :
    c.parsePacket m k = some (.accepted b n) ↔
      c.receivedFirst = true ∧ ∃ q, testChecksum m = some (b, q) ∧ XTEA_decrypt q k = some (true, n) := by
  simp only [Connection.parsePacket, Option.bind_eq_bind, Option.bind_eq_some_iff]
  constructor
  · rintro ⟨⟨b', q⟩, htest, h⟩
    split at h
    · rename_i hfirst
      simp only [onRecvMessage, Option.bind_eq_bind, Option.bind_eq_some_iff] at h
      obtain ⟨⟨ok, n'⟩, hdec, h⟩ := h
      cases ok with
      | false => cases h
      | true =>
        cases h
        exact ⟨hfirst, q, htest, hdec⟩
    · simp only [Option.bind_eq_some_iff] at h
      obtain ⟨_, _, h⟩ := h
      cases h
  · rintro ⟨hfirst, q, htest, hdec⟩
    refine ⟨(b, q), htest, ?_⟩
    simp only [hfirst, if_true, onRecvMessage, hdec, Option.bind_eq_bind, Option.bind_some]

/-- No packet makes `parsePacket` or `XTEA_decrypt` leave the buffer. -/
theorem parsePacket_total (c : Connection) {m : NetworkMessage} (k : Xtea.RoundKeys)
    (hpos : m.position = 2) (hmin : 3 ≤ m.length) (hmax : m.length ≤ 65485) :
    ∃ r, c.parsePacket m k = some r := by
  obtain ⟨b, p, hp, htest⟩ := testChecksum_position hpos hmax
  rw [Connection.parsePacket, htest]
  simp only [Option.bind_eq_bind, Option.bind_some]
  split
  · have hp6 : p ≤ 6 := by rcases hp with rfl | rfl <;> decide
    obtain ⟨ok, n, _, hdec, _, _⟩ := XTEA_decrypt_same { m with position := p } { m with position := p } k
      hp6 rfl rfl rfl hmin hmax rfl
    rw [onRecvMessage, hdec]
    cases ok with
    | true => exact ⟨_, rfl⟩
    | false => exact ⟨_, rfl⟩
  · rw [Connection.skipProtocolId]
    split
    · exact ⟨_, rfl⟩
    · have hsame : Same _ { m with position := p } { m with position := p } := .refl
      obtain ⟨v, n, _, hget, _⟩ := hsame.get rfl 1
      rw [NetworkMessage.getByte, hget]
      exact ⟨_, rfl⟩

/-- Whatever earlier packets left in the message of a connection, a packet is received
and read inside the buffer; once it is accepted, every answer is the one that any other
earlier contents would give, and no admitted read reaches behind the packet. -/
theorem receive_reads_packet {simd : Simdutf} (hsimd : simd.Correct) {packet : List UInt8}
    (hpacket : Complete packet) (k : Xtea.RoundKeys) (c : Connection) (m : NetworkMessage) :
    (∃ r, c.receive m k packet = some r) ∧
    (∀ (n : NetworkMessage) (ops : List ReadOp), ∃ answers n', runOps simd n ops = some (answers, n')) ∧
    ∀ checksummed n, c.receive m k packet = some (.accepted checksummed n) →
      n.length + 8 ≤ packet.length ∧
      ∀ m' : NetworkMessage, ∃ n', c.receive m' k packet = some (.accepted checksummed n') ∧
        ∀ ops : List ReadOp, ∃ answers p p',
          runOps simd n ops = some (answers, p) ∧ runOps simd n' ops = some (answers, p') := by
  obtain ⟨hmin, hmax⟩ := hpacket.bounds
  obtain ⟨m₁, hrecv₁, hbuf₁, hlen₁, hpos₁⟩ := receive_complete hpacket c m k
  refine ⟨?_, ?_, ?_⟩
  · rw [hrecv₁]
    exact parsePacket_total c k hpos₁ (by omega) (by omega)
  · intro n ops
    obtain ⟨answers, n', _, hrun, _⟩ := Same.runOps hsimd ops (Same.refl (m := n))
    exact ⟨answers, n', hrun⟩
  · intro checksummed n haccepted
    rw [hrecv₁, parsePacket_accepted_iff] at haccepted
    obtain ⟨hfirst, q, htest, hdec⟩ := haccepted
    -- an accepted packet has an inner length, so it is long enough for its checksum
    have hlong : n.length + 8 ≤ packet.length := by
      obtain ⟨b, p, hp, htest'⟩ := testChecksum_position hpos₁ (by omega)
      rw [htest] at htest'
      cases htest'
      have hp6 : p ≤ 6 := by rcases hp with rfl | rfl <;> decide
      obtain ⟨ok, n₁, _, hdec', _, hsame⟩ := XTEA_decrypt_same { m₁ with position := p }
        { m₁ with position := p } k hp6 rfl rfl rfl (by show 3 ≤ m₁.length; omega) (by show m₁.length ≤ 65485; omega) rfl
      rw [hdec] at hdec'
      cases hdec'
      exact (hsame rfl).2.trans_eq hlen₁
    refine ⟨hlong, fun m' => ?_⟩
    obtain ⟨m₂, hrecv₂, hbuf₂, hlen₂, hpos₂⟩ := receive_complete hpacket c m' k
    have htake : m₁.buffer.take m₁.length = m₂.buffer.take m₁.length := by
      rw [hlen₁, hbuf₁, hbuf₂, List.take_left' rfl, List.take_left' rfl]
    obtain ⟨b, p, hp, htest₁, htest₂⟩ := testChecksum_same hpos₁ hpos₂ (hlen₁.trans hlen₂.symm)
      (by omega) (by omega) htake
    rw [htest] at htest₁
    cases htest₁
    have hp6 : p ≤ 6 := by rcases hp with rfl | rfl <;> decide
    obtain ⟨ok, n₁, n₂, hdec₁, hdec₂, hsame⟩ := XTEA_decrypt_same { m₁ with position := p }
      { m₂ with position := p } k hp6 rfl rfl (hlen₁.trans hlen₂.symm)
      (by show 3 ≤ m₁.length; omega) (by show m₁.length ≤ 65485; omega) htake
    rw [hdec] at hdec₁
    cases hdec₁
    refine ⟨n₂, ?_, fun ops => Same.runOps hsimd ops (hsame rfl).1⟩
    rw [hrecv₂, parsePacket_accepted_iff]
    exact ⟨hfirst, _, htest₂, hdec₂⟩

/-- The packet of three bytes on a new connection. -/
theorem receive_reads_three :
    ∃ n, Connection.established.receive NetworkMessage.new (Xtea.expandKey fun _ => 7)
        (packetOf (Xtea.expandKey fun _ => 7) [1, 2, 3]) = some (.accepted true n) ∧
      n.length + 8 ≤ (packetOf (Xtea.expandKey fun _ => 7) [1, 2, 3]).length := by
  have hsmall : [(1 : UInt8), 2, 3].length ≤ 65470 := by decide
  obtain ⟨n, hrecv, _⟩ := receive_packetOf (Xtea.expandKey fun _ => 7) hsmall NetworkMessage.new
  exact ⟨n, hrecv, ((receive_reads_packet Simdutf.scalar_correct (packetOf_complete _ hsmall) _ _ _).2.2
    true n hrecv).1⟩

end ForgottenServer.Network
