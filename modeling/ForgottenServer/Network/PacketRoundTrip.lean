import ForgottenServer.Network.Framing
import ForgottenServer.Network.WholeCalls

/-! # A packet that is sent is received

The buffer of an output message is followed as a sequence of segments: the space for
the outer length, the checksum and the inner length, the body, and the rest. The
padding is appended by a bounded write like any other, so it is refused for the last
six sizes that `MAX_PROTOCOL_BODY_LENGTH` allows, and such a packet is refused. -/

namespace ForgottenServer.Network

open ByteMemory LittleEndian

/-! ## Messages as segments -/

theorem NetworkMessage.write_append {m : NetworkMessage} {pre old post bytes : List UInt8}
    (hbuf : m.buffer = pre ++ old ++ post) (hlen : bytes.length = old.length) :
    ∃ m', m.write pre.length bytes = some m' ∧ m'.buffer = pre ++ bytes ++ post ∧
      m'.position = m.position ∧ m'.length = m.length ∧ m'.overrun = m.overrun := by
  have hs : store m.buffer pre.length bytes = some (pre ++ bytes ++ post) := by
    rw [hbuf, store_append pre post hlen]
  unfold NetworkMessage.write
  split
  · rename_i hnone
    rw [hs] at hnone
    cases hnone
  · rename_i buffer hsome
    rw [hs] at hsome
    cases hsome
    exact ⟨_, rfl, rfl, rfl, rfl, rfl⟩

theorem NetworkMessage.write_fields {m m' : NetworkMessage} {pos : Nat} {bytes : List UInt8}
    (h : m.write pos bytes = some m') :
    m'.position = m.position ∧ m'.length = m.length ∧ m'.overrun = m.overrun := by
  unfold NetworkMessage.write at h
  split at h
  · cases h
  · cases h
    exact ⟨rfl, rfl, rfl⟩

theorem NetworkMessage.onBuffer_eq {m : NetworkMessage} (op : List UInt8 → Option (List UInt8))
    (hop : ∀ {mem mem'}, op mem = some mem' → mem'.length = mem.length) {buffer : List UInt8}
    (h : op m.buffer = some buffer) :
    ∃ m', m.onBuffer op hop = some m' ∧ m'.buffer = buffer ∧ m'.position = m.position ∧
      m'.length = m.length ∧ m'.overrun = m.overrun := by
  unfold NetworkMessage.onBuffer
  split
  · rename_i hnone
    rw [h] at hnone
    cases hnone
  · rename_i buffer' hsome
    rw [h] at hsome
    cases hsome
    exact ⟨_, rfl, rfl, rfl, rfl, rfl⟩

theorem NetworkMessage.onBuffer_fields {m m' : NetworkMessage} {op : List UInt8 → Option (List UInt8)}
    (hop : ∀ {mem mem'}, op mem = some mem' → mem'.length = mem.length)
    (h : m.onBuffer op hop = some m') :
    m'.position = m.position ∧ m'.length = m.length ∧ m'.overrun = m.overrun := by
  unfold NetworkMessage.onBuffer at h
  split at h
  · cases h
  · cases h
    exact ⟨rfl, rfl, rfl⟩

/-- A number at the position of a message is read. -/
theorem NetworkMessage.get_append {m : NetworkMessage} {pre bytes post : List UInt8}
    (hbuf : m.buffer = pre ++ bytes ++ post) (hpos : m.position = pre.length)
    (hread : m.position + bytes.length ≤ m.length + 8)
    (hmax : m.position + bytes.length < NETWORKMESSAGE_MAXSIZE) :
    m.get bytes.length = some (leNat bytes, { m with position := m.position + bytes.length }) := by
  have hu : u16 (m.position + bytes.length) = m.position + bytes.length := by
    rw [u16]
    rw [NETWORKMESSAGE_MAXSIZE] at hmax
    omega
  have hload : load m.buffer m.position bytes.length = some bytes := by rw [hbuf, hpos, load_append]
  rw [NetworkMessage.get, readable_iff.mpr ⟨hread, hmax⟩, if_neg (by simp), NetworkMessage.take, hload]
  simp only [Option.bind_eq_bind, Option.bind_some, hu]

/-! ## The body of an output message -/

/-- A body stands behind the header space of a message to which no header was added. -/
structure OutputMessage.Placed (msg : OutputMessage) (body : List UInt8) : Prop where
  start_eq : msg.outputBufferStart = 8
  position_eq : msg.position = 8 + body.length
  length_eq : msg.length = body.length
  body_eq : ∃ head post, msg.buffer = head ++ body ++ post ∧ head.length = 8

theorem OutputMessage.Placed.le {msg : OutputMessage} {body : List UInt8} (h : msg.Placed body) :
    8 + body.length ≤ NETWORKMESSAGE_MAXSIZE := by
  obtain ⟨head, post, hbuf, hhead⟩ := h.body_eq
  have hsize := congrArg List.length hbuf
  rw [msg.buffer_size, List.length_append, List.length_append] at hsize
  omega

theorem OutputMessage.placed_new : OutputMessage.new.Placed [] :=
  ⟨rfl, rfl, rfl, List.replicate 8 0, List.replicate (NETWORKMESSAGE_MAXSIZE - 8) 0, rfl, rfl⟩

/-! ## Sending -/

/-- A header fills the space before the start. -/
theorem OutputMessage.addHeader_append {msg : OutputMessage} {pre old post : List UInt8}
    {size : Nat} (value : Nat) (hbuf : msg.buffer = pre ++ old ++ post) (hold : old.length = size)
    (hstart : msg.outputBufferStart = pre.length + size) (hlen : msg.length + size < 65536) :
    ∃ msg', msg.addHeader size value = some msg' ∧
      msg'.buffer = pre ++ leBytes size value ++ post ∧
      msg'.outputBufferStart = pre.length ∧ msg'.position = msg.position ∧
      msg'.length = msg.length + size := by
  obtain ⟨m', hw, hbuf', hpos, _, _⟩ := NetworkMessage.write_append hbuf
     ((length_leBytes size value).trans hold.symm)
  refine ⟨{ m' with
    length := u16 (msg.length + size), outputBufferStart := pre.length }, ?_, hbuf', rfl, hpos, ?_⟩
  · rw [OutputMessage.addHeader, if_neg (by omega), hstart, Nat.add_sub_cancel]
    simp only [hw, Option.bind_eq_bind, Option.bind_some]
  · exact Nat.mod_eq_of_lt hlen

/-- The padding of a body behind its inner length. -/
def padding (length : Nat) : List UInt8 := List.replicate ((8 - (length + 2) % 8) % 8) 0x33

/-- The plain text of a packet. -/
def plainText (body : List UInt8) : List UInt8 :=
  leBytes 2 body.length ++ body ++ padding body.length

theorem length_padding (length : Nat) : (padding length).length = (8 - (length + 2) % 8) % 8 :=
  List.length_replicate

/-- The number of blocks of a packet. -/
def blocks (body : List UInt8) : Nat := (body.length + 9) / 8

theorem length_plainText (body : List UInt8) : (plainText body).length = blocks body * 8 := by
  rw [plainText, List.length_append, List.length_append, length_leBytes, length_padding, blocks]
  omega

/-- The padding step of `XTEA_encrypt` completes the plain text. -/
theorem pad_append {m : NetworkMessage} {pre body post : List UInt8}
    (hbuf : m.buffer = pre ++ (leBytes 2 body.length ++ body) ++ post) (hpre : pre.length = 6)
    (hpos : m.position = 8 + body.length) (hlen : m.length = body.length + 2)
    (hfit : body.length ≤ 65470) :
    ∃ m' post', m.padToBlock = some m' ∧
      m'.buffer = pre ++ plainText body ++ post' ∧ m'.length = blocks body * 8 := by
  have hblocks := length_plainText body
  rw [plainText, List.length_append, List.length_append, length_leBytes, length_padding] at hblocks
  by_cases hzero : m.length % 8 = 0
  · have hnil : padding body.length = [] := by
      rw [← List.length_eq_zero_iff, length_padding]
      omega
    refine ⟨m, post, by rw [NetworkMessage.padToBlock, if_neg (by simpa using hzero)], ?_, by omega⟩
    rw [plainText, hnil, List.append_nil, hbuf]
  · have hsize : (8 - (body.length + 2) % 8) % 8 = 8 - m.length % 8 := by omega
    -- the padding replaces the first bytes behind the body
    have hroom : m.canAdd (8 - m.length % 8) = true := by
      rw [NetworkMessage.canAdd_iff, MAX_BODY_LENGTH_eq]
      omega
    have htotal := congrArg List.length hbuf
    rw [m.buffer_size, NETWORKMESSAGE_MAXSIZE] at htotal
    simp only [List.length_append, length_leBytes] at htotal
    have hslot : (post.take (8 - m.length % 8)).length = 8 - m.length % 8 := by
      rw [List.length_take]
      omega
    have hsegs : m.buffer = pre ++ (leBytes 2 body.length ++ body) ++ post.take (8 - m.length % 8) ++
        post.drop (8 - m.length % 8) := by
      rw [List.append_assoc _ (post.take _), List.take_append_drop, hbuf]
    obtain ⟨m', hw, hbuf', _, _, _⟩ := NetworkMessage.write_append hsegs
      (List.length_replicate.trans hslot.symm : (List.replicate _ (0x33 : UInt8)).length = _)
    have hend : (pre ++ (leBytes 2 body.length ++ body)).length = m.position := by
      simp only [List.length_append, length_leBytes]
      omega
    rw [hend] at hw
    refine ⟨{ m' with length := u16 (m.length + (8 - m.length % 8)) },
      post.drop (8 - m.length % 8), ?_, ?_, ?_⟩
    · rw [NetworkMessage.padToBlock, if_pos (by simpa using hzero), NetworkMessage.addPaddingBytes,
        hroom, if_neg (by simp)]
      simp only [hw, Option.bind_eq_bind, Option.bind_some]
    · show m'.buffer = _
      rw [hbuf', plainText, padding, hsize, ← List.append_assoc pre (leBytes 2 body.length ++ body)]
    · show u16 _ = _
      rw [u16]
      omega

/-- The packet built for a body. -/
def packetOf (k : Xtea.RoundKeys) (body : List UInt8) : List UInt8 :=
  let cipherText := Xtea.encryptData k (blocks body) (plainText body)
  leBytes 2 (blocks body * 8 + 4) ++ leBytes 4 (adlerChecksum cipherText).toNat ++ cipherText

/-- The settings of a protocol with encryption and checksums. -/
def Protocol.secure (k : Xtea.RoundKeys) : Protocol :=
  { key := k, encryptionEnabled := true, checksumEnabled := true, rawMessages := false }

/-- The header space: outer length, checksum, inner length. -/
theorem split_header {head : List UInt8} (h : head.length = 8) :
    ∃ a b c, head = a ++ b ++ c ∧ a.length = 2 ∧ b.length = 4 ∧ c.length = 2 := by
  refine ⟨head.take 2, (head.drop 2).take 4, head.drop 6, ?_, ?_, ?_, ?_⟩
  · rw [List.append_assoc, show 6 = 2 + 4 from rfl, ← List.drop_drop, List.take_append_drop,
      List.take_append_drop]
  all_goals simp [h]

theorem blocks_bounds {body : List UInt8} (hfit : body.length ≤ 65470) :
    body.length + 2 ≤ blocks body * 8 ∧ blocks body * 8 ≤ 65472 := by
  rw [blocks]
  omega

theorem XTEA_encrypt_append {msg : OutputMessage} {pre body post : List UInt8}
    (hbuf : msg.buffer = pre ++ (leBytes 2 body.length ++ body) ++ post) (hpre : pre.length = 6)
    (hstart : msg.outputBufferStart = 6) (hpos : msg.position = 8 + body.length)
    (hlen : msg.length = body.length + 2) (hfit : body.length ≤ 65470) (k : Xtea.RoundKeys) :
    ∃ msg' post', XTEA_encrypt msg k = some msg' ∧
      msg'.buffer = pre ++ Xtea.encryptData k (blocks body) (plainText body) ++ post' ∧
      msg'.outputBufferStart = 6 ∧ msg'.length = blocks body * 8 := by
  obtain ⟨m, post', hpad, hbuf', hlen'⟩ := pad_append hbuf hpre hpos hlen hfit
  have hcrypt : Xtea.encrypt m.buffer msg.outputBufferStart m.length k =
      some (pre ++ Xtea.encryptData k (blocks body) (plainText body) ++ post') := by
    rw [hbuf', hstart, ← hpre]
    exact Xtea.encrypt_append k pre post' (by rw [hlen', Xtea.blockCount_mul]) (length_plainText body)
  obtain ⟨m', hon, hbuf'', _, hlen'', _⟩ := NetworkMessage.onBuffer_eq
    (fun mem => Xtea.encrypt mem msg.outputBufferStart m.length k) Xtea.length_encrypt hcrypt
  refine ⟨{ m' with outputBufferStart := msg.outputBufferStart }, post', ?_, hbuf'', hstart,
    hlen''.trans hlen'⟩
  simp only [XTEA_encrypt, hpad, hon, Option.bind_eq_bind, Option.bind_some]

theorem OutputMessage.addCryptoHeader_append {msg : OutputMessage} {a b data post : List UInt8}
    (hbuf : msg.buffer = a ++ (b ++ (data ++ post))) (ha : a.length = 2) (hb : b.length = 4)
    (hstart : msg.outputBufferStart = 6) (hlen : msg.length = data.length)
    (hsize : data.length ≤ 65472) :
    ∃ msg', msg.addCryptoHeader true = some msg' ∧
      msg'.buffer = leBytes 2 (data.length + 4) ++
        (leBytes 4 (adlerChecksum data).toNat ++ (data ++ post)) ∧
      msg'.outputBufferStart = 0 ∧ msg'.length = data.length + 6 := by
  have hdata : load msg.buffer msg.outputBufferStart msg.length = some data := by
    have hload := load_append (a ++ b) data post
    rw [List.length_append, ha, hb, List.append_assoc, List.append_assoc, ← hbuf] at hload
    rw [hstart, hlen]
    exact hload
  obtain ⟨m₁, h₁, hbuf₁, hstart₁, _, hlen₁⟩ := OutputMessage.addHeader_append
    (adlerChecksum data).toNat (by rw [hbuf, ← List.append_assoc]) hb (by omega) (by omega)
  rw [List.append_assoc] at hbuf₁
  obtain ⟨m₂, h₂, hbuf₂, hstart₂, _, hlen₂⟩ := OutputMessage.addHeader_append m₁.length
    (by rw [hbuf₁, List.nil_append] : m₁.buffer = [] ++ a ++ _) ha (by rw [List.length_nil]; omega)
    (by omega)
  rw [hlen₁, hlen, List.nil_append] at hbuf₂
  refine ⟨m₂, ?_, hbuf₂, hstart₂, by omega⟩
  simp only [OutputMessage.addCryptoHeader, if_true, OutputMessage.addChecksum, hdata, h₁,
    OutputMessage.writeMessageLength, h₂, Option.bind_eq_bind, Option.bind_some]

/-- A body whose padding fits is sent as its packet. -/
theorem onSendMessage_fits {msg : OutputMessage} {body : List UInt8} (h : msg.Placed body)
    (hfit : body.length ≤ 65470) (k : Xtea.RoundKeys) :
    ∃ sent, (Protocol.secure k).onSendMessage msg = some sent ∧ sent.length = blocks body * 8 + 6 ∧
      sent.packet = some (packetOf k body) := by
  obtain ⟨head, post, hbuf, hhead⟩ := h.body_eq
  obtain ⟨a, b, c, rfl, ha, hb, hc⟩ := split_header hhead
  obtain ⟨hlow, hhigh⟩ := blocks_bounds hfit
  have hlen := h.length_eq
  have hcipher := Xtea.length_encryptData k (length_plainText body)
  -- the inner length, the padded and encrypted text, the outer headers
  obtain ⟨m₁, h₁, hbuf₁, hstart₁, hpos₁, hlen₁⟩ := OutputMessage.addHeader_append msg.length
    (by rw [hbuf, List.append_assoc] : msg.buffer = a ++ b ++ c ++ (body ++ post)) hc
    (by rw [h.start_eq, List.length_append]; omega) (by omega)
  rw [hlen, ← List.append_assoc, List.append_assoc (a ++ b)] at hbuf₁
  obtain ⟨m₂, post', h₂, hbuf₂, hstart₂, hlen₂⟩ := XTEA_encrypt_append hbuf₁
    (by rw [List.length_append]; omega) (by rw [hstart₁, List.length_append]; omega)
    (by rw [hpos₁, h.position_eq]) (by omega) hfit k
  rw [List.append_assoc, List.append_assoc] at hbuf₂
  obtain ⟨m₃, h₃, hbuf₃, hstart₃, hlen₃⟩ := OutputMessage.addCryptoHeader_append hbuf₂ ha hb hstart₂
    (by omega) (by omega)
  refine ⟨m₃, ?_, by omega, ?_⟩
  · simp only [Protocol.onSendMessage, Protocol.secure, OutputMessage.writeMessageLength,
      Bool.false_eq_true, if_false, if_true, h₁, h₂, h₃, Option.bind_eq_bind, Option.bind_some]
  · have hload := load_append [] (packetOf k body) post'
    have hpacket : (packetOf k body).length = blocks body * 8 + 6 := by
      simp only [packetOf, List.length_append, length_leBytes, hcipher]
      omega
    rw [OutputMessage.packet, hstart₃, hlen₃, hbuf₃, hcipher, ← hpacket]
    simpa only [packetOf, List.nil_append, List.append_assoc, List.length_nil] using hload

/-! ## Receiving -/

theorem admitsSize_iff {size : Nat} : admitsSize size = true ↔ 0 < size ∧ size < 65484 := by
  have hmax : NETWORKMESSAGE_MAXSIZE = 65500 := rfl
  simp only [admitsSize, Bool.not_eq_true', Bool.or_eq_false_iff, beq_eq_false_iff_ne,
    decide_eq_false_iff_not]
  omega

/-- The bytes of one packet: a header that gives the number of the bytes behind it. -/
structure Complete (packet : List UInt8) : Prop where
  length_eq : packet.length = 2 + leNat (packet.take 2)
  admitted : admitsSize (leNat (packet.take 2)) = true

theorem Complete.bounds {packet : List UInt8} (h : Complete packet) :
    3 ≤ packet.length ∧ packet.length < 65486 := by
  have hsize := admitsSize_iff.mp h.admitted
  have hlen := h.length_eq
  omega

/-- A complete packet overwrites the start of the reused buffer. -/
theorem receive_complete {packet : List UInt8} (h : Complete packet) (c : Connection)
    (m : NetworkMessage) (k : Xtea.RoundKeys) :
    ∃ m', c.receive m k packet = c.parsePacket m' k ∧ m'.buffer = packet ++ m.buffer.drop packet.length ∧
      m'.length = packet.length ∧ m'.position = 2 := by
  obtain ⟨hmin, hmax⟩ := h.bounds
  have hsize := m.buffer_size
  rw [NETWORKMESSAGE_MAXSIZE] at hsize
  have hhead : (packet.take 2).length = 2 := by
    rw [List.length_take]
    omega
  have hsplit : m.buffer = [] ++ m.buffer.take 2 ++ m.buffer.drop 2 := by simp
  obtain ⟨m₁, h₁, hbuf₁, _, _, _⟩ := NetworkMessage.write_append hsplit
    (show (packet.take 2).length = _ by rw [hhead, List.length_take]; omega)
  rw [List.nil_append] at hbuf₁
  have hheader : m₁.getLengthHeader = leNat (packet.take 2) := by
    rw [NetworkMessage.getLengthHeader, hbuf₁, List.take_left' hhead]
  have hlength : u16 (leNat (packet.take 2) + HEADER_LENGTH) = packet.length := by
    rw [u16, HEADER_LENGTH, h.length_eq]
    have := h.length_eq
    omega
  -- the content behind the header
  have hsplit₂ : m₁.buffer = packet.take 2 ++ (m.buffer.drop 2).take (packet.length - 2) ++
      m.buffer.drop packet.length := by
    rw [List.append_assoc, ← show 2 + (packet.length - 2) = packet.length by omega, ← List.drop_drop,
      show 2 + (packet.length - 2) - 2 = packet.length - 2 by omega, List.take_append_drop, hbuf₁]
  obtain ⟨m₃, h₃, hbuf₃, hpos₃, hlen₃, _⟩ := NetworkMessage.write_append
    (m := { m₁ with length := packet.length, position := 2 }) hsplit₂
    (show (packet.drop 2).length = _ by
      rw [List.length_drop, List.length_take, List.length_drop]
      omega)
  rw [hhead] at h₃
  refine ⟨m₃, ?_, by rw [hbuf₃, List.take_append_drop], hlen₃, hpos₃⟩
  rw [Connection.receive, if_neg (by omega), Option.bind_eq_bind]
  rw [List.length_nil] at h₁
  rw [h₁, Option.bind_some, parseHeader, hheader, h.admitted, hlength]
  simp only [Bool.not_true, Bool.false_eq_true, if_false, ne_eq, not_true_eq_false]
  rw [h₃]
  rfl

theorem packetOf_complete (k : Xtea.RoundKeys) {body : List UInt8} (hfit : body.length ≤ 65470) :
    Complete (packetOf k body) := by
  obtain ⟨hlow, hhigh⟩ := blocks_bounds hfit
  have hcipher := Xtea.length_encryptData k (length_plainText body)
  have hhead : leNat ((packetOf k body).take 2) = blocks body * 8 + 4 := by
    rw [packetOf, List.append_assoc, List.take_left' (length_leBytes 2 _), leNat_leBytes,
      Nat.mod_eq_of_lt (by omega)]
  refine ⟨?_, ?_⟩
  · rw [hhead]
    simp only [packetOf, List.length_append, length_leBytes, hcipher]
    omega
  · rw [hhead, admitsSize_iff]
    omega

theorem testChecksum_packetOf {m : NetworkMessage} {rest : List UInt8} (k : Xtea.RoundKeys)
    {body : List UInt8} (hfit : body.length ≤ 65470) (hbuf : m.buffer = packetOf k body ++ rest)
    (hlen : m.length = (packetOf k body).length) (hpos : m.position = 2) :
    testChecksum m = some (true, { m with position := 6 }) := by
  obtain ⟨hlow, hhigh⟩ := blocks_bounds hfit
  have hcipher := Xtea.length_encryptData k (length_plainText body)
  have hsize : m.length = blocks body * 8 + 6 := by
    simp only [hlen, packetOf, List.length_append, length_leBytes, hcipher]
    omega
  generalize hE : Xtea.encryptData k (blocks body) (plainText body) = cipherText at hcipher
  simp only [packetOf, hE] at hbuf
  have hload : load m.buffer (m.position + CHECKSUM_LENGTH)
      ((m.length : Int) - m.position - CHECKSUM_LENGTH).toNat = some cipherText := by
    have h := load_append (leBytes 2 (blocks body * 8 + 4) ++ leBytes 4 (adlerChecksum cipherText).toNat)
      cipherText rest
    rw [← hbuf, List.length_append, length_leBytes, length_leBytes, hcipher] at h
    rw [hpos, hsize, CHECKSUM_LENGTH]
    rw [show ((blocks body * 8 + 6 : Nat) - (2 : Nat) - (4 : Nat) : Int).toNat = blocks body * 8 by omega]
    exact h
  have hget := NetworkMessage.get_append
    (by rw [hbuf, List.append_assoc] : m.buffer = leBytes 2 (blocks body * 8 + 4) ++
      leBytes 4 (adlerChecksum cipherText).toNat ++ (cipherText ++ rest))
    (by rw [hpos, length_leBytes]) (by rw [length_leBytes]; omega)
    (by rw [length_leBytes, NETWORKMESSAGE_MAXSIZE]; omega)
  have hadler := (adlerChecksum cipherText).toNat_lt
  rw [length_leBytes, leNat_leBytes, Nat.mod_eq_of_lt (by omega), hpos] at hget
  rw [testChecksum, NetworkMessage.checksum, if_pos (by rw [hpos, hsize, CHECKSUM_LENGTH]; omega), hload]
  simp only [Option.bind_eq_bind, Option.bind_some, hget, ne_eq, not_true_eq_false, if_false]

/-- A packet of whole blocks is decrypted, then its inner length is read. -/
theorem XTEA_decrypt_blocks {m : NetworkMessage} {k : Xtea.RoundKeys} {n : Nat}
    (hlen : m.length = n * 8 + 6) {out : List UInt8}
    (hout : Xtea.decrypt m.buffer m.position (n * 8) k = some out) :
    ∃ m' : NetworkMessage, XTEA_decrypt m k = m'.readInnerLength ∧ m'.buffer = out ∧ m'.position = m.position ∧
      m'.length = m.length := by
  have hcount : ((m.length : Int) - 6).toNat = n * 8 := by omega
  rw [← hcount] at hout
  obtain ⟨m', hm', hbuf, hpos, hlen', _⟩ := NetworkMessage.onBuffer_eq
    (fun mem => Xtea.decrypt mem m.position ((m.length : Int) - 6).toNat k) Xtea.length_decrypt hout
  refine ⟨m', ?_, hbuf, hpos, hlen'⟩
  rw [XTEA_decrypt, if_neg (by omega), hm']
  rfl

theorem XTEA_decrypt_packetOf {m : NetworkMessage} {pre rest : List UInt8} (k : Xtea.RoundKeys)
    {body : List UInt8} (hfit : body.length ≤ 65470)
    (hbuf : m.buffer = pre ++ Xtea.encryptData k (blocks body) (plainText body) ++ rest)
    (hpre : pre.length = 6) (hlen : m.length = blocks body * 8 + 6) (hpos : m.position = 6) :
    ∃ m', XTEA_decrypt m k = some (true, m') ∧ m'.position = 8 ∧ m'.length = body.length ∧
      load m'.buffer 8 body.length = some body := by
  obtain ⟨hlow, hhigh⟩ := blocks_bounds hfit
  have hcipher := Xtea.length_encryptData k (length_plainText body)
  have hplain := Xtea.decrypt_append k pre rest (Xtea.blockCount_mul (blocks body)) hcipher
  rw [Xtea.decryptData_encryptData k (length_plainText body), ← hbuf, hpre, ← hpos] at hplain
  obtain ⟨m₁, h₁, hbuf₁, hpos₁, hlen₁⟩ := XTEA_decrypt_blocks hlen hplain
  -- the inner length stands in front of the body
  have hget := NetworkMessage.get_append
    (by rw [hbuf₁, plainText, List.append_assoc, List.append_assoc, List.append_assoc,
      ← List.append_assoc pre] : m₁.buffer = pre ++ leBytes 2 body.length ++
        (body ++ (padding body.length ++ rest)))
    (by rw [hpos₁, hpos, hpre]) (by rw [length_leBytes]; omega)
    (by rw [length_leBytes, NETWORKMESSAGE_MAXSIZE]; omega)
  rw [length_leBytes, leNat_leBytes, Nat.mod_eq_of_lt (by omega), hpos₁, hpos] at hget
  refine ⟨{ m₁ with position := 8, length := body.length }, ?_, rfl, rfl, ?_⟩
  · rw [h₁]
    simp only [NetworkMessage.readInnerLength, Option.bind_eq_bind, Option.bind_some, hget]
    rw [if_neg (by show ¬ body.length + 8 > m₁.length; omega)]
  · show load m₁.buffer 8 body.length = some body
    have hload := load_append (pre ++ leBytes 2 body.length) body (padding body.length ++ rest)
    rw [List.length_append, hpre, length_leBytes] at hload
    rw [hbuf₁, plainText]
    simpa only [List.append_assoc] using hload

/-- A connection that has handled its first message. -/
def Connection.established : Connection := { receivedFirst := true, hasProtocol := true }

/-- The packet of a body is accepted by any connection with the key, whatever its
message held before. -/
theorem receive_packetOf (k : Xtea.RoundKeys) {body : List UInt8} (hfit : body.length ≤ 65470)
    (m : NetworkMessage) :
    ∃ m', Connection.established.receive m k (packetOf k body) = some (.accepted true m') ∧ m'.position = 8 ∧
      m'.length = body.length ∧ load m'.buffer 8 body.length = some body := by
  obtain ⟨hlow, hhigh⟩ := blocks_bounds hfit
  have hcipher := Xtea.length_encryptData k (length_plainText body)
  have hsize : (packetOf k body).length = blocks body * 8 + 6 := by
    simp only [packetOf, List.length_append, length_leBytes, hcipher]
    omega
  obtain ⟨m₁, h₁, hbuf₁, hlen₁, hpos₁⟩ := receive_complete (packetOf_complete k hfit) .established m k
  obtain ⟨m₂, h₂, hpos₂, hlen₂, hload⟩ := XTEA_decrypt_packetOf (m := { m₁ with position := 6 }) k hfit
    (show m₁.buffer = _ by rw [hbuf₁, packetOf]) (by simp) (hlen₁.trans hsize) rfl
  refine ⟨m₂, ?_, hpos₂, hlen₂, hload⟩
  rw [h₁, Connection.parsePacket, testChecksum_packetOf k hfit hbuf₁ hlen₁ hpos₁]
  simp only [Connection.established, onRecvMessage, Option.bind_eq_bind, Option.bind_some, h₂, if_true]

/-! ## Bodies -/

/-- The operations that place a body. -/
inductive Place where
  | add (c : Call)
  | append (other : NetworkMessage)
  | appendBytes (bytes : List UInt8)

def Place.run (simd : Simdutf) (items : Items) (config : Config) (msg : OutputMessage) :
    Place → Option OutputMessage
  | .add c => msg.add simd items config c
  | .append other => msg.append other
  | .appendBytes bytes => msg.appendBytes bytes

section

variable {simd : Simdutf} {items : Items} {config : Config}

theorem OutputMessage.Placed.of_filled {msg : OutputMessage} (hstart : msg.outputBufferStart = 8)
    (h : msg.toNetworkMessage.Filled) : msg.Placed msg.toNetworkMessage.body := by
  have hpos := h.position_eq
  have hlt := h.position_lt
  rw [MAX_BODY_LENGTH_eq] at hlt
  have hlen : msg.toNetworkMessage.body.length = msg.length := by
    rw [NetworkMessage.body, List.length_take, List.length_drop, msg.buffer_size, NETWORKMESSAGE_MAXSIZE]
    omega
  refine ⟨hstart, by omega, hlen.symm, msg.buffer.take 8, msg.buffer.drop (8 + msg.length), ?_, ?_⟩
  · rw [NetworkMessage.body, List.append_assoc, ← List.drop_drop, List.take_append_drop,
      List.take_append_drop]
  · rw [List.length_take, msg.buffer_size]
    rfl

/-- A message behind the limit refuses every write. -/
theorem runWrites_full {m : NetworkMessage} (h : MAX_BODY_LENGTH ≤ m.position) (ws : List Write) :
    runWrites simd m ws = some m := by
  have hfull : ∀ size, m.canAdd size = false := by
    intro size
    rw [← Bool.not_eq_true, NetworkMessage.canAdd_iff]
    omega
  induction ws with
  | nil => rfl
  | cons w ws ih =>
    have hw : w.run simd m = some m := by
      cases w <;> simp [Write.run, NetworkMessage.addByte, NetworkMessage.add, NetworkMessage.addString,
        NetworkMessage.addBytes, hfull]
    rw [runWrites, List.foldlM_cons, hw]
    exact ih

theorem OutputMessage.Placed.appendBytes_fits {msg : OutputMessage} {body : List UInt8}
    (h : msg.Placed body) {bytes : List UInt8}
    (hfit : 8 + body.length + bytes.length ≤ NETWORKMESSAGE_MAXSIZE) :
    ∃ msg', msg.appendBytes bytes = some msg' ∧ msg'.Placed (body ++ bytes) := by
  obtain ⟨head, post, hbuf, hhead⟩ := h.body_eq
  have hposition := h.position_eq
  have hlength := h.length_eq
  have htotal := congrArg List.length hbuf
  rw [msg.buffer_size] at htotal
  simp only [List.length_append] at htotal
  obtain ⟨m, hw, hbuf', _, _, _⟩ := NetworkMessage.write_append
    (by rw [hbuf, List.append_assoc _ (post.take bytes.length), List.take_append_drop] :
      msg.buffer = head ++ body ++ post.take bytes.length ++ post.drop bytes.length)
    (show bytes.length = _ by rw [List.length_take]; omega)
  rw [List.length_append, hhead, ← hposition] at hw
  rw [NETWORKMESSAGE_MAXSIZE] at hfit
  refine ⟨{ m with
    position := u16 (msg.position + bytes.length), length := u16 (msg.length + bytes.length),
    outputBufferStart := msg.outputBufferStart }, ?_, h.start_eq, ?_, ?_, head, post.drop bytes.length, ?_, hhead⟩
  · rw [OutputMessage.appendBytes, if_neg (by rw [NETWORKMESSAGE_MAXSIZE]; omega)]
    simp only [NetworkMessage.put, hw, Option.bind_eq_bind, Option.bind_some]
  · show u16 _ = _
    rw [u16, List.length_append]
    omega
  · show u16 _ = _
    rw [u16, List.length_append]
    omega
  · show m.buffer = _
    rw [hbuf', List.append_assoc head]

theorem OutputMessage.Placed.appendBytes {msg : OutputMessage} {body : List UInt8} (h : msg.Placed body)
    {bytes : List UInt8} {msg' : OutputMessage} (hrun : msg.appendBytes bytes = some msg') :
    ∃ body', msg'.Placed body' := by
  by_cases hfit : 8 + body.length + bytes.length ≤ NETWORKMESSAGE_MAXSIZE
  · obtain ⟨msg₁, hrun₁, h₁⟩ := h.appendBytes_fits hfit
    rw [hrun] at hrun₁
    cases hrun₁
    exact ⟨_, h₁⟩
  · rw [OutputMessage.appendBytes, if_pos (by rw [h.position_eq]; omega)] at hrun
    cases hrun
    exact ⟨body, h⟩

theorem OutputMessage.Placed.run (hsimd : simd.Correct) {msg : OutputMessage} {body : List UInt8}
    (h : msg.Placed body) {op : Place} (hrep : ∀ c, op = .add c → c.Representable items config)
    {msg' : OutputMessage} (hrun : op.run simd items config msg = some msg') :
    ∃ body', msg'.Placed body' := by
  cases op with
  | appendBytes bytes => exact h.appendBytes hrun
  | append other =>
    rw [Place.run, OutputMessage.append] at hrun
    split at hrun
    · cases hrun
      exact ⟨body, h⟩
    · rw [Option.bind_eq_bind, Option.bind_eq_some_iff] at hrun
      obtain ⟨bytes, _, hrun⟩ := hrun
      exact h.appendBytes hrun
  | add c =>
    rw [Place.run, OutputMessage.add, Option.bind_eq_bind, Option.bind_eq_some_iff] at hrun
    obtain ⟨m, hwrites, hrun⟩ := hrun
    cases hrun
    by_cases hlt : msg.position < MAX_BODY_LENGTH
    · have hfilled : msg.toNetworkMessage.Filled := ⟨by rw [h.position_eq, h.length_eq], hlt⟩
      obtain ⟨m', hrun, hf, _⟩ := Call.run_spec hsimd hfilled (hrep c rfl)
      rw [Call.run, hwrites] at hrun
      cases hrun
      exact ⟨_, .of_filled h.start_eq hf⟩
    · rw [runWrites_full (by omega)] at hwrites
      cases hwrites
      exact ⟨body, h⟩

/-- Whatever is placed in a new message, it stands behind the header space. -/
theorem placed_of_run (hsimd : simd.Correct) (ops : List Place)
    (hrep : ∀ c, .add c ∈ ops → c.Representable items config) :
    ∀ {msg msg' : OutputMessage} {body : List UInt8}, msg.Placed body →
      ops.foldlM (Place.run simd items config) msg = some msg' → ∃ body', msg'.Placed body' := by
  induction ops with
  | nil =>
    intro msg msg' body h hrun
    cases hrun
    exact ⟨body, h⟩
  | cons op ops ih =>
    intro msg msg' body h hrun
    rw [List.foldlM_cons, Option.bind_eq_bind, Option.bind_eq_some_iff] at hrun
    obtain ⟨msg₁, hop, hrun⟩ := hrun
    obtain ⟨body₁, h₁⟩ := h.run hsimd (fun c hc => hrep c (by simp [hc])) hop
    exact ih (fun c hc => hrep c (by simp [hc])) h₁ hrun

end

/-- What a sent body goes through: it stays inside the buffer, a whole number of blocks
is encrypted, and a connection with the same key accepts the packet, with the position
at the body, the length of the body and its bytes. -/
def RoundTrips (k : Xtea.RoundKeys) (msg : OutputMessage) (m : NetworkMessage) : Prop :=
  ∃ sent packet m', (Protocol.secure k).onSendMessage msg = some sent ∧
    sent.packet = some packet ∧ (sent.length - 6) % 8 = 0 ∧
    Connection.established.receive m k packet = some (.accepted true m') ∧ m'.position = 8 ∧ m'.length = msg.length ∧
    ∃ body, load msg.buffer 8 msg.length = some body ∧ load m'.buffer m'.position m'.length = some body

theorem RoundTrips.of_fits {msg : OutputMessage} {body : List UInt8} (h : msg.Placed body)
    (hfit : msg.length ≤ 65470) (k : Xtea.RoundKeys) (m : NetworkMessage) : RoundTrips k msg m := by
  have hlen := h.length_eq
  obtain ⟨head, post, hbuf, hhead⟩ := h.body_eq
  obtain ⟨sent, hsent, hsize, hpacket⟩ := onSendMessage_fits h (by omega) k
  obtain ⟨m', hrecv, hpos, hlen', hload⟩ := receive_packetOf k (show body.length ≤ 65470 by omega) m
  refine ⟨sent, _, m', hsent, hpacket, by omega, hrecv, hpos, by omega, body, ?_, ?_⟩
  · rw [hbuf, hlen, ← hhead]
    exact load_append head body post
  · rw [hpos, hlen']
    exact hload

/-! ## Bodies without room for their padding -/

theorem OutputMessage.addHeader_fields {msg msg' : OutputMessage} {size value : Nat}
    (h : msg.addHeader size value = some msg') (hstart : size ≤ msg.outputBufferStart) :
    msg'.length = u16 (msg.length + size) ∧ msg'.position = msg.position ∧
      msg'.outputBufferStart = msg.outputBufferStart - size := by
  rw [OutputMessage.addHeader, if_neg (by omega)] at h
  simp only [Option.bind_eq_bind, Option.bind_eq_some_iff] at h
  obtain ⟨m, hw, h⟩ := h
  cases h
  exact ⟨rfl, (NetworkMessage.write_fields hw).1, rfl⟩

/-- The refused padding leaves a length that is no multiple of eight. -/
theorem onSendMessage_unpadded {msg sent : OutputMessage} {body : List UInt8} (h : msg.Placed body)
    (hlow : 65471 ≤ body.length) (hhigh : body.length ≤ 65476) {k : Xtea.RoundKeys}
    (hsent : (Protocol.secure k).onSendMessage msg = some sent) : sent.length = body.length + 8 := by
  have hstart := h.start_eq
  have hposition := h.position_eq
  have hlength := h.length_eq
  simp only [Protocol.onSendMessage, Protocol.secure, Bool.false_eq_true, if_false, if_true,
    Option.bind_eq_bind, Option.bind_eq_some_iff] at hsent
  obtain ⟨m₁, h₁, m₂, h₂, h₃⟩ := hsent
  obtain ⟨hlen₁, hpos₁, hstart₁⟩ := OutputMessage.addHeader_fields h₁ (by omega)
  -- no room for the padding
  simp only [XTEA_encrypt, Option.bind_eq_bind, Option.bind_eq_some_iff] at h₂
  obtain ⟨m, hpad, m', hcrypt, h₂⟩ := h₂
  have hfull : m₁.canAdd (8 - m₁.length % 8) = false := by
    rw [← Bool.not_eq_true, NetworkMessage.canAdd_iff, MAX_BODY_LENGTH_eq, hpos₁, hposition, hlen₁, u16]
    omega
  rw [NetworkMessage.padToBlock, if_pos (by rw [hlen₁, u16]; omega), NetworkMessage.addPaddingBytes,
    hfull, if_pos (by rfl)] at hpad
  cases hpad
  have hlen₂ := (NetworkMessage.onBuffer_fields Xtea.length_encrypt hcrypt).2.1
  cases h₂
  simp only [OutputMessage.addCryptoHeader, if_true, OutputMessage.addChecksum, Option.bind_eq_bind,
    Option.bind_eq_some_iff] at h₃
  obtain ⟨m₃, ⟨_, _, h₃⟩, h₄⟩ := h₃
  obtain ⟨hlen₃, _, hstart₃⟩ := OutputMessage.addHeader_fields h₃ (by show 4 ≤ m₁.outputBufferStart; omega)
  obtain ⟨hlen₄, _, _⟩ := OutputMessage.addHeader_fields h₄ (by
    rw [hstart₃]
    show 2 ≤ m₁.outputBufferStart - 4
    omega)
  rw [hlen₄, hlen₃]
  show u16 (u16 (m'.length + 4) + 2) = _
  rw [hlen₂, hlen₁]
  simp only [u16]
  omega

/-- A body of at most `MAX_PROTOCOL_BODY_LENGTH` bytes goes through, from any writes and
appends on a new message to any connection with the key, exactly when it has at most
65470 bytes. -/
theorem packet_roundTrip_iff {simd : Simdutf} (hsimd : simd.Correct) {items : Items} {config : Config}
    (ops : List Place) (hrep : ∀ c, .add c ∈ ops → c.Representable items config) {msg : OutputMessage}
    (hrun : ops.foldlM (Place.run simd items config) OutputMessage.new = some msg)
    (hmax : msg.length ≤ MAX_PROTOCOL_BODY_LENGTH) (k : Xtea.RoundKeys) (m : NetworkMessage) :
    RoundTrips k msg m ↔ msg.length ≤ 65470 := by
  obtain ⟨body, h⟩ := placed_of_run hsimd ops hrep OutputMessage.placed_new hrun
  have hlen := h.length_eq
  have hmax' : msg.length ≤ 65476 := hmax
  constructor
  · rintro ⟨sent, packet, m', hsent, _, hblocks, _⟩
    refine Nat.le_of_not_lt fun hlt => ?_
    rw [onSendMessage_unpadded h (by omega) (by omega) hsent] at hblocks
    omega
  · intro hfit
    exact .of_fits h hfit k m

/-- Three bytes are received by a new connection. -/
theorem packet_roundTrip_three :
    ∃ msg, [Place.appendBytes [1, 2, 3]].foldlM (Place.run .scalar (fun _ => {}) ⟨true, true⟩)
        OutputMessage.new = some msg ∧
      RoundTrips (Xtea.expandKey fun _ => 7) msg NetworkMessage.new := by
  obtain ⟨msg, hrun, h⟩ := OutputMessage.placed_new.appendBytes_fits
    (show 8 + 0 + [(1 : UInt8), 2, 3].length ≤ NETWORKMESSAGE_MAXSIZE by decide)
  have hlen : msg.length = 3 := h.length_eq
  have hrun' : [Place.appendBytes [1, 2, 3]].foldlM (Place.run .scalar (fun _ => {}) ⟨true, true⟩)
      OutputMessage.new = some msg := by
    rw [List.foldlM_cons, Place.run, hrun]
    rfl
  refine ⟨msg, hrun', (packet_roundTrip_iff Simdutf.scalar_correct _ (by simp) hrun' ?_ _ _).mpr ?_⟩
  · rw [hlen]
    decide
  · omega

/-- A body of 65471 bytes is allowed and does not go through. -/
theorem not_roundTrips_65471 :
    ∃ msg, OutputMessage.new.appendBytes (List.replicate 65471 0) = some msg ∧
      msg.length ≤ MAX_PROTOCOL_BODY_LENGTH ∧
      ¬ RoundTrips (Xtea.expandKey fun _ => 7) msg NetworkMessage.new := by
  obtain ⟨msg, hrun, h⟩ := OutputMessage.placed_new.appendBytes_fits
    (show 8 + ([] : List UInt8).length + (List.replicate 65471 (0 : UInt8)).length ≤
      NETWORKMESSAGE_MAXSIZE by rw [List.length_replicate]; decide)
  have hbody : ([] ++ List.replicate 65471 (0 : UInt8)).length = 65471 := by
    rw [List.nil_append, List.length_replicate]
  refine ⟨msg, hrun, ?_, ?_⟩
  · rw [h.length_eq, hbody]
    decide
  · rintro ⟨sent, packet, m', hsent, _, hblocks, _⟩
    rw [onSendMessage_unpadded h (by omega) (by omega) hsent, hbody] at hblocks
    omega

end ForgottenServer.Network
