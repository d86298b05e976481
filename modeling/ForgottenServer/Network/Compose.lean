import ForgottenServer.Network.Calls

/-! # What a sequence of write calls leaves in the body

A primitive write appends its whole encoding to the body or changes nothing
(`Write.run_spec`). A composite call that fits, or none of whose primitive writes
fits, therefore also does one of the two; near the end of the buffer a composite
call can leave a part of its encoding, because every primitive asks for its own
room only. -/

namespace ForgottenServer.Network

open ByteMemory LittleEndian

def NetworkMessage.body (m : NetworkMessage) : List UInt8 := (m.buffer.drop 8).take m.length

/-- The position is behind the body and leaves room for the trailing bytes. -/
structure NetworkMessage.Filled (m : NetworkMessage) : Prop where
  position_eq : m.position = 8 + m.length
  position_lt : m.position < MAX_BODY_LENGTH

namespace Write

/-- The text of a string write has a Latin-1 form. -/
def Representable : Write → Prop
  | .addString value => ∃ latin1, value = toUtf8 latin1
  | _ => True

def encoding (simd : Simdutf) : Write → List UInt8
  | .addByte value => [value]
  | .add size value => leBytes size value
  | .addString value =>
    leBytes 2 (simd.convert_utf8_to_latin1 value).length ++ simd.convert_utf8_to_latin1 value
  | .addBytes bytes => bytes

/-- Strings and byte blocks longer than this are refused whatever the room. -/
def Small (simd : Simdutf) : Write → Prop
  | .addString value => (simd.convert_utf8_to_latin1 value).length ≤ 8192
  | .addBytes bytes => bytes.length ≤ 8192
  | _ => True

/-- A primitive write is made when it is small enough and fits. -/
def Accepted (simd : Simdutf) (position : Nat) (w : Write) : Prop :=
  w.Small simd ∧ position + (w.encoding simd).length < MAX_BODY_LENGTH

end Write

theorem MAX_BODY_LENGTH_eq : MAX_BODY_LENGTH = 65486 := rfl

/-! ## One primitive write -/

theorem NetworkMessage.write_eq (m : NetworkMessage) (pos : Nat) (bytes : List UInt8)
    (h : pos + bytes.length ≤ NETWORKMESSAGE_MAXSIZE) :
    ∃ m', m.write pos bytes = some m' ∧ m'.position = m.position ∧ m'.length = m.length ∧
      m'.overrun = m.overrun ∧ m'.buffer.take (pos + bytes.length) = m.buffer.take pos ++ bytes := by
  have hs : store m.buffer pos bytes = _ := store_eq_some (by rw [m.buffer_size]; exact h)
  unfold NetworkMessage.write
  split
  · rename_i hnone
    rw [hs] at hnone
    cases hnone
  · rename_i buffer hsome
    exact ⟨_, rfl, rfl, rfl, rfl, take_store hsome⟩

/-- The body is what stands between the header space and the position. -/
theorem NetworkMessage.Filled.take_position {m : NetworkMessage} (h : m.Filled) :
    m.buffer.take m.position = m.buffer.take 8 ++ m.body := by
  rw [h.position_eq, List.take_add]
  rfl

/-- Bytes written at the position and then counted extend the body. -/
theorem NetworkMessage.Filled.extend {m : NetworkMessage} (h : m.Filled) (m' : NetworkMessage) {bytes : List UInt8}
    (hfit : m.position + bytes.length < MAX_BODY_LENGTH)
    (hbuf : m'.buffer.take (m.position + bytes.length) = m.buffer.take m.position ++ bytes)
    (hpos : m'.position = u16 (m.position + bytes.length))
    (hlen : m'.length = u16 (m.length + bytes.length)) :
    m'.Filled ∧ m'.body = m.body ++ bytes := by
  rw [MAX_BODY_LENGTH_eq] at hfit
  have hp := h.position_eq
  have hpos' : m'.position = m.position + bytes.length := by rw [hpos, u16]; omega
  have hlen' : m'.length = m.length + bytes.length := by rw [hlen, u16]; omega
  have hfilled : m'.Filled := ⟨by omega, by rw [MAX_BODY_LENGTH_eq]; omega⟩
  have hsame : m'.buffer.take 8 = m.buffer.take 8 := by
    have := congrArg (List.take 8) hbuf
    rwa [List.take_take, Nat.min_eq_left (by omega), List.take_append_of_le_length (by
      rw [List.length_take, m.buffer_size, NETWORKMESSAGE_MAXSIZE]; omega), List.take_take,
      Nat.min_eq_left (by omega)] at this
  refine ⟨hfilled, ?_⟩
  have hall := hfilled.take_position
  rw [hpos', hbuf, h.take_position, hsame, List.append_assoc] at hall
  exact (List.append_cancel_left hall).symm

theorem NetworkMessage.Filled.put {m : NetworkMessage} (h : m.Filled) (bytes : List UInt8)
    (hfit : m.position + bytes.length < MAX_BODY_LENGTH) :
    ∃ m', m.put bytes = some m' ∧ m'.Filled ∧ m'.body = m.body ++ bytes ∧
      m'.overrun = m.overrun := by
  obtain ⟨w, hw, _, _, hover, hbuf⟩ := m.write_eq m.position bytes
    (by rw [MAX_BODY_LENGTH_eq] at hfit; rw [NETWORKMESSAGE_MAXSIZE]; omega)
  refine ⟨_, by rw [NetworkMessage.put, hw]; rfl, ?_⟩
  obtain ⟨hf, hb⟩ := h.extend { w with
    position := u16 (m.position + bytes.length), length := u16 (m.length + bytes.length) }
    hfit hbuf rfl rfl
  exact ⟨hf, hb, hover⟩

theorem NetworkMessage.canAdd_iff {m : NetworkMessage} {size : Nat} :
    m.canAdd size = true ↔ m.position + size < MAX_BODY_LENGTH := by
  rw [NetworkMessage.canAdd, decide_eq_true_eq, Nat.add_comm]

/-- A body that grew by some bytes moved the position by their number. -/
theorem NetworkMessage.Filled.position_of_body {m m' : NetworkMessage} (h : m.Filled)
    (h' : m'.Filled) {bytes : List UInt8} (hb : m'.body = m.body ++ bytes) :
    m'.position = m.position + bytes.length := by
  have hl := congrArg List.length hb
  have h₁ := h.position_eq
  have h₂ := h'.position_eq
  have h₃ := h.position_lt
  have h₄ := h'.position_lt
  simp only [NetworkMessage.body, List.length_append, List.length_take, List.length_drop,
    m.buffer_size, m'.buffer_size, NETWORKMESSAGE_MAXSIZE, MAX_BODY_LENGTH_eq] at hl h₃ h₄
  omega

theorem NetworkMessage.Filled.addString {simd : Simdutf} (hsimd : simd.Correct)
    {m : NetworkMessage} (h : m.Filled) {latin1 : List UInt8} (hsmall : latin1.length ≤ 8192)
    (hfit : m.position + (2 + latin1.length) < MAX_BODY_LENGTH) :
    ∃ m', m.addString simd (toUtf8 latin1) = some m' ∧ m'.Filled ∧
      m'.body = m.body ++ (leBytes 2 latin1.length ++ latin1) ∧ m'.overrun = m.overrun := by
  have hroom : m.canAdd (latin1.length + 2) = true := canAdd_iff.mpr (by omega)
  have hroom2 : m.canAdd 2 = true := canAdd_iff.mpr (by omega)
  have hlen : u16 latin1.length = latin1.length := by rw [u16]; omega
  -- the length prefix, then the converted text behind it
  obtain ⟨p, hp, hpf, hpb, hpo⟩ := h.put (leBytes 2 latin1.length) (by simp; omega)
  have hpos : p.position = m.position + 2 := by simpa using h.position_of_body hpf hpb
  obtain ⟨q, hq, _, _, hqo, hqb⟩ := p.write_eq p.position latin1
    (by rw [MAX_BODY_LENGTH_eq] at hfit; rw [NETWORKMESSAGE_MAXSIZE]; omega)
  obtain ⟨hqf, hqbody⟩ := hpf.extend { q with
    position := u16 (p.position + latin1.length), length := u16 (p.length + latin1.length) }
    (by omega) hqb rfl rfl
  refine ⟨_, ?_, hqf, by rw [hqbody, hpb, List.append_assoc], hqo.trans hpo⟩
  rw [NetworkMessage.addString, hsimd.latin1_length, hsimd.to_latin1, if_neg (by simp [hroom]; omega),
    hlen, NetworkMessage.add, hroom2, if_neg (by simp), hp]
  simp [hq, bind, Option.bind]

/-- The outcomes of a primitive write as one fact: the body grows by the whole encoding
when the write is accepted, and nothing changes otherwise. -/
theorem Write.run_spec {simd : Simdutf} (hsimd : simd.Correct) {m : NetworkMessage} (h : m.Filled)
    {w : Write} (hrep : w.Representable) :
    (w.Accepted simd m.position → ∃ m', w.run simd m = some m' ∧ m'.Filled ∧
      m'.body = m.body ++ w.encoding simd ∧ m'.overrun = m.overrun) ∧
    (¬ w.Accepted simd m.position → w.run simd m = some m) := by
  cases w with
  | addByte value =>
    simp only [Accepted, Small, true_and, encoding, List.length_singleton, run]
    rw [← NetworkMessage.canAdd_iff, NetworkMessage.addByte]
    constructor
    · intro hroom
      rw [hroom, if_neg (by simp)]
      exact h.put _ (NetworkMessage.canAdd_iff.mp hroom)
    · intro hfull
      rw [if_pos (by simpa using hfull)]
  | add size value =>
    simp only [Accepted, Small, true_and, encoding, length_leBytes, run]
    rw [← NetworkMessage.canAdd_iff, NetworkMessage.add]
    constructor
    · intro hroom
      rw [hroom, if_neg (by simp)]
      exact h.put _ (by simpa using NetworkMessage.canAdd_iff.mp hroom)
    · intro hfull
      rw [if_pos (by simpa using hfull)]
  | addBytes bytes =>
    simp only [Accepted, Small, encoding, run]
    rw [← NetworkMessage.canAdd_iff, NetworkMessage.addBytes]
    constructor
    · rintro ⟨hsmall, hroom⟩
      rw [hroom, if_neg (by simpa using hsmall)]
      exact h.put _ (NetworkMessage.canAdd_iff.mp hroom)
    · intro hfull
      rw [if_pos (by
        simp only [Bool.or_eq_true, Bool.not_eq_true', decide_eq_true_eq]
        by_cases hs : bytes.length ≤ 8192
        · exact .inl (by simpa using fun hr => hfull ⟨hs, hr⟩)
        · exact .inr (by omega))]
  | addString value =>
    obtain ⟨latin1, rfl⟩ := hrep
    simp only [Accepted, Small, encoding, run, hsimd.to_latin1, List.length_append, length_leBytes]
    constructor
    · rintro ⟨hsmall, hfit⟩
      exact h.addString hsimd hsmall hfit
    · intro hfull
      rw [NetworkMessage.addString, hsimd.latin1_length, if_pos]
      simp only [Bool.or_eq_true, Bool.not_eq_true', decide_eq_true_eq]
      by_cases hs : latin1.length ≤ 8192
      · left
        rw [← Bool.not_eq_true, NetworkMessage.canAdd_iff]
        exact fun hr => hfull ⟨hs, by omega⟩
      · exact .inr (by omega)

/-! ## A composite call -/

/-- A list of primitive writes whose room suffices for all of them is written whole. -/
theorem runWrites_fits {simd : Simdutf} (hsimd : simd.Correct) (ws : List Write) :
    ∀ {m : NetworkMessage}, m.Filled → (∀ w ∈ ws, w.Representable ∧ w.Small simd) →
      m.position + (ws.flatMap (Write.encoding simd)).length < MAX_BODY_LENGTH →
      ∃ m', runWrites simd m ws = some m' ∧ m'.Filled ∧
        m'.body = m.body ++ ws.flatMap (Write.encoding simd) ∧ m'.overrun = m.overrun := by
  induction ws with
  | nil => intro m h _ _; exact ⟨m, rfl, h, by simp, rfl⟩
  | cons w ws ih =>
    intro m h hws hfit
    simp only [List.flatMap_cons, List.length_append] at hfit
    obtain ⟨hrep, hsmall⟩ := hws w (by simp)
    obtain ⟨m₁, hrun, hf, hb, ho⟩ := (Write.run_spec hsimd h hrep).1 ⟨hsmall, by omega⟩
    have hpos := h.position_of_body hf hb
    obtain ⟨m₂, hrun₂, hf₂, hb₂, ho₂⟩ := ih hf (fun v hv => hws v (by simp [hv])) (by omega)
    refine ⟨m₂, ?_, hf₂, ?_, ho₂.trans ho⟩
    · rw [runWrites, List.foldlM_cons, hrun]
      exact hrun₂
    · rw [hb₂, hb, List.flatMap_cons, List.append_assoc]

/-- A list of primitive writes none of which is accepted changes nothing. -/
theorem runWrites_refused {simd : Simdutf} (hsimd : simd.Correct) (ws : List Write)
    {m : NetworkMessage} (h : m.Filled) (hrep : ∀ w ∈ ws, w.Representable)
    (href : ∀ w ∈ ws, ¬ w.Accepted simd m.position) : runWrites simd m ws = some m := by
  induction ws with
  | nil => rfl
  | cons w ws ih =>
    rw [runWrites, List.foldlM_cons, (Write.run_spec hsimd h (hrep w (by simp))).2 (href w (by simp))]
    exact ih (fun v hv => hrep v (by simp [hv])) (fun v hv => href v (by simp [hv]))

end ForgottenServer.Network
