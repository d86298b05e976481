import ForgottenServer.Network.Compose

/-! # Reading a body back

The read calls that match a write call, and what they return on a body made of the
encodings of whole calls. -/

namespace ForgottenServer.Network

open ByteMemory LittleEndian

/-- One read call. -/
inductive Read where
  | getByte
  | get (size : Nat)
  | getString (stringLen : Nat)
  | getPosition
  deriving DecidableEq, Repr

inductive Value where
  | number (n : Nat)
  | text (utf8 : List UInt8)
  | position (pos : Position)
  deriving DecidableEq, Repr

def Read.run (simd : Simdutf) (m : NetworkMessage) : Read → Option (Value × NetworkMessage)
  | .getByte => do
    let (n, m') ← m.getByte
    some (.number n, m')
  | .get size => do
    let (n, m') ← m.get size
    some (.number n, m')
  | .getString stringLen => do
    let (text, m') ← m.getString simd stringLen
    some (.text text, m')
  | .getPosition => do
    let (pos, m') ← m.getPosition
    some (.position pos, m')

def runReads (simd : Simdutf) : NetworkMessage → List Read → Option (List Value × NetworkMessage)
  | m, [] => some ([], m)
  | m, r :: rs => do
    let (v, m') ← r.run simd m
    let (vs, m'') ← runReads simd m' rs
    some (v :: vs, m'')

/-- The reads that match a primitive write. -/
def Write.reads : Write → List Read
  | .addByte _ => [.getByte]
  | .add size _ => [.get size]
  | .addString _ => [.getString 0]
  | .addBytes bytes => bytes.map fun _ => .getByte

/-- The written values: a number of `size` bytes is its residue. -/
def Write.values : Write → List Value
  | .addByte value => [.number value.toNat]
  | .add size value => [.number (value % 256 ^ size)]
  | .addString value => [.text value]
  | .addBytes bytes => bytes.map fun b => .number b.toNat

/-- A position is read by `getPosition`, other composite writes part by part. -/
def Call.reads (items : Items) (config : Config) : Call → List Read
  | .addPosition _ _ _ => [.getPosition]
  | c => (c.writes items config).flatMap Write.reads

def Call.values (items : Items) (config : Config) : Call → List Value
  | .addPosition x y z => [.position ⟨x.toNat, y.toNat, z.toNat⟩]
  | c => (c.writes items config).flatMap Write.values

/-- The bytes from the read position to the end of the body. -/
structure NetworkMessage.Unread (m : NetworkMessage) (rest : List UInt8) : Prop where
  rest_eq : (m.buffer.take (8 + m.length)).drop m.position = rest
  position_le : m.position ≤ 8 + m.length
  end_lt : 8 + m.length < MAX_BODY_LENGTH
  no_overrun : m.overrun = false

namespace NetworkMessage

theorem readable_iff {m : NetworkMessage} {size : Nat} :
    m.readable size = true ↔
      m.position + size ≤ m.length + 8 ∧ m.position + size < NETWORKMESSAGE_MAXSIZE := by
  simp only [NetworkMessage.readable, Bool.not_eq_true', Bool.or_eq_false_iff, decide_eq_false_iff_not]
  omega

theorem Unread.length_eq {m : NetworkMessage} {rest : List UInt8} (h : m.Unread rest) :
    m.position + rest.length = 8 + m.length := by
  have hle := h.position_le
  have hlt := h.end_lt
  rw [← h.rest_eq, List.length_drop, List.length_take, m.buffer_size, NETWORKMESSAGE_MAXSIZE]
  rw [MAX_BODY_LENGTH_eq] at hlt
  omega

theorem Unread.readable {m : NetworkMessage} {rest : List UInt8} (h : m.Unread rest) {size : Nat}
    (hsize : size ≤ rest.length) : m.readable size = true := by
  have hlen := h.length_eq
  have hlt := h.end_lt
  rw [MAX_BODY_LENGTH_eq] at hlt
  rw [readable_iff, NETWORKMESSAGE_MAXSIZE]
  omega

/-- A read of bytes that are there returns them and moves behind them. -/
theorem Unread.take {m : NetworkMessage} {bytes rest : List UInt8} (h : m.Unread (bytes ++ rest)) :
    ∃ m', m.take bytes.length = some (bytes, m') ∧ m'.Unread rest := by
  have hlen := h.length_eq
  have hlt := h.end_lt
  rw [MAX_BODY_LENGTH_eq] at hlt
  rw [List.length_append] at hlen
  have hpos : u16 (m.position + bytes.length) = m.position + bytes.length := by rw [u16]; omega
  have hload : load m.buffer m.position bytes.length = some bytes := by
    rw [load_eq_some (by rw [m.buffer_size, NETWORKMESSAGE_MAXSIZE]; omega)]
    have hslice := congrArg (List.take bytes.length) h.rest_eq
    rw [List.drop_take, List.take_take, Nat.min_eq_left (by omega), List.take_left'  rfl] at hslice
    rw [hslice]
  refine ⟨{ m with position := u16 (m.position + bytes.length) },
    by rw [NetworkMessage.take, hload]; rfl, ?_, ?_, h.end_lt, h.no_overrun⟩
  · show (m.buffer.take (8 + m.length)).drop (u16 (m.position + bytes.length)) = rest
    rw [hpos, ← List.drop_drop, h.rest_eq, List.drop_left' rfl]
  · show u16 (m.position + bytes.length) ≤ 8 + m.length
    omega

theorem Unread.get {m : NetworkMessage} {bytes rest : List UInt8} (h : m.Unread (bytes ++ rest)) :
    ∃ m', m.get bytes.length = some (leNat bytes, m') ∧ m'.Unread rest := by
  obtain ⟨m', htake, hm'⟩ := h.take
  refine ⟨m', ?_, hm'⟩
  rw [NetworkMessage.get, h.readable (by simp), if_neg (by simp), htake]
  rfl

theorem Unread.getByte {m : NetworkMessage} {b : UInt8} {rest : List UInt8} (h : m.Unread (b :: rest)) :
    ∃ m', m.getByte = some (b.toNat, m') ∧ m'.Unread rest := by
  obtain ⟨m', hget, hm'⟩ := Unread.get (show m.Unread ([b] ++ rest) from h)
  refine ⟨m', ?_, hm'⟩
  rw [NetworkMessage.getByte, ← List.length_singleton (a := b), hget]
  simp [leNat]

theorem Unread.getNumber {m : NetworkMessage} {size value : Nat} {rest : List UInt8}
    (h : m.Unread (leBytes size value ++ rest)) :
    ∃ m', m.get size = some (value % 256 ^ size, m') ∧ m'.Unread rest := by
  obtain ⟨m', hget, hm'⟩ := h.get
  rw [length_leBytes, leNat_leBytes] at hget
  exact ⟨m', hget, hm'⟩

theorem Unread.getString {simd : Simdutf} (hsimd : simd.Correct) {m : NetworkMessage}
    {latin1 rest : List UInt8} (hsmall : latin1.length ≤ 8192)
    (h : m.Unread ((leBytes 2 latin1.length ++ latin1) ++ rest)) :
    ∃ m', m.getString simd 0 = some (toUtf8 latin1, m') ∧ m'.Unread rest := by
  rw [List.append_assoc] at h
  obtain ⟨p, hp, hup⟩ := h.getNumber
  rw [Nat.mod_eq_of_lt (by omega)] at hp
  obtain ⟨m', htake, hm'⟩ := hup.take
  refine ⟨m', ?_, hm'⟩
  rw [NetworkMessage.getString, if_pos rfl, hp]
  simp only [Option.bind_eq_bind, Option.bind_some]
  rw [NetworkMessage.getText, hup.readable (by simp), if_neg (by simp), htake]
  simp only [hsimd.to_utf8, hsimd.utf8_length, Nat.lt_irrefl, if_false, Option.bind_eq_bind,
    Option.bind_some]

theorem Unread.getPosition {m : NetworkMessage} {x y : UInt16} {z : UInt8} {rest : List UInt8}
    (h : m.Unread (leBytes 2 x.toNat ++ (leBytes 2 y.toNat ++ (z :: rest)))) :
    ∃ m', m.getPosition = some (⟨x.toNat, y.toNat, z.toNat⟩, m') ∧ m'.Unread rest := by
  obtain ⟨m₁, h₁, hu₁⟩ := h.getNumber
  obtain ⟨m₂, h₂, hu₂⟩ := hu₁.getNumber
  obtain ⟨m₃, h₃, hu₃⟩ := hu₂.getByte
  have hx := x.toNat_lt
  have hy := y.toNat_lt
  rw [Nat.mod_eq_of_lt (by omega)] at h₁ h₂
  refine ⟨m₃, ?_, hu₃⟩
  simp only [NetworkMessage.getPosition, h₁, h₂, h₃, Option.bind_eq_bind, Option.bind_some]

end NetworkMessage

/-! ## Sequences of reads -/

theorem runReads_append {simd : Simdutf} {rs ss : List Read} {vs ws : List Value} :
    ∀ {m m' m'' : NetworkMessage}, runReads simd m rs = some (vs, m') →
      runReads simd m' ss = some (ws, m'') → runReads simd m (rs ++ ss) = some (vs ++ ws, m'') := by
  induction rs generalizing vs with
  | nil =>
    intro m m' m'' h₁ h₂
    cases h₁
    exact h₂
  | cons r rs ih =>
    intro m m' m'' h₁ h₂
    simp only [runReads, Option.bind_eq_bind, Option.bind_eq_some_iff] at h₁
    obtain ⟨p, hp, q, hq, h₁⟩ := h₁
    cases h₁
    have hrest := ih hq h₂
    simp only [List.cons_append, runReads, hp, hrest, Option.bind_eq_bind, Option.bind_some]

/-- Reads return `values` on a body that starts with `bytes`, and stop behind them. -/
def ReadsBack (simd : Simdutf) (bytes : List UInt8) (reads : List Read) (values : List Value) : Prop :=
  ∀ (m : NetworkMessage) (rest : List UInt8), m.Unread (bytes ++ rest) →
    ∃ m', runReads simd m reads = some (values, m') ∧ m'.Unread rest

theorem ReadsBack.nil {simd : Simdutf} : ReadsBack simd [] [] [] :=
  fun m _ h => ⟨m, rfl, h⟩

theorem ReadsBack.append {simd : Simdutf} {bytes bytes' : List UInt8} {reads reads' : List Read}
    {values values' : List Value} (h : ReadsBack simd bytes reads values)
    (h' : ReadsBack simd bytes' reads' values') :
    ReadsBack simd (bytes ++ bytes') (reads ++ reads') (values ++ values') := by
  intro m rest hm
  rw [List.append_assoc] at hm
  obtain ⟨m₁, hr₁, hu₁⟩ := h m _ hm
  obtain ⟨m₂, hr₂, hu₂⟩ := h' m₁ _ hu₁
  exact ⟨m₂, runReads_append hr₁ hr₂, hu₂⟩

theorem ReadsBack.flatMap {simd : Simdutf} {α : Type} {bytes : α → List UInt8} {reads : α → List Read}
    {values : α → List Value} (l : List α)
    (h : ∀ a ∈ l, ReadsBack simd (bytes a) (reads a) (values a)) :
    ReadsBack simd (l.flatMap bytes) (l.flatMap reads) (l.flatMap values) := by
  induction l with
  | nil => exact .nil
  | cons a l ih =>
    simp only [List.flatMap_cons]
    exact (h a (by simp)).append (ih fun b hb => h b (by simp [hb]))

/-- One read is a sequence of reads. -/
theorem ReadsBack.single {simd : Simdutf} {bytes : List UInt8} {r : Read} {v : Value}
    (h : ∀ (m : NetworkMessage) (rest : List UInt8), m.Unread (bytes ++ rest) →
      ∃ m', r.run simd m = some (v, m') ∧ m'.Unread rest) : ReadsBack simd bytes [r] [v] := by
  intro m rest hm
  obtain ⟨m', hr, hu⟩ := h m rest hm
  exact ⟨m', by simp only [runReads, hr, Option.bind_eq_bind, Option.bind_some], hu⟩

theorem readsBack_byte {simd : Simdutf} (b : UInt8) :
    ReadsBack simd [b] [.getByte] [.number b.toNat] := by
  apply ReadsBack.single
  intro m rest hm
  obtain ⟨m', hr, hu⟩ := hm.getByte
  exact ⟨m', by simp only [Read.run, hr, Option.bind_eq_bind, Option.bind_some], hu⟩

theorem Write.readsBack {simd : Simdutf} (hsimd : simd.Correct) {w : Write} (hrep : w.Representable)
    (hsmall : w.Small simd) : ReadsBack simd (w.encoding simd) w.reads w.values := by
  cases w with
  | addByte value => exact readsBack_byte value
  | add size value =>
    apply ReadsBack.single
    intro m rest hm
    obtain ⟨m', hr, hu⟩ := hm.getNumber
    exact ⟨m', by simp only [Read.run, hr, Option.bind_eq_bind, Option.bind_some], hu⟩
  | addString value =>
    obtain ⟨latin1, rfl⟩ := hrep
    simp only [Write.Small, hsimd.to_latin1] at hsmall
    simp only [Write.encoding, hsimd.to_latin1]
    apply ReadsBack.single
    intro m rest hm
    obtain ⟨m', hr, hu⟩ := hm.getString hsimd hsmall
    exact ⟨m', by simp only [Read.run, hr, Option.bind_eq_bind, Option.bind_some], hu⟩
  | addBytes bytes =>
    have h : ReadsBack simd (bytes.flatMap fun b => [b]) (bytes.flatMap fun _ => [Read.getByte])
        (bytes.flatMap fun b => [Value.number b.toNat]) :=
      ReadsBack.flatMap bytes fun b _ => readsBack_byte b
    rw [List.flatMap_singleton', ← List.map_eq_flatMap, ← List.map_eq_flatMap] at h
    exact h

end ForgottenServer.Network
