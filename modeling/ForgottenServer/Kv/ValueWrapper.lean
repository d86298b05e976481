import ForgottenServer.Kv.Copies
import ForgottenServer.Lib.PointerDecoder

/-! # The bytes of a value

A value is written as a tag and its data, with the lengths of what is in it in front. The
decoder walks over the bytes with a pointer, checks what is left before it reads, and takes
no collection of more than a million elements. -/

namespace ForgottenServer.Kv

open LittleEndian PointerDecoder

/-- `ValueWrapper` without its timestamp. The entries of a map have distinct keys and stand in
the order in which the map is gone through; a value in a map can be a null pointer. -/
inductive Value where
  | string (s : List UInt8)
  | bool (b : Bool)
  | int (n : BitVec 32)
  | double (bits : BitVec 64)
  | array (items : List Value)
  | map (entries : List (List UInt8 × Option Value))

namespace Value

inductive SerType where
  | null | bool | int | double | string | array | map
  deriving DecidableEq

def SerType.code : SerType → UInt8
  | null => 0
  | bool => 1
  | int => 2
  | double => 3
  | string => 4
  | array => 5
  | map => 6

def SerType.ofByte (b : UInt8) : Option SerType :=
  [null, bool, int, double, string, array, map][b.toNat]?

theorem SerType.ofByte_code (t : SerType) : ofByte t.code = some t := by
  cases t <;> rfl

/-! ## Writing -/

/-- `writeLE` of a size that is cast to `uint32_t`. -/
def writeSize (n : ℕ) : List UInt8 := leBytes 4 n

mutual

def serialize : Value → List UInt8
  | string s => SerType.string.code :: (writeSize s.length ++ s)
  | bool b => [SerType.bool.code, if b then 1 else 0]
  | int n => SerType.int.code :: leBytes 4 n.toNat
  | double bits => SerType.double.code :: leBytes 8 bits.toNat
  | array items => SerType.array.code :: (writeSize items.length ++ serializeItems items)
  | map entries => SerType.map.code :: (writeSize entries.length ++ serializeEntries entries)

def serializeItems : List Value → List UInt8
  | [] => []
  | v :: vs => serialize v ++ serializeItems vs

def serializeEntries : List (List UInt8 × Option Value) → List UInt8
  | [] => []
  | (key, val) :: es => writeSize key.length ++ (key ++ serializePointer val) ++ serializeEntries es

def serializePointer : Option Value → List UInt8
  | none => [SerType.null.code]
  | some v => serialize v

end

/-! ## Reading -/

inductive Error where
  | unexpectedEnd
  | invalidArrayCount
  | invalidMapCount
  deriving DecidableEq

def maxCount : ℕ := 1000000

def readLEChecked (n : ℕ) : Decoder Error ℕ := do
  let bytes ← Decoder.readChecked .unexpectedEnd n
  pure (leNat bytes)

/-- `map[key] = ...` -/
def assign (entries : List (List UInt8 × Option Value)) (e : List UInt8 × Value) :
    List (List UInt8 × Option Value) :=
  if entries.any fun f => f.1 = e.1 then entries.map fun f => if f.1 = e.1 then (f.1, some e.2) else f
  else entries ++ [(e.1, some e.2)]

/-- The value of a default-constructed wrapper. -/
def blank : Value := string []

def deserString : Decoder Error Value := do
  let len ← readLEChecked 4
  let s ← Decoder.readChecked .unexpectedEnd len
  pure (string s)

def deserArray (self : Decoder Error Value) : Decoder Error Value := do
  let count ← readLEChecked 4
  let remaining ← Decoder.remaining
  if count > remaining ∨ count > maxCount then Decoder.throw .invalidArrayCount
  else do
    let items ← Decoder.replicate count self
    pure (array items)

def deserEntry (self : Decoder Error Value) : Decoder Error (List UInt8 × Value) := do
  let keyLen ← readLEChecked 4
  let key ← Decoder.readChecked .unexpectedEnd keyLen
  let val ← self
  pure (key, val)

def deserMap (self : Decoder Error Value) : Decoder Error Value := do
  let count ← readLEChecked 4
  let remaining ← Decoder.remaining
  if count > remaining ∨ count > maxCount then Decoder.throw .invalidMapCount
  else do
    let entries ← Decoder.replicate count (deserEntry self)
    pure (map (entries.foldl assign []))

/-- The `switch` over the tag; an unknown one leaves it. -/
def deserBody (self : Decoder Error Value) : Option SerType → Decoder Error Value
  | some .null | none => pure blank
  | some .bool => do
    let b ← Decoder.nextChecked .unexpectedEnd
    pure (bool (b ≠ 0))
  | some .int => do
    let n ← readLEChecked 4
    pure (int (BitVec.ofNat 32 n))
  | some .double => do
    let bits ← readLEChecked 8
    pure (double (BitVec.ofNat 64 bits))
  | some .string => deserString
  | some .array => deserArray self
  | some .map => deserMap self

/-- The recursive lambda of `deserialize`. Each level takes its tag, so a fuel of more than the
bytes there are is never used up. -/
def deser : ℕ → Decoder Error Value
  | 0 => Decoder.outOfFuel
  | fuel + 1 => do
    let tag ← Decoder.nextChecked .unexpectedEnd
    deserBody (deser fuel) (SerType.ofByte tag)

/-- `deserialize`: an exception of the decoder is caught, what the language leaves undefined is
not. -/
def deserialize (data : List UInt8) : Except (Stop Error) (Option Value) :=
  if data.length = 0 then .ok none
  else
    match (deser (data.length + 1)).run data 0 with
    | .ok (v, _) => .ok (some v)
    | .error (.thrown _) => .ok none
    | .error e => .error e

/-! ## Staying inside -/

theorem inside_readLEChecked (n k : ℕ) : Decoder.Inside n (readLEChecked k) :=
  (Decoder.Inside.readChecked n _ k).bind fun bytes => .pure n (leNat bytes)

theorem inside_deserBody {n : ℕ} {self : Decoder Error Value} (h : Decoder.Inside n self)
    (t : Option SerType) : Decoder.Inside n (deserBody self t) := by
  have hentry : Decoder.Inside n (deserEntry self) :=
    (inside_readLEChecked n 4).bind fun keyLen => (Decoder.Inside.readChecked n _ keyLen).bind fun key =>
      h.bind fun val => .pure n (key, val)
  rcases t with _ | t
  · exact .pure n blank
  · cases t with
    | null => exact .pure n blank
    | bool => exact ((Decoder.Takes.nextChecked _).inside n).bind fun b => .pure n _
    | int => exact (inside_readLEChecked n 4).bind fun v => .pure n _
    | double => exact (inside_readLEChecked n 8).bind fun v => .pure n _
    | string =>
      exact (inside_readLEChecked n 4).bind fun len => (Decoder.Inside.readChecked n _ len).bind fun s => .pure n _
    | array =>
      refine (inside_readLEChecked n 4).bind fun count => (Decoder.Inside.remaining n).bind fun r => ?_
      split
      · exact .throw n _
      · exact (h.replicate count).bind fun items => .pure n _
    | map =>
      refine (inside_readLEChecked n 4).bind fun count => (Decoder.Inside.remaining n).bind fun r => ?_
      split
      · exact .throw n _
      · exact (hentry.replicate count).bind fun entries => .pure n _

/-- The recursion takes a byte before each level. -/
theorem inside_deser (fuel : ℕ) : Decoder.Inside fuel (deser fuel) := by
  induction fuel with
  | zero =>
    intro data ptr _ hlt
    exact absurd hlt (Nat.not_lt_zero _)
  | succ fuel ih =>
    exact Decoder.Inside.bindTakes (Decoder.Takes.nextChecked _) fun tag => inside_deserBody ih _

/-- On any bytes the decoder returns, with a value or without. -/
theorem deserialize_returns (data : List UInt8) : ∃ r, deserialize data = .ok r := by
  rw [deserialize]
  split
  · exact ⟨none, rfl⟩
  · rcases inside_deser (data.length + 1) data 0 (Nat.zero_le _) (by omega) with
      ⟨v, ptr, hrun, -, -⟩ | ⟨e, hrun⟩
    · exact ⟨some v, by rw [hrun]⟩
    · exact ⟨none, by rw [hrun]⟩

end Value

end ForgottenServer.Kv
