import Mathlib
import ForgottenServer.Lib.FixedDigits
import ForgottenServer.Lib.LittleEndian

/-! # One-time tokens

`generateToken` authenticates a counter of eight bytes and makes a number of decimal digits from four of the twenty
bytes that it gets. `hmac` is `hmac("SHA1", key, message)`, a string is the list of its characters. -/

namespace ForgottenServer.Token

open FixedDigits LittleEndian

abbrev Hmac := List UInt8 → List UInt8 → Vector UInt8 20

inductive Thrown where
  | outOfRange
  deriving DecidableEq, Repr

/-- The loop that lays the counter out, from the test that decrements `i`. It starts at eight, not at zero. -/
def layOut : Nat → UInt64 → List UInt8 → List UInt8
  | 0, _, mac => mac
  | i + 1, counter, mac => if i ≠ 0 then layOut i (counter >>> 8) (mac.set i (counter % 256).toUInt8) else mac

/-- `mac.back() % 16u`, where the byte is a signed `char`. -/
def hashOffset (mac : Vector UInt8 20) : Nat := (mac.back.toInt8.toInt32.toUInt32 % 16).toNat

theorem hashOffset_lt (mac : Vector UInt8 20) : hashOffset mac < 16 := by
  unfold hashOffset
  rw [UInt32.toNat_mod]
  exact Nat.mod_lt _ (by decide)

/-- Four bytes from the offset on. -/
def truncatedHash (mac : Vector UInt8 20) : UInt32 :=
  have := hashOffset_lt mac
  let offset := hashOffset mac
  (mac[offset + 0].toUInt32 <<< 24) ||| (mac[offset + 1].toUInt32 <<< 16) ||| (mac[offset + 2].toUInt32 <<< 8) |||
    (mac[offset + 3].toUInt32 <<< 0)

def substr (s : List Char) (pos : Nat) : Except Thrown (List Char) :=
  if pos > s.length then .error .outOfRange else .ok (s.drop pos)

def generateToken (hmac : Hmac) (key : List UInt8) (counter : UInt64) (length : Nat) : Except Thrown (List Char) :=
  let mac := layOut 8 counter (List.replicate 8 0)
  let mac := hmac key mac
  let p := truncatedHash mac
  let token := Nat.toDigits 10 (p &&& 0x7fffffff).toNat
  substr token ((token.length + (2 ^ 64 - length)) % 2 ^ 64)

/-! ## What is asked of it -/

/-- The eight bytes of a counter, most significant first. -/
def bigEndian (counter : Nat) : List UInt8 := (leBytes 8 counter).reverse

/-- The number that four bytes stand for, most significant first, in 31 bits. The last byte says where they are. -/
def dynamicTruncation (mac : Vector UInt8 20) : Nat :=
  let offset := mac[19].toNat % 16
  leNat ((mac.toList.drop offset).take 4).reverse % 2 ^ 31

/-- The digits of the one-time password. -/
def hotp (hmac : Hmac) (key : List UInt8) (counter length : Nat) : List Char :=
  digits 10 length (dynamicTruncation (hmac key (bigEndian counter)) % 10 ^ length)

/-- The counter without its highest byte. -/
def lowBytes (counter : UInt64) : Nat := counter.toNat % 2 ^ 56

/-! ## The message and the hash -/

theorem layOut_eq (i : Nat) : ∀ (counter : UInt64) (first : UInt8) (middle last : List UInt8), middle.length = i →
    layOut (i + 1) counter (first :: middle ++ last) = first :: (leBytes i counter.toNat).reverse ++ last := by
  induction i with
  | zero =>
    intro counter first middle last hlength
    rw [List.length_eq_zero_iff.mp hlength]
    rfl
  | succ i ih =>
    intro counter first middle last hlength
    have hshift : (counter >>> 8).toNat = counter.toNat / 256 := by
      simp [Nat.shiftRight_eq_div_pow]
    have hlow : (counter % 256).toUInt8 = UInt8.ofNat counter.toNat := by
      apply UInt8.toNat_inj.mp
      simp
    obtain rfl | ⟨middle, old, rfl⟩ := List.eq_nil_or_concat' middle
    · cases hlength
    have hmiddle : middle.length = i := by simpa using hlength
    have hset : (first :: (middle ++ [old]) ++ last).set (i + 1) (counter % 256).toUInt8 =
        first :: middle ++ UInt8.ofNat counter.toNat :: last := by
      simp [hlow, ← hmiddle]
    rw [layOut, if_pos (by omega), hset, ih _ _ _ _ hmiddle, hshift, leBytes, List.reverse_cons]
    simp

/-- The loop leaves out the highest byte. -/
theorem layOut_counter (counter : UInt64) : layOut 8 counter (List.replicate 8 0) = bigEndian (lowBytes counter) := by
  have hloop := layOut_eq 7 counter 0 (List.replicate 7 0) [] rfl
  have hbytes := leBytes_mod 7 counter.toNat
  unfold bigEndian lowBytes
  rw [show (2 : Nat) ^ 56 = 256 ^ 7 by rfl, hbytes, List.reverse_append]
  simpa using hloop

theorem signed_mod (b : UInt8) : (b.toInt8.toInt32.toUInt32 % 16).toNat = b.toNat % 16 := by
  have h : ∀ v : BitVec 8, (v.signExtend 32 % 16).toNat = v.toNat % 16 := by decide +kernel
  exact h b.toBitVec

theorem hashOffset_eq (mac : Vector UInt8 20) : hashOffset mac = mac[19].toNat % 16 := signed_mod _

theorem or_shift_eq (a b c d : UInt8) :
    ((a.toUInt32 <<< 24) ||| (b.toUInt32 <<< 16) ||| (c.toUInt32 <<< 8) ||| (d.toUInt32 <<< 0)).toNat =
      leNat [d, c, b, a] := by
  have ha := a.toNat_lt
  have hb := b.toNat_lt
  have hc := c.toNat_lt
  have hd := d.toNat_lt
  have hlow := Nat.two_pow_add_eq_or_of_lt (i := 8) hd c.toNat
  have hmid := Nat.two_pow_add_eq_or_of_lt (i := 16) (b := 2 ^ 8 * c.toNat + d.toNat) (by omega) b.toNat
  have hhigh := Nat.two_pow_add_eq_or_of_lt (i := 24) (b := 2 ^ 16 * b.toNat + (2 ^ 8 * c.toNat + d.toNat)) (by omega)
    a.toNat
  have hwords : ((a.toUInt32 <<< 24) ||| (b.toUInt32 <<< 16) ||| (c.toUInt32 <<< 8) ||| (d.toUInt32 <<< 0)).toNat =
      2 ^ 24 * a.toNat ||| (2 ^ 16 * b.toNat ||| (2 ^ 8 * c.toNat ||| d.toNat)) := by
    simp only [UInt32.toNat_or, UInt32.toNat_shiftLeft, UInt8.toNat_toUInt32, Nat.shiftLeft_eq, Nat.or_assoc]
    congr 1
    · change a.toNat * 2 ^ 24 % 2 ^ 32 = _
      omega
    congr 1
    · change b.toNat * 2 ^ 16 % 2 ^ 32 = _
      omega
    congr 1
    · change c.toNat * 2 ^ 8 % 2 ^ 32 = _
      omega
    · change d.toNat * 2 ^ 0 % 2 ^ 32 = _
      omega
  rw [hwords, ← hlow, ← hmid, ← hhigh]
  simp only [leNat]
  omega

theorem truncatedHash_eq (mac : Vector UInt8 20) :
    (truncatedHash mac &&& 0x7fffffff).toNat = dynamicTruncation mac := by
  have hlt := Nat.mod_lt mac[19].toNat (show 16 > 0 by decide)
  have hbytes : (mac.toList.drop (mac[19].toNat % 16)).take 4 =
      [mac[mac[19].toNat % 16], mac[mac[19].toNat % 16 + 1], mac[mac[19].toNat % 16 + 2],
        mac[mac[19].toNat % 16 + 3]] := by
    apply List.ext_getElem
    · simp
      omega
    · intro i hi hi'
      simp at hi'
      obtain rfl | rfl | rfl | rfl : i = 0 ∨ i = 1 ∨ i = 2 ∨ i = 3 := by omega
      all_goals simp
  unfold truncatedHash dynamicTruncation
  rw [UInt32.toNat_and, or_shift_eq]
  dsimp only
  rw [hbytes]
  simp only [hashOffset_eq]
  exact Nat.and_two_pow_sub_one_eq_mod _ 31

/-! ## The token -/

theorem dynamicTruncation_lt (mac : Vector UInt8 20) : dynamicTruncation mac < 2 ^ 31 := Nat.mod_lt _ (by decide)

/-- The token is made of the last digits, where there are enough of them. -/
theorem generateToken_eq (hmac : Hmac) (key : List UInt8) (counter : UInt64) {length : Nat} (hlength : length ≤ 10) :
    generateToken hmac key counter length =
      if length ≤ (Nat.toDigits 10 (dynamicTruncation (hmac key (bigEndian (lowBytes counter))))).length then
        .ok (hotp hmac key (lowBytes counter) length)
      else .error .outOfRange := by
  unfold generateToken hotp
  rw [layOut_counter]
  dsimp only
  rw [truncatedHash_eq, digits_mod]
  generalize hp : dynamicTruncation (hmac key (bigEndian (lowBytes counter))) = p
  have hlt : p < 2 ^ 31 := hp ▸ dynamicTruncation_lt _
  have hfew : (Nat.toDigits 10 p).length ≤ 10 := (Nat.length_toDigits_le_iff (by decide) (by decide)).mpr (by omega)
  unfold substr
  split
  · rename_i hmore
    rw [if_neg (by omega)]
  · rename_i hless
    have henough : length ≤ (Nat.toDigits 10 p).length := by omega
    rw [if_pos henough, ← drop_toDigits (by decide) henough]
    congr 2
    omega

/-- There are enough digits, where the value is not below the least number of so many digits. -/
theorem le_length_toDigits {length n : Nat} (h : 1 ≤ length) :
    length ≤ (Nat.toDigits 10 n).length ↔ length = 1 ∨ 10 ^ (length - 1) ≤ n := by
  by_cases hone : length = 1
  · have hpos := Nat.length_toDigits_pos (b := 10) (n := n)
    exact iff_of_true (by omega) (.inl hone)
  · have hle := Nat.length_toDigits_le_iff (b := 10) (n := n) (k := length - 1) (by decide) (by omega)
    omega

/-- The token is that of the counter if and only if the highest byte of the counter does not matter and the truncated
hash has as many digits as are asked for. -/
theorem generateToken_hotp_iff (hmac : Hmac) (key : List UInt8) (counter : UInt64) (length : Nat) (hpos : 1 ≤ length)
    (hlength : length ≤ 10) :
    generateToken hmac key counter length = .ok (hotp hmac key counter.toNat length) ↔
      (counter.toNat < 2 ^ 56 ∨ hotp hmac key (lowBytes counter) length = hotp hmac key counter.toNat length) ∧
        (length = 1 ∨ 10 ^ (length - 1) ≤ dynamicTruncation (hmac key (bigEndian (lowBytes counter)))) := by
  have hlow : counter.toNat < 2 ^ 56 →
      hotp hmac key (lowBytes counter) length = hotp hmac key counter.toNat length := by
    intro hsmall
    rw [lowBytes, Nat.mod_eq_of_lt hsmall]
  rw [generateToken_eq hmac key counter hlength, ← le_length_toDigits hpos, or_iff_right_of_imp hlow]
  split
  · rename_i henough
    simp [henough]
  · rename_i hfew
    simp [hfew]

/-- `"12345678901234567890"`. -/
def sampleKey : List UInt8 := [49, 50, 51, 52, 53, 54, 55, 56, 57, 48, 49, 50, 51, 52, 53, 54, 55, 56, 57, 48]

/-- The hash of the sample key and the counter 10281. -/
def sampleHash : Vector UInt8 20 :=
  #v[0x08, 0x63, 0x8d, 0x80, 0x01, 0x69, 0x8b, 0x42, 0x58, 0xe1, 0x15, 0xe9, 0x66, 0xb8, 0xb3, 0x79, 0xad, 0x3a, 0x40,
    0x53]

theorem fiveDigits_hotp_iff :
    generateToken (fun _ _ => sampleHash) sampleKey 10281 5 = .ok (hotp (fun _ _ => sampleHash) sampleKey 10281 5) ↔
      (10281 < 2 ^ 56 ∨ hotp (fun _ _ => sampleHash) sampleKey (lowBytes 10281) 5 =
        hotp (fun _ _ => sampleHash) sampleKey 10281 5) ∧ (5 = 1 ∨ 10 ^ (5 - 1) ≤ dynamicTruncation sampleHash) :=
  generateToken_hotp_iff (fun _ _ => sampleHash) sampleKey 10281 5 (by decide) (by decide)

/-- A truncated hash of five digits throws where six are asked for, and the highest byte of a counter is left out. -/
theorem sixDigits_not_hotp :
    generateToken (fun _ _ => sampleHash) sampleKey 10281 6 = .error .outOfRange ∧
      hotp (fun _ _ => sampleHash) sampleKey 10281 6 = ['0', '9', '2', '5', '5', '5'] ∧
      generateToken (fun _ message => Vector.replicate 20 (message.headD 0)) sampleKey (2 ^ 56) 1 = .ok ['0'] ∧
      hotp (fun _ message => Vector.replicate 20 (message.headD 0)) sampleKey (2 ^ 56) 1 = ['9'] := by
  refine ⟨?_, ?_, ?_, ?_⟩
  · decide +kernel
  · decide +kernel
  · decide +kernel
  · decide +kernel

end ForgottenServer.Token
