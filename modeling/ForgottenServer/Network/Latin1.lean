import Mathlib

/-! # Latin-1 text

Strings are UTF-8 in the server and Latin-1 on the wire. The conversions are those of
the simdutf library, a parameter of the message functions; `Simdutf.Correct` says what
they are relied on for, and the plain byte-by-byte conversions have it. -/

namespace ForgottenServer.Network

/-- The conversions of the simdutf library between Latin-1 and UTF-8. A conversion
returns the bytes it writes; on text that has no Latin-1 form it writes none. -/
structure Simdutf where
  latin1_length_from_utf8 : List UInt8 → Nat
  convert_utf8_to_latin1 : List UInt8 → List UInt8
  utf8_length_from_latin1 : List UInt8 → Nat
  convert_latin1_to_utf8 : List UInt8 → List UInt8

/-- The UTF-8 form of a Latin-1 character. -/
def utf8OfLatin1 (c : UInt8) : List UInt8 :=
  if c < 0x80 then [c] else [(0xC0 : UInt8) ||| (c >>> 6), (0x80 : UInt8) ||| (c &&& 0x3F)]

/-- The UTF-8 form of Latin-1 text. -/
def toUtf8 (latin1 : List UInt8) : List UInt8 := latin1.flatMap utf8OfLatin1

/-- What the library documents for text that is representable in Latin-1. -/
structure Simdutf.Correct (simd : Simdutf) : Prop where
  latin1_length : ∀ latin1, simd.latin1_length_from_utf8 (toUtf8 latin1) = latin1.length
  to_latin1 : ∀ latin1, simd.convert_utf8_to_latin1 (toUtf8 latin1) = latin1
  utf8_length : ∀ latin1, simd.utf8_length_from_latin1 latin1 = (toUtf8 latin1).length
  to_utf8 : ∀ latin1, simd.convert_latin1_to_utf8 latin1 = toUtf8 latin1

/-- UTF-8 text to Latin-1: a code point is one byte, or a lead byte `C2` or `C3` and a
continuation byte. -/
def latin1OfUtf8 : List UInt8 → Option (List UInt8)
  | [] => some []
  | [b] => if b < 0x80 then some [b] else none
  | b :: c :: bytes =>
    if b < 0x80 then (latin1OfUtf8 (c :: bytes)).map (b :: ·)
    else if (b = 0xC2 ∨ b = 0xC3) ∧ c &&& 0xC0 = 0x80 then
      (latin1OfUtf8 bytes).map ((b <<< 6 ||| (c &&& 0x3F)) :: ·)
    else none

/-- The library's scalar conversions. -/
def Simdutf.scalar : Simdutf where
  latin1_length_from_utf8 utf8 := utf8.countP fun b => b &&& 0xC0 != 0x80
  convert_utf8_to_latin1 utf8 := (latin1OfUtf8 utf8).getD []
  utf8_length_from_latin1 latin1 := latin1.length + latin1.countP fun b => decide (0x80 ≤ b)
  convert_latin1_to_utf8 := toUtf8

theorem forall_byte {p : UInt8 → Prop} (h : ∀ n : Fin 256, p (UInt8.ofFin n)) (b : UInt8) : p b := h b.toFin

theorem utf8OfLatin1_high (b : UInt8) (hb : ¬ b < 0x80) :
    ∃ lead low, utf8OfLatin1 b = [lead, low] ∧ ¬ lead < 0x80 ∧ (lead = 0xC2 ∨ lead = 0xC3) ∧
      low &&& 0xC0 = 0x80 ∧ lead &&& 0xC0 ≠ 0x80 ∧ lead <<< 6 ||| (low &&& 0x3F) = b := by
  refine ⟨(0xC0 : UInt8) ||| (b >>> 6), (0x80 : UInt8) ||| (b &&& 0x3F), by rw [utf8OfLatin1, if_neg hb], ?_⟩
  revert b
  apply forall_byte
  decide +kernel

theorem latin1OfUtf8_toUtf8 (latin1 : List UInt8) : latin1OfUtf8 (toUtf8 latin1) = some latin1 := by
  induction latin1 with
  | nil => rfl
  | cons b latin1 ih =>
    rw [toUtf8, List.flatMap_cons]
    by_cases hb : b < 0x80
    · rw [utf8OfLatin1, if_pos hb, List.singleton_append]
      change latin1OfUtf8 (b :: toUtf8 latin1) = _
      match htext : toUtf8 latin1 with
      | [] =>
        rw [htext] at ih
        cases ih
        simp [latin1OfUtf8, hb]
      | c :: bytes =>
        rw [htext] at ih
        rw [latin1OfUtf8, if_pos hb, ih]
        rfl
    · obtain ⟨lead, low, henc, hlead, hrange, hlow, _, hval⟩ := utf8OfLatin1_high b hb
      rw [henc]
      change latin1OfUtf8 (lead :: low :: toUtf8 latin1) = _
      rw [latin1OfUtf8, if_neg hlead, if_pos ⟨hrange, hlow⟩, ih, hval]
      rfl

theorem Simdutf.scalar_correct : Simdutf.scalar.Correct where
  latin1_length := by
    intro latin1
    induction latin1 with
    | nil => rfl
    | cons b latin1 ih =>
      have hone : (utf8OfLatin1 b).countP (fun b => b &&& 0xC0 != 0x80) = 1 := by
        revert b
        apply forall_byte
        decide +kernel
      simp only [Simdutf.scalar, toUtf8, List.flatMap_cons, List.countP_append, List.length_cons] at ih ⊢
      rw [hone, ih, Nat.add_comm]
  to_latin1 := by
    intro latin1
    simp only [Simdutf.scalar, latin1OfUtf8_toUtf8, Option.getD_some]
  utf8_length := by
    intro latin1
    induction latin1 with
    | nil => rfl
    | cons b latin1 ih =>
      have hone : (utf8OfLatin1 b).length = 1 + (if decide (0x80 ≤ b) then 1 else 0) := by
        revert b
        apply forall_byte
        decide +kernel
      simp only [Simdutf.scalar, toUtf8, List.flatMap_cons, List.length_append, List.length_cons,
        List.countP_cons] at ih ⊢
      omega
  to_utf8 := fun _ => rfl

end ForgottenServer.Network
