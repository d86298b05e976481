import Mathlib

/-! # Digits at fixed places

`digits b k n` are the `k` low digits of a number in base `b`, most significant first, with leading zeros.
`Nat.toDigits` has no leading zeros: where it has as many digits, they are its last ones. -/

namespace FixedDigits

def digits (b : Nat) : Nat → Nat → List Char
  | 0, _ => []
  | k + 1, n => digits b k (n / b) ++ [(n % b).digitChar]

variable {b : Nat}

@[simp] theorem length_digits (b k n : Nat) : (digits b k n).length = k := by
  induction k generalizing n with
  | zero => rfl
  | succ k ih => simp [digits, ih]

theorem digits_add (b j k n : Nat) : digits b (j + k) n = digits b j (n / b ^ k) ++ digits b k n := by
  induction k generalizing n with
  | zero => simp [digits]
  | succ k ih => rw [Nat.add_succ, digits, ih, digits, Nat.div_div_eq_div_mul, ← Nat.pow_succ', List.append_assoc]

theorem toDigits_eq (hb : 1 < b) (n : Nat) : ∃ k, Nat.toDigits b n = digits b k n := by
  induction n using Nat.strongRecOn with
  | ind n ih =>
    rw [Nat.toDigits_eq_if hb]
    split
    · rename_i hless
      exact ⟨1, by simp [digits, Nat.mod_eq_of_lt hless]⟩
    · rename_i hmore
      obtain ⟨k, hdigits⟩ := ih (n / b) (Nat.div_lt_self (by omega) hb)
      exact ⟨k + 1, by rw [hdigits, digits]⟩

/-- The last digits are those at the low places. -/
theorem drop_toDigits (hb : 1 < b) {k n : Nat} (h : k ≤ (Nat.toDigits b n).length) :
    (Nat.toDigits b n).drop ((Nat.toDigits b n).length - k) = digits b k n := by
  obtain ⟨len, hdigits⟩ := toDigits_eq hb n
  rw [hdigits, length_digits] at h ⊢
  obtain ⟨j, rfl⟩ := Nat.exists_eq_add_of_le' h
  rw [Nat.add_sub_cancel, digits_add, List.drop_left' (length_digits b j _)]

/-- A number of more digits than there are places is written as its rest. -/
theorem digits_mod (b k n : Nat) : digits b k (n % b ^ k) = digits b k n := by
  induction k generalizing n with
  | zero => rfl
  | succ k ih =>
    rw [digits, digits, Nat.pow_succ', Nat.mod_mul_right_div_self, ih, Nat.mod_mul_right_mod]

end FixedDigits
