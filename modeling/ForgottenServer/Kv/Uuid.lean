import Mathlib

/-! # Unique ids of the key-value store

`KV::generateUUID` writes the time in milliseconds and the number of the call within that
time. The number starts over whenever the time differs from that of the last call. -/

namespace ForgottenServer.Kv

/-- `lastTimestamp_` and `counter_`. -/
structure UuidState where
  lastTimestamp : Int64 := 0
  counter : UInt64 := 0

/-- An integer written to a stream. -/
def decimal (v : ℤ) : List Char :=
  if v < 0 then '-' :: Nat.toDigits 10 v.natAbs else Nat.toDigits 10 v.natAbs

/-- `std::setw(width) << std::setfill('0')`: the fill goes before the sign. -/
def setw (width : ℕ) (text : List Char) : List Char := text.leftpad width '0'

def uuidText (milliseconds : Int64) (counter : UInt64) : String :=
  String.ofList (setw 20 (decimal milliseconds.toInt) ++ '-' :: setw 12 (decimal counter.toNat))

/-- `now` is the reading of the system clock in milliseconds. -/
def generateUUID (now : Int64) (s : UuidState) : String × UuidState :=
  let s := if now ≠ s.lastTimestamp then { lastTimestamp := now, counter := 0 }
    else { s with counter := s.counter + 1 }
  (uuidText now s.counter, s)

namespace UuidState

/-- The statics after `k` calls, the call number `i` of which read `clock i`. -/
def after (clock : ℕ → Int64) : ℕ → UuidState
  | 0 => {}
  | k + 1 => (generateUUID (clock k) (after clock k)).2

/-- The id that the call number `k` returns. -/
def uuid (clock : ℕ → Int64) (k : ℕ) : String := (generateUUID (clock k) (after clock k)).1

end UuidState

/-! ## The text determines the time and the number -/

theorem dash_notMem_toDigits (n : ℕ) : '-' ∉ Nat.toDigits 10 n := by
  intro h
  have hdigit := Nat.isDigit_of_mem_toDigits (by decide) (by decide) h
  revert hdigit
  decide

theorem dash_mem_setw {width : ℕ} {text : List Char} : '-' ∈ setw width text ↔ '-' ∈ text := by
  simp [setw, List.leftpad, List.mem_append, List.mem_replicate]

theorem dash_mem_decimal {v : ℤ} : '-' ∈ decimal v ↔ v < 0 := by
  unfold decimal
  split
  · simp [*]
  · simp [*, dash_notMem_toDigits]

/-- The sign counts as no digit. -/
theorem ofDigitChars_setw (width : ℕ) (v : ℤ) : Nat.ofDigitChars 10 (setw width (decimal v)) 0 = v.natAbs := by
  rw [setw, List.leftpad, Nat.ofDigitChars_append, Nat.ofDigitChars_replicate_zero, Nat.mul_zero]
  unfold decimal
  split
  · rw [Nat.ofDigitChars_cons]
    exact Nat.ofDigitChars_ten_toDigits
  · exact Nat.ofDigitChars_ten_toDigits

theorem setw_decimal_inj {width : ℕ} {v w : ℤ} (h : setw width (decimal v) = setw width (decimal w)) : v = w := by
  have habs : v.natAbs = w.natAbs := by
    rw [← ofDigitChars_setw width v, h, ofDigitChars_setw]
  have hsign : v < 0 ↔ w < 0 := by
    rw [← dash_mem_decimal, ← dash_mem_setw, h, dash_mem_setw, dash_mem_decimal]
  omega

/-- The time fills its field, the sign included. -/
theorem length_setw_time (t : Int64) : (setw 20 (decimal t.toInt)).length = 20 := by
  have hmin := t.le_toInt
  have hmax := t.toInt_lt
  have hdigits : (Nat.toDigits 10 t.toInt.natAbs).length ≤ 19 :=
    (Nat.length_toDigits_le_iff (by decide) (by decide)).mpr (by omega)
  have hdecimal : (decimal t.toInt).length ≤ 20 := by
    unfold decimal
    split
    · rw [List.length_cons]
      omega
    · omega
  rw [setw, List.length_leftpad]
  omega

theorem uuidText_inj {t t' : Int64} {c c' : UInt64} : uuidText t c = uuidText t' c' ↔ t = t' ∧ c = c' := by
  constructor
  · intro h
    have hlength : (setw 20 (decimal t.toInt)).length = (setw 20 (decimal t'.toInt)).length := by
      rw [length_setw_time, length_setw_time]
    obtain ⟨htime, hrest⟩ := List.append_inj (String.ofList_injective h) hlength
    have htime := setw_decimal_inj htime
    have hcounter := setw_decimal_inj (List.cons.inj hrest).2
    exact ⟨Int64.toInt_inj.mp htime, UInt64.toNat_inj.mp (by omega)⟩
  · rintro ⟨rfl, rfl⟩
    rfl

namespace UuidState

variable (clock : ℕ → Int64)

/-! ## The number of a call -/

/-- The first call of those in a row that read what call `k` reads. -/
def firstCall : ℕ → ℕ
  | 0 => 0
  | k + 1 => if clock (k + 1) = clock k then firstCall k else k + 1

/-- Whether the calls up to call `k` all read the 0 that `lastTimestamp_` starts with. -/
def FromZero (k : ℕ) : Prop := firstCall clock k = 0 ∧ clock 0 = 0

instance (k : ℕ) : Decidable (FromZero clock k) := inferInstanceAs (Decidable (_ ∧ _))

theorem firstCall_le (k : ℕ) : firstCall clock k ≤ k := by
  induction k with
  | zero => exact Nat.le_refl 0
  | succ k ih =>
    unfold firstCall
    split <;> omega

variable {clock}

theorem clock_of_firstCall_le {j k : ℕ} (hj : firstCall clock k ≤ j) (hk : j ≤ k) : clock j = clock k := by
  induction k with
  | zero => rw [Nat.le_zero.mp hk]
  | succ k ih =>
    obtain rfl | hlt := Nat.eq_or_lt_of_le hk
    · rfl
    · unfold firstCall at hj
      split at hj
      · rename_i hsame
        rw [hsame, ih hj (by omega)]
      · omega

/-- Calls that read the same with no other reading between them started together. -/
theorem firstCall_eq_of_same {i k : ℕ} (hik : i ≤ k) (hsame : ∀ j, i ≤ j → j ≤ k → clock j = clock i) :
    firstCall clock k = firstCall clock i := by
  induction k with
  | zero => rw [Nat.le_zero.mp hik]
  | succ k ih =>
    obtain rfl | hlt := Nat.eq_or_lt_of_le hik
    · rfl
    · have hstep : clock (k + 1) = clock k := by
        rw [hsame (k + 1) (by omega) (Nat.le_refl _), hsame k (by omega) (by omega)]
      rw [firstCall, if_pos hstep]
      exact ih (by omega) fun j hj hjk => hsame j hj (by omega)

theorem firstCall_eq_of_le {j k : ℕ} (hj : firstCall clock k ≤ j) (hk : j ≤ k) : firstCall clock j = firstCall clock k := by
  refine (firstCall_eq_of_same hk fun i hi hik => ?_).symm
  have hi : firstCall clock k ≤ i := by omega
  rw [clock_of_firstCall_le hi hik, clock_of_firstCall_le hj hk]

theorem fromZero_iff {k : ℕ} : FromZero clock k ↔ ∀ j ≤ k, clock j = 0 := by
  constructor
  · rintro ⟨hfirst, hzero⟩ j hj
    have hk := clock_of_firstCall_le (Nat.le_of_eq hfirst) (Nat.zero_le k)
    have hle : firstCall clock k ≤ j := by omega
    rw [clock_of_firstCall_le hle hj, ← hk, hzero]
  · intro h
    refine ⟨?_, h 0 (by omega)⟩
    rw [firstCall_eq_of_same (Nat.zero_le k) fun j _ hj => by rw [h j hj, h 0 (by omega)]]
    rfl

variable (clock) in
theorem lastTimestamp_after (k : ℕ) : (after clock (k + 1)).lastTimestamp = clock k := by
  simp only [after, generateUUID]
  split <;> simp_all

variable (clock) in
/-- The number of a call among those in a row, counted from 1 on as long as the clock has not moved. -/
def number (k : ℕ) : ℕ := k - firstCall clock k + if FromZero clock k then 1 else 0

variable (clock) in
theorem counter_after (k : ℕ) : (after clock (k + 1)).counter = UInt64.ofNat (number clock k) := by
  induction k with
  | zero =>
    by_cases hzero : clock 0 = 0
    · simp [after, generateUUID, number, FromZero, firstCall, hzero]
    · simp [after, generateUUID, number, FromZero, firstCall, hzero]
  | succ k ih =>
    rw [after, generateUUID, lastTimestamp_after]
    by_cases hsame : clock (k + 1) = clock k
    · have hfirst : firstCall clock (k + 1) = firstCall clock k := if_pos hsame
      have hzero : FromZero clock (k + 1) ↔ FromZero clock k := by simp only [FromZero, hfirst]
      have hle := firstCall_le clock k
      rw [if_neg (not_not.mpr hsame), number, hfirst, ih]
      simp only [number, hzero]
      rw [← UInt64.ofNat_one, ← UInt64.ofNat_add]
      congr 1
      omega
    · have hfirst : firstCall clock (k + 1) = k + 1 := if_neg hsame
      have hzero : ¬FromZero clock (k + 1) := by
        rintro ⟨h, _⟩
        omega
      rw [if_pos hsame, number, hfirst, if_neg hzero]
      simp

theorem number_of_firstCall_eq {i k : ℕ} (hik : i ≤ k) (hfirst : firstCall clock k = firstCall clock i) :
    number clock k = number clock i + (k - i) := by
  have hle := firstCall_le clock i
  have hiff : FromZero clock k ↔ FromZero clock i := by rw [FromZero, FromZero, hfirst]
  by_cases hzero : FromZero clock i
  · rw [number, number, if_pos hzero, if_pos (hiff.mpr hzero)]
    omega
  · rw [number, number, if_neg hzero, if_neg (hiff.not.mpr hzero)]
    omega

theorem uuid_eq_iff {i k : ℕ} :
    uuid clock i = uuid clock k ↔ clock i = clock k ∧ number clock i % 2 ^ 64 = number clock k % 2 ^ 64 := by
  have huuid : ∀ k, uuid clock k = uuidText (clock k) (after clock (k + 1)).counter := fun _ => rfl
  rw [huuid, huuid, uuidText_inj, counter_after, counter_after, ← UInt64.toNat_inj, UInt64.toNat_ofNat', UInt64.toNat_ofNat']

/-! ## When the ids are distinct -/

variable (clock) in
/-- Call `k` reads what call `i` has read, and the clock has moved in between. -/
def Returns (i k : ℕ) : Prop := clock i = clock k ∧ ∃ j, i < j ∧ j < k ∧ clock j ≠ clock k

variable (clock) in
/-- Call `k` is the first to come back to the 0 that the process started with. The calls before
the clock moved have the numbers from 1 on, so that the number 0 is still free. -/
def ReturnsToStart (i k : ℕ) : Prop :=
  (∀ j ≤ i, clock j = 0) ∧ i + 1 < 2 ^ 64 ∧ clock k = 0 ∧ clock (k - 1) ≠ 0

variable (clock) in
/-- The clock does not come back to a reading that it has left, and no more calls than the
counter can number read the same. -/
structure Forward (n : ℕ) : Prop where
  not_back : ∀ i k, i < k → k < n → Returns clock i k → ReturnsToStart clock i k
  moves : ∀ i, i + 2 ^ 64 < n → ∃ j, i < j ∧ j ≤ i + 2 ^ 64 ∧ clock j ≠ clock i

theorem Returns.lt_firstCall {i k : ℕ} (h : Returns clock i k) : i < firstCall clock k := by
  obtain ⟨-, j, hij, hjk, hne⟩ := h
  by_contra hle
  exact hne (clock_of_firstCall_le (by omega) (by omega))

/-- A call that is the first of those in a row has the number 0, unless the clock has not moved yet. -/
theorem number_firstCall {k : ℕ} (hzero : ¬FromZero clock k) : number clock (firstCall clock k) = 0 := by
  have hfirst := firstCall_eq_of_le (Nat.le_refl _) (firstCall_le clock k)
  have hnot : ¬FromZero clock (firstCall clock k) := by
    rwa [FromZero, hfirst]
  rw [number, hfirst, if_neg hnot, Nat.sub_self]

theorem number_of_fromZero {k : ℕ} (hzero : FromZero clock k) : number clock k = k + 1 := by
  rw [number, if_pos hzero, hzero.1, Nat.sub_zero]

theorem fromZero_of_le {j k : ℕ} (hzero : FromZero clock k) (hj : j ≤ k) : FromZero clock j :=
  fromZero_iff.mpr fun i hi => fromZero_iff.mp hzero i (by omega)

theorem not_fromZero {k : ℕ} (h : 0 < firstCall clock k) : ¬FromZero clock k := fun hzero => h.ne' hzero.1

theorem firstCall_of_moved {k : ℕ} (hpos : 0 < k) (hmoved : clock (k - 1) ≠ clock k) : firstCall clock k = k := by
  obtain ⟨k, rfl⟩ : ∃ l, k = l + 1 := ⟨k - 1, by omega⟩
  exact if_neg (Ne.symm hmoved)

theorem firstCall_lt_of_same {k : ℕ} (hpos : 0 < k) (hsame : clock (k - 1) = clock k) : firstCall clock k < k := by
  obtain ⟨k, rfl⟩ : ∃ l, k = l + 1 := ⟨k - 1, by omega⟩
  have hfirst : firstCall clock (k + 1) = firstCall clock k := if_pos hsame.symm
  exact hfirst.trans_lt (Nat.lt_succ_of_le (firstCall_le clock k))

section Distinct

variable {n i k : ℕ} (h : ∀ i k, i < k → k < n → uuid clock i ≠ uuid clock k) (hk : k < n)
  (hback : Returns clock i k)

include h hk hback

/-- Two rows of calls that both begin with the number 0 do not read the same. -/
theorem fromZero_of_ne : FromZero clock i := by
  by_contra hzero
  have hlt := hback.lt_firstCall
  have hle := firstCall_le clock k
  have hle' := firstCall_le clock i
  have hnumber := number_firstCall (not_fromZero (Nat.zero_lt_of_lt hlt))
  refine absurd (uuid_eq_iff.mpr ⟨?_, ?_⟩) (h (firstCall clock i) (firstCall clock k) (by omega) (by omega))
  · rw [clock_of_firstCall_le (Nat.le_refl _) hle, clock_of_firstCall_le (Nat.le_refl _) hle', hback.1]
  · rw [number_firstCall hzero, hnumber]

theorem clock_eq_zero_of_ne : clock k = 0 := by
  rw [← hback.1, fromZero_iff.mp (fromZero_of_ne h hk hback) i (Nat.le_refl i)]

/-- With all numbers used up, call `2 ^ 64 - 1` has the number 0, as the first call of the row has. -/
theorem few_of_ne : i + 1 < 2 ^ 64 := by
  by_contra hmany
  have hlt := hback.lt_firstCall
  have hle := firstCall_le clock k
  have hzero := fromZero_of_ne h hk hback
  have hnumber := number_firstCall (not_fromZero (Nat.zero_lt_of_lt hlt))
  have hwrap := number_of_fromZero (fromZero_of_le hzero (show 2 ^ 64 - 1 ≤ i by omega))
  refine h (2 ^ 64 - 1) (firstCall clock k) (by omega) (by omega) (uuid_eq_iff.mpr ⟨?_, ?_⟩)
  · rw [clock_of_firstCall_le (Nat.le_refl _) hle, clock_eq_zero_of_ne h hk hback, fromZero_iff.mp hzero _ (by omega)]
  · have hlast : (2 ^ 64 - 1 + 1) % 2 ^ 64 = 0 % 2 ^ 64 := by omega
    rw [hwrap, hnumber, hlast]

/-- The second call of the row has the number 1, as call 0 has. -/
theorem moved_of_ne : clock (k - 1) ≠ 0 := by
  intro hprev
  have hlt := hback.lt_firstCall
  have hzero := fromZero_of_ne h hk hback
  have hk0 := clock_eq_zero_of_ne h hk hback
  have hfirst := firstCall_lt_of_same (Nat.zero_lt_of_lt (hlt.trans_le (firstCall_le clock k))) (hprev.trans hk0.symm)
  have hsecond : firstCall clock (firstCall clock k + 1) = firstCall clock k :=
    firstCall_eq_of_le (by omega) (by omega)
  refine h 0 (firstCall clock k + 1) (by omega) (by omega) (uuid_eq_iff.mpr ⟨?_, ?_⟩)
  · rw [fromZero_iff.mp hzero 0 (Nat.zero_le i), ← hk0]
    exact (clock_of_firstCall_le (by omega) (by omega)).symm
  · rw [number_of_fromZero (fromZero_of_le hzero (Nat.zero_le i)), number, hsecond,
      if_neg (not_fromZero (by omega))]
    congr 1
    omega

end Distinct

theorem Forward.of_ne {n : ℕ} (h : ∀ i k, i < k → k < n → uuid clock i ≠ uuid clock k) : Forward clock n := by
  constructor
  · intro i k _ hk hback
    exact ⟨fromZero_iff.mp (fromZero_of_ne h hk hback), few_of_ne h hk hback, clock_eq_zero_of_ne h hk hback,
      moved_of_ne h hk hback⟩
  · intro i hi
    by_contra hstill
    simp only [not_exists, not_and, not_not] at hstill
    have hsame : ∀ j, i ≤ j → j ≤ i + 2 ^ 64 → clock j = clock i := by
      intro j hj hle
      obtain rfl | hlt := Nat.eq_or_lt_of_le hj
      · rfl
      · exact hstill j hlt hle
    have hnumber := number_of_firstCall_eq (by omega) (firstCall_eq_of_same (Nat.le_add_right i (2 ^ 64)) hsame)
    refine h i (i + 2 ^ 64) (by omega) hi (uuid_eq_iff.mpr ⟨?_, ?_⟩)
    · exact (hsame _ (by omega) (by omega)).symm
    · omega

theorem Forward.uuid_ne {n : ℕ} (h : Forward clock n) {i k : ℕ} (hik : i < k) (hk : k < n) :
    uuid clock i ≠ uuid clock k := by
  intro heq
  obtain ⟨hclock, hnumber⟩ := uuid_eq_iff.mp heq
  by_cases hback : Returns clock i k
  · obtain ⟨hall, hfew, hk0, hprev⟩ := h.not_back i k hik hk hback
    have hmoved : clock (k - 1) ≠ clock k := by rwa [hk0]
    have hfirst := firstCall_of_moved (Nat.zero_lt_of_lt hik) hmoved
    have hzero := number_firstCall (not_fromZero (hfirst.symm ▸ Nat.zero_lt_of_lt hik))
    rw [hfirst] at hzero
    rw [hzero, number_of_fromZero (fromZero_iff.mpr hall)] at hnumber
    omega
  · have hsame : ∀ j, i ≤ j → j ≤ k → clock j = clock i := by
      intro j hj hle
      by_contra hne
      refine hback ⟨hclock, j, ?_, ?_, by rwa [← hclock]⟩
      · exact Nat.lt_of_le_of_ne hj fun heq => hne (by rw [heq])
      · exact Nat.lt_of_le_of_ne hle fun heq => hne (by rw [heq, hclock])
    have hdiff := number_of_firstCall_eq (by omega) (firstCall_eq_of_same (Nat.le_of_lt hik) hsame)
    obtain ⟨j, hij, hjle, hne⟩ := h.moves i (by omega)
    exact hne (hsame j (by omega) (by omega))

/-- The ids of `n` calls are distinct exactly if the clock does not go back to a reading it has left. -/
theorem uuid_ne_iff_forward (clock : ℕ → Int64) (n : ℕ) :
    (∀ i k, i < k → k < n → uuid clock i ≠ uuid clock k) ↔ Forward clock n :=
  ⟨Forward.of_ne, fun h _ _ hik hk => h.uuid_ne hik hk⟩

/-- The clock is set back by a millisecond. -/
theorem uuid_repeats : ¬∀ (clock : ℕ → Int64) (i k : ℕ), i < k → uuid clock i ≠ uuid clock k := by
  intro h
  refine h (fun k => if k = 1 then 1700000000001 else 1700000000000) 0 2 (by decide) (uuid_eq_iff.mpr ?_)
  decide

end UuidState

end ForgottenServer.Kv
