import Mathlib
import ForgottenServer.Lib.LogicalClock

/-! # Unique ids of items

`Item::generateItemUID` puts a time in milliseconds and a sequence number into one word. Seen
as numbers, the ids are the stamps of a logical clock that follows the system clock. -/

namespace ForgottenServer

def UID_COUNTER_BITS : UInt64 := 21
def UID_TIMESTAMP_BITS : UInt64 := 63 - UID_COUNTER_BITS
def UID_COUNTER_MASK : UInt64 := (1 <<< UID_COUNTER_BITS) - 1
def UID_TIMESTAMP_MASK : UInt64 := (1 <<< UID_TIMESTAMP_BITS) - 1

/-- `g_uidLastTimestamp` and `g_uidCounter`. -/
structure UidState where
  lastTimestamp : UInt64 := 0
  counter : UInt64 := 0

/-- `now` is the reading of the system clock. -/
def getUidTimestamp (now : Int64) : UInt64 := if 0 < now then now.toUInt64 else 0

def generateItemUID (now : Int64) (s : UidState) : UInt64 × UidState :=
  let timestamp := getUidTimestamp now &&& UID_TIMESTAMP_MASK
  let timestamp := if timestamp < s.lastTimestamp then s.lastTimestamp else timestamp
  let next : UidState :=
    if timestamp = s.lastTimestamp then
      if UID_COUNTER_MASK ≤ s.counter then ⟨(s.lastTimestamp + 1) &&& UID_TIMESTAMP_MASK, 0⟩
      else ⟨timestamp, s.counter + 1⟩
    else ⟨timestamp, 0⟩
  ((next.lastTimestamp <<< UID_COUNTER_BITS) ||| next.counter, next)

namespace UidState

/-- The globals after `k` calls, the call number `i` of which read `clock i`. -/
def after (clock : ℕ → Int64) : ℕ → UidState
  | 0 => {}
  | k + 1 => (generateItemUID (clock k) (after clock k)).2

/-- The id that the call number `k` returns. -/
def uid (clock : ℕ → Int64) (k : ℕ) : UInt64 := (generateItemUID (clock k) (after clock k)).1

/-! ## Ids as numbers -/

/-- Both parts are within their bits. -/
structure Packed (s : UidState) : Prop where
  timestamp_lt : s.lastTimestamp.toNat < 2 ^ 42
  counter_lt : s.counter.toNat < 2 ^ 21

def value (s : UidState) : ℕ := s.lastTimestamp.toNat * 2 ^ 21 + s.counter.toNat

theorem toNat_and_timestampMask (x : UInt64) : (x &&& UID_TIMESTAMP_MASK).toNat = x.toNat % 2 ^ 42 := by
  have hmask : UID_TIMESTAMP_MASK.toNat = 2 ^ 42 - 1 := by decide
  rw [UInt64.toNat_and, hmask, Nat.and_two_pow_sub_one_eq_mod]

theorem Packed.toNat_id {s : UidState} (hs : s.Packed) :
    ((s.lastTimestamp <<< UID_COUNTER_BITS) ||| s.counter).toNat = s.value := by
  have hshift : (s.lastTimestamp <<< UID_COUNTER_BITS).toNat = s.lastTimestamp.toNat <<< 21 := by
    have hbits : UID_COUNTER_BITS.toNat % 64 = 21 := by decide
    rw [UInt64.toNat_shiftLeft, hbits, Nat.shiftLeft_eq]
    have := hs.timestamp_lt
    omega
  rw [UInt64.toNat_or, hshift, ← Nat.shiftLeft_add_eq_or_of_lt hs.counter_lt, Nat.shiftLeft_eq, value]

/-- The next state is the next stamp, as long as the word has room for one more id. -/
theorem Packed.generate {s : UidState} (hs : s.Packed) (now : Int64)
    (hnow : (getUidTimestamp now).toNat < 2 ^ 42) (hroom : s.value + 1 < 2 ^ 63) :
    (generateItemUID now s).2.Packed ∧
      (generateItemUID now s).2.value = max (s.value + 1) ((getUidTimestamp now).toNat * 2 ^ 21) := by
  obtain ⟨hlast, hcounter⟩ := hs
  have htime : (getUidTimestamp now &&& UID_TIMESTAMP_MASK).toNat = (getUidTimestamp now).toNat := by
    rw [toNat_and_timestampMask, Nat.mod_eq_of_lt hnow]
  have hfull : UID_COUNTER_MASK.toNat = 2 ^ 21 - 1 := by decide
  simp only [value] at hroom ⊢
  simp only [generateItemUID]
  generalize getUidTimestamp now &&& UID_TIMESTAMP_MASK = timestamp at htime ⊢
  rw [← htime] at hnow ⊢
  by_cases hlate : timestamp ≤ s.lastTimestamp
  · -- The clock stands still or is behind, so that the sequence goes on.
    have hsame : (if timestamp < s.lastTimestamp then s.lastTimestamp else timestamp) = s.lastTimestamp := by
      split
      · rfl
      · exact UInt64.le_antisymm hlate (UInt64.not_lt.mp ‹_›)
    rw [hsame, if_pos rfl]
    rw [UInt64.le_iff_toNat_le] at hlate
    split
    · rename_i hover
      rw [UInt64.le_iff_toNat_le, hfull] at hover
      have hnext : ((s.lastTimestamp + 1) &&& UID_TIMESTAMP_MASK).toNat = s.lastTimestamp.toNat + 1 := by
        rw [toNat_and_timestampMask, UInt64.toNat_add]
        simp only [UInt64.toNat_one]
        omega
      refine ⟨⟨?_, Nat.two_pow_pos 21⟩, ?_⟩
      · simp only [hnext]
        omega
      · simp only [hnext, UInt64.toNat_zero]
        omega
    · rename_i hover
      rw [UInt64.le_iff_toNat_le, hfull] at hover
      have hnext : (s.counter + 1).toNat = s.counter.toNat + 1 := by
        rw [UInt64.toNat_add]
        simp only [UInt64.toNat_one]
        omega
      refine ⟨⟨hlast, ?_⟩, ?_⟩
      · simp only [hnext]
        omega
      · simp only [hnext]
        omega
  · have hahead := UInt64.not_le.mp hlate
    rw [if_neg (UInt64.lt_asymm hahead), if_neg (UInt64.ne_of_lt hahead).symm]
    rw [UInt64.lt_iff_toNat_lt] at hahead
    refine ⟨⟨hnow, Nat.two_pow_pos 21⟩, ?_⟩
    simp only [UInt64.toNat_zero]
    omega

/-! ## Runs -/

theorem getUidTimestamp_lt {now : Int64} (h : now.toInt < 2 ^ 41) : (getUidTimestamp now).toNat < 2 ^ 41 := by
  unfold getUidTimestamp
  split
  · rename_i hpos
    have hnonneg : 0 ≤ now := Int64.le_of_lt hpos
    rw [Int64.toInt_eq_toNatClampNeg hnonneg] at h
    rw [Int64.toNat_toUInt64_of_le hnonneg]
    omega
  · decide

/-- After every call the globals are the stamp of the logical clock. -/
theorem after_eq_stamp (clock : ℕ → Int64) {n : ℕ} (hn : n ≤ 2 ^ 62)
    (hclock : ∀ k < n, (clock k).toInt < 2 ^ 41) :
    (after clock n).Packed ∧ (after clock n).value =
      LogicalClock.stamp 0 (fun k => (getUidTimestamp (clock k)).toNat * 2 ^ 21) n := by
  induction n with
  | zero => exact ⟨⟨Nat.two_pow_pos 42, Nat.two_pow_pos 21⟩, by simp [after, value, LogicalClock.stamp]⟩
  | succ n ih =>
    have hbefore := fun k (hk : k < n) => hclock k (by omega)
    obtain ⟨hpacked, hvalue⟩ := ih (by omega) hbefore
    have hread : ∀ k < n, (getUidTimestamp (clock k)).toNat * 2 ^ 21 ≤ 2 ^ 62 - 2 ^ 21 := by
      intro k hk
      have := getUidTimestamp_lt (hbefore k hk)
      omega
    have hbound := LogicalClock.stamp_le (Nat.zero_le (2 ^ 62 - 2 ^ 21)) hread
    rw [← hvalue, Nat.succ_eq_succ, Nat.succ_iterate] at hbound
    have hnow := getUidTimestamp_lt (hclock n (by omega))
    obtain ⟨hnext, heq⟩ := hpacked.generate (clock n) (by omega) (by omega)
    exact ⟨hnext, by rw [after, heq, LogicalClock.stamp, hvalue, Nat.succ_eq_succ]⟩

/-- The ids are strictly increasing, whatever the clock does. -/
theorem uid_lt (clock : ℕ → Int64) (n : ℕ) (hn : n < 2 ^ 62) (hclock : ∀ k < n, (clock k).toInt < 2 ^ 41) :
    ∀ i k, i < k → k < n → uid clock i < uid clock k := by
  have huid : ∀ k < n, (uid clock k).toNat =
      LogicalClock.stamp 0 (fun k => (getUidTimestamp (clock k)).toNat * 2 ^ 21) (k + 1) := by
    intro k hk
    obtain ⟨hpacked, hvalue⟩ := after_eq_stamp clock (n := k + 1) (by omega) fun i hi => hclock i (by omega)
    rw [← hvalue, ← hpacked.toNat_id]
    rfl
  intro i k hik hk
  rw [UInt64.lt_iff_toNat_lt, huid i (by omega), huid k hk]
  exact LogicalClock.stamp_lt (by omega)

/-- A clock that goes back, and then stands still. -/
theorem uid_lt_backwards :
    let clock : ℕ → Int64 := fun k => if k = 0 then 1700000000000 else 1699999999999
    ∀ i k, i < k → k < 5000000 → uid clock i < uid clock k := by
  refine uid_lt _ 5000000 (by decide) fun k _ => ?_
  split <;> decide

end UidState

end ForgottenServer
