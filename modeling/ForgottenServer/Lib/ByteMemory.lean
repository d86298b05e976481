import Mathlib

/-! # A fixed block of bytes

Loads and stores of byte ranges. An access outside the block has no result, so a
computation in `Option` that returns has stayed inside. -/

namespace ByteMemory

def load (mem : List UInt8) (pos n : Nat) : Option (List UInt8) :=
  if pos + n ≤ mem.length then some ((mem.drop pos).take n) else none

def store (mem : List UInt8) (pos : Nat) (bytes : List UInt8) : Option (List UInt8) :=
  if pos + bytes.length ≤ mem.length then
    some (mem.take pos ++ bytes ++ mem.drop (pos + bytes.length))
  else none

theorem load_eq_some {mem : List UInt8} {pos n : Nat} (h : pos + n ≤ mem.length) :
    load mem pos n = some ((mem.drop pos).take n) := if_pos h

theorem store_eq_some {mem bytes : List UInt8} {pos : Nat} (h : pos + bytes.length ≤ mem.length) :
    store mem pos bytes = some (mem.take pos ++ bytes ++ mem.drop (pos + bytes.length)) := if_pos h

theorem length_store {mem mem' bytes : List UInt8} {pos : Nat} (h : store mem pos bytes = some mem') :
    mem'.length = mem.length := by
  unfold store at h
  split at h
  · cases h
    simp only [List.length_append, List.length_take, List.length_drop]
    omega
  · cases h

/-- What stands before the end of a stored range. -/
theorem take_store {mem mem' bytes : List UInt8} {pos : Nat} (h : store mem pos bytes = some mem') :
    mem'.take (pos + bytes.length) = mem.take pos ++ bytes := by
  unfold store at h
  split at h
  · cases h
    rw [List.take_append_of_le_length (by simp; omega), List.take_of_length_le (by simp [Nat.min_le_left])]
  · cases h

/-- A slice below `k` depends on the first `k` bytes only. -/
theorem slice_congr {mem mem' : List UInt8} {pos n k : Nat} (h : mem.take k = mem'.take k)
    (hk : pos + n ≤ k) : (mem.drop pos).take n = (mem'.drop pos).take n := by
  have hslice : ∀ m : List UInt8, (m.drop pos).take n = ((m.take k).drop pos).take n := by
    intro m
    rw [List.drop_take, List.take_take, Nat.min_eq_left (by omega)]
  rw [hslice mem, hslice mem', h]

theorem load_congr {mem mem' : List UInt8} {pos n k : Nat} (h : mem.take k = mem'.take k)
    (hk : pos + n ≤ k) (hlen : k ≤ mem.length) (hlen' : k ≤ mem'.length) :
    load mem pos n = load mem' pos n := by
  rw [load_eq_some (by omega), load_eq_some (by omega), slice_congr h hk]

end ByteMemory
