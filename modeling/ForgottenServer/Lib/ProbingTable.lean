import Mathlib

/-! # Tables with linear probing

The slots of a key are those from its hash on, around the table. A key is looked for up to the first free slot, and a
new one is put there. Slots are only freed all together. -/

namespace ProbingTable

variable {κ ν : Type}

/-- `none` is a free slot. -/
structure Table (κ ν : Type) where
  keys : Nat → κ
  values : Nat → Option ν

/-- The first slot at which `stop` is true. After `fuel` slots the search is given up. -/
def seek (size : Nat) (stop : Nat → Bool) : Nat → Nat → Option Nat
  | 0, _ => none
  | fuel + 1, slot => if stop slot then some slot else seek size stop fuel ((slot + 1) % size)

/-- The slot `i` steps after `start`. -/
def slotAt (size start i : Nat) : Nat := (start + i) % size

theorem slotAt_zero {size start : Nat} (h : start < size) : slotAt size start 0 = start := Nat.mod_eq_of_lt h

theorem slotAt_succ (size start i : Nat) : (slotAt size start i + 1) % size = slotAt size start (i + 1) := by
  rw [slotAt, slotAt, Nat.mod_add_mod, Nat.add_assoc]

theorem slotAt_lt {size : Nat} (start i : Nat) (h : 0 < size) : slotAt size start i < size := Nat.mod_lt _ h

/-- Every slot is met on the way around. -/
theorem exists_slotAt {size start slot : Nat} (hstart : start < size) (hslot : slot < size) :
    ∃ i < size, slotAt size start i = slot := by
  obtain hle | hlt := le_or_gt start slot
  · refine ⟨slot - start, by omega, ?_⟩
    rw [slotAt, show start + (slot - start) = slot by omega, Nat.mod_eq_of_lt hslot]
  · refine ⟨size - start + slot, by omega, ?_⟩
    rw [slotAt, show start + (size - start + slot) = slot + size by omega, Nat.add_mod_right, Nat.mod_eq_of_lt hslot]

theorem seek_slotAt {size start : Nat} {stop : Nat → Bool} (n : Nat) {i fuel : Nat} (hfuel : n < fuel)
    (hbefore : ∀ j, i ≤ j → j < i + n → stop (slotAt size start j) = false)
    (hstop : stop (slotAt size start (i + n)) = true) :
    seek size stop fuel (slotAt size start i) = some (slotAt size start (i + n)) := by
  induction n generalizing i fuel with
  | zero =>
    obtain ⟨fuel, rfl⟩ := Nat.exists_eq_succ_of_ne_zero hfuel.ne'
    exact if_pos hstop
  | succ n ih =>
    obtain ⟨fuel, rfl⟩ := Nat.exists_eq_succ_of_ne_zero (Nat.ne_of_gt (Nat.zero_lt_of_lt hfuel))
    have hgo : stop (slotAt size start i) = false := hbefore i le_rfl (by omega)
    rw [seek, hgo, if_neg Bool.false_ne_true, slotAt_succ,
      ih (by omega) (fun j hij hj => hbefore j (by omega) (by omega)) (by rwa [Nat.add_right_comm])]
    rw [Nat.add_right_comm, Nat.add_assoc]

/-- A search ends when there is a slot that stops it, at the first such slot. -/
theorem exists_seek {size start slot : Nat} (stop : Nat → Bool) (hstart : start < size) (hslot : slot < size)
    (hstop : stop slot = true) :
    ∃ n < size, seek size stop size start = some (slotAt size start n) ∧ stop (slotAt size start n) = true ∧
      ∀ j < n, stop (slotAt size start j) = false := by
  obtain ⟨i, hi, rfl⟩ := exists_slotAt hstart hslot
  have hfirst : ∃ n, stop (slotAt size start n) = true := ⟨i, hstop⟩
  have hlt : Nat.find hfirst < size := (Nat.find_le hstop).trans_lt hi
  have hbefore : ∀ j < Nat.find hfirst, stop (slotAt size start j) = false := fun j hj =>
    Bool.eq_false_of_not_eq_true (Nat.find_min hfirst hj)
  refine ⟨Nat.find hfirst, hlt, ?_, Nat.find_spec hfirst, hbefore⟩
  have hseek := seek_slotAt (i := 0) (Nat.find hfirst) hlt (fun j _ hj => hbefore j (by omega))
    (by rw [Nat.zero_add]; exact Nat.find_spec hfirst)
  rwa [slotAt_zero hstart, Nat.zero_add] at hseek

namespace Table

variable (t : Table κ ν)

def free (slot : Nat) : Bool := (t.values slot).isNone

def stopsAt [DecidableEq κ] (key : κ) (slot : Nat) : Bool := t.free slot || t.keys slot = key

/-- What the table has for `key`: outside, whether the search ends. -/
def find [DecidableEq κ] (size : Nat) (hash : κ → Nat) (key : κ) : Option (Option ν) :=
  (seek size (t.stopsAt key) size (hash key)).map t.values

def put (slot : Nat) (key : κ) (value : ν) : Table κ ν :=
  ⟨Function.update t.keys slot key, Function.update t.values slot (some value)⟩

/-- The slot of a new key is put in by `put`. -/
def insert (size : Nat) (hash : κ → Nat) (key : κ) (value : ν) : Option (Nat × Table κ ν) :=
  (seek size t.free size (hash key)).map fun slot => (slot, t.put slot key value)

variable {t} {slot other : Nat} {key : κ} {value : ν}

@[simp] theorem keys_put_self : (t.put slot key value).keys slot = key := Function.update_self ..

@[simp] theorem values_put_self : (t.put slot key value).values slot = some value := Function.update_self ..

theorem keys_put_of_ne (h : other ≠ slot) : (t.put slot key value).keys other = t.keys other :=
  Function.update_of_ne h ..

theorem values_put_of_ne (h : other ≠ slot) : (t.put slot key value).values other = t.values other :=
  Function.update_of_ne h ..

end Table

/-- The table holds what `has` says, each key behind occupied slots only. -/
structure Holds (size : Nat) (hash : κ → Nat) (t : Table κ ν) (has : κ → ν → Prop) : Prop where
  placed : ∀ key value, has key value → ∃ i < size, t.keys (slotAt size (hash key) i) = key ∧
    t.values (slotAt size (hash key) i) = some value ∧ ∀ j < i, t.free (slotAt size (hash key) j) = false
  contained : ∀ slot value, t.values slot = some value → has (t.keys slot) value

namespace Holds

variable {size : Nat} {hash : κ → Nat} {t : Table κ ν} {has : κ → ν → Prop}

theorem empty (hfree : ∀ slot, t.values slot = none) : Holds size hash t fun _ _ => False :=
  ⟨fun _ _ h => h.elim, fun slot _ h => by rw [hfree slot] at h; cases h⟩

theorem congr {has' : κ → ν → Prop} (h : Holds size hash t has) (hsame : ∀ key value, has key value ↔ has' key value) :
    Holds size hash t has' :=
  ⟨fun key value hkey => h.placed key value ((hsame key value).mpr hkey),
    fun slot value hslot => (hsame _ _).mp (h.contained slot value hslot)⟩

/-- A search finds what the table holds, and ends. -/
theorem find_spec [DecidableEq κ] (h : Holds size hash t has) (hfun : ∀ key v w, has key v → has key w → v = w)
    {key : κ} {slot : Nat} (hhash : hash key < size) (hslot : slot < size) (hfree : t.free slot = true) :
    ∃ found, t.find size hash key = some found ∧ ∀ value, found = some value ↔ has key value := by
  obtain ⟨n, -, hseek, hstop, hbefore⟩ := exists_seek (t.stopsAt key) hhash hslot
    (by rw [Table.stopsAt, hfree, Bool.true_or])
  refine ⟨t.values (slotAt size (hash key) n), by rw [Table.find, hseek, Option.map_some], fun value => ?_⟩
  constructor
  · intro hvalue
    have hkey : t.keys (slotAt size (hash key) n) = key := by simpa [Table.stopsAt, Table.free, hvalue] using hstop
    exact hkey ▸ h.contained _ value hvalue
  · intro hhas
    obtain ⟨i, -, hkey, hvalue, hoccupied⟩ := h.placed key value hhas
    -- The search does not stop before the slot of the key, and not behind it.
    obtain hlt | rfl | hgt := lt_trichotomy n i
    · have hnot := hoccupied n hlt
      have hkeyn : t.keys (slotAt size (hash key) n) = key := by simpa [Table.stopsAt, hnot] using hstop
      rw [Table.free, Option.isNone_eq_false_iff, Option.isSome_iff_exists] at hnot
      obtain ⟨other, hother⟩ := hnot
      rw [hother, hfun key other value (hkeyn ▸ h.contained _ other hother) hhas]
    · exact hvalue
    · have := hbefore i hgt
      simp [Table.stopsAt, hkey] at this

/-- A new key is put at a free slot, and the table holds it as well. -/
theorem insert_spec (h : Holds size hash t has) {key : κ} {slot : Nat} (value : ν) (hhash : hash key < size)
    (hslot : slot < size) (hfree : t.free slot = true) :
    ∃ used < size, t.insert size hash key value = some (used, t.put used key value) ∧ t.free used = true ∧
      Holds size hash (t.put used key value) fun k v => has k v ∨ k = key ∧ v = value := by
  obtain ⟨n, hn, hseek, hused, hbefore⟩ := exists_seek t.free hhash hslot hfree
  refine ⟨slotAt size (hash key) n, slotAt_lt _ _ (Nat.zero_lt_of_lt hn), by rw [Table.insert, hseek, Option.map_some],
    hused, ⟨fun k v hhas => ?_, fun other v hother => ?_⟩⟩
  · have hput : ∀ j, t.free j = false → (t.put (slotAt size (hash key) n) key value).keys j = t.keys j ∧
        (t.put (slotAt size (hash key) n) key value).values j = t.values j := by
      intro j hj
      have hne : j ≠ slotAt size (hash key) n := by
        rintro rfl
        rw [hused] at hj
        cases hj
      exact ⟨Table.keys_put_of_ne hne, Table.values_put_of_ne hne⟩
    have hkept : ∀ j, t.free j = false → (t.put (slotAt size (hash key) n) key value).free j = false := by
      intro j hj
      rw [Table.free, (hput j hj).2]
      exact hj
    obtain hhas | ⟨rfl, rfl⟩ := hhas
    · obtain ⟨i, hi, hkey, hvalue, hoccupied⟩ := h.placed k v hhas
      have hnot : t.free (slotAt size (hash k) i) = false := by rw [Table.free, hvalue, Option.isNone_some]
      obtain ⟨hkeys, hvalues⟩ := hput _ hnot
      exact ⟨i, hi, hkeys.trans hkey, hvalues.trans hvalue, fun j hj => hkept _ (hoccupied j hj)⟩
    · exact ⟨n, hn, Table.keys_put_self, Table.values_put_self, fun j hj => hkept _ (hbefore j hj)⟩
  · by_cases hsame : other = slotAt size (hash key) n
    · subst hsame
      rw [Table.values_put_self, Option.some.injEq] at hother
      exact .inr ⟨Table.keys_put_self, hother.symm⟩
    · rw [Table.values_put_of_ne hsame] at hother
      rw [Table.keys_put_of_ne hsame]
      exact .inl (h.contained other v hother)

end Holds

/-! ## Clearing -/

/-- Every slot of the list is freed. -/
def clear {β : Type} (slots : List Nat) (values : Nat → Option β) : Nat → Option β :=
  slots.foldl (fun values slot => Function.update values slot none) values

theorem clear_apply {β : Type} (slots : List Nat) (values : Nat → Option β) (slot : Nat) :
    clear slots values slot = if slot ∈ slots then none else values slot := by
  induction slots generalizing values with
  | nil => rfl
  | cons first slots ih =>
    rw [clear, List.foldl_cons, ← clear, ih]
    by_cases hfirst : slot = first
    · subst hfirst
      simp
    · rw [Function.update_of_ne hfirst]
      simp only [List.mem_cons, hfirst, false_or]

/-- Fewer slots than the table has leave one out. -/
theorem exists_notMem {size : Nat} {slots : List Nat} (h : slots.length < size) : ∃ slot < size, slot ∉ slots := by
  by_contra hall
  have hsub : List.range size ⊆ slots := by
    intro slot hslot
    by_contra hnot
    exact hall ⟨slot, List.mem_range.mp hslot, hnot⟩
  have hle := (List.nodup_range.subperm hsub).length_le
  rw [List.length_range] at hle
  omega

end ProbingTable
