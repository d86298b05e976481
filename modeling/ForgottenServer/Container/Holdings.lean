import ForgottenServer.Container.Forest
import ForgottenServer.Lib.Subtotals

/-! # What a container holds

How much of an item id is in a container, at any depth, and how a change below the container
changes it. -/

open Subtotals

namespace ForgottenServer

namespace Heap

variable {env : GameEnv} {s : Heap}

/-- How much of an item id an object is, together with everything below it. -/
def holds (s : Heap) (id : UInt16) (c : Ref) : Nat := deep s.items (s.contrib id) s.size c

/-- The total of what is below every object. -/
def below (s : Heap) (id : UInt16) (c : Ref) : Nat := inside s.items (s.holds id) c

theorem Forest.tree (h : Forest s) (hpos : 0 < s.size) : Tree s.parent s.items s.size where
  kids_iff := h.parent_iff.symm
  nodup := h.nodup
  above r := by
    cases hp : s.parent r with
    | none => exact ⟨[r], .top hp, hpos⟩
    | some c =>
      have hr := h.parent_iff.mp hp
      have hends : Climb.Ends s.parent r := by
        obtain ⟨l, hl⟩ := h.ends (h.holder hr)
        exact ⟨_, .step hp hl⟩
      obtain ⟨l, hl, habove⟩ := h.climb (h.item_lt hr) hends
      exact ⟨l, habove, Climb.length_of_climb hl⟩

theorem Forest.holds_eq (h : Forest s) (hpos : 0 < s.size) (id : UInt16) (c : Ref) :
    s.holds id c = s.contrib id c + s.below id c :=
  (h.tree hpos).deep_eq_own _ c

/-- The data of an object in a container changes. -/
theorem Forest.holds_setThing (h : Forest s) {c r : Ref} (hr : r ∈ s.items c) (id : UInt16) (t : Thing) {d : Nat}
    (hd : (s.setThing r t).contrib id r = s.contrib id r + d) {z : Ref} (hz : z ≠ r) :
    (s.setThing r t).holds id z = s.holds id z + if z ∈ c :: s.parents c then d else 0 := by
  have hpos : 0 < s.size := Nat.zero_lt_of_lt (h.item_lt hr)
  have hoff : OffAt s.items ((s.setThing r t).contrib id) (s.below id) c d := by
    intro y
    have hexact : s.below id y = inside s.items (s.contrib id + s.below id) y := (h.tree hpos).exact _ y
    rcases eq_or_ne y c with rfl | hne
    · have hchange : inside s.items ((s.setThing r t).contrib id + s.below id) y + (s.contrib id + s.below id) r =
          inside s.items (s.contrib id + s.below id) y + ((s.setThing r t).contrib id + s.below id) r :=
        inside_change (h.nodup y) hr
          fun x _ hx => by rw [Pi.add_apply, Pi.add_apply, contrib_setThing_of_ne id t hx]
      rw [Pi.add_apply, Pi.add_apply, hd, ← hexact] at hchange
      rw [if_pos rfl]
      omega
    · rw [if_neg hne, Nat.add_zero, hexact]
      refine inside_congr rfl fun x hx => ?_
      rw [Pi.add_apply, Pi.add_apply, contrib_setThing_of_ne id t]
      rintro rfl
      exact hne (h.eq_of_mem hr hx)
  have hdeep := hoff.deep_eq (h.tree hpos) (h.above (h.holder hr)) z
  rw [contrib_setThing_of_ne id t hz, ← Nat.add_assoc, ← h.holds_eq hpos id z] at hdeep
  exact hdeep

/-- An object comes into a container, with everything below it. -/
theorem Forest.holds_push (h : Forest s) {c r : Ref} (h' : Forest (s.push c r)) (hc : (s.box c).isSome)
    (hr : r ∉ c :: s.parents c) (id : UInt16) (z : Ref) :
    (s.push c r).holds id z = s.holds id z + if z ∈ c :: s.parents c then s.holds id r else 0 := by
  have hpos : 0 < s.size := Nat.zero_lt_of_lt (h.box_lt hc)
  have hoff : OffAt (s.push c r).items (s.contrib id) (s.below id) c (s.holds id r) := by
    intro y
    have hexact : s.below id y = inside s.items (s.contrib id + s.below id) y := (h.tree hpos).exact _ y
    rcases eq_or_ne y c with rfl | hne
    · have hperm : ((s.push y r).items y).Perm (r :: s.items y) := by
        rw [push_items, Function.update_self]
      rw [inside_cons hperm, Pi.add_apply, ← h.holds_eq hpos id r, ← hexact, if_pos rfl, Nat.add_comm]
    · rw [if_neg hne, Nat.add_zero, hexact]
      exact inside_congr (by rw [push_items, Function.update_of_ne hne]) fun _ _ => rfl
  have hdeep := hoff.deep_eq (h'.tree hpos) ((h.above hc).update hr _) z
  rw [← Nat.add_assoc, ← h.holds_eq hpos id z] at hdeep
  exact hdeep

/-- A new object is below nothing. -/
theorem Forest.holds_alloc (h : Forest s) (t : Thing) (b : Option Box) (id : UInt16) {z : Ref} (hz : z < s.size) :
    (s.alloc t b).holds id z = s.holds id z := by
  have hsame : ∀ x, x < s.size → (s.alloc t b).contrib id x = s.contrib id x := fun x hx => by
    rw [contrib, contrib, getItemCount, getItemCount, alloc_thing, Function.update_of_ne hx.ne]
  have hpos : 0 < s.size := Nat.zero_lt_of_lt hz
  obtain ⟨l, habove, _⟩ := (h.tree hpos).above z
  calc (s.alloc t b).holds id z = deep s.items (s.contrib id) (s.size + 1) z :=
        deep_congr (fun _ _ hx => h.item_lt hx) hsame (s.size + 1) hz
    _ = s.holds id z := (h.tree hpos).deep_succ habove (Nat.le_add_left ..)

end Heap

end ForgottenServer
