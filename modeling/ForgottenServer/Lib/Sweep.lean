import Mathlib

/-! # Going through a vector that changes

An entry that is taken out while a vector is gone through leaves its place to the last one, and new entries go to the end:
what was gone through stays, and what is still to come is the rest. -/

namespace Sweep

variable {α : Type*}

/-- `xs[i] = xs.back(); xs.pop_back();` -/
def swapPop (xs : List α) (i : Nat) : List α :=
  match xs.getLast? with
  | none => xs
  | some last => (xs.set i last).dropLast

/-- What was gone through stays. -/
theorem take_swapPop {xs : List α} {i : Nat} (h : i < xs.length) : (swapPop xs i).take i = xs.take i := by
  obtain ⟨front, last, rfl⟩ := xs.eq_nil_or_concat'.resolve_left (List.ne_nil_of_length_pos (by omega))
  rw [List.length_append, List.length_singleton] at h
  unfold swapPop
  rw [List.getLast?_concat]
  simp only
  rw [List.dropLast_eq_take, List.length_set, List.length_append, List.length_singleton, Nat.add_sub_cancel,
    List.take_take, Nat.min_eq_left (by omega), List.take_set, List.set_eq_of_length_le (by rw [List.length_take]; omega)]

/-- What is still to come is the rest, in another order. -/
theorem drop_swapPop {xs : List α} {i : Nat} (h : i < xs.length) : ((swapPop xs i).drop i).Perm (xs.drop (i + 1)) := by
  obtain ⟨front, last, rfl⟩ := xs.eq_nil_or_concat'.resolve_left (List.ne_nil_of_length_pos (by omega))
  rw [List.length_append, List.length_singleton] at h
  unfold swapPop
  rw [List.getLast?_concat]
  simp only
  by_cases hi : i < front.length
  · have hfront : (front.set i last).drop i = last :: front.drop (i + 1) := by
      rw [List.drop_eq_getElem_cons (by rwa [List.length_set]), List.getElem_set_self,
        List.drop_set_of_lt (Nat.lt_succ_self i)]
    rw [List.set_append_left _ _ hi, List.dropLast_concat, hfront, List.drop_append_of_le_length hi]
    exact (List.perm_append_singleton _ _).symm
  · obtain rfl : i = front.length := by omega
    rw [List.set_append_right _ _ (Nat.le_refl _), Nat.sub_self, List.set_cons_zero, List.dropLast_concat, List.drop_length,
      List.drop_eq_nil_of_le (by rw [List.length_append]; rfl)]

theorem cons_swapPop {xs : List α} {i : Nat} {x : α} (h : xs[i]? = some x) : (x :: swapPop xs i).Perm xs := by
  obtain ⟨hi, hx⟩ := List.getElem?_eq_some_iff.mp h
  have hrest : xs.drop i = x :: xs.drop (i + 1) := by rw [List.drop_eq_getElem_cons hi, hx]
  calc (x :: swapPop xs i).Perm (x :: ((swapPop xs i).take i ++ (swapPop xs i).drop i)) := by rw [List.take_append_drop]
    _ |>.Perm (x :: (xs.take i ++ xs.drop (i + 1))) := by
      rw [take_swapPop hi]
      exact ((drop_swapPop hi).append_left _).cons x
    _ |>.Perm (xs.take i ++ x :: xs.drop (i + 1)) := List.perm_middle.symm
    _ |>.Perm xs := by rw [← hrest, List.take_append_drop]

variable [BEq α]

theorem count_swapPop {xs : List α} {i : Nat} {x : α} (h : xs[i]? = some x) (a : α) :
    (swapPop xs i).count a = xs.count a - if x == a then 1 else 0 := by
  rw [← (cons_swapPop h).count_eq a, List.count_cons, Nat.add_sub_cancel]

theorem count_drop {xs : List α} {i : Nat} {x : α} (h : xs[i]? = some x) (a : α) :
    (xs.drop i).count a = (xs.drop (i + 1)).count a + if x == a then 1 else 0 := by
  obtain ⟨hi, hx⟩ := List.getElem?_eq_some_iff.mp h
  rw [List.drop_eq_getElem_cons hi, hx, List.count_cons]

theorem count_drop_swapPop {xs : List α} {i : Nat} {x : α} (h : xs[i]? = some x) (a : α) :
    ((swapPop xs i).drop i).count a = (xs.drop i).count a - if x == a then 1 else 0 := by
  rw [(drop_swapPop (List.getElem?_eq_some_iff.mp h).1).count_eq a, count_drop h, Nat.add_sub_cancel]

end Sweep
