import Mathlib

/-! # A page of a list

What a window shows of a list that is longer than the window, and how the page changes with the list. -/

namespace Page

variable {α : Type*} (first size : Nat)

def page (l : List α) : List α := (l.drop first).take size

variable {first size} {l : List α}

theorem getElem?_page (k : Nat) : (page first size l)[k]? = if k < size then l[first + k]? else none := by
  rw [page, List.getElem?_take, List.getElem?_drop]

theorem length_page : (page first size l).length = min size (l.length - first) := by
  rw [page, List.length_take, List.length_drop]

/-- What enters a page at its start is the entry that the list then has there. -/
theorem page_cons (a : α) {b : α} (hb : (a :: l)[first]? = some b) :
    page first size (a :: l) = (b :: page first size l).take size := by
  have hdrop : (a :: l).drop first = b :: l.drop first := by
    obtain ⟨hlt, hget⟩ := List.getElem?_eq_some_iff.mp hb
    rw [List.drop_eq_getElem_cons hlt, hget, List.drop_succ_cons]
  rw [page, hdrop]
  cases size with
  | zero => rfl
  | succ n => rw [page, List.take_succ_cons, List.take_succ_cons, List.take_take, Nat.min_eq_left (Nat.le_succ n)]

theorem page_append (hfirst : first ≤ l.length) (a : α) :
    page first size (l ++ [a]) = (page first size l ++ [a]).take size := by
  apply List.ext_getElem?
  intro k
  simp only [getElem?_page, List.getElem?_take, List.getElem?_append, length_page, List.getElem?_singleton]
  split_ifs <;> first | rfl | omega

/-- A full page is not changed by its last entry coming in once more before it. -/
theorem take_insertIdx {a : α} {k : Nat} (hk : l[k]? = some a) (hlength : l.length = k + 1) :
    (l.insertIdx k a).take (k + 1) = l := by
  apply List.ext_getElem?
  intro j
  rw [List.getElem?_take, List.getElem?_insertIdx]
  split_ifs with hj hlt heq hle
  · rfl
  · rw [heq, hk]
  · omega
  · omega
  · rw [List.getElem?_eq_none (by omega)]

theorem set_eq_self_iff {i : Nat} {a : α} : l.set i a = l ↔ l.length ≤ i ∨ l[i]? = some a := by
  constructor
  · intro heq
    rcases Nat.lt_or_ge i l.length with hlt | hge
    · rw [← heq, List.getElem?_set_self hlt]
      exact Or.inr rfl
    · exact Or.inl hge
  · rintro (hge | hget)
    · exact List.set_eq_of_length_le hge
    · obtain ⟨hlt, rfl⟩ := List.getElem?_eq_some_iff.mp hget
      exact List.set_getElem_self hlt

theorem page_set (i : Nat) (a : α) : page first size (l.set i a) =
    if i < first then page first size l else (page first size l).set (i - first) a := by
  split
  · next hlt =>
    rw [page, List.drop_set_of_lt hlt, page]
  · next hle =>
    rw [page, List.drop_set, if_neg hle, List.take_set, page]

theorem getElem?_toList (o : Option α) (k : Nat) : o.toList[k]? = if k = 0 then o else none := by
  cases o with
  | none => simp
  | some a => rw [Option.toList_some, List.getElem?_singleton]

theorem toList_inj {o o' : Option α} : o.toList = o'.toList ↔ o = o' := by
  cases o <;> cases o' <;> simp

/-- A page that does not reach so far. -/
theorem page_eraseIdx_of_le {i : Nat} (hi : first + size ≤ i) : page first size (l.eraseIdx i) = page first size l := by
  apply List.ext_getElem?
  intro k
  rw [getElem?_page, getElem?_page, List.getElem?_eraseIdx]
  split_ifs with hk hki
  · rfl
  · omega
  · rfl

/-- What is taken out of a page, or before it, makes room for one entry at its end. -/
theorem page_eraseIdx {i : Nat} (hsize : 0 < size) (hi : i < first + size) (hlength : i < l.length)
    (hfirst : first < l.length) : page first size (l.eraseIdx i) =
      (page first size l).eraseIdx (max i first - first) ++ l[first + size]?.toList := by
  have hinside : max i first - first < (page first size l).length := by
    rw [length_page]
    omega
  have herased := List.length_eraseIdx_of_lt hinside
  rw [length_page] at herased
  apply List.ext_getElem?
  intro k
  rw [getElem?_page, List.getElem?_eraseIdx, List.getElem?_append, herased]
  by_cases hk : k < min size (l.length - first) - 1
  · have hsame : first + k < i ↔ k < max i first - first := by omega
    have hnext : k + 1 < size := by omega
    rw [if_pos hk, List.getElem?_eraseIdx, getElem?_page, getElem?_page, if_pos hnext]
    simp only [hsame, if_pos (Nat.lt_of_succ_lt hnext), Nat.add_assoc]
  · have hbehind : ¬ first + k < i := by omega
    rw [if_neg hk, if_neg hbehind, getElem?_toList]
    by_cases hlast : k = min size (l.length - first) - 1
    · rw [if_pos (by omega : k < size), if_pos (by omega : k - _ = 0)]
      by_cases hmore : size ≤ l.length - first
      · rw [show first + k + 1 = first + size by omega]
      · rw [List.getElem?_eq_none (by omega), List.getElem?_eq_none (by omega)]
    · rw [if_neg (by omega : ¬ k - _ = 0)]
      split
      · rw [List.getElem?_eq_none (by omega)]
      · rfl

end Page
