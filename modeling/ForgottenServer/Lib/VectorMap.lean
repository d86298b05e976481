import Mathlib

/-! # Maps kept in a vector

The entries stand in no order, and no two of them have the same key. An entry is changed
where it stands, a new one goes to the end, and the last one takes the place of one that is
removed. -/

namespace VectorMap

variable {α K : Type*} [DecidableEq K] (key : α → K)

def find (xs : List α) (k : K) : Option α := xs.find? fun x => key x = k

/-- The first entry of the key becomes `a`. -/
def replace (k : K) (a : α) : List α → List α
  | [] => []
  | x :: xs => if key x = k then a :: xs else x :: replace k a xs

/-- The last entry of the key goes, and the last entry of all takes its place. -/
def swapRemove (xs : List α) (k : K) : List α :=
  match xs.reverse with
  | [] => []
  | last :: rest =>
    if key last = k then rest.reverse
    else if rest.any fun x => key x = k then (replace key k last rest).reverse
    else xs

variable {key} {xs ys : List α} {k k' : K} {a : α} {i : ℕ} {f : α → α}

/-! ## Finding -/

theorem find_cons (x : α) (xs : List α) (k : K) :
    find key (x :: xs) k = if key x = k then some x else find key xs k := by
  rw [find, List.find?_cons]
  by_cases h : key x = k
  · simp [h]
  · simp [h, find]

theorem find_eq_none_iff : find key xs k = none ↔ ∀ x ∈ xs, key x ≠ k := by simp [find]

theorem find_isSome_iff : (find key xs k).isSome ↔ k ∈ xs.map key := by
  rw [← Option.ne_none_iff_isSome, Ne, find_eq_none_iff]
  simp

theorem mem_of_find (h : find key xs k = some a) : a ∈ xs := List.mem_of_find?_eq_some h

theorem key_of_find (h : find key xs k = some a) : key a = k := by simpa using List.find?_some h

theorem find_eq_some_iff (hnodup : (xs.map key).Nodup) : find key xs k = some a ↔ a ∈ xs ∧ key a = k := by
  constructor
  · exact fun h => ⟨mem_of_find h, key_of_find h⟩
  · rintro ⟨hmem, rfl⟩
    have hsome : (find key xs (key a)).isSome := find_isSome_iff.mpr (List.mem_map_of_mem hmem)
    obtain ⟨b, hb⟩ := Option.isSome_iff_exists.mp hsome
    have hkey : key b = key a := key_of_find hb
    have hsame : b = a := List.inj_on_of_nodup_map hnodup (mem_of_find hb) hmem hkey
    rw [hb, hsame]

theorem find_perm (h : xs.Perm ys) (hnodup : (xs.map key).Nodup) (k : K) : find key xs k = find key ys k := by
  have hnodup' : (ys.map key).Nodup := (h.map key).nodup_iff.mp hnodup
  ext a
  rw [find_eq_some_iff hnodup, find_eq_some_iff hnodup', h.mem_iff]

theorem find_filter : find key (xs.filter fun x => key x ≠ k) k' = if k' = k then none else find key xs k' := by
  split
  · rename_i h
    subst h
    simp [find_eq_none_iff]
  · rename_i h
    induction xs with
    | nil => rfl
    | cons x xs ih =>
      by_cases hx : key x = k
      · rw [List.filter_cons_of_neg (by simpa using hx), ih, find_cons, if_neg]
        rw [hx]
        exact Ne.symm h
      · rw [List.filter_cons_of_pos (by simpa using hx), find_cons, find_cons, ih]

/-! ## Changing -/

omit [DecidableEq K] in
theorem map_key_modify (hf : ∀ x, key (f x) = key x) : (xs.modify i f).map key = xs.map key := by
  induction xs generalizing i with
  | nil => simp
  | cons x xs ih =>
    cases i with
    | zero => simp [hf]
    | succ i => simp [ih]

omit [DecidableEq K] in
/-- The entry that was just put at the end. -/
theorem modify_append_new : (xs ++ [a]).modify xs.length f = xs ++ [f a] := by
  induction xs with
  | nil => rfl
  | cons x xs ih => rw [List.cons_append, List.length_cons, List.modify_succ_cons, ih, List.cons_append]

theorem find_modify (hf : ∀ x, key (f x) = key x) (hi : (xs.findIdx? fun x => key x = k) = some i) :
    find key (xs.modify i f) k' = if k' = k then (find key xs k').map f else find key xs k' := by
  induction xs generalizing i with
  | nil => simp at hi
  | cons x xs ih =>
    rw [List.findIdx?_cons] at hi
    by_cases hx : key x = k
    · rw [if_pos (by simpa using hx)] at hi
      obtain rfl := Option.some.inj hi
      rw [List.modify_zero_cons, find_cons, find_cons, hf, hx]
      by_cases hk : k' = k
      · simp [hk]
      · simp [hk, Ne.symm hk]
    · rw [if_neg (by simpa using hx)] at hi
      obtain ⟨j, hj, rfl⟩ := Option.map_eq_some_iff.mp hi
      rw [List.modify_succ_cons, find_cons, find_cons, ih hj]
      by_cases hk : key x = k'
      · subst hk
        simp [hx]
      · simp [hk]

theorem find_append_new (hnew : find key xs (key a) = none) :
    find key (xs ++ [a]) k' = if k' = key a then some a else find key xs k' := by
  rw [find, List.find?_append]
  split
  · rename_i h
    subst h
    rw [find] at hnew
    simp [hnew]
  · rename_i h
    simp [find, Ne.symm h]

theorem nodup_append_new (hnew : find key xs (key a) = none) (hnodup : (xs.map key).Nodup) :
    ((xs ++ [a]).map key).Nodup := by
  rw [List.map_append, List.map_cons, List.map_nil]
  refine List.nodup_append.mpr ⟨hnodup, List.nodup_singleton _, ?_⟩
  intro b hb c hc
  obtain ⟨x, hx, rfl⟩ := List.mem_map.mp hb
  rw [List.mem_singleton.mp hc]
  exact find_eq_none_iff.mp hnew x hx

/-! ## Removing -/

theorem filter_of_notMem (h : k ∉ xs.map key) : (xs.filter fun x => key x ≠ k) = xs := by
  rw [List.filter_eq_self]
  intro x hx
  simp only [ne_eq, decide_eq_true_eq]
  rintro rfl
  exact h (List.mem_map_of_mem hx)

theorem replace_perm (hmem : k ∈ xs.map key) (hnodup : (xs.map key).Nodup) :
    (replace key k a xs).Perm (a :: xs.filter fun x => key x ≠ k) := by
  induction xs with
  | nil => simp at hmem
  | cons x xs ih =>
    rw [List.map_cons, List.nodup_cons] at hnodup
    rw [replace]
    by_cases hx : key x = k
    · subst hx
      rw [if_pos rfl, List.filter_cons_of_neg (by simp), filter_of_notMem hnodup.1]
    · rw [if_neg hx, List.filter_cons_of_pos (by simpa using hx)]
      have htail : k ∈ xs.map key := by
        rcases List.mem_cons.mp hmem with h | h
        · exact absurd h.symm hx
        · exact h
      exact ((ih htail hnodup.2).cons x).trans (List.Perm.swap _ _ _)

/-- Only the entry of the key goes. -/
theorem swapRemove_perm (hnodup : (xs.map key).Nodup) :
    (swapRemove key xs k).Perm (xs.filter fun x => key x ≠ k) := by
  have hrev := List.reverse_perm xs
  have hnodup' : (xs.reverse.map key).Nodup := (hrev.map key).nodup_iff.mpr hnodup
  rw [swapRemove]
  refine List.Perm.trans ?_ (hrev.filter _)
  split
  · rename_i h
    rw [h]
    exact List.Perm.refl _
  · rename_i last rest h
    rw [h] at hnodup' ⊢
    rw [List.map_cons, List.nodup_cons] at hnodup'
    by_cases hlast : key last = k
    · subst hlast
      rw [if_pos rfl, List.filter_cons_of_neg (by simp), filter_of_notMem hnodup'.1]
      exact List.reverse_perm rest
    · rw [if_neg hlast, List.filter_cons_of_pos (by simpa using hlast)]
      by_cases hin : k ∈ rest.map key
      · rw [if_pos (by simpa using hin)]
        exact (List.reverse_perm _).trans (replace_perm hin hnodup'.2)
      · rw [if_neg (by simpa using hin), filter_of_notMem hin, ← h]
        exact hrev.symm

theorem find_swapRemove (hnodup : (xs.map key).Nodup) :
    find key (swapRemove key xs k) k' = if k' = k then none else find key xs k' := by
  have hperm := swapRemove_perm (k := k) hnodup
  have hfilter : ((xs.filter fun x => key x ≠ k).map key).Nodup := (List.filter_sublist.map key).nodup hnodup
  rw [find_perm hperm ((hperm.map key).nodup_iff.mpr hfilter), find_filter]

theorem nodup_swapRemove (hnodup : (xs.map key).Nodup) : ((swapRemove key xs k).map key).Nodup :=
  ((swapRemove_perm hnodup).map key).nodup_iff.mpr ((List.filter_sublist.map key).nodup hnodup)

theorem mem_swapRemove (hnodup : (xs.map key).Nodup) : a ∈ swapRemove key xs k ↔ a ∈ xs ∧ key a ≠ k := by
  rw [(swapRemove_perm hnodup).mem_iff]
  simp

end VectorMap
