import Mathlib

/-! # Copies in the order of a history

A value that is rewritten over time can have several copies (in a table, in a queue,
in a cache). `InOrder hist copies`: the copies were written in this order, where `hist`
lists everything ever written, and the last copy is the last write. -/

namespace Timeline

variable {α : Type}

/-- `copies` stand at non-decreasing places of `hist`, the last of them at its end. -/
def InOrder (hist copies : List α) : Prop :=
  ∃ places : List Nat, places.Pairwise (· ≤ ·) ∧ places.map (hist[·]?) = copies.map some ∧
    ∃ early, places = early ++ [hist.length - 1]

namespace InOrder

variable {hist copies : List α} {a b : α}

theorem getLast? (h : InOrder hist copies) : copies.getLast? = hist.getLast? := by
  obtain ⟨places, _, hmap, early, rfl⟩ := h
  have hlast := congrArg List.getLast? hmap
  rw [List.map_append, List.map_singleton, List.getLast?_append, List.getLast?_singleton, List.getLast?_map,
    ← List.getLast?_eq_getElem?] at hlast
  cases hc : copies.getLast? with
  | none => simp [hc] at hlast
  | some c => simpa [hc] using hlast.symm

/-- The only copy is the last write. -/
theorem single (h : hist.getLast? = some a) : InOrder hist [a] :=
  ⟨[hist.length - 1], by simp, by simp [← List.getLast?_eq_getElem?, h], [], rfl⟩

/-- A new write is the newest copy. -/
theorem write (h : InOrder hist copies) (a : α) : InOrder (hist ++ [a]) (copies ++ [a]) := by
  obtain ⟨places, hsorted, hmap, early, rfl⟩ := h
  have hin : ∀ i ∈ early ++ [hist.length - 1], i < hist.length := by
    intro i hi
    have hsome : hist[i]? ∈ copies.map some := by
      rw [← hmap]
      exact List.mem_map_of_mem hi
    obtain ⟨c, _, hc⟩ := List.mem_map.mp hsome
    exact (List.getElem?_eq_some_iff.mp hc.symm).1
  refine ⟨(early ++ [hist.length - 1]) ++ [hist.length], ?_, ?_, early ++ [hist.length - 1], by simp⟩
  · rw [List.pairwise_append]
    refine ⟨hsorted, by simp, ?_⟩
    intro i hi j hj
    rw [List.mem_singleton.mp hj]
    exact Nat.le_of_lt (hin i hi)
  · have hkeep : (early ++ [hist.length - 1]).map ((hist ++ [a])[·]?) = copies.map some := by
      rw [← hmap]
      apply List.map_congr_left
      intro i hi
      rw [List.getElem?_append_left (hin i hi)]
    rw [List.map_append, hkeep]
    simp

/-- Old copies may go, as long as the newest stays. -/
theorem drop_front {old : List α} (h : InOrder hist (old ++ copies)) (hne : copies ≠ []) :
    InOrder hist copies := by
  obtain ⟨places, hsorted, hmap, early, rfl⟩ := h
  have hlen := congrArg List.length hmap
  simp only [List.length_map, List.length_append, List.length_singleton] at hlen
  have hpos := List.length_pos_of_ne_nil hne
  refine ⟨(early ++ [hist.length - 1]).drop old.length, hsorted.sublist (List.drop_sublist _ _), ?_,
    early.drop old.length, ?_⟩
  · rw [List.map_drop, hmap, List.map_append, List.drop_left' (by simp)]
  · rw [List.drop_append_of_le_length (by omega)]

/-- The newest copy replaced by a new write. -/
theorem overwrite (h : InOrder hist (copies ++ [b])) (a : α) : InOrder (hist ++ [a]) (copies ++ [a]) := by
  obtain ⟨places, hsorted, hmap, early, rfl⟩ := h.write a
  have hlen := congrArg List.length hmap
  simp only [List.length_map, List.length_append, List.length_singleton] at hlen
  refine ⟨early.take copies.length ++ [(hist ++ [a]).length - 1], hsorted.sublist ?_, ?_, _, rfl⟩
  · exact (List.take_sublist _ _).append (List.Sublist.refl _)
  · have htake := congrArg (List.take copies.length) hmap
    rw [← List.map_take, List.take_append_of_le_length (by omega), ← List.map_take,
      List.append_assoc, List.take_left' rfl] at htake
    rw [List.map_append, htake, List.map_append]
    simp

/-- The newest copy may be copied. -/
theorem copy_last (h : InOrder hist (copies ++ [a])) : InOrder hist (copies ++ [a, a]) := by
  have hlast : hist.getLast? = some a := by rw [← h.getLast?]; simp
  obtain ⟨places, hsorted, hmap, early, rfl⟩ := h
  refine ⟨(early ++ [hist.length - 1]) ++ [hist.length - 1], ?_, ?_, _, rfl⟩
  · rw [List.pairwise_append]
    refine ⟨hsorted, by simp, ?_⟩
    intro i hi j hj
    rw [List.mem_singleton.mp hj]
    rcases List.mem_append.mp hi with hi | hi
    · exact (List.pairwise_append.mp hsorted).2.2 i hi _ (by simp)
    · exact Nat.le_of_eq (List.mem_singleton.mp hi)
  · rw [List.map_append, hmap]
    simp [← List.getLast?_eq_getElem?, hlast]

/-- The only copy behind the oldest one may replace it. -/
theorem refresh {a' : α} (h : InOrder hist (a :: copies)) (hone : copies.length ≤ 1)
    (ha : a' = a ∨ a' ∈ copies) : InOrder hist (a' :: copies) := by
  rcases ha with rfl | ha
  · exact h
  · match copies, hone with
    | [c], _ =>
      rw [List.mem_singleton.mp ha]
      exact copy_last (drop_front (show InOrder hist ([a] ++ ([] ++ [c])) from h) (by simp))

end InOrder

end Timeline
