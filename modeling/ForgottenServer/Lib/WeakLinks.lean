import Mathlib

/-! # Weak links on both sides

Every node has at most one link up and a list of links down. The links are weak: one that leads to a node that is not
live counts as none, and a link up may go on leading to such a node. -/

namespace WeakLinks

variable {R : Type}

/-- The links down of a node are those that come up to it from live nodes, each once. -/
structure Linked (live : R → Bool) (up : R → Option R) (down : R → List R) : Prop where
  mem : ∀ p c, c ∈ down p ↔ live c = true ∧ live p = true ∧ up c = some p
  nodup : ∀ p, (down p).Nodup
  dead : ∀ p c, live c = false → live p = true → up c ≠ some p

variable {live : R → Bool} {up : R → Option R} {down : R → List R} {p c : R}

namespace Linked

/-- A link up to a live node is there on the other side. -/
theorem mem_iff (h : Linked live up down) : c ∈ down p ↔ live p = true ∧ up c = some p := by
  rw [h.mem]
  refine ⟨fun hall => hall.2, fun hup => ⟨?_, hup⟩⟩
  by_contra hdead
  exact h.dead p c (Bool.eq_false_of_not_eq_true hdead) hup.1 hup.2

/-- Two nodes have no link down in common. -/
theorem unique (h : Linked live up down) {q : R} (hp : c ∈ down p) (hq : c ∈ down q) : p = q :=
  Option.some.inj (((h.mem_iff.mp hp).2.symm).trans (h.mem_iff.mp hq).2)

theorem empty (live : R → Bool) : Linked live (fun _ => none) fun _ => [] where
  mem _ _ := ⟨fun h => absurd h List.not_mem_nil, fun h => absurd h.2.2 (Option.some_ne_none _).symm⟩
  nodup _ := List.nodup_nil
  dead _ _ _ _ := (Option.some_ne_none _).symm

variable [DecidableEq R]

/-- A node loses its link up, and nothing leads down to it. -/
theorem unlink (h : Linked live up down) (node : R) :
    Linked live (Function.update up node none) fun p => (down p).filter (· ≠ node) where
  mem p c := by
    rw [List.mem_filter, decide_eq_true_eq, h.mem, Function.update_apply]
    split
    · rename_i hnode
      simp [hnode]
    · rename_i hnode
      simp [hnode]
  nodup p := (h.nodup p).filter _
  dead p c hc hp := by
    rw [Function.update_apply]
    split
    · exact (Option.some_ne_none p).symm
    · exact h.dead p c hc hp

/-- A live node that has no live link up gets one. -/
theorem link {node : R} (h : Linked live up down) (hfree : ∀ q, node ∉ down q) (hnode : live node = true)
    (hp : live p = true) :
    Linked live (Function.update up node (some p)) (Function.update down p (down p ++ [node])) where
  mem q c := by
    have hold : c ∈ down q → c ≠ node := fun hmem heq => hfree q (heq ▸ hmem)
    by_cases hc : c = node
    · subst hc
      rw [Function.update_self]
      by_cases hq : q = p
      · subst hq
        simp [hnode, hp]
      · rw [Function.update_of_ne hq]
        exact iff_of_false (hfree q) fun hall => hq (Option.some.inj hall.2.2).symm
    · rw [Function.update_of_ne hc, ← h.mem]
      by_cases hq : q = p
      · subst hq
        simp [hc]
      · rw [Function.update_of_ne hq]
  nodup q := by
    by_cases hq : q = p
    · subst hq
      rw [Function.update_self]
      exact (h.nodup q).append (List.nodup_singleton node) (List.disjoint_singleton.mpr (hfree q))
    · rw [Function.update_of_ne hq]
      exact h.nodup q
  dead q c hc hq := by
    rw [Function.update_apply]
    split
    · rename_i heq
      rw [heq, hnode] at hc
      cases hc
    · exact h.dead q c hc hq

/-- A node dies: no link leads to it or comes from it any more. -/
theorem bury (h : Linked live up down) (node : R) :
    Linked (fun c => live c && c ≠ node) (fun c => if c = node ∨ c ∈ down node then none else up c)
      fun p => if p = node then [] else (down p).filter (· ≠ node) where
  mem p c := by
    split
    · rename_i hp
      simp [hp]
    · rename_i hp
      rw [List.mem_filter, decide_eq_true_eq, h.mem]
      by_cases hc : c = node
      · simp [hc]
      · by_cases hchild : c ∈ down node
        · have hup : up c ≠ some p := by
            rw [(h.mem_iff.mp hchild).2]
            exact fun heq => hp (Option.some.inj heq).symm
          simp [hc, hchild, hup]
        · simp [hc, hchild, hp]
  nodup p := by
    split
    · exact List.nodup_nil
    · exact (h.nodup p).filter _
  dead p c hc hp := by
    split
    · exact (Option.some_ne_none p).symm
    · rename_i hnot
      obtain ⟨hlive, hne⟩ := Bool.and_eq_true_iff.mp hp
      have hdead : live c = false := by
        by_contra halive
        refine hnot (.inl (not_not.mp fun hne' => ?_))
        rw [Bool.eq_true_of_not_eq_false halive, decide_eq_true hne'] at hc
        cases hc
      exact h.dead p c hdead hlive

/-- A node without links may become live. -/
theorem add {node : R} (h : Linked live up down) (hup : up node = none) (hnone : ∀ c, up c ≠ some node) (lives : Bool) :
    Linked (Function.update live node lives) up down where
  mem p c := by
    rw [h.mem]
    by_cases hc : c = node
    · simp [hc, hup]
    · by_cases hp : p = node
      · simp [hp, hnone c]
      · rw [Function.update_of_ne hc, Function.update_of_ne hp]
  nodup := h.nodup
  dead p c hc hp := by
    by_cases hnode : c = node
    · rw [hnode, hup]
      exact (Option.some_ne_none p).symm
    · by_cases hpar : p = node
      · rw [hpar]
        exact hnone c
      · rw [Function.update_of_ne hnode] at hc
        rw [Function.update_of_ne hpar] at hp
        exact h.dead p c hc hp

end Linked

end WeakLinks
