import Mathlib

/-! # Numbering depth first

The nodes of a graph are listed in the order in which a depth first walk from some roots meets them.
A node that is listed already is not walked through again.

`rank` goes down from a node to its children, so that the graph has no cycle. -/

namespace DepthFirst

variable {ν : Type} [DecidableEq ν] (children : ν → List ν)

/-- The list after a node and all below it were met. The fuel bounds the depth. -/
def visit : Nat → List ν → ν → List ν
  | 0, found, _ => found
  | fuel + 1, found, r => if r ∈ found then found else (children r).foldl (visit fuel) (found ++ [r])

variable (rank : ν → Nat)

/-- The list of all nodes below some roots. -/
def visitAll (roots : List ν) : List ν := roots.foldl (fun found r => visit children (rank r + 1) found r) []

variable {children rank}

/-- What a walk does to the list: it gets longer at its end, every node is listed once, and the children of
a node that is new are listed. -/
structure Grows (children : ν → List ν) (found found' : List ν) : Prop where
  before : found <+: found'
  nodup : found.Nodup → found'.Nodup
  closed : ∀ r ∈ found', r ∉ found → ∀ c ∈ children r, c ∈ found'

namespace Grows

variable {found found' found'' : List ν}

omit [DecidableEq ν] in
theorem refl (found : List ν) : Grows children found found :=
  ⟨List.prefix_rfl, id, fun _ h hnot => absurd h hnot⟩

theorem trans (h : Grows children found found') (h' : Grows children found' found'') : Grows children found found'' where
  before := h.before.trans h'.before
  nodup := fun hnodup => h'.nodup (h.nodup hnodup)
  closed := by
    intro r hr hnot c hc
    by_cases hr' : r ∈ found'
    · exact h'.before.subset (h.closed r hr' hnot c hc)
    · exact h'.closed r hr hr' c hc

/-- One walk after another. -/
theorem foldl {walk : List ν → ν → List ν} {rs : List ν} (h : ∀ found, ∀ r ∈ rs, Grows children found (walk found r)) :
    ∀ found, Grows children found (rs.foldl walk found) := by
  induction rs with
  | nil => exact refl
  | cons r rs ih =>
    intro found
    exact (h found r List.mem_cons_self).trans (ih (fun found r' hr' => h found r' (List.mem_cons_of_mem r hr')) _)

/-- Every node from which a walk started is listed. -/
theorem mem_foldl {walk : List ν → ν → List ν} {rs : List ν} (h : ∀ found, ∀ r ∈ rs, Grows children found (walk found r))
    (hmem : ∀ found, ∀ r ∈ rs, r ∈ walk found r) : ∀ found, ∀ r ∈ rs, r ∈ rs.foldl walk found := by
  induction rs with
  | nil => exact fun _ r hr => absurd hr List.not_mem_nil
  | cons r rs ih =>
    intro found r' hr'
    have hrest : ∀ found, ∀ r ∈ rs, Grows children found (walk found r) := fun found r' hr' =>
      h found r' (List.mem_cons_of_mem r hr')
    rcases List.mem_cons.mp hr' with rfl | hr'
    · exact (foldl hrest _).before.subset (hmem found r' List.mem_cons_self)
    · exact ih hrest (fun found r' hr' => hmem found r' (List.mem_cons_of_mem r hr')) _ r' hr'

end Grows

/-- A walk with enough fuel. -/
theorem visit_grows (hrank : ∀ r, ∀ c ∈ children r, rank c < rank r) (fuel : Nat) :
    ∀ found r, rank r < fuel → Grows children found (visit children fuel found r) ∧ r ∈ visit children fuel found r := by
  induction fuel with
  | zero => exact fun _ _ h => absurd h (Nat.not_lt_zero _)
  | succ fuel ih =>
    intro found r hr
    rw [visit]
    split
    · rename_i hmem
      exact ⟨Grows.refl found, hmem⟩
    · rename_i hnot
      have hchild : ∀ found, ∀ c ∈ children r,
          Grows children found (visit children fuel found c) ∧ c ∈ visit children fuel found c :=
        fun found c hc => ih found c (Nat.lt_of_lt_of_le (hrank r c hc) (Nat.le_of_lt_succ hr))
      have hgrows := Grows.foldl (fun found c hc => (hchild found c hc).1) (found ++ [r])
      have hlisted := Grows.mem_foldl (fun found c hc => (hchild found c hc).1) (fun found c hc => (hchild found c hc).2)
        (found ++ [r])
      have hr' : r ∈ (children r).foldl (visit children fuel) (found ++ [r]) :=
        hgrows.before.subset (List.mem_append_right _ (List.mem_singleton_self r))
      refine ⟨⟨(List.prefix_append found [r]).trans hgrows.before, fun hnodup => hgrows.nodup ?_, ?_⟩, hr'⟩
      · exact List.nodup_append.mpr ⟨hnodup, List.nodup_singleton r, fun a ha b hb heq =>
          hnot (List.mem_singleton.mp hb ▸ heq ▸ ha)⟩
      · intro r' hmem hnot' c hc
        by_cases heq : r' = r
        · subst heq
          exact hlisted c hc
        · refine hgrows.closed r' hmem (fun hin => ?_) c hc
          rcases List.mem_append.mp hin with hin | hin
          · exact hnot' hin
          · exact heq (List.mem_singleton.mp hin)

section All

variable (hrank : ∀ r, ∀ c ∈ children r, rank c < rank r) (roots : List ν)

include hrank

theorem visitAll_grows : Grows children [] (visitAll children rank roots) :=
  Grows.foldl (fun found r _ => (visit_grows hrank (rank r + 1) found r (Nat.lt_succ_self _)).1) []

theorem mem_visitAll {r : ν} (hr : r ∈ roots) : r ∈ visitAll children rank roots :=
  Grows.mem_foldl (fun found r _ => (visit_grows hrank (rank r + 1) found r (Nat.lt_succ_self _)).1)
    (fun found r _ => (visit_grows hrank (rank r + 1) found r (Nat.lt_succ_self _)).2) [] r hr

theorem child_mem_visitAll {r c : ν} (hr : r ∈ visitAll children rank roots) (hc : c ∈ children r) :
    c ∈ visitAll children rank roots :=
  (visitAll_grows hrank roots).closed r hr List.not_mem_nil c hc

end All

end DepthFirst
