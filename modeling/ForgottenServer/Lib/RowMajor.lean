import Mathlib

/-! # Grids kept row by row

A grid of `rows` rows and `cols` columns in one list, the cell `(i, j)` at `i * cols + j`, and
loops that write one cell after another. A write outside the list has no result, so a loop
that returns has stayed inside. -/

namespace RowMajor

variable {α ι : Type*}

def write (cells : List α) (k : ℕ) (a : α) : Option (List α) :=
  if k < cells.length then some (cells.set k a) else none

theorem write_eq_some {cells : List α} {k : ℕ} (h : k < cells.length) (a : α) :
    write cells k a = some (cells.set k a) := if_pos h

/-- The loop over `ps` whose body is `cells[dst p] = src p`. -/
def scatter (dst : ι → ℕ) (src : ι → Option α) (ps : List ι) (cells : List α) : Option (List α) :=
  ps.foldlM (fun cells p => do write cells (dst p) (← src p)) cells

theorem scatter_map {κ : Type*} (f : κ → ι) (dst : ι → ℕ) (src : ι → Option α) (ps : List κ)
    (cells : List α) : scatter dst src (ps.map f) cells =
      scatter (fun p => dst (f p)) (fun p => src (f p)) ps cells := List.foldlM_map ..

/-- A loop that writes no cell twice leaves in each the value that was written there. -/
theorem scatter_eq_some {dst : ι → ℕ} {src : ι → Option α} {ps : List ι} :
    ∀ {cells : List α}, (∀ p ∈ ps, (src p).isSome) → (∀ p ∈ ps, dst p < cells.length) →
      (ps.map dst).Nodup →
      ∃ out, scatter dst src ps cells = some out ∧ out.length = cells.length ∧
        (∀ p ∈ ps, out[dst p]? = src p) ∧ ∀ k ∉ ps.map dst, out[k]? = cells[k]? := by
  induction ps with
  | nil =>
    intro cells _ _ _
    exact ⟨cells, rfl, rfl, by simp, fun _ _ => rfl⟩
  | cons p ps ih =>
    intro cells hsrc hdst hnodup
    obtain ⟨a, ha⟩ := Option.isSome_iff_exists.mp (hsrc p (by simp))
    have hlt : dst p < cells.length := hdst p (by simp)
    rw [List.map_cons, List.nodup_cons] at hnodup
    have hset : (cells.set (dst p) a).length = cells.length := List.length_set
    obtain ⟨out, hrun, hlen, hcells, hrest⟩ := ih (fun q hq => hsrc q (by simp [hq]))
      (fun q hq => (hdst q (by simp [hq])).trans_eq hset.symm) hnodup.2
    refine ⟨out, ?_, hlen.trans hset, ?_, ?_⟩
    · rw [scatter, List.foldlM_cons, ha, Option.bind_eq_bind, Option.bind_eq_bind, Option.bind_some,
        write_eq_some hlt, Option.bind_some]
      exact hrun
    · intro q hq
      rcases List.mem_cons.mp hq with rfl | hq
      · rw [hrest _ hnodup.1, List.getElem?_set_self hlt, ha]
      · exact hcells q hq
    · intro k hk
      rw [List.map_cons, List.mem_cons, not_or] at hk
      rw [hrest k hk.2, List.getElem?_set_ne fun h => hk.1 h.symm]

/-! ## Positions -/

/-- The cells in the order of a loop over the rows around a loop over the columns. -/
def positions (rows cols : ℕ) : List (ℕ × ℕ) := List.range rows ×ˢ List.range cols

theorem mem_positions {rows cols : ℕ} {p : ℕ × ℕ} :
    p ∈ positions rows cols ↔ p.1 < rows ∧ p.2 < cols := by
  rw [positions, List.mem_product, List.mem_range, List.mem_range]

theorem nodup_positions (rows cols : ℕ) : (positions rows cols).Nodup :=
  List.Nodup.product List.nodup_range List.nodup_range

def index (cols : ℕ) (p : ℕ × ℕ) : ℕ := p.1 * cols + p.2

theorem index_lt {rows cols : ℕ} {p : ℕ × ℕ} (h : p ∈ positions rows cols) :
    index cols p < rows * cols := by
  obtain ⟨hrow, hcol⟩ := mem_positions.mp h
  calc p.1 * cols + p.2 < p.1 * cols + cols := by omega
    _ = (p.1 + 1) * cols := by ring
    _ ≤ rows * cols := Nat.mul_le_mul_right cols hrow

theorem index_inj {cols : ℕ} {p q : ℕ × ℕ} (hp : p.2 < cols) (hq : q.2 < cols)
    (h : index cols p = index cols q) : p = q := by
  have hdiv : ∀ r : ℕ × ℕ, r.2 < cols → index cols r / cols = r.1 ∧ index cols r % cols = r.2 := by
    intro r hr
    rw [index, Nat.mul_comm, Nat.mul_add_div (by omega), Nat.div_eq_of_lt hr, Nat.mul_add_mod,
      Nat.mod_eq_of_lt hr]
    exact ⟨rfl, rfl⟩
  refine Prod.ext ?_ ?_
  · rw [← (hdiv p hp).1, h, (hdiv q hq).1]
  · rw [← (hdiv p hp).2, h, (hdiv q hq).2]

theorem exists_position {rows cols k : ℕ} (h : k < rows * cols) :
    ∃ p ∈ positions rows cols, index cols p = k := by
  have hcols : 0 < cols := Nat.pos_of_mul_pos_left (by omega : 0 < rows * cols)
  refine ⟨(k / cols, k % cols), mem_positions.mpr ⟨?_, Nat.mod_lt _ hcols⟩, ?_⟩
  · exact Nat.div_lt_of_lt_mul (by rwa [Nat.mul_comm])
  · rw [index, Nat.mul_comm, Nat.div_add_mod]

/-- Two grids of one size with the same cells are the same list. -/
theorem ext_cells {rows cols : ℕ} {xs ys : List α} (hx : xs.length = rows * cols)
    (hy : ys.length = rows * cols)
    (h : ∀ p ∈ positions rows cols, xs[index cols p]? = ys[index cols p]?) : xs = ys := by
  apply List.ext_getElem?
  intro k
  by_cases hk : k < rows * cols
  · obtain ⟨p, hp, rfl⟩ := exists_position hk
    exact h p hp
  · rw [List.getElem?_eq_none (by omega), List.getElem?_eq_none (by omega)]

end RowMajor
