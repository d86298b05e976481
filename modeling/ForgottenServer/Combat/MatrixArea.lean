import ForgottenServer.Lib.RowMajor

/-! # Combat areas

A `MatrixArea` is a row-major array of cells with a centre. Each transformation fills a new
array with its own index formulas in `uint32_t`, and moves the centre with a formula of its
own. -/

namespace ForgottenServer

structure MatrixArea where
  arr : List UInt8
  /-- Column and row. -/
  center : UInt32 × UInt32
  rows : UInt32
  cols : UInt32
  deriving DecidableEq

namespace MatrixArea

open RowMajor

/-- `MatrixArea(rows, cols)`: zeroed cells, centre at the origin. -/
def new (rows cols : UInt32) : MatrixArea :=
  ⟨List.replicate (rows * cols).toNat 0, (0, 0), rows, cols⟩

/-- `arr[i]` -/
def cell (m : MatrixArea) (i : UInt32) : Option UInt8 := m.arr[i.toNat]?

/-- `operator()(row, col) const` -/
def get (m : MatrixArea) (row col : UInt32) : Option Bool :=
  (m.cell (row * m.cols + col)).map (· != 0)

def setCenter (m : MatrixArea) (y x : UInt32) : MatrixArea := { m with center := (x, y) }

/-! ## Transformations -/

/-- The values of `row` and `col` in the two loops of a transformation. -/
def counters (m : MatrixArea) : List (UInt32 × UInt32) :=
  (positions m.rows.toNat m.cols.toNat).map fun p => (UInt32.ofNat p.1, UInt32.ofNat p.2)

/-- `newArr[dst row col] = src row col` for all rows and columns. -/
def fill (m : MatrixArea) (dst : UInt32 → UInt32 → UInt32) (src : UInt32 → UInt32 → Option UInt8) :
    Option (List UInt8) :=
  scatter (fun p => (dst p.1 p.2).toNat) (fun p => src p.1 p.2) m.counters
    (List.replicate m.arr.length 0)

def flip (m : MatrixArea) : Option MatrixArea := do
  let arr ← m.fill (fun row col => row * m.cols + col)
    fun row col => m.cell ((m.rows - row - 1) * m.cols + col)
  return ⟨arr, (m.center.1, m.rows - m.center.2 - 1), m.rows, m.cols⟩

def mirror (m : MatrixArea) : Option MatrixArea := do
  let arr ← m.fill (fun row col => row * m.cols + col)
    fun row col => m.cell (row * m.cols + (m.cols - col - 1))
  return ⟨arr, (m.cols - m.center.1 - 1, m.center.2), m.rows, m.cols⟩

def transpose (m : MatrixArea) : Option MatrixArea := do
  let arr ← m.fill (fun row col => col * m.rows + row)
    fun row col => (m.get row col).map fun b => if b then 1 else 0
  return ⟨arr, (m.center.2, m.center.1), m.cols, m.rows⟩

def rotate90 (m : MatrixArea) : Option MatrixArea := do
  let arr ← m.fill (fun row col => col * m.rows + (m.rows - row - 1))
    fun row col => m.cell (row * m.cols + col)
  return ⟨arr, (m.rows - m.center.2 - 1, m.center.1), m.cols, m.rows⟩

/-- `std::reverse_copy` needs no index. -/
def rotate180 (m : MatrixArea) : Option MatrixArea :=
  some ⟨m.arr.reverse, (m.cols - m.center.1 - 1, m.rows - m.center.2 - 1), m.rows, m.cols⟩

def rotate270 (m : MatrixArea) : Option MatrixArea := do
  let arr ← m.fill (fun row col => (m.cols - col - 1) * m.rows + row)
    fun row col => m.cell (row * m.cols + col)
  return ⟨arr, (m.center.2, m.cols - m.center.1 - 1), m.cols, m.rows⟩

/-! ## Cells as positions -/

/-- The size fits the index type, the array has that size and holds zeros and ones. -/
structure Valid (m : MatrixArea) : Prop where
  size : m.rows.toNat * m.cols.toNat < 2 ^ 32
  length : m.arr.length = m.rows.toNat * m.cols.toNat
  binary : ∀ b ∈ m.arr, b = 0 ∨ b = 1

/-- Rows and columns of all cells. -/
def cells (m : MatrixArea) : List (ℕ × ℕ) := positions m.rows.toNat m.cols.toNat

def value (m : MatrixArea) (p : ℕ × ℕ) : Option UInt8 := m.arr[index m.cols.toNat p]?

def centerCell (m : MatrixArea) : ℕ × ℕ := (m.center.2.toNat, m.center.1.toNat)

/-- `m'` is `m` with each cell, and the centre, moved by `move`. -/
structure Carries (move : ℕ × ℕ → ℕ × ℕ) (m m' : MatrixArea) : Prop where
  valid : m'.Valid
  size : m'.rows.toNat * m'.cols.toNat = m.rows.toNat * m.cols.toNat
  maps : ∀ p ∈ m.cells, move p ∈ m'.cells ∧ m'.value (move p) = m.value p
  onto : ∀ q ∈ m'.cells, ∃ p ∈ m.cells, move p = q
  center : m'.centerCell = move m.centerCell

variable {m m' m'' : MatrixArea} {move move' : ℕ × ℕ → ℕ × ℕ}

/-! ## Index arithmetic -/

theorem toNat_ofNat_of_mem {p : ℕ × ℕ} (hp : p ∈ m.cells) :
    (UInt32.ofNat p.1).toNat = p.1 ∧ (UInt32.ofNat p.2).toNat = p.2 := by
  obtain ⟨hrow, hcol⟩ := mem_positions.mp hp
  have hr := m.rows.toNat_lt
  have hc := m.cols.toNat_lt
  rw [UInt32.toNat_ofNat', UInt32.toNat_ofNat', Nat.mod_eq_of_lt (by omega), Nat.mod_eq_of_lt (by omega)]
  exact ⟨rfl, rfl⟩

/-- An index of a cell does not wrap. -/
theorem toNat_index {row col width : UInt32} {rows : ℕ} (hrow : row.toNat < rows)
    (hcol : col.toNat < width.toNat) (hsize : rows * width.toNat < 2 ^ 32) :
    (row * width + col).toNat = index width.toNat (row.toNat, col.toNat) := by
  have hmem : (row.toNat, col.toNat) ∈ positions rows width.toNat := mem_positions.mpr ⟨hrow, hcol⟩
  have hlt := index_lt hmem
  rw [index] at hlt ⊢
  dsimp only at hlt ⊢
  rw [UInt32.toNat_add, UInt32.toNat_mul, Nat.mod_eq_of_lt (a := row.toNat * width.toNat) (by omega),
    Nat.mod_eq_of_lt (by omega)]

theorem toNat_rev {n i : UInt32} (h : i.toNat < n.toNat) :
    (n - i - 1).toNat = n.toNat - 1 - i.toNat := by
  have hsub : (n - i).toNat = n.toNat - i.toNat := UInt32.toNat_sub_of_le _ _ (by
    rw [UInt32.le_iff_toNat_le]
    omega)
  rw [UInt32.toNat_sub_of_le, hsub, UInt32.toNat_one]
  · omega
  · rw [UInt32.le_iff_toNat_le, hsub, UInt32.toNat_one]
    omega

/-! ## Filling a new array -/

theorem Valid.value_isSome (h : m.Valid) {p : ℕ × ℕ} (hp : p ∈ m.cells) : (m.value p).isSome := by
  have hlt : index m.cols.toNat p < m.arr.length := (index_lt hp).trans_eq h.length.symm
  rw [value, List.getElem?_eq_getElem hlt]
  rfl

theorem Valid.cell_eq (h : m.Valid) {row col : UInt32} (hrow : row.toNat < m.rows.toNat)
    (hcol : col.toNat < m.cols.toNat) :
    m.cell (row * m.cols + col) = m.value (row.toNat, col.toNat) := by
  rw [cell, toNat_index hrow hcol h.size, value]

/-- When the loops copy the cell `source p` to the place `target p`, no two to one place, the
new array holds the copied values. -/
theorem fill_eq_some (h : m.Valid) {dst : UInt32 → UInt32 → UInt32}
    {src : UInt32 → UInt32 → Option UInt8} {source target : ℕ × ℕ → ℕ × ℕ} {width : ℕ}
    (hsrc : ∀ p ∈ m.cells, source p ∈ m.cells ∧
      src (UInt32.ofNat p.1) (UInt32.ofNat p.2) = m.value (source p))
    (hdst : ∀ p ∈ m.cells, (target p).2 < width ∧ index width (target p) < m.arr.length ∧
      (dst (UInt32.ofNat p.1) (UInt32.ofNat p.2)).toNat = index width (target p))
    (hinj : ∀ p ∈ m.cells, ∀ q ∈ m.cells, target p = target q → p = q) :
    ∃ out, m.fill dst src = some out ∧ out.length = m.arr.length ∧
      ∀ p ∈ m.cells, out[index width (target p)]? = m.value (source p) := by
  have hnodup : (m.cells.map fun p => (dst (UInt32.ofNat p.1) (UInt32.ofNat p.2)).toNat).Nodup := by
    refine List.Nodup.map_on ?_ (nodup_positions ..)
    intro p hp q hq heq
    rw [(hdst p hp).2.2, (hdst q hq).2.2] at heq
    exact hinj p hp q hq (index_inj (hdst p hp).1 (hdst q hq).1 heq)
  have hvalues : ∀ p ∈ m.cells, (src (UInt32.ofNat p.1) (UInt32.ofNat p.2)).isSome := by
    intro p hp
    rw [(hsrc p hp).2]
    exact h.value_isSome (hsrc p hp).1
  have hinside : ∀ p ∈ m.cells, (dst (UInt32.ofNat p.1) (UInt32.ofNat p.2)).toNat <
      (List.replicate m.arr.length (0 : UInt8)).length := by
    intro p hp
    rw [(hdst p hp).2.2, List.length_replicate]
    exact (hdst p hp).2.1
  obtain ⟨out, hrun, hlen, hout, -⟩ := scatter_eq_some hvalues hinside hnodup
  refine ⟨out, ?_, by rw [hlen, List.length_replicate], ?_⟩
  · rw [fill, counters, scatter_map]
    exact hrun
  · intro p hp
    rw [← (hdst p hp).2.2, hout p hp, (hsrc p hp).2]

/-- A matrix of the same size that has every cell of a valid one at its new place is valid. -/
theorem carries_of_values (h : m.Valid) (hlen : m'.arr.length = m.arr.length)
    (hsize : m'.rows.toNat * m'.cols.toNat = m.rows.toNat * m.cols.toNat)
    (hmaps : ∀ p ∈ m.cells, move p ∈ m'.cells ∧ m'.value (move p) = m.value p)
    (honto : ∀ q ∈ m'.cells, ∃ p ∈ m.cells, move p = q)
    (hcenter : m'.centerCell = move m.centerCell) : Carries move m m' := by
  have hlength : m'.arr.length = m'.rows.toNat * m'.cols.toNat := by rw [hlen, h.length, hsize]
  refine ⟨⟨hsize ▸ h.size, hlength, ?_⟩, hsize, hmaps, honto, hcenter⟩
  intro b hb
  obtain ⟨k, hk, rfl⟩ := List.mem_iff_getElem.mp hb
  obtain ⟨q, hq, rfl⟩ := exists_position (hk.trans_eq hlength)
  obtain ⟨p, hp, rfl⟩ := honto q hq
  have hvalue := (hmaps p hp).2
  rw [value, List.getElem?_eq_getElem hk] at hvalue
  exact h.binary _ (List.mem_of_getElem? hvalue.symm)

namespace Carries

theorem refl (h : m.Valid) : Carries id m m :=
  ⟨h, rfl, fun _ hp => ⟨hp, rfl⟩, fun q hq => ⟨q, hq, rfl⟩, rfl⟩

theorem trans (h : Carries move m m') (h' : Carries move' m' m'') :
    Carries (move' ∘ move) m m'' := by
  refine ⟨h'.valid, h'.size.trans h.size, ?_, ?_, ?_⟩
  · intro p hp
    obtain ⟨hmem, hvalue⟩ := h.maps p hp
    obtain ⟨hmem', hvalue'⟩ := h'.maps _ hmem
    exact ⟨hmem', hvalue'.trans hvalue⟩
  · intro r hr
    obtain ⟨q, hq, rfl⟩ := h'.onto r hr
    obtain ⟨p, hp, rfl⟩ := h.onto q hq
    exact ⟨p, hp, rfl⟩
  · rw [h'.center, h.center, Function.comp]

/-- A motion determines the matrix it leads to. -/
theorem unique (h : Carries move m m') (h' : Carries move' m m'') (hcenter : m.centerCell ∈ m.cells)
    (hrows : m'.rows = m''.rows) (hcols : m'.cols = m''.cols)
    (hmove : ∀ p ∈ m.cells, move p = move' p) : m' = m'' := by
  have harr : m'.arr = m''.arr := by
    refine ext_cells h.valid.length (by rw [h'.valid.length, hrows, hcols]) ?_
    intro q hq
    obtain ⟨p, hp, rfl⟩ := h.onto q hq
    have hvalue := (h.maps p hp).2
    have hvalue' := (h'.maps p hp).2
    rw [← hmove p hp, value, ← hcols] at hvalue'
    rw [value] at hvalue
    rw [hvalue, hvalue']
  have hcen : m'.centerCell = m''.centerCell := by
    rw [h.center, h'.center, hmove _ hcenter]
  rw [centerCell, centerCell, Prod.mk.injEq, UInt32.toNat_inj, UInt32.toNat_inj] at hcen
  cases m'
  cases m''
  simp_all [Prod.ext_iff]

theorem center_mem (h : Carries move m m') (hcenter : m.centerCell ∈ m.cells) :
    m'.centerCell ∈ m'.cells := by
  rw [h.center]
  exact (h.maps _ hcenter).1

end Carries

end MatrixArea

end ForgottenServer
