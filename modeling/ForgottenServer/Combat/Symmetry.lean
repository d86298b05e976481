import ForgottenServer.Combat.MatrixArea

/-! # The symmetry group of a rectangle

What each transformation does to the positions of the cells. A law holds of the
transformations as soon as it holds of the motions of the positions. -/

namespace ForgottenServer.MatrixArea

open RowMajor

inductive Transformation where
  | flip | mirror | transpose | rotate90 | rotate180 | rotate270
  deriving DecidableEq

namespace Transformation

def apply : Transformation → MatrixArea → Option MatrixArea
  | flip => MatrixArea.flip
  | mirror => MatrixArea.mirror
  | transpose => MatrixArea.transpose
  | rotate90 => MatrixArea.rotate90
  | rotate180 => MatrixArea.rotate180
  | rotate270 => MatrixArea.rotate270

/-- Rows and columns of the result. -/
def dims {α : Type} : Transformation → α × α → α × α
  | flip, d | mirror, d | rotate180, d => d
  | transpose, d | rotate90, d | rotate270, d => (d.2, d.1)

/-- Where the cell in row `p.1` and column `p.2` goes. -/
def move : Transformation → ℕ × ℕ → ℕ × ℕ → ℕ × ℕ
  | flip, d, p => (d.1 - 1 - p.1, p.2)
  | mirror, d, p => (p.1, d.2 - 1 - p.2)
  | transpose, _, p => (p.2, p.1)
  | rotate90, d, p => (p.2, d.1 - 1 - p.1)
  | rotate180, d, p => (d.1 - 1 - p.1, d.2 - 1 - p.2)
  | rotate270, d, p => (d.2 - 1 - p.2, p.1)

theorem move_mem (t : Transformation) (d : ℕ × ℕ) {p : ℕ × ℕ} (hp : p ∈ positions d.1 d.2) :
    t.move d p ∈ positions (t.dims d).1 (t.dims d).2 := by
  obtain ⟨hrow, hcol⟩ := mem_positions.mp hp
  rw [mem_positions]
  cases t <;> simp only [move, dims] <;> omega

theorem move_onto (t : Transformation) {d q : ℕ × ℕ}
    (hq : q ∈ positions (t.dims d).1 (t.dims d).2) : ∃ p ∈ positions d.1 d.2, t.move d p = q := by
  obtain ⟨hrow, hcol⟩ := mem_positions.mp hq
  cases t <;> simp only [dims] at hrow hcol
  case flip => exact ⟨(d.1 - 1 - q.1, q.2), by rw [mem_positions]; omega, by ext <;> simp [move]; omega⟩
  case mirror => exact ⟨(q.1, d.2 - 1 - q.2), by rw [mem_positions]; omega, by ext <;> simp [move]; omega⟩
  case transpose => exact ⟨(q.2, q.1), by rw [mem_positions]; omega, rfl⟩
  case rotate90 => exact ⟨(d.1 - 1 - q.2, q.1), by rw [mem_positions]; omega, by ext <;> simp [move]; omega⟩
  case rotate180 =>
    exact ⟨(d.1 - 1 - q.1, d.2 - 1 - q.2), by rw [mem_positions]; omega, by ext <;> simp [move] <;> omega⟩
  case rotate270 => exact ⟨(q.2, d.2 - 1 - q.1), by rw [mem_positions]; omega, by ext <;> simp [move]; omega⟩

theorem move_inj (t : Transformation) (d : ℕ × ℕ) {p q : ℕ × ℕ} (hp : p ∈ positions d.1 d.2)
    (hq : q ∈ positions d.1 d.2) (h : t.move d p = t.move d q) : p = q := by
  obtain ⟨hrow, hcol⟩ := mem_positions.mp hp
  obtain ⟨hrow', hcol'⟩ := mem_positions.mp hq
  cases t <;> simp only [move, Prod.mk.injEq] at h <;> ext <;> omega

end Transformation

variable {m : MatrixArea} {t : Transformation}

/-- Rows and columns as numbers. -/
def size (m : MatrixArea) : ℕ × ℕ := (m.rows.toNat, m.cols.toNat)

theorem carries_of_move {m' : MatrixArea} (h : m.Valid) (hlen : m'.arr.length = m.arr.length)
    (hsize : m'.size = t.dims m.size)
    (hvalues : ∀ p ∈ m.cells, m'.value (t.move m.size p) = m.value p)
    (hcenter : m'.centerCell = t.move m.size m.centerCell) : Carries (t.move m.size) m m' := by
  have hcells : m'.cells = positions (t.dims m.size).1 (t.dims m.size).2 := by rw [← hsize]; rfl
  refine carries_of_values h hlen ?_ (fun p hp => ⟨?_, hvalues p hp⟩) ?_ hcenter
  · have hprod : m'.size.1 * m'.size.2 = m.size.1 * m.size.2 := by
      rw [hsize]
      cases t <;> simp only [Transformation.dims] <;> ring
    exact hprod
  · rw [hcells]
    exact t.move_mem m.size hp
  · rw [hcells]
    exact fun q hq => t.move_onto hq

/-- The loops run over the cells of the result and read where each comes from. -/
theorem fill_from (t : Transformation) (h : m.Valid) (src : UInt32 → UInt32 → Option UInt8)
    (hdims : t.dims m.size = m.size)
    (hsrc : ∀ p ∈ m.cells, src (UInt32.ofNat p.1) (UInt32.ofNat p.2) = m.value (t.move m.size p)) :
    ∃ out, m.fill (fun row col => row * m.cols + col) src = some out ∧ out.length = m.arr.length ∧
      ∀ p ∈ m.cells, out[index m.cols.toNat p]? = m.value (t.move m.size p) := by
  refine fill_eq_some h ?_ ?_ fun _ _ _ _ heq => heq
  · intro p hp
    have hmem := t.move_mem m.size hp
    rw [hdims] at hmem
    exact ⟨hmem, hsrc p hp⟩
  · intro p hp
    obtain ⟨hrow, hcol⟩ := mem_positions.mp hp
    obtain ⟨h₁, h₂⟩ := toNat_ofNat_of_mem hp
    refine ⟨hcol, (index_lt hp).trans_eq h.length.symm, ?_⟩
    rw [toNat_index (by rwa [h₁]) (by rwa [h₂]) h.size, h₁, h₂]

/-- The loops run over the cells of `m` and write where each goes. -/
theorem fill_to (t : Transformation) (h : m.Valid) (dst : UInt32 → UInt32 → UInt32)
    (src : UInt32 → UInt32 → Option UInt8) (hdims : t.dims m.size = (m.cols.toNat, m.rows.toNat))
    (hsrc : ∀ p ∈ m.cells, src (UInt32.ofNat p.1) (UInt32.ofNat p.2) = m.value p)
    (hdst : ∀ p ∈ m.cells, (dst (UInt32.ofNat p.1) (UInt32.ofNat p.2)).toNat =
      index m.rows.toNat (t.move m.size p)) :
    ∃ out, m.fill dst src = some out ∧ out.length = m.arr.length ∧
      ∀ p ∈ m.cells, out[index m.rows.toNat (t.move m.size p)]? = m.value p := by
  refine fill_eq_some h (fun p hp => ⟨hp, hsrc p hp⟩) ?_ fun p hp q hq heq => t.move_inj m.size hp hq heq
  intro p hp
  have hmem := t.move_mem m.size hp
  rw [hdims] at hmem
  refine ⟨(mem_positions.mp hmem).2, (index_lt hmem).trans_eq ?_, hdst p hp⟩
  rw [h.length, Nat.mul_comm]

/-- The source cell of an iteration, for loops that read in order. -/
theorem Valid.cell_ofNat (h : m.Valid) {p : ℕ × ℕ} (hp : p ∈ m.cells) :
    m.cell (UInt32.ofNat p.1 * m.cols + UInt32.ofNat p.2) = m.value p := by
  obtain ⟨hrow, hcol⟩ := mem_positions.mp hp
  obtain ⟨h₁, h₂⟩ := toNat_ofNat_of_mem hp
  rw [h.cell_eq (by rwa [h₁]) (by rwa [h₂]), h₁, h₂]

/-- An index from the other end. -/
theorem toNat_rev_ofNat {n : UInt32} {i : ℕ} (hi : i < n.toNat) :
    (n - UInt32.ofNat i - 1).toNat = n.toNat - 1 - i := by
  have hn := n.toNat_lt
  have hword : (UInt32.ofNat i).toNat = i := by
    rw [UInt32.toNat_ofNat', Nat.mod_eq_of_lt (by omega)]
  rw [toNat_rev (by rwa [hword]), hword]

theorem flip_carries (h : m.Valid) (hcenter : m.centerCell ∈ m.cells) :
    ∃ m', m.flip = some m' ∧ Carries (Transformation.flip.move m.size) m m' ∧ m'.rows = m.rows ∧
      m'.cols = m.cols := by
  have hsrc : ∀ p ∈ m.cells, m.cell ((m.rows - UInt32.ofNat p.1 - 1) * m.cols + UInt32.ofNat p.2) =
      m.value (Transformation.flip.move m.size p) := by
    intro p hp
    obtain ⟨hrow, hcol⟩ := mem_positions.mp hp
    obtain ⟨h₁, h₂⟩ := toNat_ofNat_of_mem hp
    have hrev := toNat_rev_ofNat hrow
    rw [h.cell_eq (by omega) (by rwa [h₂]), hrev, h₂]
    rfl
  obtain ⟨out, hrun, hlen, hout⟩ := fill_from .flip h
    (fun row col => m.cell ((m.rows - row - 1) * m.cols + col)) rfl hsrc
  have hresult : m.flip = some ⟨out, (m.center.1, m.rows - m.center.2 - 1), m.rows, m.cols⟩ := by
    rw [flip, hrun]
    rfl
  refine ⟨_, hresult, carries_of_move h hlen rfl ?_ ?_, rfl, rfl⟩
  · intro p hp
    obtain ⟨hrow, hcol⟩ := mem_positions.mp hp
    refine (hout _ (Transformation.flip.move_mem m.size hp)).trans ?_
    congr 1
    ext
    · simp only [Transformation.move, size]
      omega
    · rfl
  · obtain ⟨hrow, hcol⟩ := mem_positions.mp hcenter
    exact Prod.ext (toNat_rev hrow) rfl

theorem mirror_carries (h : m.Valid) (hcenter : m.centerCell ∈ m.cells) :
    ∃ m', m.mirror = some m' ∧ Carries (Transformation.mirror.move m.size) m m' ∧ m'.rows = m.rows ∧
      m'.cols = m.cols := by
  have hsrc : ∀ p ∈ m.cells, m.cell (UInt32.ofNat p.1 * m.cols + (m.cols - UInt32.ofNat p.2 - 1)) =
      m.value (Transformation.mirror.move m.size p) := by
    intro p hp
    obtain ⟨hrow, hcol⟩ := mem_positions.mp hp
    obtain ⟨h₁, h₂⟩ := toNat_ofNat_of_mem hp
    have hrev := toNat_rev_ofNat hcol
    rw [h.cell_eq (by rwa [h₁]) (by omega), hrev, h₁]
    rfl
  obtain ⟨out, hrun, hlen, hout⟩ := fill_from .mirror h
    (fun row col => m.cell (row * m.cols + (m.cols - col - 1))) rfl hsrc
  have hresult : m.mirror = some ⟨out, (m.cols - m.center.1 - 1, m.center.2), m.rows, m.cols⟩ := by
    rw [mirror, hrun]
    rfl
  refine ⟨_, hresult, carries_of_move h hlen rfl ?_ ?_, rfl, rfl⟩
  · intro p hp
    obtain ⟨hrow, hcol⟩ := mem_positions.mp hp
    refine (hout _ (Transformation.mirror.move_mem m.size hp)).trans ?_
    congr 1
    ext
    · rfl
    · simp only [Transformation.move, size]
      omega
  · obtain ⟨hrow, hcol⟩ := mem_positions.mp hcenter
    exact Prod.ext rfl (toNat_rev hcol)

/-- `get` gives back a cell that is zero or one. -/
theorem Valid.get_ofNat (h : m.Valid) {p : ℕ × ℕ} (hp : p ∈ m.cells) :
    (m.get (UInt32.ofNat p.1) (UInt32.ofNat p.2)).map (fun b => if b then (1 : UInt8) else 0) =
      m.value p := by
  rw [get, h.cell_ofNat hp]
  cases hv : m.value p with
  | none => rfl
  | some b =>
    rcases h.binary b (List.mem_of_getElem? hv) with rfl | rfl <;> rfl

theorem transpose_carries (h : m.Valid) :
    ∃ m', m.transpose = some m' ∧ Carries (Transformation.transpose.move m.size) m m' ∧
      m'.rows = m.cols ∧ m'.cols = m.rows := by
  have hswap : m.cols.toNat * m.rows.toNat < 2 ^ 32 := (Nat.mul_comm ..).trans_lt h.size
  have hdst : ∀ p ∈ m.cells, (UInt32.ofNat p.2 * m.rows + UInt32.ofNat p.1).toNat =
      index m.rows.toNat (Transformation.transpose.move m.size p) := by
    intro p hp
    obtain ⟨hrow, hcol⟩ := mem_positions.mp hp
    obtain ⟨h₁, h₂⟩ := toNat_ofNat_of_mem hp
    rw [toNat_index (by rwa [h₂]) (by rwa [h₁]) hswap, h₁, h₂]
    rfl
  obtain ⟨out, hrun, hlen, hout⟩ := fill_to .transpose h (fun row col => col * m.rows + row)
    (fun row col => (m.get row col).map fun b => if b then 1 else 0) rfl (fun p hp => h.get_ofNat hp) hdst
  have hresult : m.transpose = some ⟨out, (m.center.2, m.center.1), m.cols, m.rows⟩ := by
    rw [transpose, hrun]
    rfl
  exact ⟨_, hresult, carries_of_move h hlen rfl hout rfl, rfl, rfl⟩

theorem rotate90_carries (h : m.Valid) (hcenter : m.centerCell ∈ m.cells) :
    ∃ m', m.rotate90 = some m' ∧ Carries (Transformation.rotate90.move m.size) m m' ∧
      m'.rows = m.cols ∧ m'.cols = m.rows := by
  have hswap : m.cols.toNat * m.rows.toNat < 2 ^ 32 := (Nat.mul_comm ..).trans_lt h.size
  have hdst : ∀ p ∈ m.cells, (UInt32.ofNat p.2 * m.rows + (m.rows - UInt32.ofNat p.1 - 1)).toNat =
      index m.rows.toNat (Transformation.rotate90.move m.size p) := by
    intro p hp
    obtain ⟨hrow, hcol⟩ := mem_positions.mp hp
    obtain ⟨h₁, h₂⟩ := toNat_ofNat_of_mem hp
    have hrev := toNat_rev_ofNat hrow
    rw [toNat_index (by rwa [h₂]) (by omega) hswap, hrev, h₂]
    rfl
  obtain ⟨out, hrun, hlen, hout⟩ := fill_to .rotate90 h
    (fun row col => col * m.rows + (m.rows - row - 1)) (fun row col => m.cell (row * m.cols + col)) rfl
    (fun p hp => h.cell_ofNat hp) hdst
  have hresult : m.rotate90 = some ⟨out, (m.rows - m.center.2 - 1, m.center.1), m.cols, m.rows⟩ := by
    rw [rotate90, hrun]
    rfl
  refine ⟨_, hresult, carries_of_move h hlen rfl hout ?_, rfl, rfl⟩
  obtain ⟨hrow, hcol⟩ := mem_positions.mp hcenter
  exact Prod.ext rfl (toNat_rev hrow)

theorem rotate270_carries (h : m.Valid) (hcenter : m.centerCell ∈ m.cells) :
    ∃ m', m.rotate270 = some m' ∧ Carries (Transformation.rotate270.move m.size) m m' ∧
      m'.rows = m.cols ∧ m'.cols = m.rows := by
  have hswap : m.cols.toNat * m.rows.toNat < 2 ^ 32 := (Nat.mul_comm ..).trans_lt h.size
  have hdst : ∀ p ∈ m.cells, ((m.cols - UInt32.ofNat p.2 - 1) * m.rows + UInt32.ofNat p.1).toNat =
      index m.rows.toNat (Transformation.rotate270.move m.size p) := by
    intro p hp
    obtain ⟨hrow, hcol⟩ := mem_positions.mp hp
    obtain ⟨h₁, h₂⟩ := toNat_ofNat_of_mem hp
    have hrev := toNat_rev_ofNat hcol
    rw [toNat_index (by omega) (by rwa [h₁]) hswap, hrev, h₁]
    rfl
  obtain ⟨out, hrun, hlen, hout⟩ := fill_to .rotate270 h
    (fun row col => (m.cols - col - 1) * m.rows + row) (fun row col => m.cell (row * m.cols + col)) rfl
    (fun p hp => h.cell_ofNat hp) hdst
  have hresult : m.rotate270 = some ⟨out, (m.center.2, m.cols - m.center.1 - 1), m.cols, m.rows⟩ := by
    rw [rotate270, hrun]
    rfl
  refine ⟨_, hresult, carries_of_move h hlen rfl hout ?_, rfl, rfl⟩
  obtain ⟨hrow, hcol⟩ := mem_positions.mp hcenter
  exact Prod.ext (toNat_rev hcol) rfl

theorem rotate180_carries (h : m.Valid) (hcenter : m.centerCell ∈ m.cells) :
    ∃ m', m.rotate180 = some m' ∧ Carries (Transformation.rotate180.move m.size) m m' ∧
      m'.rows = m.rows ∧ m'.cols = m.cols := by
  refine ⟨_, rfl, carries_of_move h (List.length_reverse ..) rfl ?_ ?_, rfl, rfl⟩
  · intro p hp
    have hlt : index m.cols.toNat p < m.arr.length := (index_lt hp).trans_eq h.length.symm
    have hrev : index m.cols.toNat (Transformation.rotate180.move m.size p) =
        m.arr.length - 1 - index m.cols.toNat p := by
      obtain ⟨hrow, hcol⟩ := mem_positions.mp hp
      obtain ⟨i, hi⟩ := Nat.exists_eq_add_of_lt hrow
      obtain ⟨j, hj⟩ := Nat.exists_eq_add_of_lt hcol
      have hi' : m.rows.toNat - 1 - p.1 = i := by omega
      have hj' : m.cols.toNat - 1 - p.2 = j := by omega
      have hprod : m.rows.toNat * m.cols.toNat =
          p.1 * m.cols.toNat + i * m.cols.toNat + (p.2 + j + 1) := by
        rw [← hj, hi]
        ring
      simp only [index, Transformation.move, size]
      rw [h.length, hi', hj']
      omega
    rw [value, hrev]
    dsimp only
    rw [List.getElem?_reverse (by omega), value]
    congr 1
    omega
  · obtain ⟨hrow, hcol⟩ := mem_positions.mp hcenter
    exact Prod.ext (toNat_rev hrow) (toNat_rev hcol)

theorem apply_carries (t : Transformation) (h : m.Valid) (hcenter : m.centerCell ∈ m.cells) :
    ∃ m', t.apply m = some m' ∧ Carries (t.move m.size) m m' ∧
      (m'.rows, m'.cols) = t.dims (m.rows, m.cols) := by
  cases t
  case flip =>
    obtain ⟨m', hrun, hcarries, hrows, hcols⟩ := flip_carries h hcenter
    exact ⟨m', hrun, hcarries, Prod.ext hrows hcols⟩
  case mirror =>
    obtain ⟨m', hrun, hcarries, hrows, hcols⟩ := mirror_carries h hcenter
    exact ⟨m', hrun, hcarries, Prod.ext hrows hcols⟩
  case transpose =>
    obtain ⟨m', hrun, hcarries, hrows, hcols⟩ := transpose_carries h
    exact ⟨m', hrun, hcarries, Prod.ext hrows hcols⟩
  case rotate90 =>
    obtain ⟨m', hrun, hcarries, hrows, hcols⟩ := rotate90_carries h hcenter
    exact ⟨m', hrun, hcarries, Prod.ext hrows hcols⟩
  case rotate180 =>
    obtain ⟨m', hrun, hcarries, hrows, hcols⟩ := rotate180_carries h hcenter
    exact ⟨m', hrun, hcarries, Prod.ext hrows hcols⟩
  case rotate270 =>
    obtain ⟨m', hrun, hcarries, hrows, hcols⟩ := rotate270_carries h hcenter
    exact ⟨m', hrun, hcarries, Prod.ext hrows hcols⟩

/-! ## Laws -/

/-- The transformations of a word, from left to right. -/
def applyAll : List Transformation → MatrixArea → Option MatrixArea
  | [], m => some m
  | t :: ts, m => t.apply m >>= applyAll ts

def moveAll : List Transformation → ℕ × ℕ → ℕ × ℕ → ℕ × ℕ
  | [], _ => id
  | t :: ts, d => moveAll ts (t.dims d) ∘ t.move d

def dimsAll {α : Type} : List Transformation → α × α → α × α
  | [], d => d
  | t :: ts, d => dimsAll ts (t.dims d)

theorem applyAll_carries (ts : List Transformation) :
    ∀ {m : MatrixArea}, m.Valid → m.centerCell ∈ m.cells →
      ∃ m', applyAll ts m = some m' ∧ Carries (moveAll ts m.size) m m' ∧
        (m'.rows, m'.cols) = dimsAll ts (m.rows, m.cols) := by
  induction ts with
  | nil =>
    intro m h _
    exact ⟨m, rfl, .refl h, rfl⟩
  | cons t ts ih =>
    intro m h hcenter
    obtain ⟨m₁, hrun₁, hcarries₁, hdims₁⟩ := apply_carries t h hcenter
    obtain ⟨m₂, hrun₂, hcarries₂, hdims₂⟩ := ih hcarries₁.valid (hcarries₁.center_mem hcenter)
    have hsize : m₁.size = t.dims m.size := by
      rw [Prod.ext_iff] at hdims₁
      obtain ⟨hrows, hcols⟩ := hdims₁
      refine Prod.ext (congrArg UInt32.toNat hrows |>.trans ?_) (congrArg UInt32.toNat hcols |>.trans ?_)
      all_goals cases t <;> rfl
    refine ⟨m₂, ?_, ?_, ?_⟩
    · rw [applyAll, hrun₁]
      exact hrun₂
    · rw [moveAll, ← hsize]
      exact hcarries₁.trans hcarries₂
    · rw [hdims₂, hdims₁, dimsAll]

/-- Words that move every cell to the same place do the same. -/
theorem applyAll_congr {ts us : List Transformation} (h : m.Valid) (hcenter : m.centerCell ∈ m.cells)
    (hdims : dimsAll ts (m.rows, m.cols) = dimsAll us (m.rows, m.cols))
    (hmove : ∀ row < m.rows.toNat, ∀ col < m.cols.toNat,
      moveAll ts m.size (row, col) = moveAll us m.size (row, col)) :
    applyAll ts m = applyAll us m := by
  obtain ⟨m₁, hrun₁, hcarries₁, hdims₁⟩ := applyAll_carries ts h hcenter
  obtain ⟨m₂, hrun₂, hcarries₂, hdims₂⟩ := applyAll_carries us h hcenter
  rw [hdims, ← hdims₂, Prod.mk.injEq] at hdims₁
  rw [hrun₁, hrun₂, hcarries₁.unique hcarries₂ hcenter hdims₁.1 hdims₁.2 ?_]
  intro p hp
  obtain ⟨hrow, hcol⟩ := mem_positions.mp hp
  exact hmove p.1 hrow p.2 hcol

/-- **The transformations obey the laws of the symmetries of a rectangle**, on every matrix of
zeros and ones whose size fits the index type, and each of them carries all cells and the
centre by one motion. -/
theorem rectangle_symmetries (h : m.Valid) (hcenter : m.centerCell ∈ m.cells) :
    (m.rotate90 >>= rotate90 >>= rotate90 >>= rotate90) = some m ∧
    (m.rotate90 >>= rotate90) = m.rotate180 ∧
    (m.rotate90 >>= rotate270) = some m ∧
    (m.flip >>= flip) = some m ∧
    (m.mirror >>= mirror) = some m ∧
    (m.flip >>= mirror) = m.rotate180 ∧
    (m.mirror >>= flip) = m.rotate180 ∧
    (m.transpose >>= transpose) = some m ∧
    ∀ t : Transformation, ∃ m', t.apply m = some m' ∧ Carries (t.move m.size) m m' ∧
      (m'.rows, m'.cols) = t.dims (m.rows, m.cols) := by
  have hlaw : ∀ ts us : List Transformation,
      dimsAll ts (m.rows, m.cols) = dimsAll us (m.rows, m.cols) →
      (∀ row < m.rows.toNat, ∀ col < m.cols.toNat,
        moveAll ts m.size (row, col) = moveAll us m.size (row, col)) →
      applyAll ts m = applyAll us m := fun _ _ hdims hmove => applyAll_congr h hcenter hdims hmove
  have hrotations := hlaw [.rotate90, .rotate90, .rotate90, .rotate90] [] rfl ?_
  have htwice := hlaw [.rotate90, .rotate90] [.rotate180] rfl ?_
  have hback := hlaw [.rotate90, .rotate270] [] rfl ?_
  have hflip := hlaw [.flip, .flip] [] rfl ?_
  have hmirror := hlaw [.mirror, .mirror] [] rfl ?_
  have hflipMirror := hlaw [.flip, .mirror] [.rotate180] rfl ?_
  have hmirrorFlip := hlaw [.mirror, .flip] [.rotate180] rfl ?_
  have htranspose := hlaw [.transpose, .transpose] [] rfl ?_
  · simp only [applyAll, Transformation.apply, Option.bind_eq_bind, Option.bind_fun_some,
      ← Option.bind_assoc] at *
    exact ⟨hrotations, htwice, hback, hflip, hmirror, hflipMirror, hmirrorFlip, htranspose,
      fun t => apply_carries t h hcenter⟩
  -- both words move every position to the same place
  all_goals
    intro row hrow col hcol
    refine Prod.ext ?_ ?_ <;>
      simp only [moveAll, Transformation.move, Transformation.dims, size, Function.comp, id] <;> omega

/-- A matrix of two rows and three columns with its centre in the second row. -/
theorem rectangle_symmetries_two_by_three :
    ((⟨[0, 0, 1, 1, 0, 1], (2, 1), 2, 3⟩ : MatrixArea).rotate90 >>= rotate90) =
      (⟨[0, 0, 1, 1, 0, 1], (2, 1), 2, 3⟩ : MatrixArea).rotate180 := by
  have hvalid : (⟨[0, 0, 1, 1, 0, 1], (2, 1), 2, 3⟩ : MatrixArea).Valid :=
    ⟨by decide, rfl, by simp⟩
  have hcenter : (⟨[0, 0, 1, 1, 0, 1], (2, 1), 2, 3⟩ : MatrixArea).centerCell ∈
      (⟨[0, 0, 1, 1, 0, 1], (2, 1), 2, 3⟩ : MatrixArea).cells := mem_positions.mpr ⟨by decide, by decide⟩
  exact (rectangle_symmetries hvalid hcenter).2.1

end ForgottenServer.MatrixArea
