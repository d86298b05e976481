import ForgottenServer.Combat.MatrixArea

/-! # Reading an area

`createArea` walks over the values of an area with a running column and row. The walk does not
stop at the end of the matrix it has allocated. -/

namespace ForgottenServer.MatrixArea

open RowMajor

/-- The rows of a script's table: their values in one vector, and their number. -/
def getArea (table : List (List UInt32)) : Option (List UInt32 × UInt32) :=
  let rows := UInt32.ofNat table.length
  if rows ≠ 0 then some (table.flatten, rows) else none

/-- `area(row, col) = true` -/
def mark (m : MatrixArea) (row col : UInt32) : Option MatrixArea := do
  let arr ← write m.arr (row * m.cols + col).toNat 1
  return { m with arr := arr }

/-- The variables of the loop of `createArea`. -/
structure Cursor where
  area : MatrixArea
  x : UInt32
  y : UInt32

namespace Cursor

/-- The first `if` of the loop's body. -/
def marked (s : Cursor) (value : UInt32) : Option MatrixArea :=
  if value = 1 ∨ value = 3 then s.area.mark s.y s.x else some s.area

/-- The second `if`. -/
def centered (s : Cursor) (value : UInt32) (area : MatrixArea) : MatrixArea :=
  if value = 2 ∨ value = 3 then area.setCenter s.y s.x else area

/-- `++x`, and a new row when `x` has reached the number of columns. -/
def next (s : Cursor) (cols : UInt32) (area : MatrixArea) : Cursor :=
  let x := s.x + 1
  if cols = x then ⟨area, 0, s.y + 1⟩ else ⟨area, x, s.y⟩

def step (cols : UInt32) (s : Cursor) (value : UInt32) : Option Cursor := do
  let area ← s.marked value
  return s.next cols (s.centered value area)

end Cursor

def columns (vec : List UInt32) (rows : UInt32) : UInt32 :=
  if rows = 0 then 0 else UInt32.ofNat (vec.length / rows.toNat)

def createArea (vec : List UInt32) (rows : UInt32) : Option MatrixArea := do
  let cols := columns vec rows
  let s ← vec.foldlM (Cursor.step cols) ⟨new rows cols, 0, 0⟩
  return s.area

/-! ## What an area should be -/

def MarkedAt (vec : List UInt32) (i : ℕ) : Prop := vec[i]? = some 1 ∨ vec[i]? = some 3

def CenterAt (vec : List UInt32) (i : ℕ) : Prop := vec[i]? = some 2 ∨ vec[i]? = some 3

/-- The values in a row: without columns, a row ends when the counter wraps. -/
def width (cols : UInt32) : ℕ := if cols = 0 then 2 ^ 32 else cols.toNat

/-- Row and column of the value at index `i`. -/
def place (cols : UInt32) (i : ℕ) : UInt32 × UInt32 :=
  (UInt32.ofNat (i / width cols), UInt32.ofNat (i % width cols))

/-- The centre is at the last value that sets it. -/
def Centred (vec : List UInt32) (cols : UInt32) (center : UInt32 × UInt32) : Prop :=
  (∀ i, CenterAt vec i → (∀ j, i < j → ¬CenterAt vec j) → center = (place cols i).swap) ∧
  ((∀ i, ¬CenterAt vec i) → center = (0, 0))

structure Exact (vec : List UInt32) (rows : UInt32) (area : MatrixArea) : Prop where
  rows_eq : area.rows = rows
  cols_eq : area.cols = columns vec rows
  length : area.arr.length = (rows * columns vec rows).toNat
  cells : ∀ i < vec.length, area.get (place area.cols i).1 (place area.cols i).2 = some true ↔ MarkedAt vec i
  center : Centred vec area.cols area.center

/-- Every value that marks a cell has one in the matrix. Indices are `uint32_t`, so values with
one index modulo 2^32 share a cell. -/
def Fits (vec : List UInt32) (rows : UInt32) : Prop :=
  (∀ i, MarkedAt vec i → i % 2 ^ 32 < (rows * columns vec rows).toNat) ∧
  ∀ i < vec.length, ∀ j < vec.length, i % 2 ^ 32 = j % 2 ^ 32 → MarkedAt vec i → MarkedAt vec j

/-! ## The running counters -/

variable {cols : UInt32} {vec : List UInt32} {rows : UInt32}

theorem width_spec (cols : UInt32) :
    0 < width cols ∧ width cols ≤ 2 ^ 32 ∧ UInt32.ofNat (width cols) = cols := by
  rw [width]
  split
  · rename_i h
    exact ⟨by norm_num, le_rfl, by rw [h]; rfl⟩
  · rename_i h
    have hlt := cols.toNat_lt
    have hpos : cols.toNat ≠ 0 := fun h0 => h (UInt32.toNat_inj.mp h0)
    exact ⟨Nat.pos_of_ne_zero hpos, hlt.le, UInt32.ofNat_toNat⟩

theorem place_zero (cols : UInt32) : place cols 0 = (0, 0) := by simp [place]

/-- The cell at a value's place has the value's index. -/
theorem place_index (cols : UInt32) (i : ℕ) :
    ((place cols i).1 * cols + (place cols i).2).toNat = i % 2 ^ 32 := by
  obtain ⟨-, -, hcols⟩ := width_spec cols
  have hsum : (place cols i).1 * cols + (place cols i).2 = UInt32.ofNat i := by
    calc (place cols i).1 * cols + (place cols i).2
        = UInt32.ofNat (i / width cols) * UInt32.ofNat (width cols) +
            UInt32.ofNat (i % width cols) := by rw [place, hcols]
      _ = UInt32.ofNat i := by
        rw [← UInt32.ofNat_mul, ← UInt32.ofNat_add, Nat.mul_comm, Nat.div_add_mod]
  rw [hsum, UInt32.toNat_ofNat']

theorem place_succ (cols : UInt32) (i : ℕ) : place cols (i + 1) =
    if cols = (place cols i).2 + 1 then ((place cols i).1 + 1, 0)
    else ((place cols i).1, (place cols i).2 + 1) := by
  obtain ⟨hpos, hle, hcols⟩ := width_spec cols
  have hmod : i % width cols < width cols := Nat.mod_lt _ hpos
  have hdiv := Nat.div_add_mod i (width cols)
  have hwrap : cols = (place cols i).2 + 1 ↔ i % width cols + 1 = width cols := by
    rw [place]
    dsimp only
    constructor
    · intro h
      have hnat := congrArg UInt32.toNat (hcols.trans h)
      rw [← UInt32.ofNat_one, ← UInt32.ofNat_add, UInt32.toNat_ofNat', UInt32.toNat_ofNat'] at hnat
      omega
    · intro h
      rw [← UInt32.ofNat_one, ← UInt32.ofNat_add, h, hcols]
  by_cases h : i % width cols + 1 = width cols
  · rw [if_pos (hwrap.mpr h)]
    have hnext : i + 1 = width cols * (i / width cols + 1) := by
      rw [Nat.mul_add, Nat.mul_one]
      omega
    rw [place, hnext, Nat.mul_div_cancel_left _ hpos, Nat.mul_mod_right, UInt32.ofNat_add]
    rfl
  · rw [if_neg fun hcol => h (hwrap.mp hcol)]
    have hnext : i + 1 = i % width cols + 1 + width cols * (i / width cols) := by omega
    have hlt : i % width cols + 1 < width cols := by omega
    rw [place, hnext, Nat.add_mul_div_left _ _ hpos, Nat.div_eq_of_lt hlt, Nat.zero_add,
      Nat.add_mul_mod_self_left, Nat.mod_eq_of_lt hlt, UInt32.ofNat_add]
    rfl

/-! ## The loop -/

/-- What the loop has built from the values `vec`, in an array of `size` cells. -/
structure Walked (vec : List UInt32) (cols : UInt32) (size : ℕ) (s : Cursor) : Prop where
  counters : (s.y, s.x) = place cols vec.length
  cols_eq : s.area.cols = cols
  length : s.area.arr.length = size
  cells : ∀ k < size, s.area.arr[k]? = some 1 ∨ s.area.arr[k]? = some 0
  marked : ∀ k < size, s.area.arr[k]? = some 1 ↔ ∃ i, MarkedAt vec i ∧ i % 2 ^ 32 = k
  center : Centred vec cols s.area.center

theorem markedAt_append {v : UInt32} {i : ℕ} :
    MarkedAt (vec ++ [v]) i ↔ MarkedAt vec i ∨ i = vec.length ∧ (v = 1 ∨ v = 3) := by
  rw [MarkedAt, MarkedAt, List.getElem?_append]
  split
  · grind
  · grind

theorem centerAt_append {v : UInt32} {i : ℕ} :
    CenterAt (vec ++ [v]) i ↔ CenterAt vec i ∨ i = vec.length ∧ (v = 2 ∨ v = 3) := by
  rw [CenterAt, CenterAt, List.getElem?_append]
  split
  · grind
  · grind

theorem CenterAt.lt {i : ℕ} (h : CenterAt vec i) : i < vec.length := by
  rw [CenterAt] at h
  grind

theorem MarkedAt.lt {i : ℕ} (h : MarkedAt vec i) : i < vec.length := by
  rw [MarkedAt] at h
  grind

theorem Centred.append {center : UInt32 × UInt32} (h : Centred vec cols center) (v : UInt32) :
    Centred (vec ++ [v]) cols
      (if v = 2 ∨ v = 3 then (place cols vec.length).swap else center) := by
  split
  · rename_i hv
    constructor
    · intro i hi hlast
      rcases centerAt_append.mp hi with hi | ⟨rfl, -⟩
      · exact absurd (centerAt_append.mpr (.inr ⟨rfl, hv⟩)) (hlast _ hi.lt)
      · rfl
    · intro hnone
      exact absurd (centerAt_append.mpr (.inr ⟨rfl, hv⟩)) (hnone vec.length)
  · rename_i hv
    have hsame : ∀ i, CenterAt (vec ++ [v]) i ↔ CenterAt vec i := by
      intro i
      rw [centerAt_append]
      exact or_iff_left fun h => hv h.2
    constructor
    · intro i hi hlast
      exact h.1 i ((hsame i).mp hi) fun j hj hc => hlast j hj ((hsame j).mpr hc)
    · intro hnone
      exact h.2 fun i hi => hnone i ((hsame i).mpr hi)

namespace Walked

variable {size : ℕ} {s : Cursor} {v : UInt32}

theorem cursor_index (h : Walked vec cols size s) :
    (s.y * s.area.cols + s.x).toNat = vec.length % 2 ^ 32 := by
  have hplace := place_index cols vec.length
  rw [← h.counters] at hplace
  rw [h.cols_eq]
  exact hplace

/-- The array after the first `if` of the loop's body. -/
theorem marked_eq_some (h : Walked vec cols size s) (hfit : v = 1 ∨ v = 3 → vec.length % 2 ^ 32 < size) :
    ∃ arr, s.marked v = some ⟨arr, s.area.center, s.area.rows, s.area.cols⟩ ∧ arr.length = size ∧ ∀ k < size, arr[k]? =
      if (v = 1 ∨ v = 3) ∧ vec.length % 2 ^ 32 = k then some 1 else s.area.arr[k]? := by
  by_cases hv : v = 1 ∨ v = 3
  · have hlt : vec.length % 2 ^ 32 < s.area.arr.length := by
      rw [h.length]
      exact hfit hv
    refine ⟨s.area.arr.set (vec.length % 2 ^ 32) 1, ?_, by rw [List.length_set, h.length], ?_⟩
    · rw [Cursor.marked, if_pos hv, mark, h.cursor_index, write_eq_some hlt]
      rfl
    · intro k hk
      rw [List.getElem?_set]
      by_cases hk' : vec.length % 2 ^ 32 = k
      · rw [if_pos hk', if_pos (hk' ▸ hlt), if_pos ⟨hv, hk'⟩]
      · rw [if_neg hk', if_neg fun hboth => hk' hboth.2]
  · refine ⟨s.area.arr, if_neg hv, h.length, ?_⟩
    intro k _
    rw [if_neg fun hboth => hv hboth.1]

theorem centered_eq (h : Walked vec cols size s) (area : MatrixArea) (v : UInt32)
    (hcenter : area.center = s.area.center) : s.centered v area = ⟨area.arr,
      if v = 2 ∨ v = 3 then (place cols vec.length).swap else s.area.center, area.rows, area.cols⟩ := by
  rw [Cursor.centered, ← h.counters, ← hcenter]
  split <;> rfl

/-- The counters go on to the next place. -/
theorem next_eq (h : Walked vec cols size s) (area : MatrixArea) :
    (s.next cols area).area = area ∧
      ((s.next cols area).y, (s.next cols area).x) = place cols (vec.length + 1) := by
  have hy : s.y = (place cols vec.length).1 := congrArg Prod.fst h.counters
  have hx : s.x = (place cols vec.length).2 := congrArg Prod.snd h.counters
  rw [place_succ, ← hy, ← hx, Cursor.next]
  split <;> exact ⟨rfl, rfl⟩

theorem step_some (h : Walked vec cols size s) (hfit : v = 1 ∨ v = 3 → vec.length % 2 ^ 32 < size) :
    ∃ s', s.step cols v = some s' ∧ Walked (vec ++ [v]) cols size s' ∧ s'.area.rows = s.area.rows := by
  obtain ⟨arr, hmark, hlen, hcells⟩ := h.marked_eq_some hfit
  have hcentered := h.centered_eq ⟨arr, s.area.center, s.area.rows, s.area.cols⟩ v rfl
  obtain ⟨harea, hcounters⟩ := h.next_eq (s.centered v ⟨arr, s.area.center, s.area.rows, s.area.cols⟩)
  refine ⟨_, by rw [Cursor.step, hmark]; rfl, ⟨?_, ?_, ?_, ?_, ?_, ?_⟩, ?_⟩
  · rw [List.length_append]
    exact hcounters
  all_goals rw [harea, hcentered]
  · exact h.cols_eq
  · exact hlen
  · intro k hk
    dsimp only
    rw [hcells k hk]
    split
    · exact .inl rfl
    · exact h.cells k hk
  · intro k hk
    dsimp only
    rw [hcells k hk]
    constructor
    · intro hone
      split at hone
      · rename_i hboth
        exact ⟨vec.length, markedAt_append.mpr (.inr ⟨rfl, hboth.1⟩), hboth.2⟩
      · obtain ⟨i, hi, hik⟩ := (h.marked k hk).mp hone
        exact ⟨i, markedAt_append.mpr (.inl hi), hik⟩
    · rintro ⟨i, hi, hik⟩
      rcases markedAt_append.mp hi with hi | ⟨rfl, hv⟩
      · split
        · rfl
        · exact (h.marked k hk).mpr ⟨i, hi, hik⟩
      · rw [if_pos ⟨hv, hik⟩]
  · exact h.center.append v

theorem step_none (h : Walked vec cols size s) (hv : v = 1 ∨ v = 3)
    (hout : size ≤ vec.length % 2 ^ 32) : s.step cols v = none := by
  have hwrite : write s.area.arr (vec.length % 2 ^ 32) 1 = none := if_neg (by
    rw [h.length]
    omega)
  rw [Cursor.step, Cursor.marked, if_pos hv, mark, h.cursor_index, hwrite]
  rfl

end Walked

/-- The loop returns exactly when every marked cell is in the array. -/
theorem walk (size : ℕ) (hsize : (rows * cols).toNat = size) (vec : List UInt32) :
    (∃ s, vec.foldlM (Cursor.step cols) ⟨new rows cols, 0, 0⟩ = some s ∧ Walked vec cols size s ∧
      s.area.rows = rows ∧ ∀ i, MarkedAt vec i → i % 2 ^ 32 < size) ∨
    (vec.foldlM (Cursor.step cols) ⟨new rows cols, 0, 0⟩ = none ∧
      ∃ i, MarkedAt vec i ∧ size ≤ i % 2 ^ 32) := by
  induction vec using List.reverseRecOn with
  | nil =>
    have hnone : ∀ i, ¬MarkedAt [] i := by simp [MarkedAt]
    refine .inl ⟨_, rfl, ⟨(place_zero cols).symm, rfl, ?_, ?_, ?_, ?_⟩, rfl, fun i hi => absurd hi (hnone i)⟩
    · rw [new, List.length_replicate, hsize]
    · intro k hk
      rw [new, List.getElem?_replicate, hsize, if_pos hk]
      exact .inr rfl
    · intro k hk
      rw [new, List.getElem?_replicate, hsize, if_pos hk]
      constructor
      · intro h
        cases h
      · rintro ⟨i, hi, -⟩
        exact absurd hi (hnone i)
    · exact ⟨fun i hi => by simp [CenterAt] at hi, fun _ => rfl⟩
  | append_singleton vec v ih =>
    rw [List.foldlM_append]
    rcases ih with ⟨s, hrun, hwalked, hrows, hfit⟩ | ⟨hrun, i, hi, hout⟩
    · rw [hrun, Option.bind_eq_bind, Option.bind_some, List.foldlM_cons]
      by_cases hv : (v = 1 ∨ v = 3) ∧ size ≤ vec.length % 2 ^ 32
      · refine .inr ⟨by rw [hwalked.step_none hv.1 hv.2]; rfl, vec.length, ?_, hv.2⟩
        exact markedAt_append.mpr (.inr ⟨rfl, hv.1⟩)
      · have hlast : v = 1 ∨ v = 3 → vec.length % 2 ^ 32 < size := by
          intro hmark
          by_contra hge
          exact hv ⟨hmark, by omega⟩
        obtain ⟨s', hstep, hwalked', hrows'⟩ := hwalked.step_some hlast
        refine .inl ⟨s', by rw [hstep]; rfl, hwalked', hrows'.trans hrows, ?_⟩
        intro i hi
        rcases markedAt_append.mp hi with hi | ⟨rfl, hmark⟩
        · exact hfit i hi
        · exact hlast hmark
    · exact .inr ⟨by rw [hrun]; rfl, i, markedAt_append.mpr (.inl hi), hout⟩

/-- **When `createArea` is right.** It returns an area with exactly the marked cells and the last
centre, having written inside its matrix only, if and only if every marked value has a cell. -/
theorem createArea_exact_iff (vec : List UInt32) (rows : UInt32) :
    (∃ area, createArea vec rows = some area ∧ Exact vec rows area) ↔ Fits vec rows := by
  have hget : ∀ {s : Cursor}, Walked vec (columns vec rows) (rows * columns vec rows).toNat s →
      ∀ i, s.area.get (place s.area.cols i).1 (place s.area.cols i).2 = some true ↔
        i % 2 ^ 32 < (rows * columns vec rows).toNat ∧
          ∃ j, MarkedAt vec j ∧ j % 2 ^ 32 = i % 2 ^ 32 := by
    intro s hs i
    rw [get, cell, place_index]
    by_cases hi : i % 2 ^ 32 < (rows * columns vec rows).toNat
    · have hmarked := hs.marked _ hi
      rw [← hmarked]
      rcases hs.cells _ hi with hone | hzero
      · rw [hone]
        exact ⟨fun _ => ⟨hi, rfl⟩, fun _ => rfl⟩
      · rw [hzero]
        exact ⟨fun h => (by cases h), fun h => (by cases h.2)⟩
    · rw [List.getElem?_eq_none (by rw [hs.length]; omega)]
      exact ⟨fun h => (by cases h), fun h => absurd h.1 hi⟩
  rcases walk _ rfl vec with ⟨s, hrun, hwalked, hrows, hfit⟩ | ⟨hrun, i, hi, hout⟩
  · have hcreate : createArea vec rows = some s.area := by
      rw [createArea, hrun]
      rfl
    constructor
    · rintro ⟨area, harea, hexact⟩
      rw [hcreate] at harea
      cases harea
      refine ⟨hfit, fun i hi j hj hij hmark => (hexact.cells j hj).mp ?_⟩
      exact (hget hwalked j).mpr ⟨hij ▸ hfit i hmark, i, hmark, hij⟩
    · rintro ⟨-, hsame⟩
      refine ⟨s.area, hcreate, ⟨hrows, hwalked.cols_eq, hwalked.length, ?_, ?_⟩⟩
      · intro i hi
        rw [hget hwalked i]
        constructor
        · rintro ⟨-, j, hj, hij⟩
          exact hsame j hj.lt i hi hij hj
        · exact fun hmark => ⟨hfit i hmark, i, hmark, rfl⟩
      · rw [hwalked.cols_eq]
        exact hwalked.center
  · constructor
    · rintro ⟨area, harea, -⟩
      rw [createArea, hrun] at harea
      cases harea
    · rintro ⟨hfit, -⟩
      exact absurd (hfit i hi) (by omega)

/-- A vector of rows of one length fits. -/
theorem fits_of_dvd (hlen : vec.length < 2 ^ 32) (hdvd : rows.toNat ∣ vec.length) (hrows : rows ≠ 0) :
    Fits vec rows := by
  have hcols : (columns vec rows).toNat = vec.length / rows.toNat := by
    rw [columns, if_neg hrows, UInt32.toNat_ofNat', Nat.mod_eq_of_lt]
    exact (Nat.div_le_self ..).trans_lt hlen
  have hsize : (rows * columns vec rows).toNat = vec.length := by
    rw [UInt32.toNat_mul, hcols, Nat.mul_div_cancel' hdvd, Nat.mod_eq_of_lt hlen]
  refine ⟨fun i hi => ?_, fun i hi j hj hij hmark => ?_⟩
  · rw [hsize]
    exact (Nat.mod_le ..).trans_lt hi.lt
  · rw [Nat.mod_eq_of_lt (by omega), Nat.mod_eq_of_lt (by omega)] at hij
    exact hij ▸ hmark

/-- The rows `{1, 1}` and `{1}` of a script give three values and two rows of one column. -/
theorem createArea_ragged : getArea [[1, 1], [1]] = some ([1, 1, 1], 2) ∧
    ¬∃ area, createArea [1, 1, 1] 2 = some area ∧ Exact [1, 1, 1] 2 area := by
  refine ⟨rfl, ?_⟩
  rintro ⟨area, harea, -⟩
  have hnone : createArea [1, 1, 1] 2 = none := by decide
  rw [hnone] at harea
  cases harea

end ForgottenServer.MatrixArea
