import Mathlib

/-! # Walks along a line of a grid

A walk goes `w` columns and `h` rows. With `u` columns and `v` rows left, the deviation of its cell from the line is
`w * v - h * u`. In each step it takes a row, a column or both, whichever of the three cells is closest to the line. -/

namespace ForgottenServer.DigitalLine

variable {w h u v : Int}

def deviation (w h u v : Int) : Int := w * v - h * u

/-- The deviations of the cells in the next column, in the next row and in both. -/
def column (w h u v : Int) : Nat := (deviation w h u v + h).natAbs

def row (w h u v : Int) : Nat := (deviation w h u v - w).natAbs

def cross (w h u v : Int) : Nat := (deviation w h u v + h - w).natAbs

/-- The walk takes a row. -/
def RowDue (w h u v : Int) : Prop :=
  v ≠ 0 ∧ (u = 0 ∨ row w h u v < column w h u v ∨ cross w h u v < column w h u v)

/-- The walk takes a column, and `v'` rows are left after the step. -/
def ColumnDue (w h u v v' : Int) : Prop :=
  u ≠ 0 ∧ (v' = 0 ∨ column w h u v < row w h u v ∨ cross w h u v < row w h u v)

instance : Decidable (RowDue w h u v) := inferInstanceAs (Decidable (_ ∧ _))

instance {v' : Int} : Decidable (ColumnDue w h u v v') := inferInstanceAs (Decidable (_ ∧ _))

def rowsLeft (w h u v : Int) : Int := if RowDue w h u v then v - 1 else v

def columnsLeft (w h u v v' : Int) : Int := if ColumnDue w h u v v' then u - 1 else u

/-- A cell between the ends that is off the line by at most half a cell of the longer side. -/
structure Near (w h u v : Int) : Prop where
  columns : 0 ≤ u ∧ u ≤ w
  rows : 0 ≤ v ∧ v ≤ h
  low : -max w h ≤ 2 * deviation w h u v
  high : 2 * deviation w h u v ≤ max w h

theorem Near.start (hw : 0 ≤ w) (hh : 0 ≤ h) : Near w h w h := by
  have hzero : deviation w h w h = 0 := by rw [deviation]; ring
  refine ⟨⟨hw, le_refl w⟩, ⟨hh, le_refl h⟩, ?_, ?_⟩ <;> omega

@[simp] theorem deviation_row (w h u v : Int) : deviation w h u (v - 1) = deviation w h u v - w := by
  rw [deviation, deviation]; ring

@[simp] theorem deviation_column (w h u v : Int) : deviation w h (u - 1) v = deviation w h u v + h := by
  rw [deviation, deviation]; ring

theorem deviation_zero_left (w h v : Int) : deviation w h 0 v = w * v := by rw [deviation]; ring

theorem deviation_zero_right (w h u : Int) : deviation w h u 0 = -(h * u) := by rw [deviation]; ring

/-- In the last column the walk is not before the line. -/
theorem Near.le_of_column (hnear : Near w h u v) (hu : u = 0) (hv : v ≠ 0) : w ≤ deviation w h u v := by
  rw [hu, deviation_zero_left]
  have hrow := hnear.rows
  have hcol := hnear.columns
  exact le_mul_of_one_le_right (by omega) (by omega)

/-- In the last row the walk is not behind the line. -/
theorem Near.le_of_row (hnear : Near w h u v) (hv : v = 0) (hu : u ≠ 0) : deviation w h u v ≤ -h := by
  rw [hv, deviation_zero_right]
  have hrow := hnear.rows
  have hcol := hnear.columns
  exact neg_le_neg (le_mul_of_one_le_right (by omega) (by omega))

/-- In the row before the last one the step into both goes behind the line. -/
theorem Near.le_of_next_row (hnear : Near w h u v) (hv : v - 1 = 0) (hu : u ≠ 0) : deviation w h u v ≤ w - h := by
  have hrow := hnear.rows
  have hcol := hnear.columns
  have hmul : h ≤ h * u := le_mul_of_one_le_right (by omega) (by omega)
  rw [deviation, show v = 1 by omega, mul_one]
  omega

theorem rowsLeft_cases (w h u v : Int) :
    (RowDue w h u v ∧ rowsLeft w h u v = v - 1) ∨ (¬ RowDue w h u v ∧ rowsLeft w h u v = v) := by
  rw [rowsLeft]
  split
  · next hdue => exact .inl ⟨hdue, rfl⟩
  · next hnot => exact .inr ⟨hnot, rfl⟩

theorem columnsLeft_cases (w h u v v' : Int) :
    (ColumnDue w h u v v' ∧ columnsLeft w h u v v' = u - 1) ∨
    (¬ ColumnDue w h u v v' ∧ columnsLeft w h u v v' = u) := by
  rw [columnsLeft]
  split
  · next hdue => exact .inl ⟨hdue, rfl⟩
  · next hnot => exact .inr ⟨hnot, rfl⟩

/-- The walk goes on, it goes no further than one row and one column, and it stays near the line. -/
theorem Near.step (hnear : Near w h u v) (hleft : u ≠ 0 ∨ v ≠ 0) :
    Near w h (columnsLeft w h u v (rowsLeft w h u v)) (rowsLeft w h u v) ∧
    columnsLeft w h u v (rowsLeft w h u v) + rowsLeft w h u v < u + v := by
  have hcol := hnear.columns
  have hrow := hnear.rows
  have hlow := hnear.low
  have hhigh := hnear.high
  have hlast := hnear.le_of_column
  have hlast' := hnear.le_of_row
  have hnext := hnear.le_of_next_row
  obtain ⟨hdue, hv⟩ | ⟨hdue, hv⟩ := rowsLeft_cases w h u v <;>
    obtain ⟨hdue', hu⟩ | ⟨hdue', hu⟩ := columnsLeft_cases w h u v (rowsLeft w h u v) <;>
    rw [hv] at hu hdue' <;> rw [hv, hu] <;>
    simp only [RowDue, ColumnDue, row, column, cross] at hdue hdue'
  · refine ⟨⟨by omega, by omega, ?_, ?_⟩, by omega⟩ <;> simp only [deviation_row, deviation_column] <;> omega
  · refine ⟨⟨by omega, by omega, ?_, ?_⟩, by omega⟩ <;> simp only [deviation_row] <;> omega
  · refine ⟨⟨by omega, by omega, ?_, ?_⟩, by omega⟩ <;> simp only [deviation_column] <;> omega
  · -- a walk that has not ended goes on
    omega

end ForgottenServer.DigitalLine
