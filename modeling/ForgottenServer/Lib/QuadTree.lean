import Mathlib

/-! # Quad trees

A tree of depth `n` over the pairs of numbers with `n` bits: a node has a child for each value of the
highest bits of both, and the children that nobody asked for are not there. `leaves` walks through the
tree and puts the numbers together from the bits on the way. -/

def QuadTree (α : Type) : Nat → Type
  | 0 => α
  | n + 1 => Bool → Bool → Option (QuadTree α n)

namespace QuadTree

variable {α : Type}

def child {n : Nat} (t : QuadTree α (n + 1)) (i j : Bool) : Option (QuadTree α n) := t i j

def find : (n : Nat) → QuadTree α n → Nat → Nat → Option α
  | 0, a, _, _ => some a
  | n + 1, t, x, y => (child t (x.testBit n) (y.testBit n)).bind fun t => find n t x y

section Update

variable [Inhabited α]

def empty : (n : Nat) → QuadTree α n
  | 0 => (default : α)
  | _ + 1 => fun _ _ => none

/-- The leaf is made with all nodes above it, if it is not there. -/
def update (f : α → α) : (n : Nat) → QuadTree α n → Nat → Nat → QuadTree α n
  | 0, a, _, _ => f a
  | n + 1, t, x, y => fun i j =>
    if i = x.testBit n ∧ j = y.testBit n then some (update f n ((child t i j).getD (empty n)) x y) else child t i j

end Update

/-- A bit that is set in front of the others. -/
def withBit (b : Bool) (n base : Nat) : Nat := base ||| if b then 1 <<< n else 0

/-- All leaves with their numbers. -/
def leaves : (n : Nat) → QuadTree α n → Nat → Nat → List (Nat × Nat × α)
  | 0, a, baseX, baseY => [(baseX, baseY, a)]
  | n + 1, t, baseX, baseY => [(false, false), (true, false), (false, true), (true, true)].flatMap fun q =>
    match child t q.1 q.2 with
    | none => []
    | some t => leaves n t (withBit q.1 n baseX) (withBit q.2 n baseY)

/-! ## Numbers by their bits -/

/-- The same bits from `n` on. -/
def SameHigh (n x base : Nat) : Prop := ∀ i, n ≤ i → x.testBit i = base.testBit i

/-- The same bits below `n`. -/
def SameLow (n x y : Nat) : Prop := ∀ i < n, x.testBit i = y.testBit i

theorem testBit_withBit (b : Bool) (n base i : Nat) :
    (withBit b n base).testBit i = (base.testBit i || (b && decide (n = i))) := by
  rw [withBit, Nat.testBit_or]
  cases b with
  | false => simp
  | true => simp [Nat.one_shiftLeft, Nat.testBit_two_pow]

theorem sameHigh_withBit {n base x : Nat} {b : Bool} (hbase : base.testBit n = false) :
    SameHigh n x (withBit b n base) ↔ x.testBit n = b ∧ SameHigh (n + 1) x base := by
  constructor
  · intro h
    refine ⟨?_, fun i hi => ?_⟩
    · rw [h n le_rfl, testBit_withBit, hbase]
      simp
    · have hne : n ≠ i := (Nat.lt_of_succ_le hi).ne
      rw [h i (Nat.le_of_succ_le hi), testBit_withBit]
      simp [hne]
  · rintro ⟨hbit, hhigh⟩ i hi
    rw [testBit_withBit]
    rcases Nat.eq_or_lt_of_le hi with rfl | hlt
    · rw [hbit, hbase]
      simp
    · rw [hhigh i hlt]
      simp [hlt.ne]

theorem eq_of_sameHigh_zero {x base : Nat} (h : SameHigh 0 x base) : x = base :=
  Nat.eq_of_testBit_eq fun i => h i (Nat.zero_le i)

/-- Nothing is set below `n`. -/
def LowClear (n base : Nat) : Prop := ∀ i < n, base.testBit i = false

theorem LowClear.withBit {n base : Nat} (h : LowClear (n + 1) base) (b : Bool) : LowClear n (withBit b n base) := by
  intro i hi
  rw [testBit_withBit, h i (Nat.lt_succ_of_lt hi)]
  simp [hi.ne']

theorem sameHigh_of_lt {n x : Nat} (hx : x < 2 ^ n) : SameHigh n x 0 := by
  intro i hi
  rw [Nat.testBit_lt_two_pow (Nat.lt_of_lt_of_le hx (Nat.pow_le_pow_right Nat.two_pos hi)), Nat.zero_testBit]

theorem eq_of_sameLow {n x y : Nat} (hx : x < 2 ^ n) (hy : y < 2 ^ n) (h : SameLow n x y) : x = y := by
  refine Nat.eq_of_testBit_eq fun i => ?_
  by_cases hi : i < n
  · exact h i hi
  · rw [sameHigh_of_lt hx i (Nat.le_of_not_lt hi), sameHigh_of_lt hy i (Nat.le_of_not_lt hi)]

/-! ## Leaves and updates -/

/-- The walk meets exactly the leaves that are found. -/
theorem mem_leaves (n : Nat) : ∀ {t : QuadTree α n} {baseX baseY : Nat}, LowClear n baseX → LowClear n baseY →
    ∀ {x y : Nat} {a : α}, (x, y, a) ∈ leaves n t baseX baseY ↔
      find n t x y = some a ∧ SameHigh n x baseX ∧ SameHigh n y baseY := by
  induction n with
  | zero =>
    intro t baseX baseY _ _ x y a
    constructor
    · intro h
      obtain ⟨rfl, hrest⟩ := Prod.mk.inj (List.mem_singleton.mp h)
      obtain ⟨rfl, rfl⟩ := Prod.mk.inj hrest
      exact ⟨rfl, fun _ _ => rfl, fun _ _ => rfl⟩
    · rintro ⟨hfind, hx, hy⟩
      obtain rfl := Option.some.inj hfind
      rw [eq_of_sameHigh_zero hx, eq_of_sameHigh_zero hy]
      exact List.mem_singleton_self _
  | succ n ih =>
    intro t baseX baseY hbaseX hbaseY x y a
    have hchild (i j : Bool) : ((x, y, a) ∈ match child t i j with
        | none => []
        | some t => leaves n t (withBit i n baseX) (withBit j n baseY)) ↔
        (x.testBit n = i ∧ y.testBit n = j) ∧ find (n + 1) t x y = some a ∧ SameHigh (n + 1) x baseX ∧
          SameHigh (n + 1) y baseY := by
      by_cases hq : x.testBit n = i ∧ y.testBit n = j
      · rw [find, hq.1, hq.2]
        cases child t i j with
        | none => simp
        | some t' =>
          rw [ih (hbaseX.withBit i) (hbaseY.withBit j), sameHigh_withBit (hbaseX n (Nat.lt_succ_self n)),
            sameHigh_withBit (hbaseY n (Nat.lt_succ_self n))]
          simp [hq.1, hq.2]
      · refine iff_of_false (fun hmem => hq ?_) fun h => hq h.1
        cases hc : child t i j with
        | none =>
          rw [hc] at hmem
          cases hmem
        | some t' =>
          rw [hc] at hmem
          have hhigh := ((ih (hbaseX.withBit i) (hbaseY.withBit j)).mp hmem).2
          exact ⟨((sameHigh_withBit (hbaseX n (Nat.lt_succ_self n))).mp hhigh.1).1,
            ((sameHigh_withBit (hbaseY n (Nat.lt_succ_self n))).mp hhigh.2).1⟩
    rw [leaves, List.mem_flatMap]
    constructor
    · rintro ⟨q, _, hmem⟩
      exact ((hchild q.1 q.2).mp hmem).2
    · intro h
      refine ⟨(x.testBit n, y.testBit n), ?_, (hchild _ _).mpr ⟨⟨rfl, rfl⟩, h⟩⟩
      cases x.testBit n <;> cases y.testBit n <;> simp

theorem mem_leaves_root {n : Nat} {t : QuadTree α n} {x y : Nat} {a : α} (hx : x < 2 ^ n) (hy : y < 2 ^ n) :
    (x, y, a) ∈ leaves n t 0 0 ↔ find n t x y = some a := by
  rw [mem_leaves n (fun i _ => Nat.zero_testBit i) (fun i _ => Nat.zero_testBit i)]
  exact ⟨fun h => h.1, fun h => ⟨h, sameHigh_of_lt hx, sameHigh_of_lt hy⟩⟩

/-- The numbers of the leaves are below the size of the tree. -/
theorem lt_of_mem_leaves {n : Nat} {t : QuadTree α n} {x y : Nat} {a : α} (h : (x, y, a) ∈ leaves n t 0 0) :
    x < 2 ^ n ∧ y < 2 ^ n := by
  have hhigh := ((mem_leaves n (fun i _ => Nat.zero_testBit i) (fun i _ => Nat.zero_testBit i)).mp h).2
  exact ⟨Nat.lt_pow_two_of_testBit x fun i hi => (hhigh.1 i hi).trans (Nat.zero_testBit i),
    Nat.lt_pow_two_of_testBit y fun i hi => (hhigh.2 i hi).trans (Nat.zero_testBit i)⟩

section Update

variable [Inhabited α]

theorem child_update (f : α → α) {n : Nat} (t : QuadTree α (n + 1)) (x y : Nat) (i j : Bool) :
    child (update f (n + 1) t x y) i j = if i = x.testBit n ∧ j = y.testBit n then
      some (update f n ((child t i j).getD (empty n)) x y) else child t i j := rfl

theorem sameLow_succ {n x y : Nat} : SameLow (n + 1) x y ↔ x.testBit n = y.testBit n ∧ SameLow n x y := by
  constructor
  · exact fun h => ⟨h n (Nat.lt_succ_self n), fun i hi => h i (Nat.lt_succ_of_lt hi)⟩
  · rintro ⟨hbit, hlow⟩ i hi
    rcases Nat.lt_succ_iff_lt_or_eq.mp hi with hi | rfl
    · exact hlow i hi
    · exact hbit

/-- The leaf that was updated. -/
theorem find_update (f : α → α) (n : Nat) : ∀ (t : QuadTree α n) {x y x' y' : Nat}, SameLow n x' x → SameLow n y' y →
    find n (update f n t x y) x' y' = some (f ((find n t x' y').getD default)) := by
  induction n with
  | zero => exact fun _ {_ _ _ _} _ _ => rfl
  | succ n ih =>
    intro t x y x' y' hx hy
    obtain ⟨hbitX, hlowX⟩ := sameLow_succ.mp hx
    obtain ⟨hbitY, hlowY⟩ := sameLow_succ.mp hy
    rw [find, child_update, if_pos ⟨hbitX, hbitY⟩, Option.bind_some, ih _ hlowX hlowY, find]
    cases child t (x'.testBit n) (y'.testBit n) with
    | none =>
      rw [Option.getD_none, Option.bind_none, Option.getD_none]
      cases n <;> rfl
    | some t' => rfl

/-- Every other leaf. -/
theorem find_update_of_ne (f : α → α) (n : Nat) : ∀ (t : QuadTree α n) {x y x' y' : Nat},
    ¬ (SameLow n x' x ∧ SameLow n y' y) → find n (update f n t x y) x' y' = find n t x' y' := by
  induction n with
  | zero =>
    intro t x y x' y' h
    exact absurd ⟨fun i hi => absurd hi (Nat.not_lt_zero i), fun i hi => absurd hi (Nat.not_lt_zero i)⟩ h
  | succ n ih =>
    intro t x y x' y' h
    rw [find, child_update, find]
    split
    · rename_i hbits
      have hlow : ¬ (SameLow n x' x ∧ SameLow n y' y) := fun hlow =>
        h ⟨sameLow_succ.mpr ⟨hbits.1, hlow.1⟩, sameLow_succ.mpr ⟨hbits.2, hlow.2⟩⟩
      rw [Option.bind_some, ih _ hlow]
      cases child t (x'.testBit n) (y'.testBit n) with
      | none =>
        rw [Option.getD_none, Option.bind_none]
        cases n with
        | zero => exact absurd ⟨fun i hi => absurd hi (Nat.not_lt_zero i), fun i hi => absurd hi (Nat.not_lt_zero i)⟩ hlow
        | succ n => rfl
      | some t' => rfl
    · rfl

theorem find_update_root (f : α → α) {n : Nat} (t : QuadTree α n) {x y x' y' : Nat} (hx : x < 2 ^ n) (hy : y < 2 ^ n)
    (hx' : x' < 2 ^ n) (hy' : y' < 2 ^ n) : find n (update f n t x y) x' y' =
      if x = x' ∧ y = y' then some (f ((find n t x' y').getD default)) else find n t x' y' := by
  split
  · rename_i heq
    obtain ⟨rfl, rfl⟩ := heq
    exact find_update f n t (fun _ _ => rfl) fun _ _ => rfl
  · rename_i hne
    refine find_update_of_ne f n t fun hlow => hne ?_
    exact ⟨(eq_of_sameLow hx' hx hlow.1).symm, (eq_of_sameLow hy' hy hlow.2).symm⟩

end Update

end QuadTree
