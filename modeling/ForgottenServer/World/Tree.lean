import ForgottenServer.Lib.QuadTree

/-! # The tree of the map

`QTreeNode`: the leaves of the map stand below thirteen levels of nodes, one for each of the highest bits of a
coordinate. The code looks at bit 15 and shifts the coordinates to the left on the way down; all other bits above it
are ignored, so that coordinates wrap at 65536. A leaf is known by its address. -/

namespace ForgottenServer.World

abbrev LeafRef := Nat

def FLOOR_BITS : Nat := 3
def FLOOR_SIZE : Nat := 1 <<< FLOOR_BITS
def MAP_MAX_LAYERS : Nat := 16

/-- `getLeafStatic`, and `getLeaf` too. -/
def getLeafStatic : (n : Nat) → QuadTree LeafRef n → Nat → Nat → Option LeafRef
  | 0, leaf, _, _ => some leaf
  | n + 1, node, x, y =>
    (node.child (x.testBit 15) (y.testBit 15)).bind fun child => getLeafStatic n child (x <<< 1) (y <<< 1)

/-- What `createLeaf` gives: the tree, the leaf, and whether the leaf is new. -/
structure Created (n : Nat) where
  node : QuadTree LeafRef n
  leaf : LeafRef
  newLeaf : Bool

def setChild {n : Nat} (node : QuadTree LeafRef (n + 1)) (i j : Bool) (child : QuadTree LeafRef n) :
    QuadTree LeafRef (n + 1) :=
  fun i' j' => if i' = i ∧ j' = j then some child else node.child i' j'

/-- A node without children, or the new leaf. -/
def blank (fresh : LeafRef) : (n : Nat) → QuadTree LeafRef n
  | 0 => fresh
  | _ + 1 => fun _ _ => none

/-- `fresh` is the address of the leaf, should it be made. -/
def createLeaf (fresh : LeafRef) : (n : Nat) → QuadTree LeafRef n → Nat → Nat → Created n
  | 0, leaf, _, _ => ⟨leaf, leaf, false⟩
  | n + 1, node, x, y =>
    let i := x.testBit 15
    let j := y.testBit 15
    let created := createLeaf fresh n ((node.child i j).getD (blank fresh n)) (x <<< 1) (y <<< 1)
    ⟨setChild node i j created.node, created.leaf, created.newLeaf || (node.child i j).isNone && n == 0⟩

/-! ## Where a coordinate leads -/

/-- Two coordinates that lead the same way down `n` levels. -/
def Agree : Nat → Nat → Nat → Prop
  | 0, _, _ => True
  | n + 1, x, x' => x.testBit 15 = x'.testBit 15 ∧ Agree n (x <<< 1) (x' <<< 1)

theorem Agree.refl (n : Nat) : ∀ x, Agree n x x := by
  induction n with
  | zero => exact fun x => trivial
  | succ n ih => exact fun x => ⟨rfl, ih _⟩

theorem agree_iff_testBit (n : Nat) (hn : n ≤ 16) :
    ∀ {x x' : Nat}, Agree n x x' ↔ ∀ i < n, x.testBit (15 - i) = x'.testBit (15 - i) := by
  induction n with
  | zero =>
    intro x x'
    exact ⟨fun _ i hi => absurd hi (Nat.not_lt_zero i), fun _ => trivial⟩
  | succ n ih =>
    intro x x'
    have hshift : ∀ i < n, ∀ z : Nat, (z <<< 1).testBit (15 - i) = z.testBit (15 - (i + 1)) := by
      intro i hi z
      have hle : 1 ≤ 15 - i := by omega
      rw [Nat.testBit_shiftLeft, decide_eq_true hle, Bool.true_and, show 15 - i - 1 = 15 - (i + 1) by omega]
    rw [Agree, ih (by omega)]
    constructor
    · rintro ⟨hfirst, hrest⟩ i hi
      cases i with
      | zero => exact hfirst
      | succ i =>
        have hbit := hrest i (by omega)
        rwa [hshift i (by omega), hshift i (by omega)] at hbit
    · intro h
      refine ⟨h 0 (Nat.succ_pos n), fun i hi => ?_⟩
      rw [hshift i hi, hshift i hi]
      exact h (i + 1) (by omega)

/-- The column (or the row) of 8 tiles that a coordinate is in. -/
def block (x : Nat) : Nat := x / 8 % 8192

theorem testBit_block (x i : Nat) : (block x).testBit i = (decide (i < 13) && x.testBit (i + 3)) := by
  rw [block, show (8192 : Nat) = 2 ^ 13 from rfl, Nat.testBit_mod_two_pow, show (8 : Nat) = 2 ^ 3 from rfl,
    Nat.testBit_div_two_pow]

/-- The thirteen levels tell apart exactly the blocks. -/
theorem agree_iff_block {x x' : Nat} : Agree 13 x x' ↔ block x = block x' := by
  rw [agree_iff_testBit 13 (by omega)]
  constructor
  · intro h
    refine Nat.eq_of_testBit_eq fun i => ?_
    rw [testBit_block, testBit_block]
    by_cases hi : i < 13
    · have hbit := h (12 - i) (by omega)
      rw [show 15 - (12 - i) = i + 3 by omega] at hbit
      rw [hbit]
    · rw [decide_eq_false hi, Bool.false_and, Bool.false_and]
  · intro h i hi
    have hbit := congrArg (Nat.testBit · (12 - i)) h
    simp only [testBit_block, show 12 - i < 13 by omega, decide_true, Bool.true_and,
      show 12 - i + 3 = 15 - i by omega] at hbit
    exact hbit

/-! ## Finding a leaf that was made -/

theorem child_setChild {n : Nat} (node : QuadTree LeafRef (n + 1)) (i j i' j' : Bool) (child : QuadTree LeafRef n) :
    (setChild node i j child).child i' j' = if i' = i ∧ j' = j then some child else node.child i' j' := rfl

theorem getLeafStatic_congr (n : Nat) : ∀ (node : QuadTree LeafRef n) {x x' y y' : Nat}, Agree n x x' → Agree n y y' →
    getLeafStatic n node x y = getLeafStatic n node x' y' := by
  induction n with
  | zero => exact fun _ {_ _ _ _} _ _ => rfl
  | succ n ih =>
    intro node x x' y y' hx hy
    rw [getLeafStatic, getLeafStatic, hx.1, hy.1]
    cases node.child (x'.testBit 15) (y'.testBit 15) with
    | none => rfl
    | some child => exact ih child hx.2 hy.2

/-- Below a missing child there is nothing. -/
theorem getLeafStatic_blank (fresh : LeafRef) (n x y : Nat) :
    getLeafStatic n (blank fresh n) x y = if n = 0 then some fresh else none := by
  cases n with
  | zero => rfl
  | succ n => rfl

theorem leaf_createLeaf (fresh : LeafRef) (n : Nat) : ∀ (node : QuadTree LeafRef n) (x y : Nat),
    (createLeaf fresh n node x y).leaf = (getLeafStatic n node x y).getD fresh := by
  induction n with
  | zero => exact fun node x y => rfl
  | succ n ih =>
    intro node x y
    rw [createLeaf, getLeafStatic, ih]
    cases node.child (x.testBit 15) (y.testBit 15) with
    | none =>
      rw [Option.getD_none, getLeafStatic_blank]
      cases n <;> rfl
    | some child => rfl

theorem newLeaf_createLeaf (fresh : LeafRef) (n : Nat) : ∀ (node : QuadTree LeafRef n) (x y : Nat),
    (createLeaf fresh n node x y).newLeaf = (getLeafStatic n node x y).isNone := by
  induction n with
  | zero => exact fun node x y => rfl
  | succ n ih =>
    intro node x y
    rw [createLeaf, getLeafStatic]
    simp only [ih]
    cases node.child (x.testBit 15) (y.testBit 15) with
    | none =>
      rw [Option.getD_none, getLeafStatic_blank]
      cases n <;> rfl
    | some child => simp

theorem getLeafStatic_createLeaf (fresh : LeafRef) (n : Nat) : ∀ (node : QuadTree LeafRef n) (x y x' y' : Nat),
    (Agree n x' x ∧ Agree n y' y →
      getLeafStatic n (createLeaf fresh n node x y).node x' y' = some (createLeaf fresh n node x y).leaf) ∧
    (¬ (Agree n x' x ∧ Agree n y' y) →
      getLeafStatic n (createLeaf fresh n node x y).node x' y' = getLeafStatic n node x' y') := by
  induction n with
  | zero => exact fun node x y x' y' => ⟨fun _ => rfl, fun h => absurd ⟨trivial, trivial⟩ h⟩
  | succ n ih =>
    intro node x y x' y'
    have hrest := ih ((node.child (x.testBit 15) (y.testBit 15)).getD (blank fresh n)) (x <<< 1) (y <<< 1)
      (x' <<< 1) (y' <<< 1)
    simp only [createLeaf, getLeafStatic, child_setChild]
    refine ⟨fun h => ?_, fun h => ?_⟩
    · rw [if_pos ⟨h.1.1, h.2.1⟩, Option.bind_some]
      exact hrest.1 ⟨h.1.2, h.2.2⟩
    · by_cases hbits : x'.testBit 15 = x.testBit 15 ∧ y'.testBit 15 = y.testBit 15
      · have hlow : ¬ (Agree n (x' <<< 1) (x <<< 1) ∧ Agree n (y' <<< 1) (y <<< 1)) := fun hlow =>
          h ⟨⟨hbits.1, hlow.1⟩, hbits.2, hlow.2⟩
        rw [if_pos hbits, Option.bind_some, hrest.2 hlow, hbits.1, hbits.2]
        cases node.child (x.testBit 15) (y.testBit 15) with
        | none =>
          rw [Option.getD_none, Option.bind_none, getLeafStatic_blank]
          cases n with
          | zero => exact absurd ⟨trivial, trivial⟩ hlow
          | succ n => rfl
        | some child => rfl
      · rw [if_neg hbits]

end ForgottenServer.World
