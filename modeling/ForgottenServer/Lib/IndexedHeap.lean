import Mathlib

/-! # Binary heaps that know the places of their items

`items` is the array and `position` its inverse. Both sifts carry one item along a path and move the others over the
hole it leaves; the item itself is written at the end. The least key is at the root. -/

namespace IndexedHeap

variable {ι α : Type} [DecidableEq ι] [LinearOrder α]

structure Heap (ι : Type) where
  items : Nat → ι
  position : ι → Option Nat

def parent (i : Nat) : Nat := (i - 1) / 2

theorem parent_lt {i : Nat} (h : 0 < i) : parent i < i := by
  rw [parent]
  omega

namespace Heap

variable (h : Heap ι) (key : ι → α)

/-- `item` is written at `i`. -/
def place (i : Nat) (item : ι) : Heap ι :=
  ⟨Function.update h.items i item, Function.update h.position item (some i)⟩

/-- `item` goes up from the hole. The first argument bounds the steps by the hole's position. -/
def siftUp (item : ι) : Nat → Heap ι → Nat → Heap ι
  | 0, h, hole => h.place hole item
  | fuel + 1, h, hole =>
    if 0 < hole then
      if key (h.items (parent hole)) ≤ key item then h.place hole item
      else siftUp item fuel (h.place hole (h.items (parent hole))) (parent hole)
    else h.place hole item

/-- The child of the hole with the lesser key. -/
def child (size hole : Nat) : Nat :=
  if 2 * hole + 2 < size ∧ key (h.items (2 * hole + 2)) < key (h.items (2 * hole + 1)) then 2 * hole + 2
  else 2 * hole + 1

/-- `item` goes down from the hole. The place at which it ends is returned with the heap. -/
def siftDown (size : Nat) (item : ι) : Nat → Heap ι → Nat → Heap ι × Nat
  | 0, h, hole => (h.place hole item, hole)
  | fuel + 1, h, hole =>
    if size ≤ 2 * hole + 1 then (h.place hole item, hole)
    else if key item ≤ key (h.items (h.child key size hole)) then (h.place hole item, hole)
    else siftDown size item fuel (h.place hole (h.items (h.child key size hole))) (h.child key size hole)

/-- The item at `i` goes up to its place. -/
def rise (i : Nat) : Heap ι := siftUp key (h.items i) i h i

/-- The item at `i` goes down to its place. -/
def sink (size i : Nat) : Heap ι × Nat := siftDown key size (h.items i) (size - i) h i

/-- A new last item goes up to its place. -/
def push (size : Nat) (item : ι) : Heap ι := (h.place size item).rise key size

/-- The last item takes the place of `item`. -/
def remove (size : Nat) (item : ι) : Heap ι :=
  match h.position item with
  | none => h
  | some i =>
    let h : Heap ι := { h with position := Function.update h.position item none }
    if i = size - 1 then h
    else
      let sunk := (h.place i (h.items (size - 1))).sink key (size - 1) i
      if sunk.2 = i then sunk.1.rise key i else sunk.1

variable {h} {i j : Nat} {item other : ι}

@[simp] theorem items_place_self : (h.place i item).items i = item := Function.update_self ..

@[simp] theorem position_place_self : (h.place i item).position item = some i := Function.update_self ..

theorem items_place_of_ne (hne : j ≠ i) : (h.place i item).items j = h.items j := Function.update_of_ne hne ..

theorem position_place_of_ne (hne : other ≠ item) : (h.place i item).position other = h.position other :=
  Function.update_of_ne hne ..

end Heap

/-! ## The positions -/

/-- The first `size` items are all different, and `position` has the place of each of them and of nothing else. -/
def Indexed (h : Heap ι) (size : Nat) : Prop :=
  ∀ item i, h.position item = some i ↔ i < size ∧ h.items i = item

namespace Indexed

variable {h : Heap ι} {size hole other : Nat} {item : ι}

omit [DecidableEq ι] in
theorem position_items (hx : Indexed h size) {i : Nat} (hi : i < size) : h.position (h.items i) = some i :=
  (hx _ _).mpr ⟨hi, rfl⟩

omit [DecidableEq ι] in
theorem items_inj (hx : Indexed h size) {i j : Nat} (hi : i < size) (hj : j < size) (hij : h.items i = h.items j) :
    i = j := by
  have hi' := hx.position_items hi
  rw [hij, hx.position_items hj, Option.some.injEq] at hi'
  exact hi'.symm

omit [DecidableEq ι] in
theorem isSome_iff (hx : Indexed h size) (item : ι) : (h.position item).isSome ↔ ∃ i < size, h.items i = item := by
  rw [Option.isSome_iff_exists]
  exact exists_congr fun i => hx item i

/-- The hole goes to `other`, and what was there fills it. -/
theorem move (hx : Indexed (h.place hole item) size) (hhole : hole < size) (hother : other < size)
    (hne : other ≠ hole) : Indexed ((h.place hole (h.items other)).place other item) size := by
  have hitems : ∀ i, i ≠ hole → (h.place hole item).items i = h.items i := fun i hi => Heap.items_place_of_ne hi
  have hdiff : h.items other ≠ item := by
    intro hsame
    have := hx.items_inj hother hhole (by rw [hitems other hne, hsame, Heap.items_place_self])
    exact hne this
  intro x i
  by_cases hx1 : x = item
  · subst hx1
    rw [Heap.position_place_self, Option.some.injEq]
    constructor
    · rintro rfl
      exact ⟨hother, Heap.items_place_self⟩
    · rintro ⟨hi, hxi⟩
      by_contra hio
      rw [Heap.items_place_of_ne (Ne.symm hio)] at hxi
      by_cases hih : i = hole
      · rw [hih, Heap.items_place_self] at hxi
        exact hdiff hxi
      · rw [Heap.items_place_of_ne hih] at hxi
        exact hih (hx.items_inj hi hhole (by rw [hitems i hih, hxi, Heap.items_place_self]))
  · rw [Heap.position_place_of_ne hx1]
    by_cases hx2 : x = h.items other
    · subst hx2
      rw [Heap.position_place_self, Option.some.injEq]
      constructor
      · rintro rfl
        exact ⟨hhole, by rw [Heap.items_place_of_ne hne.symm, Heap.items_place_self]⟩
      · rintro ⟨hi, hxi⟩
        by_contra hih
        have hio : i ≠ other := by
          rintro rfl
          rw [Heap.items_place_self] at hxi
          exact hx1 hxi.symm
        rw [Heap.items_place_of_ne hio, Heap.items_place_of_ne (Ne.symm hih)] at hxi
        exact hio (hx.items_inj hi hother (by rw [hitems i (Ne.symm hih), hitems other hne, hxi]))
    · have hpos : h.position x = (h.place hole item).position x := (Heap.position_place_of_ne hx1).symm
      rw [Heap.position_place_of_ne hx2, hpos, hx x i]
      refine and_congr_right fun hi => ?_
      by_cases hih : i = hole
      · rw [hih, Heap.items_place_self, Heap.items_place_of_ne hne.symm, Heap.items_place_self]
        exact iff_of_false (Ne.symm hx1) (Ne.symm hx2)
      · by_cases hio : i = other
        · rw [hio, Heap.items_place_self, hitems other hne]
          exact iff_of_false (Ne.symm hx2) (Ne.symm hx1)
        · rw [Heap.items_place_of_ne hio, hitems i hih, Heap.items_place_of_ne hih]

end Indexed

/-! ## The order -/

/-- No item has a lesser key than its parent. -/
def Ordered (key : ι → α) (items : Nat → ι) (size : Nat) : Prop :=
  ∀ i, 0 < i → i < size → key (items (parent i)) ≤ key (items i)

/-- What lies off the hole is in order, also across it. -/
structure OrderedBut (key : ι → α) (items : Nat → ι) (size hole : Nat) : Prop where
  apart : ∀ i, 0 < i → i < size → i ≠ hole → parent i ≠ hole → key (items (parent i)) ≤ key (items i)
  around : 0 < hole → ∀ i, 0 < i → i < size → parent i = hole → key (items (parent hole)) ≤ key (items i)

/-- `item` in the hole is in order with the children of the hole. -/
def Below (key : ι → α) (items : Nat → ι) (size hole : Nat) (item : ι) : Prop :=
  ∀ i, 0 < i → i < size → parent i = hole → key item ≤ key (items i)

/-- `item` in the hole is in order with the parent of the hole. -/
def Above (key : ι → α) (items : Nat → ι) (hole : Nat) (item : ι) : Prop :=
  0 < hole → key (items (parent hole)) ≤ key item

namespace OrderedBut

variable {key : ι → α} {h : Heap ι} {size hole : Nat} {item : ι}

theorem fill (ho : OrderedBut key h.items size hole) (hbelow : Below key h.items size hole item)
    (habove : Above key h.items hole item) : Ordered key (h.place hole item).items size := by
  intro i hi hlt
  by_cases hih : i = hole
  · subst hih
    rw [Heap.items_place_self, Heap.items_place_of_ne (parent_lt hi).ne]
    exact habove hi
  · rw [Heap.items_place_of_ne hih]
    by_cases hpar : parent i = hole
    · rw [hpar, Heap.items_place_self]
      exact hbelow i hi hlt hpar
    · rw [Heap.items_place_of_ne hpar]
      exact ho.apart i hi hlt hih hpar

/-- The hole goes up to its parent. -/
theorem up (ho : OrderedBut key h.items size hole) (hpos : 0 < hole) (hhole : hole < size)
    (hlt : key item < key (h.items (parent hole))) :
    OrderedBut key (h.place hole (h.items (parent hole))).items size (parent hole) ∧
      Below key (h.place hole (h.items (parent hole))).items size (parent hole) item := by
  have hparent := parent_lt hpos
  have hsibling : ∀ i, 0 < i → i < size → parent i = parent hole → i ≠ hole →
      key (h.items (parent hole)) ≤ key (h.items i) := by
    intro i hi hisize hpar hih
    rw [← hpar]
    exact ho.apart i hi hisize hih (by omega)
  refine ⟨⟨fun i hi hisize hne hpar => ?_, fun hpos' i hi hisize hpar => ?_⟩, fun i hi hisize hpar => ?_⟩
  · have hih : i ≠ hole := fun hih => hpar (congrArg parent hih)
    rw [Heap.items_place_of_ne hih]
    by_cases hup : parent i = hole
    · rw [hup, Heap.items_place_self]
      exact ho.around hpos i hi hisize hup
    · rw [Heap.items_place_of_ne hup]
      exact ho.apart i hi hisize hih hup
  · have hgrand := parent_lt hpos'
    have habove := ho.apart (parent hole) hpos' (by omega) hparent.ne (by omega)
    rw [Heap.items_place_of_ne (by omega)]
    by_cases hih : i = hole
    · rw [hih, Heap.items_place_self]
      exact habove
    · rw [Heap.items_place_of_ne hih]
      exact habove.trans (hsibling i hi hisize hpar hih)
  · by_cases hih : i = hole
    · rw [hih, Heap.items_place_self]
      exact hlt.le
    · rw [Heap.items_place_of_ne hih]
      exact hlt.le.trans (hsibling i hi hisize hpar hih)

end OrderedBut

omit [DecidableEq ι] in
/-- The chosen child is one of the hole's children, and none of them has a lesser key. -/
theorem child_spec (key : ι → α) (h : Heap ι) {size hole : Nat} (hsize : 2 * hole + 1 < size) :
    hole < h.child key size hole ∧ h.child key size hole < size ∧ parent (h.child key size hole) = hole ∧
      Below key h.items size hole (h.items (h.child key size hole)) := by
  have hchildren : ∀ i, 0 < i → parent i = hole → i = 2 * hole + 1 ∨ i = 2 * hole + 2 := by
    intro i hi hpar
    rw [parent] at hpar
    omega
  rw [Heap.child]
  split
  · next hright =>
    refine ⟨by omega, hright.1, by rw [parent]; omega, fun i hi _ hpar => ?_⟩
    obtain rfl | rfl := hchildren i hi hpar
    · exact hright.2.le
    · exact le_rfl
  · next hleft =>
    refine ⟨by omega, hsize, by rw [parent]; omega, fun i hi hisize hpar => ?_⟩
    obtain rfl | rfl := hchildren i hi hpar
    · exact le_rfl
    · exact le_of_not_gt fun hlt => hleft ⟨hisize, hlt⟩

/-- The hole goes down to one of its children with the least key. -/
theorem OrderedBut.down {key : ι → α} {h : Heap ι} {size hole c : Nat} (ho : OrderedBut key h.items size hole)
    (hc : hole < c) (hsize : c < size) (hparent : parent c = hole) (hleast : Below key h.items size hole (h.items c)) :
    OrderedBut key (h.place hole (h.items c)).items size c := by
  refine ⟨fun i hi hisize hne hpar => ?_, fun _ i hi hisize hpar => ?_⟩
  · by_cases hih : i = hole
    · subst hih
      rw [Heap.items_place_self, Heap.items_place_of_ne (parent_lt hi).ne]
      exact ho.around hi c (by omega) hsize hparent
    · rw [Heap.items_place_of_ne hih]
      by_cases hup : parent i = hole
      · rw [hup, Heap.items_place_self]
        exact hleast i hi hisize hup
      · rw [Heap.items_place_of_ne hup]
        exact ho.apart i hi hisize hih hup
  · have hic := parent_lt hi
    rw [hparent, Heap.items_place_self, Heap.items_place_of_ne (by omega), ← hpar]
    exact ho.apart i hi hisize (by omega) (by omega)

/-! ## The sifts -/

/-- What a sift leaves: an indexed heap with the same items. -/
structure Settled (h h' : Heap ι) (size hole : Nat) (item : ι) : Prop where
  indexed : Indexed h' size
  members : ∀ x, (h'.position x).isSome ↔ ((h.place hole item).position x).isSome

namespace Settled

variable {h h' : Heap ι} {size hole other : Nat} {item : ι}

theorem rfl (hx : Indexed (h.place hole item) size) : Settled h (h.place hole item) size hole item :=
  ⟨hx, fun _ => Iff.rfl⟩

theorem move (hx : Indexed (h.place hole item) size) (hhole : hole < size) (hother : other < size) (hne : other ≠ hole)
    (hs : Settled (h.place hole (h.items other)) h' size other item) : Settled h h' size hole item := by
  refine ⟨hs.indexed, fun x => ?_⟩
  rw [hs.members, (hx.move hhole hother hne).isSome_iff, hx.isSome_iff]
  constructor
  · rintro ⟨i, hi, hix⟩
    by_cases hio : i = other
    · rw [hio, Heap.items_place_self] at hix
      exact ⟨hole, hhole, Heap.items_place_self.trans hix⟩
    · rw [Heap.items_place_of_ne hio] at hix
      by_cases hih : i = hole
      · rw [hih, Heap.items_place_self] at hix
        exact ⟨other, hother, (Heap.items_place_of_ne hne).trans hix⟩
      · rw [Heap.items_place_of_ne hih] at hix
        exact ⟨i, hi, (Heap.items_place_of_ne hih).trans hix⟩
  · rintro ⟨i, hi, hix⟩
    by_cases hih : i = hole
    · rw [hih, Heap.items_place_self] at hix
      exact ⟨other, hother, Heap.items_place_self.trans hix⟩
    · rw [Heap.items_place_of_ne hih] at hix
      by_cases hio : i = other
      · rw [hio] at hix
        exact ⟨hole, hhole, by rw [Heap.items_place_of_ne hne.symm, Heap.items_place_self, hix]⟩
      · exact ⟨i, hi, by rw [Heap.items_place_of_ne hio, Heap.items_place_of_ne hih, hix]⟩

end Settled

variable {key : ι → α} {h : Heap ι} {size hole : Nat} {item : ι}

theorem siftUp_spec {fuel : Nat} (hfuel : hole ≤ fuel) (hhole : hole < size) (hx : Indexed (h.place hole item) size)
    (ho : OrderedBut key h.items size hole) (hbelow : Below key h.items size hole item) :
    Settled h (h.siftUp key item fuel hole) size hole item ∧ Ordered key (h.siftUp key item fuel hole).items size := by
  induction fuel generalizing h hole with
  | zero => exact ⟨.rfl hx, ho.fill hbelow fun hpos => by omega⟩
  | succ fuel ih =>
    rw [Heap.siftUp]
    by_cases hpos : 0 < hole
    · rw [if_pos hpos]
      by_cases hle : key (h.items (parent hole)) ≤ key item
      · rw [if_pos hle]
        exact ⟨.rfl hx, ho.fill hbelow fun _ => hle⟩
      · rw [if_neg hle]
        have hparent := parent_lt hpos
        obtain ⟨ho', hbelow'⟩ := ho.up hpos hhole (lt_of_not_ge hle)
        obtain ⟨hsettled, hordered⟩ := ih (by omega) (by omega) (hx.move hhole (by omega) hparent.ne) ho' hbelow'
        exact ⟨.move hx hhole (by omega) hparent.ne hsettled, hordered⟩
    · rw [if_neg hpos]
      exact ⟨.rfl hx, ho.fill hbelow fun hpos' => absurd hpos' hpos⟩

/-- What `siftDown` leaves. An item that went down is in its place, one that stayed is in order with its children. -/
structure Sunk (key : ι → α) (h : Heap ι) (size hole : Nat) (item : ι) (sunk : Heap ι × Nat) : Prop where
  settled : Settled h sunk.1 size hole item
  hole_le : hole ≤ sunk.2
  stayed : sunk.2 = hole → sunk.1 = h.place hole item ∧ Below key h.items size hole item
  ordered : Above key h.items hole item ∨ sunk.2 ≠ hole → Ordered key sunk.1.items size

theorem Sunk.stay (hx : Indexed (h.place hole item) size) (ho : OrderedBut key h.items size hole)
    (hbelow : Below key h.items size hole item) : Sunk key h size hole item (h.place hole item, hole) :=
  ⟨.rfl hx, le_rfl, fun _ => ⟨rfl, hbelow⟩, fun habove => ho.fill hbelow (habove.resolve_right fun hne => hne rfl)⟩

theorem siftDown_spec (fuel : Nat) (hfuel : size ≤ hole + fuel) (hhole : hole < size)
    (hx : Indexed (h.place hole item) size) (ho : OrderedBut key h.items size hole) :
    Sunk key h size hole item (h.siftDown key size item fuel hole) := by
  induction fuel generalizing h hole with
  | zero => omega
  | succ fuel ih =>
    rw [Heap.siftDown]
    by_cases hleaf : size ≤ 2 * hole + 1
    · rw [if_pos hleaf]
      refine .stay hx ho fun i hi hisize hpar => ?_
      rw [parent] at hpar
      omega
    · rw [if_neg hleaf]
      obtain ⟨hlt, hsize, hparent, hleast⟩ := child_spec key h (lt_of_not_ge hleaf)
      by_cases hle : key item ≤ key (h.items (h.child key size hole))
      · rw [if_pos hle]
        exact .stay hx ho fun i hi hisize hpar => hle.trans (hleast i hi hisize hpar)
      · rw [if_neg hle]
        generalize h.child key size hole = c at hlt hsize hparent hleast hle ⊢
        have hsunk := ih (by omega) hsize (hx.move hhole hsize hlt.ne') (ho.down hlt hsize hparent hleast)
        have habove : Above key (h.place hole (h.items c)).items c item := fun _ => by
          rw [hparent, Heap.items_place_self]
          exact (lt_of_not_ge hle).le
        have hge := hsunk.hole_le
        exact ⟨.move hx hhole hsize hlt.ne' hsunk.settled, by omega, fun hsame => by omega,
          fun _ => hsunk.ordered (.inl habove)⟩

/-! ## The operations -/

/-- An indexed heap in order. -/
structure IsHeap (key : ι → α) (h : Heap ι) (size : Nat) : Prop where
  indexed : Indexed h size
  ordered : Ordered key h.items size

theorem place_items (hx : Indexed h size) {i : Nat} (hi : i < size) : h.place i (h.items i) = h := by
  have hpos := hx.position_items hi
  rw [Heap.place, Function.update_eq_self, ← hpos, Function.update_eq_self]

omit [DecidableEq ι] in
/-- The root has the least key. -/
theorem IsHeap.root_le (hh : IsHeap key h size) {i : Nat} (hi : i < size) : key (h.items 0) ≤ key (h.items i) := by
  induction i using Nat.strongRecOn with
  | ind i ih =>
    obtain rfl | hpos := Nat.eq_zero_or_pos i
    · exact le_rfl
    · have hlt := parent_lt hpos
      exact (ih (parent i) hlt (hlt.trans hi)).trans (hh.ordered i hpos hi)

omit [DecidableEq ι] in
theorem IsHeap.empty (key : ι → α) (hpos : ∀ item, h.position item = none) : IsHeap key h 0 := by
  refine ⟨fun item i => ?_, fun i _ hi => absurd hi (Nat.not_lt_zero i)⟩
  rw [hpos]
  exact iff_of_false (fun h => by cases h) fun h => absurd h.1 (Nat.not_lt_zero i)

/-- An item that rises from `i` and is in order with the items below `i` leaves a heap. -/
theorem rise_spec {i : Nat} (hx : Indexed h size) (hi : i < size) (ho : OrderedBut key h.items size i)
    (hbelow : Below key h.items size i (h.items i)) :
    IsHeap key (h.rise key i) size ∧ ∀ x, ((h.rise key i).position x).isSome ↔ (h.position x).isSome := by
  have hplace := place_items hx hi
  obtain ⟨hsettled, hordered⟩ := siftUp_spec le_rfl hi (by rwa [hplace]) ho hbelow
  exact ⟨⟨hsettled.indexed, hordered⟩, fun x => by rw [Heap.rise, hsettled.members, hplace]⟩

theorem Indexed.place_last (hx : Indexed h size) (hnew : h.position item = none) :
    Indexed (h.place size item) (size + 1) := by
  have hnot : ∀ i < size, h.items i ≠ item := by
    rintro i hi rfl
    rw [hx.position_items hi] at hnew
    cases hnew
  intro x i
  by_cases hxi : x = item
  · subst hxi
    rw [Heap.position_place_self, Option.some.injEq]
    constructor
    · rintro rfl
      exact ⟨Nat.lt_succ_self _, Heap.items_place_self⟩
    · rintro ⟨hi, hix⟩
      by_contra hne
      rw [Heap.items_place_of_ne (Ne.symm hne)] at hix
      exact hnot i (by omega) hix
  · rw [Heap.position_place_of_ne hxi, hx]
    by_cases his : i = size
    · rw [his, Heap.items_place_self]
      exact iff_of_false (fun h => absurd h.1 (lt_irrefl _)) fun h => hxi h.2.symm
    · rw [Heap.items_place_of_ne his]
      exact and_congr_left fun _ => by omega

/-- A new item is in the heap, with all that were there. -/
theorem push_spec (hh : IsHeap key h size) (hnew : h.position item = none) :
    IsHeap key (h.push key size item) (size + 1) ∧
      ∀ x, ((h.push key size item).position x).isSome ↔ x = item ∨ (h.position x).isSome := by
  have ho : OrderedBut key (h.place size item).items (size + 1) size := by
    refine ⟨fun i hi hisize hne hpar => ?_, fun hpos i hi hisize hpar => ?_⟩
    · rw [Heap.items_place_of_ne hne, Heap.items_place_of_ne hpar]
      exact hh.ordered i hi (by omega)
    · have := parent_lt hi
      omega
  have hbelow : Below key (h.place size item).items (size + 1) size ((h.place size item).items size) := by
    intro i hi hisize hpar
    have := parent_lt hi
    omega
  obtain ⟨hheap, hmembers⟩ := rise_spec (hh.indexed.place_last hnew) (Nat.lt_succ_self _) ho hbelow
  refine ⟨hheap, fun x => ?_⟩
  rw [Heap.push, hmembers]
  by_cases hx : x = item
  · rw [hx, Heap.position_place_self]
    simp
  · rw [Heap.position_place_of_ne hx]
    simp [hx]

/-- The key of one item becomes less. -/
theorem decrease_spec {key' : ι → α} {i : Nat} (hh : IsHeap key h size) (hi : h.position item = some i)
    (hle : key' item ≤ key item) (hothers : ∀ x, x ≠ item → key' x = key x) :
    IsHeap key' (h.rise key' i) size ∧ ∀ x, ((h.rise key' i).position x).isSome ↔ (h.position x).isSome := by
  obtain ⟨hlt, hitem⟩ := (hh.indexed item i).mp hi
  have hother : ∀ j < size, j ≠ i → key' (h.items j) = key (h.items j) := by
    intro j hj hne
    refine hothers _ fun hsame => hne ?_
    exact hh.indexed.items_inj hj hlt (hsame.trans hitem.symm)
  have hbelow : Below key' h.items size i (h.items i) := by
    intro j hj hjsize hpar
    have hlt := parent_lt hj
    rw [hother j hjsize (by omega), hitem]
    have hord := hh.ordered j hj hjsize
    rw [hpar, hitem] at hord
    exact hle.trans hord
  refine rise_spec hh.indexed hlt ⟨fun j hj hjsize hne hpar => ?_, fun hpos j hj hjsize hpar => ?_⟩ hbelow
  · have hlt := parent_lt hj
    rw [hother j hjsize hne, hother (parent j) (by omega) hpar]
    exact hh.ordered j hj hjsize
  · have hlt := parent_lt hj
    have hltp := parent_lt hpos
    have hord := hh.ordered j hj hjsize
    rw [hpar] at hord
    rw [hother j hjsize (by omega), hother (parent i) (by omega) (by omega)]
    exact (hh.ordered i hpos (by omega)).trans hord

/-- `h` without `item`. -/
def Heap.erase (h : Heap ι) (item : ι) : Heap ι := { h with position := Function.update h.position item none }

@[simp] theorem items_erase : (h.erase item).items = h.items := rfl

@[simp] theorem position_erase_self : (h.erase item).position item = none := Function.update_self ..

theorem position_erase_of_ne {x : ι} (hne : x ≠ item) : (h.erase item).position x = h.position x :=
  Function.update_of_ne hne ..

theorem isSome_position_erase (x : ι) : ((h.erase item).position x).isSome ↔ x ≠ item ∧ (h.position x).isSome := by
  by_cases hx : x = item
  · simp [hx]
  · simp [position_erase_of_ne hx, hx]

theorem Heap.remove_eq {i : Nat} (hi : h.position item = some i) :
    h.remove key size item =
      if i = size - 1 then h.erase item
      else
        let sunk := ((h.erase item).place i (h.items (size - 1))).sink key (size - 1) i
        if sunk.2 = i then sunk.1.rise key i else sunk.1 := by
  rw [Heap.remove, hi]
  rfl

theorem Indexed.erase_last (hx : Indexed h (size + 1)) : Indexed (h.erase (h.items size)) size := by
  intro x j
  by_cases hxi : x = h.items size
  · rw [hxi, position_erase_self]
    refine iff_of_false (fun h => by cases h) ?_
    rintro ⟨hj, hjx⟩
    have := hx.items_inj (Nat.lt_succ_of_lt hj) (Nat.lt_succ_self _) hjx
    omega
  · rw [position_erase_of_ne hxi, hx]
    refine and_congr_left fun hjx => ?_
    have hne : j ≠ size := by
      rintro rfl
      exact hxi hjx.symm
    omega

theorem Indexed.replace_last {i : Nat} (hx : Indexed h (size + 1)) (hi : i < size) :
    Indexed ((h.erase (h.items i)).place i (h.items size)) size := by
  have hinj : ∀ {j k}, j < size + 1 → k < size + 1 → h.items j = h.items k → j = k := fun hj hk => hx.items_inj hj hk
  intro x j
  by_cases hlast : x = h.items size
  · subst hlast
    rw [Heap.position_place_self, Option.some.injEq]
    constructor
    · rintro rfl
      exact ⟨hi, Heap.items_place_self⟩
    · rintro ⟨hj, hjx⟩
      by_contra hne
      rw [Heap.items_place_of_ne (Ne.symm hne), items_erase] at hjx
      have := hinj (by omega) (by omega) hjx
      omega
  · rw [Heap.position_place_of_ne hlast]
    by_cases hji : j = i
    · rw [hji, Heap.items_place_self]
      refine iff_of_false (fun hpos => ?_) fun h => hlast h.2.symm
      by_cases hxi : x = h.items i
      · rw [hxi, position_erase_self] at hpos
        cases hpos
      · rw [position_erase_of_ne hxi, hx] at hpos
        exact hxi hpos.2.symm
    · rw [Heap.items_place_of_ne hji, items_erase]
      by_cases hxi : x = h.items i
      · rw [hxi, position_erase_self]
        refine iff_of_false (fun h => by cases h) ?_
        rintro ⟨hj, hjx⟩
        exact hji (hinj (by omega) (by omega) hjx)
      · rw [position_erase_of_ne hxi, hx]
        refine and_congr_left fun hjx => ?_
        have hne : j ≠ size := by
          rintro rfl
          exact hlast hjx.symm
        omega

/-- The heap without one of its items. -/
theorem remove_spec (hh : IsHeap key h (size + 1)) (hin : (h.position item).isSome) :
    IsHeap key (h.remove key (size + 1) item) size ∧
      ∀ x, ((h.remove key (size + 1) item).position x).isSome ↔ x ≠ item ∧ (h.position x).isSome := by
  obtain ⟨i, hi⟩ := Option.isSome_iff_exists.mp hin
  obtain ⟨hlt, rfl⟩ := (hh.indexed item i).mp hi
  rw [Heap.remove_eq hi, Nat.add_sub_cancel]
  by_cases hlast : i = size
  · rw [if_pos hlast, hlast]
    exact ⟨⟨hh.indexed.erase_last, fun j hj hjsize => hh.ordered j hj (by omega)⟩, isSome_position_erase⟩
  · rw [if_neg hlast]
    have hisize : i < size := by omega
    have hx := hh.indexed.replace_last hisize
    have hmembers : ∀ x, (((h.erase (h.items i)).place i (h.items size)).position x).isSome ↔
        x ≠ h.items i ∧ (h.position x).isSome := by
      intro x
      rw [← isSome_position_erase]
      by_cases hxl : x = h.items size
      · have hne : h.items size ≠ h.items i := fun hsame =>
          hlast (hh.indexed.items_inj hlt (Nat.lt_succ_self _) hsame.symm)
        rw [hxl, Heap.position_place_self, isSome_position_erase, hh.indexed.position_items (Nat.lt_succ_self _)]
        simp [hne]
      · rw [Heap.position_place_of_ne hxl]
    have ho : OrderedBut key ((h.erase (h.items i)).place i (h.items size)).items size i := by
      refine ⟨fun j hj hjsize hne hpar => ?_, fun hpos j hj hjsize hpar => ?_⟩
      · rw [Heap.items_place_of_ne hne, Heap.items_place_of_ne hpar]
        exact hh.ordered j hj (by omega)
      · have hltj := parent_lt hj
        have hord := hh.ordered j hj (by omega)
        rw [hpar] at hord
        rw [Heap.items_place_of_ne (parent_lt hpos).ne, Heap.items_place_of_ne (by omega)]
        exact (hh.ordered i hpos (by omega)).trans hord
    generalize (h.erase (h.items i)).place i (h.items size) = replaced at hx hmembers ho ⊢
    have hplace := place_items hx hisize
    have hsunk := siftDown_spec (size - i) (by omega) hisize (by rwa [hplace]) ho
    dsimp only
    by_cases hstay : (replaced.sink key size i).2 = i
    · -- An item that did not go down may still have to rise.
      obtain ⟨hsame, hbelow⟩ := hsunk.stayed hstay
      rw [if_pos hstay, show (replaced.sink key size i).1 = replaced from hsame.trans hplace]
      obtain ⟨hheap, hrise⟩ := rise_spec hx hisize ho hbelow
      exact ⟨hheap, fun x => (hrise x).trans (hmembers x)⟩
    · rw [if_neg hstay]
      refine ⟨⟨hsunk.settled.indexed, hsunk.ordered (.inr hstay)⟩, fun x => ?_⟩
      rw [← hmembers, Heap.sink, hsunk.settled.members, hplace]

end IndexedHeap
