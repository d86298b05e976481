import Mathlib
import ForgottenServer.Lib.Climb

/-! # What the two sides of a trade have

The items that the players of a trade have on them or around them, by their addresses, each in a slot of an inventory,
in a container, or somewhere else in the world. `amount` counts what everybody has of each kind of item, and changes of
single items change it by what the item holds. -/

namespace ForgottenServer.Trade

abbrev Ref := Nat

inductive Side where
  | player
  | partner
  deriving DecidableEq, Repr

/-- Who has an item: one of the two players, or nobody. -/
inductive Holder where
  | side (side : Side)
  | world
  deriving DecidableEq, Repr

inductive Parent where
  | inventory (side : Side) (slot : Nat)
  | container (c : Ref)
  | elsewhere
  deriving DecidableEq, Repr

/-- Items that `equalsIgnoringInstance` are of one kind. `slotType` is that of the type of the item, and `capacity` that
of a container. -/
structure Object where
  kind : Nat
  count : Nat := 1
  stackable : Bool := false
  stackSize : Nat := 100
  capacity : Nat := 0
  isReward : Bool := false
  slotType : Nat := 0
  deriving DecidableEq, Repr

structure Belongings where
  size : Nat
  object : Ref → Object
  parent : Ref → Option Parent

namespace Belongings

def boxOf : Option Parent → Option Ref
  | some (.container c) => some c
  | _ => none

def up (s : Belongings) (r : Ref) : Option Ref := boxOf (s.parent r)

/-- An item and the containers above it. -/
def chain (s : Belongings) (r : Ref) : List Ref := (Climb.climb s.up s.size r).getD []

def root (s : Belongings) (r : Ref) : Ref := (s.chain r).getLastD r

def holderOf : Option Parent → Option Holder
  | none => none
  | some (.inventory side _) => some (.side side)
  | some _ => some .world

/-- Items that were removed have no holder. -/
def holder (s : Belongings) (r : Ref) : Option Holder := holderOf (s.parent (s.root r))

/-- How much of a kind somebody has. -/
def amount (s : Belongings) (h : Holder) (kind : Nat) : Nat :=
  ∑ r ∈ Finset.range s.size, if s.holder r = some h ∧ (s.object r).kind = kind then (s.object r).count else 0

/-- How much of a kind an item is, with everything in it. -/
def goods (s : Belongings) (x : Ref) (kind : Nat) : Nat :=
  ∑ r ∈ Finset.range s.size, if x ∈ s.chain r ∧ (s.object r).kind = kind then (s.object r).count else 0

def setParent (s : Belongings) (r : Ref) (p : Option Parent) : Belongings :=
  { s with parent := Function.update s.parent r p }

def setCount (s : Belongings) (r : Ref) (count : Nat) : Belongings :=
  { s with object := Function.update s.object r { s.object r with count } }

/-- A new item. -/
def alloc (s : Belongings) (object : Object) (p : Option Parent) : Belongings where
  size := s.size + 1
  object := Function.update s.object s.size object
  parent := Function.update s.parent s.size p

theorem boxOf_eq_some {p : Option Parent} {c : Ref} : boxOf p = some c ↔ p = some (.container c) := by
  rcases p with _ | ⟨side, slot⟩ | c' | _
  · exact ⟨fun h => (by cases h), fun h => (by cases h)⟩
  · exact ⟨fun h => (by cases h), fun h => (by cases h)⟩
  · exact ⟨fun h => congrArg (some ∘ Parent.container) (Option.some.inj h), fun h => (by cases h; rfl)⟩
  · exact ⟨fun h => (by cases h), fun h => (by cases h)⟩

/-! ## Chains -/

/-- What the containers above an item can be. -/
structure WellFormed (s : Belongings) : Prop where
  ends : ∀ r, Climb.Ends s.up r
  up_lt : ∀ {r c}, s.up r = some c → r < s.size ∧ c < s.size
  up_box : ∀ {r c}, s.up r = some c → (s.object c).stackable = false
  fresh : ∀ {r}, s.size ≤ r → s.parent r = none
  count_pos : ∀ {r}, r < s.size → 0 < (s.object r).count

variable {s : Belongings}

theorem WellFormed.above (h : s.WellFormed) {r : Ref} (hr : r < s.size) : Climb.Above s.up r (s.chain r) := by
  obtain ⟨l, hl, habove⟩ := Climb.climb_of_ends (Finset.range s.size) (Finset.mem_range.mpr hr)
    (fun y z hyz => Finset.mem_range.mpr (h.up_lt hyz).2) (h.ends r)
  rw [Finset.card_range] at hl
  unfold chain
  rwa [hl]

theorem WellFormed.chain_eq (h : s.WellFormed) {r : Ref} (hr : r < s.size) {l : List Ref}
    (hl : Climb.Above s.up r l) : s.chain r = l := (h.above hr).unique hl

theorem WellFormed.mem_self (h : s.WellFormed) {r : Ref} (hr : r < s.size) : r ∈ s.chain r := (h.above hr).mem_self

/-- What is above an item has the chain of the item for its own, from there on. -/
theorem WellFormed.chain_suffix (h : s.WellFormed) {r x : Ref} (hr : r < s.size) (hx : x ∈ s.chain r) :
    x < s.size ∧ s.chain x <:+ s.chain r := by
  have hlt : ∀ {r l}, Climb.Above s.up r l → r < s.size → ∀ x ∈ l, x < s.size := by
    intro r l hl
    induction hl with
    | top =>
      intro hr x hx
      rwa [List.mem_singleton.mp hx]
    | step hup _ ih =>
      intro hr x hx
      rcases List.mem_cons.mp hx with rfl | hx
      · exact hr
      · exact ih (h.up_lt hup).2 x hx
  have hxlt := hlt (h.above hr) hr x hx
  obtain ⟨l, hl, hsuffix⟩ := (h.above hr).of_mem hx
  refine ⟨hxlt, ?_⟩
  rwa [h.chain_eq hxlt hl]

theorem WellFormed.root_eq (h : s.WellFormed) {r x : Ref} (hr : r < s.size) (hx : x ∈ s.chain r) :
    s.root r = s.root x := by
  obtain ⟨hxlt, t, ht⟩ := h.chain_suffix hr hx
  have hne : s.chain x ≠ [] := List.ne_nil_of_mem (h.mem_self hxlt)
  unfold root
  rw [← ht, List.getLastD_eq_getLast?, List.getLastD_eq_getLast?, List.getLast?_append_of_ne_nil _ hne,
    List.getLast?_eq_some_getLast hne]
  rfl

theorem WellFormed.root_mem (h : s.WellFormed) {r : Ref} (hr : r < s.size) : s.root r ∈ s.chain r := by
  have hne : s.chain r ≠ [] := List.ne_nil_of_mem (h.mem_self hr)
  unfold root
  rw [List.getLastD_eq_getLast?, List.getLast?_eq_some_getLast hne]
  exact List.getLast_mem hne

/-- An item has the holder of what it is in. -/
theorem WellFormed.holder_eq (h : s.WellFormed) {r x : Ref} (hr : r < s.size) (hx : x ∈ s.chain r) :
    s.holder r = s.holder x := by
  unfold holder
  rw [h.root_eq hr hx]

/-- Of two items above a third one, one is above the other. -/
theorem WellFormed.chain_linear (h : s.WellFormed) {r x y : Ref} (hr : r < s.size) (hx : x ∈ s.chain r)
    (hy : y ∈ s.chain r) : x ∈ s.chain y ∨ y ∈ s.chain x := by
  obtain ⟨hxlt, hxs⟩ := h.chain_suffix hr hx
  obtain ⟨hylt, hys⟩ := h.chain_suffix hr hy
  rcases List.suffix_or_suffix_of_suffix hxs hys with hxy | hyx
  · exact .inl (hxy.subset (h.mem_self hxlt))
  · exact .inr (hyx.subset (h.mem_self hylt))

/-- Nothing is in a stack. -/
theorem WellFormed.mem_chain_stack (h : s.WellFormed) {r x : Ref} (hr : r < s.size)
    (hstack : (s.object x).stackable = true) : x ∈ s.chain r ↔ r = x := by
  refine ⟨fun hmem => ?_, fun heq => heq ▸ h.mem_self hr⟩
  by_contra hne
  obtain ⟨y, hy⟩ := (h.above hr).exists_up hmem (Ne.symm hne)
  rw [h.up_box hy] at hstack
  cases hstack

theorem WellFormed.goods_stack (h : s.WellFormed) {x : Ref} (hx : x < s.size)
    (hstack : (s.object x).stackable = true) (kind : Nat) :
    s.goods x kind = if (s.object x).kind = kind then (s.object x).count else 0 := by
  unfold goods
  rw [Finset.sum_eq_single_of_mem x (Finset.mem_range.mpr hx)]
  · simp only [h.mem_self hx, true_and]
  · intro r hr hne
    exact if_neg fun hboth => hne ((h.mem_chain_stack (Finset.mem_range.mp hr) hstack).mp hboth.1)

/-- Who has the items of a place. -/
def placeHolder (s : Belongings) (p : Option Parent) : Option Holder := match boxOf p with
  | some c => s.holder c
  | none => holderOf p

theorem WellFormed.holder_eq_placeHolder (h : s.WellFormed) {r : Ref} (hr : r < s.size) :
    s.holder r = s.placeHolder (s.parent r) := by
  unfold placeHolder
  cases hup : boxOf (s.parent r) with
  | none =>
    have hchain : s.chain r = [r] := h.chain_eq hr (.top hup)
    unfold holder root
    rw [hchain]
    rfl
  | some c =>
    have hc := (h.up_lt hup).2
    have hchain : s.chain r = r :: s.chain c := h.chain_eq hr (.step hup (h.above hc))
    exact h.holder_eq hr (hchain ▸ List.mem_cons_of_mem r (h.mem_self hc))

/-! ## A new parent -/

/-- A place that an item can have: a container, if it is one, is none that the item is above of. -/
def Fits (s : Belongings) (r : Ref) (p : Option Parent) : Prop :=
  ∀ c, p = some (.container c) → c < s.size ∧ (s.object c).stackable = false ∧ r ∉ s.chain c

theorem up_setParent (r : Ref) (p : Option Parent) : (s.setParent r p).up = Function.update s.up r (boxOf p) := by
  funext x
  unfold up setParent
  simp only [Function.update_apply]
  split
  · rfl
  · rfl

section SetParent

variable {x : Ref} {p : Option Parent}

theorem WellFormed.setParent (h : s.WellFormed) (hx : x < s.size) (hp : s.Fits x p) : (s.setParent x p).WellFormed := by
  have hup {r c} (hr : (s.setParent x p).up r = some c) : (r = x ∧ p = some (.container c)) ∨ s.up r = some c := by
    rw [up_setParent, Function.update_apply] at hr
    split at hr
    · exact .inl ⟨‹_›, boxOf_eq_some.mp hr⟩
    · exact .inr hr
  refine ⟨fun r => ?_, fun {r c} hr => ?_, fun {r c} hr => ?_, fun {r} hr => ?_, h.count_pos⟩
  · rw [up_setParent]
    cases hbox : boxOf p with
    | none => exact Climb.ends_cut (h.ends r)
    | some c =>
      obtain ⟨hc, _, hnot⟩ := hp c (boxOf_eq_some.mp hbox)
      exact Climb.ends_move (h.above hc) hnot (h.ends r)
  · rcases hup hr with ⟨rfl, hpc⟩ | hold
    · exact ⟨hx, (hp c hpc).1⟩
    · exact h.up_lt hold
  · rcases hup hr with ⟨rfl, hpc⟩ | hold
    · exact (hp c hpc).2.1
    · exact h.up_box hold
  · have hne : r ≠ x := fun heq => absurd hx (Nat.not_lt.mpr (heq ▸ hr))
    exact (Function.update_of_ne hne ..).trans (h.fresh hr)

/-- The chains that the item is not in stay as they are. -/
theorem WellFormed.chain_setParent (h : s.WellFormed) (hx : x < s.size) (hp : s.Fits x p) {r : Ref} (hr : r < s.size)
    (hnot : x ∉ s.chain r) : (s.setParent x p).chain r = s.chain r := by
  refine (h.setParent hx hp).chain_eq hr ?_
  rw [up_setParent]
  exact (h.above hr).update hnot _

theorem WellFormed.mem_chain_setParent (h : s.WellFormed) (hx : x < s.size) (hp : s.Fits x p) {r : Ref}
    (hr : r < s.size) : x ∈ (s.setParent x p).chain r ↔ x ∈ s.chain r := by
  refine ⟨fun hmem => ?_, fun hmem => ?_⟩
  · by_contra hnot
    rw [h.chain_setParent hx hp hr hnot] at hmem
    exact hnot hmem
  · by_contra hnot
    -- back from the new parent to the old one
    have hback := ((h.setParent hx hp).above hr).update hnot (s.up x)
    rw [up_setParent, Function.update_idem, Function.update_eq_self] at hback
    rw [← h.chain_eq hr hback] at hnot
    exact hnot hmem

/-- Everything in the item goes with it. -/
theorem WellFormed.holder_setParent (h : s.WellFormed) (hx : x < s.size) (hp : s.Fits x p) {r : Ref} (hr : r < s.size) :
    (s.setParent x p).holder r = if x ∈ s.chain r then (s.setParent x p).holder x else s.holder r := by
  split
  · rename_i hmem
    exact (h.setParent hx hp).holder_eq hr ((h.mem_chain_setParent hx hp hr).mpr hmem)
  · rename_i hnot
    have hroot : s.root r ≠ x := fun heq => hnot (heq ▸ h.root_mem hr)
    unfold holder root
    rw [h.chain_setParent hx hp hr hnot]
    exact congrArg holderOf (Function.update_of_ne hroot ..)

theorem WellFormed.holder_setParent_self (h : s.WellFormed) (hx : x < s.size) (hp : s.Fits x p) :
    (s.setParent x p).holder x = s.placeHolder p := by
  rw [(h.setParent hx hp).holder_eq_placeHolder hx]
  have hparent : (s.setParent x p).parent x = p := Function.update_self ..
  rw [hparent]
  unfold placeHolder
  cases hbox : boxOf p with
  | none => rfl
  | some c =>
    obtain ⟨hc, _, hnot⟩ := hp c (boxOf_eq_some.mp hbox)
    exact (h.holder_setParent hx hp hc).trans (if_neg hnot)

/-- The former holder loses what the item holds, and the new one gets it. -/
theorem WellFormed.amount_setParent (h : s.WellFormed) (hx : x < s.size) (hp : s.Fits x p) (who : Holder) (kind : Nat) :
    (s.setParent x p).amount who kind + (if s.holder x = some who then s.goods x kind else 0) =
      s.amount who kind + (if s.placeHolder p = some who then s.goods x kind else 0) := by
  have hpush (q : Prop) [Decidable q] (f : Ref → Nat) : (if q then ∑ r ∈ Finset.range s.size, f r else 0) =
      ∑ r ∈ Finset.range s.size, if q then f r else 0 := by
    split
    · rfl
    · exact Finset.sum_const_zero.symm
  unfold amount goods
  have hsize : (s.setParent x p).size = s.size := rfl
  have hobject : (s.setParent x p).object = s.object := rfl
  rw [hpush, hpush, hsize, hobject, ← Finset.sum_add_distrib, ← Finset.sum_add_distrib]
  refine Finset.sum_congr rfl fun r hr => ?_
  have hr' := Finset.mem_range.mp hr
  by_cases hkind : (s.object r).kind = kind
  · simp only [hkind, and_true, h.holder_setParent hx hp hr', h.holder_setParent_self hx hp]
    by_cases hmem : x ∈ s.chain r
    · simp only [hmem, if_true, h.holder_eq hr' hmem]
      exact Nat.add_comm _ _
    · simp only [hmem, if_false, ite_self]
  · simp only [hkind, and_false, if_false, ite_self]

/-- The item comes under nothing but what is above its new place. -/
theorem WellFormed.not_mem_chain_setParent (h : s.WellFormed) (hx : x < s.size) (hp : s.Fits x p) {y : Ref}
    (hne : y ≠ x) (hyp : ∀ c, p = some (.container c) → y ∉ s.chain c) : y ∉ (s.setParent x p).chain x := by
  have h' := h.setParent hx hp
  have hparent : (s.setParent x p).up x = boxOf p := by
    rw [up_setParent]
    exact Function.update_self ..
  cases hbox : boxOf p with
  | none =>
    rw [h'.chain_eq hx (.top (hparent.trans hbox)), List.mem_singleton]
    exact hne
  | some c =>
    have hpc := boxOf_eq_some.mp hbox
    obtain ⟨hc, _, hnot⟩ := hp c hpc
    rw [h'.chain_eq hx (.step (hparent.trans hbox) (h'.above hc)), List.mem_cons, not_or]
    refine ⟨hne, ?_⟩
    rw [h.chain_setParent hx hp hc hnot]
    exact hyp c hpc

/-- An item apart from the one that moves holds what it held. -/
theorem WellFormed.goods_setParent (h : s.WellFormed) (hx : x < s.size) (hp : s.Fits x p) {y : Ref} (hy : y < s.size)
    (hxy : x ∉ s.chain y) (hyx : y ∉ s.chain x) (hyp : ∀ c, p = some (.container c) → y ∉ s.chain c) :
    (s.setParent x p).goods y = s.goods y := by
  have h' := h.setParent hx hp
  have hne : y ≠ x := fun heq => hxy (heq ▸ h.mem_self hy)
  have hyx' := h.not_mem_chain_setParent hx hp hne hyp
  funext kind
  refine Finset.sum_congr rfl fun r hr => ?_
  have hr' := Finset.mem_range.mp hr
  have hmem : y ∈ (s.setParent x p).chain r ↔ y ∈ s.chain r := by
    by_cases hxr : x ∈ s.chain r
    · refine iff_of_false (fun hyr => ?_) fun hyr => (h.chain_linear hr' hxr hyr).elim hxy hyx
      rcases h'.chain_linear hr' ((h.mem_chain_setParent hx hp hr').mpr hxr) hyr with hxy' | hyx''
      · exact hxy ((h.mem_chain_setParent hx hp hy).mp hxy')
      · exact hyx' hyx''
    · rw [h.chain_setParent hx hp hr' hxr]
  simp only [hmem]
  rfl

end SetParent

/-! ## A new count -/

/-- Sums of two functions that differ at one place. -/
theorem sum_change {f g : Nat → Nat} {n r : Nat} (hr : r < n) (hother : ∀ x, x ≠ r → f x = g x) :
    ∑ x ∈ Finset.range n, f x + g r = ∑ x ∈ Finset.range n, g x + f r := by
  have hmem := Finset.mem_range.mpr hr
  have herase : ∑ x ∈ (Finset.range n).erase r, f x = ∑ x ∈ (Finset.range n).erase r, g x :=
    Finset.sum_congr rfl fun x hx => hother x (Finset.ne_of_mem_erase hx)
  rw [← Finset.add_sum_erase _ f hmem, ← Finset.add_sum_erase _ g hmem, herase]
  omega

section SetCount

variable {x : Ref} {count : Nat}

theorem WellFormed.setCount (h : s.WellFormed) (x : Ref) (hcount : 0 < count) : (s.setCount x count).WellFormed := by
  refine ⟨h.ends, h.up_lt, fun {r c} hr => ?_, h.fresh, fun {r} hr => ?_⟩
  · unfold Belongings.setCount
    simp only [Function.update_apply]
    split
    · rw [← ‹c = x›]
      exact h.up_box hr
    · exact h.up_box hr
  · unfold Belongings.setCount
    simp only [Function.update_apply]
    split
    · exact hcount
    · exact h.count_pos hr

theorem object_setCount (r : Ref) : (s.setCount x count).object r =
    if r = x then { s.object x with count } else s.object r := Function.update_apply ..

theorem amount_setCount (hx : x < s.size) (who : Holder) (kind : Nat) :
    (s.setCount x count).amount who kind +
        (if s.holder x = some who ∧ (s.object x).kind = kind then (s.object x).count else 0) =
      s.amount who kind + (if s.holder x = some who ∧ (s.object x).kind = kind then count else 0) := by
  have hchange := sum_change (f := fun r => if (s.setCount x count).holder r = some who ∧
    ((s.setCount x count).object r).kind = kind then ((s.setCount x count).object r).count else 0)
    (g := fun r => if s.holder r = some who ∧ (s.object r).kind = kind then (s.object r).count else 0) hx
    (fun r hr => by simp only [object_setCount, if_neg hr]; rfl)
  have hself : (if (s.setCount x count).holder x = some who ∧ ((s.setCount x count).object x).kind = kind then
      ((s.setCount x count).object x).count else 0) =
      if s.holder x = some who ∧ (s.object x).kind = kind then count else 0 := by
    rw [object_setCount, if_pos rfl]
    rfl
  exact hchange.trans (congrArg _ hself)

theorem goods_setCount (hx : x < s.size) (y : Ref) (kind : Nat) :
    (s.setCount x count).goods y kind +
        (if y ∈ s.chain x ∧ (s.object x).kind = kind then (s.object x).count else 0) =
      s.goods y kind + (if y ∈ s.chain x ∧ (s.object x).kind = kind then count else 0) := by
  have hchange := sum_change (f := fun r => if y ∈ (s.setCount x count).chain r ∧
    ((s.setCount x count).object r).kind = kind then ((s.setCount x count).object r).count else 0)
    (g := fun r => if y ∈ s.chain r ∧ (s.object r).kind = kind then (s.object r).count else 0) hx
    (fun r hr => by simp only [object_setCount, if_neg hr]; rfl)
  have hself : (if y ∈ (s.setCount x count).chain x ∧ ((s.setCount x count).object x).kind = kind then
      ((s.setCount x count).object x).count else 0) =
      if y ∈ s.chain x ∧ (s.object x).kind = kind then count else 0 := by
    rw [object_setCount, if_pos rfl]
    rfl
  exact hchange.trans (congrArg _ hself)

end SetCount

/-! ## A new item -/

section Alloc

variable {object : Object} {p : Option Parent}

theorem up_alloc : (s.alloc object p).up = Function.update s.up s.size (boxOf p) := by
  funext x
  unfold up alloc
  simp only [Function.update_apply]
  split
  · rfl
  · rfl

/-- A new item is in no chain. -/
theorem WellFormed.size_not_mem (h : s.WellFormed) {r : Ref} (hr : r < s.size) : s.size ∉ s.chain r := fun hmem =>
  Nat.lt_irrefl _ (h.chain_suffix hr hmem).1

theorem WellFormed.alloc (h : s.WellFormed) (hcount : 0 < object.count)
    (hp : ∀ c, p = some (.container c) → c < s.size ∧ (s.object c).stackable = false) :
    (s.alloc object p).WellFormed := by
  have hup {r c} (hr : (s.alloc object p).up r = some c) :
      (r = s.size ∧ p = some (.container c)) ∨ s.up r = some c := by
    rw [up_alloc, Function.update_apply] at hr
    split at hr
    · exact .inl ⟨‹_›, boxOf_eq_some.mp hr⟩
    · exact .inr hr
  have hobject {c} (hc : c < s.size) : (s.alloc object p).object c = s.object c := Function.update_of_ne hc.ne ..
  refine ⟨fun r => ?_, fun {r c} hr => ?_, fun {r c} hr => ?_, fun {r} hr => ?_, fun {r} hr => ?_⟩
  · rw [up_alloc]
    cases hbox : boxOf p with
    | none => exact Climb.ends_cut (h.ends r)
    | some c =>
      have hc := (hp c (boxOf_eq_some.mp hbox)).1
      exact Climb.ends_move (h.above hc) (h.size_not_mem hc) (h.ends r)
  · rcases hup hr with ⟨rfl, hpc⟩ | hold
    · exact ⟨Nat.lt_succ_self _, Nat.lt_succ_of_lt (hp c hpc).1⟩
    · exact ⟨Nat.lt_succ_of_lt (h.up_lt hold).1, Nat.lt_succ_of_lt (h.up_lt hold).2⟩
  · rcases hup hr with ⟨rfl, hpc⟩ | hold
    · rw [hobject (hp c hpc).1]
      exact (hp c hpc).2
    · rw [hobject (h.up_lt hold).2]
      exact h.up_box hold
  · exact (Function.update_of_ne (Nat.lt_of_succ_le hr).ne' ..).trans (h.fresh (Nat.le_of_succ_le hr))
  · rcases Nat.lt_succ_iff_lt_or_eq.mp hr with hlt | rfl
    · rw [hobject hlt]
      exact h.count_pos hlt
    · exact (congrArg (0 < Object.count ·) (Function.update_self ..)).mpr hcount

variable (h : s.WellFormed) (hcount : 0 < object.count)
  (hp : ∀ c, p = some (.container c) → c < s.size ∧ (s.object c).stackable = false)
include h hcount hp

theorem chain_alloc {r : Ref} (hr : r < s.size) : (s.alloc object p).chain r = s.chain r := by
  refine (h.alloc hcount hp).chain_eq (Nat.lt_succ_of_lt hr) ?_
  rw [up_alloc]
  exact (h.above hr).update (h.size_not_mem hr) _

theorem holder_alloc {r : Ref} (hr : r < s.size) : (s.alloc object p).holder r = s.holder r := by
  have hroot : s.root r ≠ s.size := fun heq => h.size_not_mem hr (heq ▸ h.root_mem hr)
  unfold holder root
  rw [chain_alloc h hcount hp hr]
  exact congrArg holderOf (Function.update_of_ne hroot ..)

theorem holder_alloc_self : (s.alloc object p).holder s.size = s.placeHolder p := by
  have hparent : (s.alloc object p).parent s.size = p := Function.update_self ..
  rw [(h.alloc hcount hp).holder_eq_placeHolder (Nat.lt_succ_self _), hparent]
  unfold placeHolder
  cases hbox : boxOf p with
  | none => rfl
  | some c => exact holder_alloc h hcount hp (hp c (boxOf_eq_some.mp hbox)).1

theorem amount_alloc (who : Holder) (kind : Nat) : (s.alloc object p).amount who kind =
    s.amount who kind + if s.placeHolder p = some who ∧ object.kind = kind then object.count else 0 := by
  have hself : (s.alloc object p).object s.size = object := Function.update_self ..
  unfold amount
  refine (Finset.sum_range_succ _ s.size).trans ?_
  rw [holder_alloc_self h hcount hp, hself]
  refine congrArg (· + _) (Finset.sum_congr rfl fun r hr => ?_)
  have hr' := Finset.mem_range.mp hr
  have hobject : (s.alloc object p).object r = s.object r := Function.update_of_ne hr'.ne ..
  rw [holder_alloc h hcount hp hr', hobject]

theorem goods_alloc {y : Ref} (hy : y < s.size) (hyp : ∀ c, p = some (.container c) → y ∉ s.chain c) :
    (s.alloc object p).goods y = s.goods y := by
  have hnew : y ∉ (s.alloc object p).chain s.size := by
    have h' := h.alloc hcount hp
    have hup : (s.alloc object p).up s.size = boxOf p := by
      rw [up_alloc]
      exact Function.update_self ..
    cases hbox : boxOf p with
    | none =>
      rw [h'.chain_eq (Nat.lt_succ_self _) (.top (hup.trans hbox)), List.mem_singleton]
      exact hy.ne
    | some c =>
      have hpc := boxOf_eq_some.mp hbox
      have hc := (hp c hpc).1
      rw [h'.chain_eq (Nat.lt_succ_self _) (.step (hup.trans hbox) (h'.above (Nat.lt_succ_of_lt hc))), List.mem_cons,
        not_or]
      refine ⟨hy.ne, ?_⟩
      rw [chain_alloc h hcount hp hc]
      exact hyp c hpc
  funext kind
  unfold goods
  refine (Finset.sum_range_succ _ s.size).trans ?_
  rw [if_neg fun hboth => hnew hboth.1, Nat.add_zero]
  refine Finset.sum_congr rfl fun r hr => ?_
  have hr' := Finset.mem_range.mp hr
  have hobject : (s.alloc object p).object r = s.object r := Function.update_of_ne hr'.ne ..
  rw [chain_alloc h hcount hp hr', hobject]

end Alloc

end Belongings

end ForgottenServer.Trade
