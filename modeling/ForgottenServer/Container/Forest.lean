import Mathlib
import ForgottenServer.Container.Heap

/-! # Forests of containers

`Valid` says that a heap is a forest: the lists and the parents agree, every container has a
root above it, and every stack has between one item and as many as its type allows. `total` is
the count of an item id over the whole forest. Each change of the heap has a rule for both. -/

open Finset

namespace ForgottenServer

namespace Heap

variable {env : GameEnv} {s : Heap}

/-! ## The fields that a change leaves as they are -/

section Fields

variable (s) (c r : Ref) (t : Thing) (b : Option Box)

@[simp] theorem setThing_size : (s.setThing r t).size = s.size := rfl
@[simp] theorem setThing_box : (s.setThing r t).box = s.box := rfl
@[simp] theorem setThing_items : (s.setThing r t).items = s.items := rfl
@[simp] theorem setThing_parent : (s.setThing r t).parent = s.parent := rfl
@[simp] theorem setThing_place : (s.setThing r t).place = s.place := rfl
@[simp] theorem erase_size : (s.erase c r).size = s.size := rfl
@[simp] theorem erase_thing : (s.erase c r).thing = s.thing := rfl
@[simp] theorem erase_box : (s.erase c r).box = s.box := rfl
@[simp] theorem erase_place : (s.erase c r).place = s.place := rfl
@[simp] theorem push_size : (s.push c r).size = s.size := rfl
@[simp] theorem push_thing : (s.push c r).thing = s.thing := rfl
@[simp] theorem push_box : (s.push c r).box = s.box := rfl
@[simp] theorem push_place : (s.push c r).place = s.place := rfl
@[simp] theorem alloc_items : (s.alloc t b).items = s.items := rfl
@[simp] theorem alloc_parent : (s.alloc t b).parent = s.parent := rfl
@[simp] theorem alloc_place : (s.alloc t b).place = s.place := rfl

theorem erase_items : (s.erase c r).items = Function.update s.items c ((s.items c).erase r) := rfl

theorem erase_parent : (s.erase c r).parent = Function.update s.parent r none := rfl

theorem push_items : (s.push c r).items = Function.update s.items c (r :: s.items c) := rfl

theorem push_parent : (s.push c r).parent = Function.update s.parent r (some c) := rfl

theorem alloc_thing : (s.alloc t b).thing = Function.update s.thing s.size t := rfl

theorem alloc_box : (s.alloc t b).box = Function.update s.box s.size b := rfl

theorem alloc_thing_self : (s.alloc t b).thing s.size = t := Function.update_self ..

theorem setThing_alloc (t' : Thing) : (s.alloc t b).setThing s.size t' = s.alloc t' b := by
  simp only [setThing, alloc, Function.update_idem]

theorem setThing_self : (s.setThing r t).thing r = t := Function.update_self ..

theorem setThing_of_ne {r'} (h : r' ≠ r) : (s.setThing r t).thing r' = s.thing r' := Function.update_of_ne h ..

end Fields

/-! ## Lists and parents that agree -/

/-- Every object is in at most one list, that of its parent, and every container has a root above it. -/
structure Forest (s : Heap) : Prop where
  item_lt : ∀ {c r}, r ∈ s.items c → r < s.size
  box_lt : ∀ {c}, (s.box c).isSome → c < s.size
  holder : ∀ {c r}, r ∈ s.items c → (s.box c).isSome
  parent_iff : ∀ {c r}, s.parent r = some c ↔ r ∈ s.items c
  nodup : ∀ c, (s.items c).Nodup
  ends : ∀ {c}, (s.box c).isSome → Climb.Ends s.parent c

/-- An object comes into a container that is not below it, at any place of the list. -/
def attach (s : Heap) (c r : Ref) (list : List Ref) : Heap :=
  { s with items := Function.update s.items c list, parent := Function.update s.parent r (some c) }

namespace Forest

theorem items_of_not_box (h : Forest s) {c : Ref} (hc : (s.box c).isSome = false) : s.items c = [] := by
  refine List.eq_nil_iff_forall_not_mem.mpr fun r hr => ?_
  rw [h.holder hr] at hc
  cases hc

/-- An object without a parent is in no list. -/
theorem not_mem_of_root (h : Forest s) {r : Ref} (hr : s.parent r = none) (c : Ref) : r ∉ s.items c := by
  intro hmem
  rw [h.parent_iff.mpr hmem] at hr
  cases hr

theorem eq_of_mem (h : Forest s) {c c' r : Ref} (hr : r ∈ s.items c) (hr' : r ∈ s.items c') : c' = c :=
  Option.some.inj ((h.parent_iff.mpr hr').symm.trans (h.parent_iff.mpr hr))

theorem mem_erase (h : Forest s) {c c' r r' : Ref} (hr : r ∈ s.items c) :
    r' ∈ (s.erase c r).items c' ↔ r' ∈ s.items c' ∧ r' ≠ r := by
  rcases eq_or_ne c' c with rfl | hne
  · change r' ∈ Function.update s.items c' ((s.items c').erase r) c' ↔ _
    rw [Function.update_self, (h.nodup c').mem_erase_iff]
    exact And.comm
  · change r' ∈ Function.update s.items c ((s.items c).erase r) c' ↔ _
    rw [Function.update_of_ne hne]
    exact ⟨fun hmem => ⟨hmem, fun heq => hne (h.eq_of_mem hr (heq ▸ hmem))⟩, And.left⟩

/-- An object leaves its container. -/
theorem erase (h : Forest s) {c r : Ref} (hr : r ∈ s.items c) : Forest (s.erase c r) where
  item_lt hmem := h.item_lt ((h.mem_erase hr).mp hmem).1
  box_lt := h.box_lt
  holder hmem := h.holder ((h.mem_erase hr).mp hmem).1
  parent_iff {c' r'} := by
    rw [h.mem_erase hr]
    change Function.update s.parent r none r' = some c' ↔ _
    rcases eq_or_ne r' r with rfl | hne
    · rw [Function.update_self]
      exact ⟨nofun, fun hmem => absurd rfl hmem.2⟩
    · rw [Function.update_of_ne hne, h.parent_iff]
      exact ⟨fun hmem => ⟨hmem, hne⟩, And.left⟩
  nodup c' := by
    change (Function.update s.items c ((s.items c).erase r) c').Nodup
    rcases eq_or_ne c' c with rfl | hne
    · rw [Function.update_self]
      exact (h.nodup c').erase r
    · rw [Function.update_of_ne hne]
      exact h.nodup c'
  ends hbox := Climb.ends_cut (h.ends hbox)

theorem mem_attach {c c' r r' : Ref} {list : List Ref} (hlist : list.Perm (r :: s.items c)) :
    r' ∈ (s.attach c r list).items c' ↔ (c' = c ∧ r' = r) ∨ r' ∈ s.items c' := by
  rcases eq_or_ne c' c with rfl | hne
  · change r' ∈ Function.update s.items c' list c' ↔ _
    rw [Function.update_self, hlist.mem_iff, List.mem_cons]
    simp only [true_and]
  · change r' ∈ Function.update s.items c list c' ↔ _
    rw [Function.update_of_ne hne]
    simp only [hne, false_and, false_or]

/-- An object without a parent comes into a container that is not below it. -/
theorem attach (h : Forest s) {c r : Ref} {l list : List Ref} (hlist : list.Perm (r :: s.items c))
    (hnone : s.parent r = none) (hlt : r < s.size) (hc : (s.box c).isSome) (habove : Climb.Above s.parent c l)
    (hl : r ∉ l) : Forest (s.attach c r list) where
  item_lt hmem := by
    rcases (mem_attach hlist).mp hmem with ⟨_, rfl⟩ | hmem
    · exact hlt
    · exact h.item_lt hmem
  box_lt := h.box_lt
  holder hmem := by
    rcases (mem_attach hlist).mp hmem with ⟨rfl, _⟩ | hmem
    · exact hc
    · exact h.holder hmem
  parent_iff {c' r'} := by
    rw [mem_attach hlist]
    change Function.update s.parent r (some c) r' = some c' ↔ _
    rcases eq_or_ne r' r with rfl | hne
    · rw [Function.update_self, Option.some_inj, eq_comm]
      exact ⟨fun heq => .inl ⟨heq, rfl⟩, fun hmem => (hmem.resolve_right (h.not_mem_of_root hnone c')).1⟩
    · rw [Function.update_of_ne hne, h.parent_iff]
      exact ⟨.inr, fun hmem => hmem.resolve_left fun heq => hne heq.2⟩
  nodup c' := by
    change (Function.update s.items c list c').Nodup
    rcases eq_or_ne c' c with rfl | hne
    · rw [Function.update_self, hlist.nodup_iff]
      exact List.nodup_cons.mpr ⟨h.not_mem_of_root hnone c', h.nodup c'⟩
    · rw [Function.update_of_ne hne]
      exact h.nodup c'
  ends hbox := Climb.ends_move habove hl (h.ends hbox)

theorem parent_of_ge (h : Forest s) {r : Ref} (hr : s.size ≤ r) : s.parent r = none := by
  cases hp : s.parent r with
  | none => rfl
  | some c => exact absurd (h.item_lt (h.parent_iff.mp hp)) (Nat.not_lt.mpr hr)

theorem climb (h : Forest s) {r : Ref} (hr : r < s.size) (hends : Climb.Ends s.parent r) :
    ∃ l, Climb.climb s.parent s.size r = some l ∧ Climb.Above s.parent r l := by
  have hup : ∀ y z, s.parent y = some z → z ∈ Finset.range s.size := fun y z hyz =>
    Finset.mem_range.mpr (h.box_lt (h.holder (h.parent_iff.mp hyz)))
  have hclimb := Climb.climb_of_ends (Finset.range s.size) (Finset.mem_range.mpr hr) hup hends
  rwa [Finset.card_range] at hclimb

/-- A container and the containers above it. -/
theorem above (h : Forest s) {c : Ref} (hc : (s.box c).isSome) : Climb.Above s.parent c (c :: s.parents c) := by
  obtain ⟨l, hl, habove⟩ := h.climb (h.box_lt hc) (h.ends hc)
  have hcons : c :: s.parents c = l := by
    rw [parents, hl]
    cases habove <;> rfl
  rw [hcons]
  exact habove

/-- Nothing in a container is above it. -/
theorem not_mem_above (h : Forest s) {c r : Ref} {l : List Ref} (hr : r ∈ s.items c) (habove : Climb.Above s.parent c l) :
    r ∉ l := by
  intro hmem
  obtain ⟨l', habove', hsuffix⟩ := habove.of_mem hmem
  rw [habove'.unique (.step (h.parent_iff.mpr hr) habove)] at hsuffix
  exact absurd hsuffix.length_le (by simp)

/-- A new object comes without a parent. -/
theorem alloc (h : Forest s) (t : Thing) (b : Option Box) : Forest (s.alloc t b) where
  item_lt hmem := (h.item_lt hmem).trans (Nat.lt_succ_self _)
  box_lt {c} hc := by
    change (Function.update s.box s.size b c).isSome at hc
    rcases eq_or_ne c s.size with rfl | hne
    · exact Nat.lt_succ_self _
    · rw [Function.update_of_ne hne] at hc
      exact (h.box_lt hc).trans (Nat.lt_succ_self _)
  holder {c r} hmem := by
    have hc := h.holder hmem
    rw [alloc_box, Function.update_of_ne (h.box_lt hc).ne]
    exact hc
  parent_iff := h.parent_iff
  nodup := h.nodup
  ends {c} hc := by
    change (Function.update s.box s.size b c).isSome at hc
    rcases eq_or_ne c s.size with rfl | hne
    · exact ⟨_, .top (h.parent_of_ge le_rfl)⟩
    · rw [Function.update_of_ne hne] at hc
      exact h.ends hc

end Forest

/-! ## Well-formed forests -/

/-- A stack has between one item and as many as its type allows. -/
def StackOk (env : GameEnv) (t : Thing) : Prop :=
  (env.items t.id).stackable → 1 ≤ t.getItemCount ∧ t.getItemCount ≤ (env.items t.id).stackSize.toNat

/-- A forest, but for the object `x` that may have no place in it. -/
structure Loose (env : GameEnv) (s : Heap) (x : Ref) : Prop where
  item_lt : ∀ {c r}, r ∈ s.items c → r < s.size
  box_lt : ∀ {c}, (s.box c).isSome → c < s.size
  holder : ∀ {c r}, r ∈ s.items c → (s.box c).isSome
  parent_iff : ∀ {c r}, s.parent r = some c ↔ r ∈ s.items c
  nodup : ∀ c, (s.items c).Nodup
  placed : ∀ {r}, (s.place r).isSome → s.parent r = none ∧ r < s.size
  rooted : ∀ {c}, (s.box c).isSome → c ≠ x → s.parent c = none → (s.place c).isSome
  ends : ∀ {c}, (s.box c).isSome → Climb.Ends s.parent c
  plain : ∀ {c}, (s.box c).isSome → (env.items (s.thing c).id).stackable = false
  stack : ∀ {c r}, r ∈ s.items c → StackOk env (s.thing r)

/-- Every container is below a root. -/
structure Valid (env : GameEnv) (s : Heap) : Prop extends Loose env s s.size where
  all_rooted : ∀ {c}, (s.box c).isSome → s.parent c = none → (s.place c).isSome

theorem Loose.valid {x : Ref} (h : Loose env s x) (hx : (s.box x).isSome → s.parent x = none → (s.place x).isSome) :
    Valid env s := by
  have hall {c} (hbox : (s.box c).isSome) (hnone : s.parent c = none) : (s.place c).isSome := by
    rcases eq_or_ne c x with rfl | hne
    · exact hx hbox hnone
    · exact h.rooted hbox hne hnone
  exact { h with rooted := fun hbox _ => hall hbox, all_rooted := hall }

theorem Loose.forest {x : Ref} (h : Loose env s x) : Forest s :=
  ⟨h.item_lt, h.box_lt, h.holder, h.parent_iff, h.nodup, h.ends⟩

namespace Valid

theorem parent_of_ge (h : Valid env s) {r : Ref} (hr : s.size ≤ r) : s.parent r = none := h.forest.parent_of_ge hr

theorem place_of_listed (h : Valid env s) {c r : Ref} (hr : r ∈ s.items c) : s.place r = none := by
  by_contra hne
  have hparent := (h.placed (Option.isSome_iff_ne_none.mpr hne)).1
  rw [h.parent_iff.mpr hr] at hparent
  cases hparent

end Valid

/-- A change of the data of an object that keeps its id. -/
theorem Valid.setThing (h : Valid env s) {r : Ref} {t : Thing} (hid : t.id = (s.thing r).id)
    (hstack : (∃ c, r ∈ s.items c) → StackOk env t) : Valid env (s.setThing r t) := by
  have hids (r' : Ref) : ((s.setThing r t).thing r').id = (s.thing r').id := by
    rcases eq_or_ne r' r with rfl | hne
    · rw [setThing_self, hid]
    · rw [setThing_of_ne _ _ _ hne]
  exact {
    item_lt := h.item_lt
    box_lt := h.box_lt
    holder := h.holder
    parent_iff := h.parent_iff
    nodup := h.nodup
    placed := h.placed
    rooted := h.rooted
    ends := h.ends
    plain := fun hbox => by rw [hids]; exact h.plain hbox
    stack := fun {c r'} hmem => by
      rcases eq_or_ne r' r with rfl | hne
      · rw [setThing_self]
        exact hstack ⟨c, hmem⟩
      · rw [setThing_of_ne _ _ _ hne]
        exact h.stack hmem
    all_rooted := h.all_rooted }

/-- An object leaves its container. -/
theorem Valid.erase (h : Valid env s) {c r : Ref} (hr : r ∈ s.items c) : Loose env (s.erase c r) r := by
  have hforest := h.forest.erase hr
  exact {
    item_lt := hforest.item_lt
    box_lt := hforest.box_lt
    holder := hforest.holder
    parent_iff := hforest.parent_iff
    nodup := hforest.nodup
    placed := fun {r'} hplace => by
      refine ⟨?_, (h.placed hplace).2⟩
      rcases eq_or_ne r' r with rfl | hne
      · exact Function.update_self ..
      · rw [erase_parent, Function.update_of_ne hne]
        exact (h.placed hplace).1
    rooted := fun {c'} hbox hne hnone => by
      rw [erase_parent, Function.update_of_ne hne] at hnone
      exact h.all_rooted hbox hnone
    ends := hforest.ends
    plain := h.plain
    stack := fun hmem => h.stack ((h.forest.mem_erase hr).mp hmem).1 }

/-- An object without a parent comes into a container that is not below it. -/
theorem Loose.push {c r : Ref} {l : List Ref} (h : Loose env s r) (hnone : s.parent r = none)
    (hplace : s.place r = none) (hlt : r < s.size) (hc : (s.box c).isSome) (hstack : StackOk env (s.thing r))
    (habove : Climb.Above s.parent c l) (hl : r ∉ l) : Valid env (s.push c r) := by
  have hforest : Forest (s.push c r) := h.forest.attach (List.Perm.refl _) hnone hlt hc habove hl
  have hself : (s.push c r).parent r = some c := Function.update_self ..
  have hloose : Loose env (s.push c r) r := {
    item_lt := hforest.item_lt
    box_lt := hforest.box_lt
    holder := hforest.holder
    parent_iff := hforest.parent_iff
    nodup := hforest.nodup
    placed := fun {r'} hp => by
      have hne : r' ≠ r := by
        rintro rfl
        rw [push_place, hplace] at hp
        cases hp
      rw [push_parent, Function.update_of_ne hne]
      exact h.placed hp
    rooted := fun {c'} hbox hne hp => by
      rw [push_parent, Function.update_of_ne hne] at hp
      exact h.rooted hbox hne hp
    ends := hforest.ends
    plain := h.plain
    stack := fun hmem => by
      rcases (Forest.mem_attach (List.Perm.refl _)).mp hmem with ⟨_, rfl⟩ | hmem
      · exact hstack
      · exact h.stack hmem }
  refine hloose.valid fun _ hp => ?_
  rw [hself] at hp
  cases hp

/-- A new object that is no container. -/
theorem Valid.alloc (h : Valid env s) (t : Thing) : Valid env (s.alloc t none) := by
  have hbox {c} (hc : ((s.alloc t none).box c).isSome) : (s.box c).isSome ∧ c ≠ s.size := by
    rcases eq_or_ne c s.size with rfl | hne
    · rw [alloc_box, Function.update_self] at hc
      cases hc
    · rw [alloc_box, Function.update_of_ne hne] at hc
      exact ⟨hc, hne⟩
  have hlisted {c r} (hmem : r ∈ s.items c) : (s.alloc t none).thing r = s.thing r :=
    Function.update_of_ne (h.item_lt hmem).ne ..
  have hforest := h.forest.alloc t none
  have hloose : Loose env (s.alloc t none) (s.size + 1) := {
    item_lt := hforest.item_lt
    box_lt := hforest.box_lt
    holder := hforest.holder
    parent_iff := hforest.parent_iff
    nodup := hforest.nodup
    placed := fun hp => ⟨(h.placed hp).1, (h.placed hp).2.trans (Nat.lt_succ_self _)⟩
    rooted := fun hc _ => h.all_rooted (hbox hc).1
    ends := hforest.ends
    plain := fun {c} hc => by
      obtain ⟨hc, hne⟩ := hbox hc
      rw [alloc_thing, Function.update_of_ne hne]
      exact h.plain hc
    stack := fun hmem => by
      rw [hlisted hmem]
      exact h.stack hmem }
  exact hloose.valid fun hc => h.all_rooted (hbox hc).1

/-! ## Totals -/

/-- What an object counts for an item id. -/
def contrib (s : Heap) (id : UInt16) (r : Ref) : Nat := if (s.thing r).id = id then s.getItemCount r else 0

def listTotal (s : Heap) (id : UInt16) (c : Ref) : Nat := ((s.items c).map (s.contrib id)).sum

/-- The count of an item id over the forest: all that the containers hold, and the roots. -/
def total (s : Heap) (id : UInt16) : Nat :=
  ∑ c ∈ range s.size, s.listTotal id c + ∑ r ∈ range s.size, if (s.place r).isSome then s.contrib id r else 0

/-- One list of a sum of lists changes. -/
theorem sum_listTotal_change {f g : Nat → Nat} {n c a b : Nat} (hc : c < n) (hother : ∀ c', c' ≠ c → f c' = g c')
    (hhere : f c + a = g c + b) : ∑ c' ∈ range n, f c' + a = ∑ c' ∈ range n, g c' + b := by
  have hmem : c ∈ range n := mem_range.mpr hc
  have hrest : ∑ c' ∈ (range n).erase c, f c' = ∑ c' ∈ (range n).erase c, g c' :=
    sum_congr rfl fun c' hc' => hother c' (ne_of_mem_erase hc')
  rw [← add_sum_erase _ f hmem, ← add_sum_erase _ g hmem, hrest]
  omega

theorem sum_contrib_erase {f : Ref → Nat} {l : List Ref} {r : Ref} (hr : r ∈ l) :
    ((l.erase r).map f).sum + f r = (l.map f).sum := by
  rw [((List.perm_cons_erase hr).map f).sum_eq, List.map_cons, List.sum_cons, Nat.add_comm]

/-- An object that is in no list and at no place counts for nothing. -/
theorem total_congr {s' : Heap} (id : UInt16) (hsize : s'.size = s.size) (hitems : s'.items = s.items)
    (hplace : s'.place = s.place) (hlist : ∀ c, ∀ r ∈ s.items c, s'.contrib id r = s.contrib id r)
    (hroot : ∀ r, (s.place r).isSome → s'.contrib id r = s.contrib id r) : s'.total id = s.total id := by
  rw [total, total, hsize, hplace]
  congr 1
  · refine sum_congr rfl fun c _ => ?_
    rw [listTotal, listTotal, hitems]
    exact congrArg List.sum (List.map_congr_left (hlist c))
  · refine sum_congr rfl fun r _ => ?_
    split
    · rename_i hr
      exact hroot r hr
    · rfl

theorem contrib_setThing_of_ne (id : UInt16) {r r' : Ref} (t : Thing) (h : r' ≠ r) :
    (s.setThing r t).contrib id r' = s.contrib id r' := by
  rw [contrib, contrib, getItemCount, getItemCount, setThing_of_ne _ _ _ h]

/-- The data of an object in the forest changes. -/
theorem Valid.total_setThing (h : Valid env s) (id : UInt16) {c r : Ref} (hr : r ∈ s.items c) (t : Thing) :
    (s.setThing r t).total id + s.contrib id r = s.total id + (s.setThing r t).contrib id r := by
  have hother (c' : Ref) (hc' : c' ≠ c) : (s.setThing r t).listTotal id c' = s.listTotal id c' := by
    refine congrArg List.sum (List.map_congr_left fun r' hr' => contrib_setThing_of_ne id t ?_)
    rintro rfl
    exact hc' (Option.some.inj ((h.parent_iff.mpr hr').symm.trans (h.parent_iff.mpr hr)))
  have hhere : (s.setThing r t).listTotal id c + s.contrib id r =
      s.listTotal id c + (s.setThing r t).contrib id r := by
    have hrest : ((s.items c).erase r).map ((s.setThing r t).contrib id) =
        ((s.items c).erase r).map (s.contrib id) :=
      List.map_congr_left fun r' hr' => contrib_setThing_of_ne id t
        fun heq => (h.nodup c).not_mem_erase (heq ▸ hr')
    rw [listTotal, listTotal, setThing_items, ← sum_contrib_erase hr, ← sum_contrib_erase hr, hrest]
    omega
  have hroots : ∀ r', (s.place r').isSome → (s.setThing r t).contrib id r' = s.contrib id r' := by
    intro r' hr'
    refine contrib_setThing_of_ne id t ?_
    rintro rfl
    rw [h.place_of_listed hr] at hr'
    cases hr'
  have hlists := sum_listTotal_change (h.box_lt (h.holder hr)) hother hhere
  have hrest : (∑ r' ∈ range s.size, if (s.place r').isSome then (s.setThing r t).contrib id r' else 0) =
      ∑ r' ∈ range s.size, if (s.place r').isSome then s.contrib id r' else 0 := by
    refine sum_congr rfl fun r' _ => ?_
    split
    · rename_i hr'
      exact hroots r' hr'
    · rfl
  rw [total, total, setThing_size, setThing_place, hrest]
  omega

theorem Valid.total_erase (h : Valid env s) (id : UInt16) {c r : Ref} (hr : r ∈ s.items c) :
    (s.erase c r).total id + s.contrib id r = s.total id := by
  have hhere : (s.erase c r).listTotal id c + s.contrib id r = s.listTotal id c + 0 := by
    rw [listTotal, listTotal, erase_items, Function.update_self, ← sum_contrib_erase hr]
    rfl
  have hlists := sum_listTotal_change (h.box_lt (h.holder hr)) (fun c' hc' => by
    rw [listTotal, listTotal, erase_items, Function.update_of_ne hc']; rfl) hhere
  have hplace : ∀ r', (s.erase c r).contrib id r' = s.contrib id r' := fun _ => rfl
  simp only [total, erase_size, erase_place, hplace]
  omega

theorem total_push (id : UInt16) {c r : Ref} (hc : c < s.size) :
    (s.push c r).total id = s.total id + s.contrib id r := by
  have hhere : (s.push c r).listTotal id c + 0 = s.listTotal id c + s.contrib id r := by
    rw [listTotal, listTotal, push_items, Function.update_self, List.map_cons, List.sum_cons, Nat.add_zero,
      Nat.add_comm]
    rfl
  have hlists := sum_listTotal_change hc (fun c' hc' => by
    rw [listTotal, listTotal, push_items, Function.update_of_ne hc']; rfl) hhere
  have hplace : ∀ r', (s.push c r).contrib id r' = s.contrib id r' := fun _ => rfl
  simp only [total, push_size, push_place, hplace]
  omega

theorem Valid.total_alloc (h : Valid env s) (id : UInt16) (t : Thing) (b : Option Box) :
    (s.alloc t b).total id = s.total id := by
  have hold {r} (hr : r < s.size) : (s.alloc t b).contrib id r = s.contrib id r := by
    rw [contrib, contrib, getItemCount, getItemCount, alloc_thing, Function.update_of_ne hr.ne]
  have hnew : s.items s.size = [] := by
    refine List.eq_nil_iff_forall_not_mem.mpr fun r hr => ?_
    exact absurd (h.box_lt (h.holder hr)) (lt_irrefl _)
  have hplace : s.place s.size = none := by
    by_contra hne
    exact absurd (h.placed (Option.isSome_iff_ne_none.mpr hne)).2 (lt_irrefl _)
  rw [total, total, show (s.alloc t b).size = s.size + 1 from rfl, sum_range_succ, sum_range_succ]
  simp only [listTotal, alloc_items, alloc_place, hnew, hplace]
  simp only [List.map_nil, List.sum_nil, Option.isSome_none, Bool.false_eq_true, if_false, Nat.add_zero]
  congr 1
  · refine sum_congr rfl fun c _ => congrArg List.sum (List.map_congr_left fun r hr => hold (h.item_lt hr))
  · refine sum_congr rfl fun r hr => ?_
    simp only [hold (mem_range.mp hr)]

end Heap

end ForgottenServer
