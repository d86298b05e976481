import ForgottenServer.Container.Destination

/-! # What a transfer does to the totals

The steps of `transfer`, one rule each: how much of an item id the step takes out of the forest
or puts into it. -/

namespace ForgottenServer

/-- A type whose items are stacks and nothing else: no container, no fluid, no object of a class
of its own, and none that is created as another type. Every stackable type of the item table
(`data/items`) is one. -/
structure Ordinary (env : GameEnv) (id : UInt16) : Prop where
  id_eq : (env.items id).id = id
  nonzero : id ≠ 0
  group : (env.items id).group = .none
  kind : (env.items id).type ∉ [.depot, .rewardChest, .teleport, .magicField, .door, .trashHolder, .mailbox, .bed]
  depotBox : ¬ (ITEM_DEPOT_BOX_1 ≤ id ∧ id ≤ ITEM_DEPOT_BOX_17)
  inbox : id ≠ ITEM_INBOX
  unworn : ¬ (3094 ≤ id ∧ id ≤ 3096) ∧ ¬ (id = 3099 ∨ id = 3100) ∧ ¬ (3086 ≤ id ∧ id ≤ 3090) ∧ id ≠ 3549 ∧ id ≠ 6299

def TableOk (env : GameEnv) : Prop := ∀ id, (env.items id).stackable → Ordinary env id

namespace Thing

variable {env : GameEnv} {t : Thing}

@[simp] theorem setIntAttr_id (a : IntAttr) (v : BitVec 64) : (t.setIntAttr a v).id = t.id := rfl

@[simp] theorem removeAttribute_id (a : IntAttr) : (t.removeAttribute a).id = t.id := by
  rw [removeAttribute]
  split <;> rfl

theorem setID_id (newid : UInt16) : (t.setID env newid).id = newid := by
  simp only [setID, setDecaying, setDuration]
  split_ifs <;> simp only [setIntAttr_id, removeAttribute_id] <;> rfl

theorem setItemCount_count {n : Nat} (h : n < 256) : (t.setItemCount n).getItemCount = n := by
  show (BitVec.ofNat 8 n).toNat = n
  rw [BitVec.toNat_ofNat, Nat.mod_eq_of_lt h]

/-- Items are compared without their counts. -/
theorem equalsIgnoringInstance_setItemCount (n : Nat) (other : Thing) :
    (t.setItemCount n).equalsIgnoringInstance other = t.equalsIgnoringInstance other := by
  have hcompare (ks : List AttrKind) : compareAttributes (t.setItemCount n) other ks = compareAttributes t other ks := by
    induction ks with
    | nil => rfl
    | cons k ks ih => cases k <;> simp only [compareAttributes, ih] <;> rfl
  rw [equalsIgnoringInstance, equalsIgnoringInstance, hcompare]
  rfl

/-- The count of a stack is set. -/
theorem setSubType_stack (hstack : (env.items t.id).stackable) (hord : Ordinary env t.id) {n : Nat} (h : n < 256) :
    (t.setSubType env.items (BitVec.ofNat 16 n)).id = t.id ∧
      (t.setSubType env.items (BitVec.ofNat 16 n)).getItemCount = n := by
  have hfluid : ((env.items t.id).isFluidContainer || (env.items t.id).isSplash) = false := by
    simp [ItemType.isFluidContainer, ItemType.isSplash, hord.group]
  have hn : (BitVec.ofNat 16 n).toNat = n := by
    rw [BitVec.toNat_ofNat, Nat.mod_eq_of_lt (by omega)]
  have hset : t.setSubType env.items (BitVec.ofNat 16 n) = t.setItemCount n := by
    simp only [setSubType]
    rw [if_neg (by rw [hfluid]; exact Bool.false_ne_true), if_pos hstack, hn]
  rw [hset]
  exact ⟨rfl, setItemCount_count h⟩

theorem createItem_eq_create {id : UInt16} (hord : Ordinary env id) (count : BitVec 16) :
    createItem env id count = some (none, Item.create env.items id
      (if (env.items id).stackable && count == 0 then 1 else count) (env.newDuration id)) := by
  have hcontainer : (env.items id).isContainer = false := by simp [ItemType.isContainer, hord.group]
  have hdeprecated : ¬ ((env.items id).group = .deprecated ∨ (env.items id).id = 0) := by
    rw [hord.group, hord.id_eq]
    simp [hord.nonzero]
  obtain ⟨h1, h2, h3, h4, h5⟩ := hord.unworn
  have hkind := hord.kind
  simp only [List.mem_cons, List.not_mem_nil, or_false, not_or] at hkind
  obtain ⟨k1, k2, k3, k4, k5, k6, k7, k8⟩ := hkind
  rw [← hord.id_eq] at h1 h2 h3 h4 h5
  simp only [createItem]
  rw [if_neg hdeprecated, if_neg k1, if_neg k2, if_neg (by rw [hord.id_eq]; exact hord.depotBox),
    if_neg (by rw [hord.id_eq]; exact hord.inbox), if_neg (by rw [hcontainer]; exact Bool.false_ne_true),
    if_neg (by simp [k3, k4, k5, k6, k7, k8]), if_neg h1, if_neg h2, if_neg h3, if_neg h4, if_neg h5]

theorem createItem_stack {id : UInt16} (hord : Ordinary env id) (count : BitVec 16) :
    ∃ item, createItem env id count = some (none, item) ∧ item.id = id :=
  ⟨_, createItem_eq_create hord count, Item.create_id _ _ _ _⟩

/-- A part of a stack is a stack of the same type. -/
theorem clone_stack (hord : Ordinary env t.id) : ∃ t', t.clone env = some (none, t') ∧ t'.id = t.id := by
  obtain ⟨item, hitem, hid⟩ := createItem_stack hord (t.item.count.setWidth 16)
  simp only [clone, hitem, Option.bind_eq_bind, Option.bind_some]
  cases t.attributes with
  | none => exact ⟨_, rfl, hid⟩
  | some ks =>
    simp only
    split
    · refine ⟨_, rfl, ?_⟩
      simp only [setDecaying, setDuration, setIntAttr_id, removeAttribute_id]
      exact hid
    · refine ⟨_, rfl, ?_⟩
      simp only [removeAttribute_id]
      exact hid

end Thing

namespace Heap

variable {env : GameEnv} {s s' : Heap}

/-- How much an amount of an object counts for an item id. -/
def share (s : Heap) (r : Ref) (n : Nat) (id : UInt16) : Nat := if (s.thing r).id = id then n else 0

theorem getStackSize_of_stackable {r : Ref} (h : s.isStackable env r = true) :
    s.getStackSize env r = (env.items (s.thing r).id).stackSize.toNat := if_pos h

theorem Valid.not_box_of_stackable (h : Valid env s) {r : Ref} (hr : s.isStackable env r = true) : s.box r = none := by
  by_contra hne
  have hplain := h.plain (Option.isSome_iff_ne_none.mpr hne)
  rw [isStackable, type, hplain] at hr
  cases hr

/-- Data of a listed object that keeps its id, with a new count. -/
theorem Valid.setCount (h : Valid env s) {c r : Ref} (hr : r ∈ s.items c) {t : Thing} (hid : t.id = (s.thing r).id)
    (hok : StackOk env t) (id : UInt16) :
    Valid env (s.setThing r t) ∧ (s.setThing r t).total id + s.share r (s.getItemCount r) id =
      s.total id + s.share r t.getItemCount id := by
  refine ⟨h.setThing hid fun _ => hok, ?_⟩
  have htotal := h.total_setThing id hr t
  have hnew : (s.setThing r t).contrib id r = s.share r t.getItemCount id := by
    rw [contrib, getItemCount, setThing_self, hid, share]
  rw [hnew] at htotal
  exact htotal

/-! ## Taking from a stack -/

/-- `m` items were taken off the stack `item`. -/
structure Taken (env : GameEnv) (s s' : Heap) (item : Ref) (m : Nat) : Prop where
  valid : Valid env s'
  total : ∀ id, s'.total id + s.share item m id = s.total id
  size : s'.size = s.size
  box : s'.box = s.box
  other : ∀ {r}, r ≠ item → s'.thing r = s.thing r
  listed : ∀ {c r}, r ≠ item → r ∈ s.items c → r ∈ s'.items c
  id : (s'.thing item).id = (s.thing item).id
  alike : ∀ t, (s'.thing item).equalsIgnoringInstance t = (s.thing item).equalsIgnoringInstance t

theorem Valid.taken (h : Valid env s) {c item : Ref} {m : Nat} (hmem : item ∈ s.items c)
    (hstack : s.isStackable env item = true) (hpos : 0 < m) (hle : m ≤ s.getItemCount item) :
    Taken env s (s.removeThing env c item m) item m := by
  have hcount : s.getItemCount item ≤ (env.items (s.thing item).id).stackSize.toNat := (h.stack hmem hstack).2
  have hbyte : (env.items (s.thing item).id).stackSize.toNat < 256 := UInt8.toNat_lt _
  rw [removeThing, if_neg (not_not.mpr hmem)]
  split
  · -- a part of the stack stays
    rename_i hpart
    have hleft : ((s.thing item).setItemCount (s.getItemCount item - m)).getItemCount = s.getItemCount item - m :=
      Thing.setItemCount_count (by omega)
    have hok : StackOk env ((s.thing item).setItemCount (s.getItemCount item - m)) := by
      intro _
      rw [hleft]
      exact ⟨Nat.sub_pos_of_lt (Nat.lt_of_le_of_ne hle hpart.2), (Nat.sub_le _ _).trans hcount⟩
    have hkeep : ((s.thing item).setItemCount (s.getItemCount item - m)).id = (s.thing item).id := rfl
    have hset := h.setCount hmem hkeep hok
    refine { valid := (hset 0).1, total := fun id => ?_, size := rfl, box := rfl, other := setThing_of_ne _ _ _
             listed := fun _ => id, id := ?_, alike := fun t => ?_ }
    · have htotal := (hset id).2
      rw [hleft] at htotal
      simp only [share, setItemCount] at htotal ⊢
      split_ifs at htotal ⊢ <;> omega
    · rw [setItemCount, setThing_self]
      rfl
    · rw [setItemCount, setThing_self]
      exact Thing.equalsIgnoringInstance_setItemCount _ t
  · -- the whole stack goes
    rename_i hwhole
    have hm : m = s.getItemCount item := by
      by_contra hne
      exact hwhole ⟨hstack, hne⟩
    have hloose := h.erase hmem
    refine { valid := hloose.valid fun hbox => ?_, total := fun id => ?_, size := rfl, box := rfl
             other := fun _ => rfl, listed := fun {c' r} hne hr => ?_, id := rfl, alike := fun _ => rfl }
    · rw [erase_box, h.not_box_of_stackable hstack] at hbox
      cases hbox
    · rw [hm]
      exact h.total_erase id hmem
    · rcases eq_or_ne c' c with rfl | hc
      · rw [erase_items, Function.update_self]
        exact (List.mem_erase_of_ne hne).mpr hr
      · rwa [erase_items, Function.update_of_ne hc]

/-! ## Joining a stack -/

/-- `n` items of the type of `item` joined a stack. -/
structure Joined (env : GameEnv) (s s' : Heap) (item : Ref) (n : Nat) : Prop where
  valid : Valid env s'
  total : ∀ id, s'.total id = s.total id + s.share item n id
  size : s'.size = s.size
  box : s'.box = s.box
  same : s'.thing item = s.thing item

theorem share_zero (r : Ref) (id : UInt16) : s.share r 0 id = 0 := by
  rw [share]
  split <;> rfl

theorem Valid.joined_none (h : Valid env s) (item : Ref) : Joined env s s item 0 where
  valid := h
  total id := by rw [share_zero, Nat.add_zero]
  size := rfl
  box := rfl
  same := rfl

/-- The data of a stack after more items joined it. -/
theorem updated_stack (htable : TableOk env) {toItem : Ref} {n : Nat} (hstack : s.isStackable env toItem = true)
    (hn : s.getItemCount toItem + n ≤ s.getStackSize env toItem) :
    let t := ((s.thing toItem).setID env (s.thing toItem).id).setSubType env.items
      (BitVec.ofNat 16 (s.getItemCount toItem + n))
    t.id = (s.thing toItem).id ∧ t.getItemCount = s.getItemCount toItem + n := by
  have hsize := getStackSize_of_stackable hstack
  have hbyte : (env.items (s.thing toItem).id).stackSize.toNat < 256 := UInt8.toNat_lt _
  have hsetid : ((s.thing toItem).setID env (s.thing toItem).id).id = (s.thing toItem).id := Thing.setID_id _
  have hset := Thing.setSubType_stack (t := (s.thing toItem).setID env (s.thing toItem).id)
    (n := s.getItemCount toItem + n) (by rw [hsetid]; exact hstack) (by rw [hsetid]; exact htable _ hstack)
    (by omega)
  rw [hsetid] at hset
  exact hset

theorem Valid.joined_update (h : Valid env s) (htable : TableOk env) {c toItem item : Ref} {n : Nat}
    (hmem : toItem ∈ s.items c) (hne : toItem ≠ item) (hid : (s.thing item).id = (s.thing toItem).id)
    (hstack : s.isStackable env item = true) (hn : s.getItemCount toItem + n ≤ s.getStackSize env toItem) :
    Joined env s (s.updateThing env c toItem (s.thing toItem).id (s.getItemCount toItem + n)) item n := by
  have hstack' : s.isStackable env toItem = true := by
    rw [isStackable, type, ← hid]
    exact hstack
  have hpos := (h.stack hmem hstack').1
  let t := ((s.thing toItem).setID env (s.thing toItem).id).setSubType env.items
    (BitVec.ofNat 16 (s.getItemCount toItem + n))
  obtain ⟨htid, htcount⟩ : t.id = (s.thing toItem).id ∧ t.getItemCount = s.getItemCount toItem + n :=
    updated_stack htable hstack' hn
  have hok : StackOk env t := by
    intro _
    rw [htid, htcount, ← getStackSize_of_stackable hstack']
    exact ⟨Nat.le_trans hpos (Nat.le_add_right _ _), hn⟩
  rw [updateThing, if_neg (not_not.mpr hmem)]
  refine { valid := (h.setCount hmem htid hok 0).1, total := fun id => ?_, size := rfl, box := rfl
           same := setThing_of_ne _ _ _ hne.symm }
  have htotal := (h.setCount hmem htid hok id).2
  rw [htcount] at htotal
  show (s.setThing toItem t).total id = _
  simp only [share, hid] at htotal ⊢
  split_ifs at htotal ⊢ <;> omega

/-! ## Adding -/

/-- A new stack that is not in the forest yet. -/
structure Cloned (env : GameEnv) (s s' : Heap) (item new : Ref) (n : Nat) : Prop where
  valid : Valid env s'
  total : ∀ id, s'.total id = s.total id
  box : s'.box = s.box
  leaf : s'.box new = none
  parent : s'.parent new = none
  place : s'.place new = none
  lt : new < s'.size
  id : (s'.thing new).id = (s.thing item).id
  count : s'.getItemCount new = n
  stackOk : StackOk env (s'.thing new)

/-- A clone of a stack is one new object. -/
theorem Valid.clone_leaf (h : Valid env s) (htable : TableOk env) {item : Ref} (hlt : item < s.size)
    (hstack : s.isStackable env item = true) :
    ∃ t, clone env s.size s item = some (s.size, s.alloc t none) ∧ t.id = (s.thing item).id := by
  obtain ⟨fuel, hfuel⟩ : ∃ fuel, s.size = fuel + 1 :=
    Nat.exists_eq_succ_of_ne_zero (Nat.ne_zero_of_lt hlt)
  obtain ⟨t, ht, hid⟩ := Thing.clone_stack (htable _ hstack)
  have hleaf := h.not_box_of_stackable hstack
  refine ⟨t, ?_, hid⟩
  rw [hfuel, clone, ht]
  simp [hleaf, ← hfuel]

theorem setItemCount_alloc (t : Thing) (n : Nat) : (s.alloc t none).setItemCount s.size n = s.alloc (t.setItemCount n) none := by
  rw [setItemCount, alloc_thing_self, setThing_alloc]

theorem Valid.box_size (h : Valid env s) : s.box s.size = none := by
  by_contra hne
  exact absurd (h.box_lt (Option.isSome_iff_ne_none.mpr hne)) (lt_irrefl _)

theorem Valid.place_size (h : Valid env s) : s.place s.size = none := by
  by_contra hne
  exact absurd (h.placed (Option.isSome_iff_ne_none.mpr hne)).2 (lt_irrefl _)

theorem Valid.cloned (h : Valid env s) (htable : TableOk env) {item : Ref} {n : Nat} (inst : UInt32)
    (hlt : item < s.size) (hstack : s.isStackable env item = true) (hpos : 0 < n) (hn : n ≤ s.getStackSize env item) :
    ∃ new s', clone env s.size s item = some (new, s') ∧
      Cloned env s ((s'.setItemCount new n).setInstanceID new inst) item new n := by
  obtain ⟨t, hclone, hid⟩ := h.clone_leaf htable hlt hstack
  have hsize := getStackSize_of_stackable hstack
  have hbyte : (env.items (s.thing item).id).stackSize.toNat < 256 := UInt8.toNat_lt _
  refine ⟨_, _, hclone, ?_⟩
  let new : Thing := (t.setItemCount n).setInstanceID inst
  have hnew : ((s.alloc t none).setItemCount s.size n).setInstanceID s.size inst =
      s.alloc new none := by
    rw [setItemCount_alloc, setInstanceID, alloc_thing_self, setThing_alloc]
  rw [hnew]
  have hthing := s.alloc_thing_self new none
  have hcount : new.getItemCount = n := Thing.setItemCount_count (by omega)
  exact {
    valid := h.alloc new
    total := fun id => h.total_alloc id new none
    box := by rw [alloc_box, ← h.box_size, Function.update_eq_self]
    leaf := Function.update_self ..
    parent := h.parent_of_ge le_rfl
    place := h.place_size
    lt := Nat.lt_succ_self _
    id := by rw [hthing]; exact hid
    count := by rw [getItemCount, hthing, hcount]
    stackOk := by
      rw [hthing]
      intro _
      have hnid : new.id = (s.thing item).id := hid
      rw [hcount, hnid, ← hsize]
      exact ⟨hpos, hn⟩ }

theorem capacity_congr {s s' : Heap} (h : s'.box = s.box) (c : Ref) : s'.capacity c = s.capacity c := by
  rw [capacity, capacity, h]

/-- Only containers are above a container. -/
theorem Valid.box_of_above (h : Valid env s) {c : Ref} {l : List Ref} (habove : Climb.Above s.parent c l)
    (hc : (s.box c).isSome) : ∀ r ∈ l, (s.box r).isSome := by
  induction habove with
  | top =>
    intro r hr
    rwa [List.mem_singleton.mp hr]
  | step hp _ ih =>
    intro r hr
    rcases List.mem_cons.mp hr with rfl | hr
    · exact hc
    · exact ih (h.holder (h.parent_iff.mp hp)) r hr

theorem Valid.loose (h : Valid env s) (x : Ref) : Loose env s x :=
  { h.toLoose with rooted := fun hbox _ => h.all_rooted hbox }

/-- The new stack comes into the forest. -/
theorem Cloned.push {s' : Heap} {item new c : Ref} {n : Nat} (h : Cloned env s s' item new n) (hc : (s.box c).isSome) :
    Valid env (s'.push c new) ∧ ∀ id, (s'.push c new).total id = s.total id + s.share item n id := by
  have hc' : (s'.box c).isSome := by rwa [h.box]
  have habove := h.valid.above hc'
  have hnew : new ∉ c :: s'.parents c := fun hmem => by
    have hbox := h.valid.box_of_above habove hc' new hmem
    rw [h.leaf] at hbox
    cases hbox
  refine ⟨(h.valid.loose new).push h.parent h.place h.lt hc' h.stackOk habove hnew, fun id => ?_⟩
  rw [total_push id (h.valid.box_lt hc'), h.total, contrib, h.id, h.count, share]

/-- An index beyond the capacity: nothing is added. -/
theorem addThing_of_le {c r : Ref} {index : Int} (h : (s.capacity c : Int) ≤ index) :
    s.addThing c index r = some s := if_pos h

/-- The container is not below the object: it is added. -/
theorem addThing_of_lt {c r : Ref} {index : Int} (hindex : ¬ (s.capacity c : Int) ≤ index)
    (hforest : Forest (s.push c r)) (hc : (s.box c).isSome) : s.addThing c index r = some (s.push c r) := by
  obtain ⟨l, hl, _⟩ := hforest.climb (hforest.box_lt (by exact hc)) (hforest.ends (by exact hc))
  simp only [addThing, if_neg hindex, hl, Option.isSome_some, if_true]

/-- The container is the object or below it: the call never ends. -/
theorem addThing_loop {c r : Ref} {index : Int} {l : List Ref} (hindex : ¬ (s.capacity c : Int) ≤ index)
    (habove : Climb.Above s.parent c l) (hr : r ∈ l) : s.addThing c index r = none := by
  have hnone : Climb.climb (s.push c r).parent (s.push c r).size c = none := by
    by_contra hne
    obtain ⟨l', hl'⟩ := Option.ne_none_iff_exists'.mp hne
    exact Climb.not_ends_loop habove hr ⟨l', Climb.above_of_climb hl'⟩
  simp only [addThing, if_neg hindex, hnone, Option.isSome_none, Bool.false_eq_true, if_false]

end Heap

end ForgottenServer
