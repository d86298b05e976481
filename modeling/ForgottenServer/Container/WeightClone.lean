import ForgottenServer.Container.WeightSteps

/-! # Clones and the totals

A clone takes over the total weight of its original, while its items are clones again, which
`CreateItem` may make of another type or not at all. Where every item inside is created as an
object of the same weight, the totals of the clone are right as well. -/

open Subtotals

namespace ForgottenServer

namespace Thing

variable {env : WeightEnv} {t : Thing}

/-- The object with another id and count, but with its own attributes. -/
def recast (t : Thing) (made : Item) : Thing := { t with item := { t.item with id := made.id, count := made.count } }

/-- What `CreateItem` makes for a clone. -/
def made (env : WeightEnv) (t : Thing) : Option (Option ContainerClass × Item) :=
  createItem env.toGameEnv t.id (t.item.count.setWidth 16)

/-- A clone is created, is a container where the original is one, and weighs the same. -/
def Kept (env : WeightEnv) (t : Thing) (isContainer : Bool) : Prop :=
  ∃ cls item, t.made env = some (cls, item) ∧ cls.isSome = isContainer ∧
    (t.recast item).getWeight env = t.getWeight env

/-- What a clone adds to the ammunition of its container. -/
def clonedAmmo (env : WeightEnv) (t : Thing) : Nat := match t.made env with
  | some (_, item) => (t.recast item).ammo env
  | none => 0

theorem hasAttribute_record (t : Thing) {k k' : AttrKind} (hk : k' ≠ k) : (t.record k).hasAttribute k' = t.hasAttribute k' := by
  rw [record, hasAttribute, kinds, Option.getD_some]
  split
  · rfl
  · rw [hasAttribute, Bool.eq_iff_iff, List.contains_iff_mem, List.contains_iff_mem, List.mem_append, List.mem_singleton]
    exact ⟨fun hmem => hmem.resolve_right hk, .inl⟩

theorem sameWeight_setIntAttr (t : Thing) {a : IntAttr} (ha : a ≠ .weight) (v : BitVec 64) :
    SameWeight t (t.setIntAttr a v) :=
  ⟨rfl, rfl, hasAttribute_record t fun heq => ha (AttrKind.int.inj heq).symm,
    fun _ => congrArg (Option.getD · 0) (Function.update_of_ne ha.symm ..)⟩

/-- A new object has no weight of its own. -/
theorem weight_not_mem_newKinds (item : Item) : AttrKind.int .weight ∉ (newKinds item).getD [] := by
  rw [newKinds]
  split
  · exact List.not_mem_nil
  · rw [Option.getD_some, List.mem_map]
    rintro ⟨a, hmem, heq⟩
    obtain rfl := AttrKind.int.inj heq
    exact absurd (List.mem_of_mem_filter hmem) (by decide)

/-- The attributes of a clone are those of the original, but for its decay. -/
theorem clone_of_made {cls : Option ContainerClass} {item : Item} (hmade : t.made env = some (cls, item)) :
    ∃ t', t.clone env.toGameEnv = some (cls, t') ∧ SameWeight (t.recast item) t' := by
  rw [made] at hmade
  rw [clone, hmade, Option.bind_eq_bind, Option.bind_some]
  dsimp only
  split
  · rename_i hnone
    have hno : (t.recast item).hasAttribute (.int .weight) = false := by
      rw [hasAttribute, kinds, recast, hnone]
      rfl
    refine ⟨_, rfl, rfl, rfl, ?_, fun has => ?_⟩
    · rw [hno, hasAttribute, Bool.eq_false_iff, ne_eq, List.contains_iff_mem]
      exact weight_not_mem_newKinds item
    · rw [hno] at has
      cases has
  · rename_i kinds hsome
    have hcopied : SameWeight (t.recast item)
        { item := { item with ints := t.item.ints, strs := t.item.strs, custom := t.item.custom
                              reflect := t.item.reflect, boostPercent := t.item.boostPercent }
          attributes := t.attributes } := ⟨rfl, rfl, rfl, fun _ => rfl⟩
    have hplain := (hcopied.trans (sameWeight_removeAttribute _ (a := .decayState) (by decide))).trans
      (sameWeight_removeAttribute _ (a := .durationTimestamp) (by decide))
    split
    · refine ⟨_, rfl, (hplain.trans (sameWeight_setIntAttr _ (a := .duration) (by decide) _)).trans
        (sameWeight_setIntAttr _ (a := .decayState) (by decide) _)⟩
    · exact ⟨_, rfl, hplain.trans (sameWeight_removeAttribute _ (by decide))⟩

end Thing

namespace WeighedHeap

variable {env : WeightEnv} {s s' s'' : WeighedHeap} {c r : Ref}

/-! ## Heaps that only grow -/

/-- Nothing is different about an object. -/
structure Same (s s' : WeighedHeap) (r : Ref) : Prop where
  thing : s'.thing r = s.thing r
  box : s'.box r = s.box r
  items : s'.items r = s.items r
  parent : s'.parent r = s.parent r
  totalWeight : s'.totalWeight r = s.totalWeight r
  ammoCount : s'.ammoCount r = s.ammoCount r

theorem Same.trans (h : Same s s' r) (h' : Same s' s'' r) : Same s s'' r :=
  ⟨h'.thing.trans h.thing, h'.box.trans h.box, h'.items.trans h.items, h'.parent.trans h.parent,
    h'.totalWeight.trans h.totalWeight, h'.ammoCount.trans h.ammoCount⟩

theorem Same.worth (h : Same s s' r) : (s'.own env + s'.totalWeight) r = (s.own env + s.totalWeight) r := by
  rw [Pi.add_apply, Pi.add_apply, own, own, h.thing, h.totalWeight]

theorem Same.ammo (h : Same s s' r) : s'.ammo env r = s.ammo env r := by
  rw [WeighedHeap.ammo, WeighedHeap.ammo, h.thing]

structure Extends (s s' : WeighedHeap) : Prop where
  le : s.size ≤ s'.size
  same : ∀ r < s.size, Same s s' r

theorem Extends.refl (s : WeighedHeap) : Extends s s := ⟨le_rfl, fun _ _ => ⟨rfl, rfl, rfl, rfl, rfl, rfl⟩⟩

theorem Extends.trans (h : Extends s s') (h' : Extends s' s'') : Extends s s'' :=
  ⟨h.le.trans h'.le, fun r hr => (h.same r hr).trans (h'.same r (hr.trans_le h.le))⟩

/-! ## The totals of one container -/

structure Right (env : WeightEnv) (s : WeighedHeap) (c : Ref) : Prop where
  totalWeight : s.totalWeight c = inside s.items (s.own env + s.totalWeight) c
  ammoCount : s.ammoCount c = inside s.items (s.ammo env) c

theorem Sound.right (h : Sound env s) (c : Ref) : Right env s c := ⟨h.exact c, h.ammoCount c⟩

theorem sound_of_right (hforest : Heap.Forest s.toHeap) (h : ∀ c, Right env s c) : Sound env s :=
  ⟨hforest, fun c => (h c).totalWeight, fun c => (h c).ammoCount⟩

/-- The totals of a container depend on nothing but what it holds. -/
theorem Right.congr (h : Right env s c) (hitems : s'.items c = s.items c) (htotal : s'.totalWeight c = s.totalWeight c)
    (hammo : s'.ammoCount c = s.ammoCount c) (hsame : ∀ y ∈ s.items c, Same s s' y) : Right env s' c := by
  refine ⟨?_, ?_⟩
  · rw [htotal, h.totalWeight]
    exact (inside_congr hitems fun y hy => (hsame y hy).worth).symm
  · rw [hammo, h.ammoCount]
    exact (inside_congr hitems fun y hy => (hsame y hy).ammo).symm

theorem Extends.right (hext : Extends s s') (hforest : Heap.Forest s.toHeap) (hc : c < s.size) (h : Right env s c) :
    Right env s' c :=
  h.congr (hext.same c hc).items (hext.same c hc).totalWeight (hext.same c hc).ammoCount
    fun y hy => hext.same y (hforest.item_lt hy)

/-- A container that holds nothing and counts nothing. -/
theorem right_nil (hitems : s.items c = []) (htotal : s.totalWeight c = 0) (hammo : s.ammoCount c = 0) : Right env s c := by
  refine ⟨?_, ?_⟩
  · rw [htotal, inside, hitems]
    rfl
  · rw [hammo, inside, hitems]
    rfl

/-! ## A new object -/

theorem extends_create (s : WeighedHeap) (t : Thing) (b : Option Box) : Extends s (s.create t b) :=
  ⟨Nat.le_succ _, fun _ hr => ⟨Function.update_of_ne hr.ne .., Function.update_of_ne hr.ne .., rfl, rfl,
    Function.update_of_ne hr.ne .., Function.update_of_ne hr.ne ..⟩⟩

theorem items_of_ge (h : Heap.Forest s.toHeap) {z : Ref} (hz : s.size ≤ z) : s.items z = [] := by
  refine List.eq_nil_iff_forall_not_mem.mpr fun y hy => ?_
  exact absurd (h.box_lt (h.holder hy)) (Nat.not_lt.mpr hz)

theorem right_create (h : Heap.Forest s.toHeap) (hfresh : ∀ z, s.size ≤ z → Right env s z) (t : Thing) (b : Option Box)
    {z : Ref} (hz : s.size ≤ z) : Right env (s.create t b) z := by
  have hnil : (s.create t b).items z = [] := items_of_ge h hz
  rcases eq_or_ne z s.size with rfl | hne
  · exact right_nil hnil (Function.update_self ..) (Function.update_self ..)
  · have hright := hfresh z hz
    have hinside {G : Type} [AddCommMonoid G] (worth : Ref → G) : inside s.items worth z = 0 := by
      rw [inside, items_of_ge h hz]
      rfl
    refine right_nil hnil ?_ ?_
    · change Function.update s.totalWeight s.size 0 z = 0
      rw [Function.update_of_ne hne, hright.totalWeight, hinside]
    · change Function.update s.ammoCount s.size 0 z = 0
      rw [Function.update_of_ne hne, hright.ammoCount, hinside]

theorem Sound.create (h : Sound env s) (t : Thing) (b : Option Box) : Sound env (s.create t b) := by
  refine sound_of_right (h.toForest.alloc t b) fun z => ?_
  rcases Nat.lt_or_ge z s.size with hlt | hge
  · exact (extends_create s t b).right h.toForest hlt (h.right z)
  · exact right_create h.toForest (fun z _ => h.right z) t b hge

/-! ## One item of a clone -/

/-- `s'` is `s` with a clone of the object `x` of `s₀`, whose own totals are right. -/
structure CloneOf (env : WeightEnv) (s₀ : WeighedHeap) (x : Ref) (s s' : WeighedHeap) : Prop where
  ext : Extends s s'
  lt : s.size < s'.size
  forest : Heap.Forest s'.toHeap
  root : s'.parent s.size = none
  right : ∀ z, s.size ≤ z → Right env s' z
  worth : (s'.own env + s'.totalWeight) s.size = (s₀.own env + s₀.totalWeight) x
  ammo : s'.ammo env s.size = (s₀.thing x).clonedAmmo env

/-- `s'` is `s` with a new container that holds clones of `done`, and has no total weight yet. -/
structure Partly (env : WeightEnv) (s₀ s : WeighedHeap) (done : List Ref) (t : Thing) (s' : WeighedHeap) : Prop where
  ext : Extends s s'
  lt : s.size < s'.size
  forest : Heap.Forest s'.toHeap
  root : s'.parent s.size = none
  box : (s'.box s.size).isSome
  thing : s'.thing s.size = t
  right : ∀ z, s.size < z → Right env s' z
  worth : inside s'.items (s'.own env + s'.totalWeight) s.size = (done.map (s₀.own env + s₀.totalWeight)).sum
  ammo : inside s'.items (s'.ammo env) s.size = (done.map fun x => (s₀.thing x).clonedAmmo env).sum
  ammoCount : s'.ammoCount s.size = inside s'.items (s'.ammo env) s.size

theorem addItem_eq (hroom : s.ammoCount c + s.ammo env r < 2 ^ 32) : s.addItem env c r =
    { toHeap := s.attach c r (s.items c ++ [r])
      totalWeight := s.totalWeight
      ammoCount := Function.update s.ammoCount c (s.ammoCount c + s.ammo env r) } := updateAmmoCount_add hroom

theorem same_addItem (hroom : s.ammoCount c + s.ammo env r < 2 ^ 32) {y : Ref} (hc : y ≠ c) (hr : y ≠ r) :
    Same s (s.addItem env c r) y := by
  rw [addItem_eq hroom]
  exact ⟨rfl, rfl, Function.update_of_ne hc .., Function.update_of_ne hr .., rfl, Function.update_of_ne hc ..⟩

theorem perm_addItem (hroom : s.ammoCount c + s.ammo env r < 2 ^ 32) :
    ((s.addItem env c r).items c).Perm (r :: s.items c) := by
  rw [addItem_eq hroom]
  change (Function.update s.items c (s.items c ++ [r]) c).Perm _
  rw [Function.update_self]
  exact List.perm_append_singleton r (s.items c)

theorem Partly.add {s₀ : WeighedHeap} {done : List Ref} {t : Thing} {x : Ref} (h : Partly env s₀ s done t s')
    (hclone : CloneOf env s₀ x s' s'')
    (hroom : (done.map fun x => (s₀.thing x).clonedAmmo env).sum + (s₀.thing x).clonedAmmo env < 2 ^ 32) :
    Partly env s₀ s (done ++ [x]) t (s''.addItem env s.size s'.size) := by
  have hnew := hclone.ext.same s.size h.lt
  have hroot : s''.parent s.size = none := by rw [hnew.parent, h.root]
  have hmembers : ∀ y ∈ s'.items s.size, Same s' s'' y := fun y hy => hclone.ext.same y (h.forest.item_lt hy)
  have hworth : inside s''.items (s''.own env + s''.totalWeight) s.size =
      (done.map (s₀.own env + s₀.totalWeight)).sum := by
    rw [← h.worth]
    exact inside_congr hnew.items fun y hy => (hmembers y hy).worth
  have hammo : inside s''.items (s''.ammo env) s.size = (done.map fun x => (s₀.thing x).clonedAmmo env).sum := by
    rw [← h.ammo]
    exact inside_congr hnew.items fun y hy => (hmembers y hy).ammo
  have hcount : s''.ammoCount s.size = (done.map fun x => (s₀.thing x).clonedAmmo env).sum := by
    rw [hnew.ammoCount, h.ammoCount, h.ammo]
  have hroom' : s''.ammoCount s.size + s''.ammo env s'.size < 2 ^ 32 := by
    rw [hcount, hclone.ammo]
    exact hroom
  have hsame {y : Ref} (hc : y ≠ s.size) (hr : y ≠ s'.size) := same_addItem hroom' hc hr
  have hperm := perm_addItem hroom'
  have heq := addItem_eq hroom'
  have hown : (s''.addItem env s.size s'.size).own env = s''.own env := by
    rw [heq]
    rfl
  have htotal : (s''.addItem env s.size s'.size).totalWeight = s''.totalWeight := by rw [heq]
  have hammo' : (s''.addItem env s.size s'.size).ammo env = s''.ammo env := by
    rw [heq]
    rfl
  have hammoSum : inside (s''.addItem env s.size s'.size).items (s''.ammo env) s.size =
      ((done ++ [x]).map fun x => (s₀.thing x).clonedAmmo env).sum := by
    rw [inside_cons hperm, hammo, hclone.ammo, List.map_append, List.sum_append, List.map_singleton, List.sum_singleton,
      add_comm]
  refine ⟨?_, ?_, ?_, ?_, ?_, ?_, fun z hz => ?_, ?_, ?_, ?_⟩
  · refine ⟨?_, fun y hy => ?_⟩
    · rw [heq]
      exact (h.lt.trans hclone.lt).le
    · exact ((h.ext.same y hy).trans (hclone.ext.same y (hy.trans h.lt))).trans
        (hsame hy.ne (hy.trans h.lt).ne)
  · rw [heq]
    exact h.lt.trans hclone.lt
  · rw [heq]
    refine hclone.forest.attach (List.perm_append_singleton ..) hclone.root hclone.lt ?_ (.top hroot) ?_
    · rw [hnew.box]
      exact h.box
    · rw [List.mem_singleton]
      exact h.lt.ne'
  · rw [heq]
    change Function.update s''.parent s'.size _ s.size = none
    rw [Function.update_of_ne h.lt.ne, hroot]
  · rw [heq]
    change (s''.box s.size).isSome
    rw [hnew.box]
    exact h.box
  · rw [heq]
    change s''.thing s.size = t
    rw [hnew.thing, h.thing]
  · have hright : Right env s'' z := by
      rcases Nat.lt_or_ge z s'.size with hlt | hge
      · exact hclone.ext.right h.forest hlt (h.right z hz)
      · exact hclone.right z hge
    refine hright.congr ?_ (congrFun htotal z) ?_ fun y hy => ?_
    · rw [heq]
      exact Function.update_of_ne hz.ne' ..
    · rw [heq]
      exact Function.update_of_ne hz.ne' ..
    · -- neither the new container nor the clone was in a list before
      refine hsame ?_ ?_
      · rintro rfl
        exact hclone.forest.not_mem_of_root hroot z hy
      · rintro rfl
        exact hclone.forest.not_mem_of_root hclone.root z hy
  · rw [hown, htotal, inside_cons hperm, hworth, hclone.worth, List.map_append, List.sum_append, List.map_singleton,
      List.sum_singleton, add_comm]
  · rw [hammo', hammoSum]
  · rw [hammo', hammoSum, heq]
    change Function.update s''.ammoCount s.size _ s.size = _
    rw [Function.update_self, hcount, hclone.ammo, List.map_append, List.sum_append, List.map_singleton, List.sum_singleton]

/-! ## The whole clone -/

/-- `z` is `r` or inside it. -/
def Inside (s : Heap) (r z : Ref) : Prop := ∃ l, Climb.Above s.parent z l ∧ r ∈ l

/-- Everything that is cloned is created as an object of the same weight, and the ammunition of every
clone can be counted. -/
structure Clonable (env : WeightEnv) (s : WeighedHeap) (r : Ref) : Prop where
  kept : ∀ z, Inside s.toHeap r z → Thing.Kept env (s.thing z) (s.box z).isSome
  room : ∀ z, Inside s.toHeap r z → ((s.items z).map fun x => (s.thing x).clonedAmmo env).sum < 2 ^ 32

theorem Inside.of_child {s : Heap} (h : Heap.Forest s) {r x z : Ref} (hx : x ∈ s.items r) (hz : Inside s x z) : Inside s r z := by
  obtain ⟨l, habove, hmem⟩ := hz
  obtain ⟨l', hx', hsuffix⟩ := habove.of_mem hmem
  refine ⟨l, habove, hsuffix.subset ?_⟩
  cases hx' with
  | top hnone => rw [h.parent_iff.mpr hx] at hnone; cases hnone
  | step hup above =>
    rw [h.parent_iff.mpr hx] at hup
    cases hup
    exact List.mem_cons_of_mem _ above.mem_self

theorem Clonable.child (h : Clonable env s r) (hforest : Heap.Forest s.toHeap) {x : Ref} (hx : x ∈ s.items r) :
    Clonable env s x :=
  ⟨fun z hz => h.kept z (hz.of_child hforest hx), fun z hz => h.room z (hz.of_child hforest hx)⟩

/-- The loop over the items. -/
theorem partly_foldl {s₀ : WeighedHeap} {t : Thing} {clone : WeighedHeap → Ref → Option (Ref × WeighedHeap)}
    (hext : Extends s₀ s)
    (hclone : ∀ x ∈ s₀.items r, ∀ s', Extends s₀ s' → Heap.Forest s'.toHeap → (∀ z, s'.size ≤ z → Right env s' z) →
      ∃ s'', clone s' x = some (s'.size, s'') ∧ CloneOf env s₀ x s' s'')
    (hroom : ((s₀.items r).map fun x => (s₀.thing x).clonedAmmo env).sum < 2 ^ 32) :
    ∀ {rest done s'}, done ++ rest = s₀.items r → Partly env s₀ s done t s' →
      Partly env s₀ s (s₀.items r) t (rest.foldl (addClone env clone s.size) s') := by
  intro rest
  induction rest with
  | nil =>
    intro done s' hlist h
    rw [List.append_nil] at hlist
    rw [← hlist]
    exact h
  | cons x rest ih =>
    intro done s' hlist h
    have hx : x ∈ s₀.items r := by
      rw [← hlist]
      exact List.mem_append_right _ (List.mem_cons_self ..)
    obtain ⟨s'', hrun, hof⟩ := hclone x hx s' (hext.trans h.ext) h.forest fun z hz => h.right z (h.lt.trans_le hz)
    have hadd : addClone env clone s.size s' x = s''.addItem env s.size s'.size := by rw [addClone, hrun]
    rw [List.foldl_cons, hadd]
    refine @ih (done ++ [x]) _ (by rw [List.append_assoc]; exact hlist) (h.add hof ?_)
    rw [← hlist, List.map_append, List.sum_append, List.map_cons, List.sum_cons] at hroom
    omega

theorem length_le_of_above (h : Heap.Forest s.toHeap) {l : List Ref} (hr : r < s.size) (habove : Climb.Above s.parent r l) :
    l.length ≤ s.size := by
  obtain ⟨l', hl', habove'⟩ := h.climb hr ⟨l, habove⟩
  rw [habove.unique habove']
  exact Climb.length_of_climb hl'

/-- The loop starts with a new container that holds nothing. -/
theorem partly_nil {s₀ : WeighedHeap} (hforest : Heap.Forest s.toHeap) (hfresh : ∀ z, s.size ≤ z → Right env s z)
    (t : Thing) {b : Option Box} (hb : b.isSome) : Partly env s₀ s [] t (s.create t b) := by
  have hnil : (s.create t b).items s.size = [] := items_of_ge hforest le_rfl
  have hinside {G : Type} [AddCommMonoid G] (worth : Ref → G) : inside (s.create t b).items worth s.size = 0 := by
    rw [inside, hnil]
    rfl
  refine ⟨extends_create s t b, Nat.lt_succ_self _, hforest.alloc t b, hforest.parent_of_ge le_rfl, ?_,
    Function.update_self .., fun z hz => right_create hforest hfresh t b hz.le, hinside _, hinside _, ?_⟩
  · change (Function.update s.box s.size b s.size).isSome
    rwa [Function.update_self]
  · rw [hinside]
    exact Function.update_self ..

/-- The total weight is taken over from the original. -/
theorem Partly.clone {s₀ : WeighedHeap} {t : Thing} (h : Partly env s₀ s (s₀.items r) t s') (hr : Right env s₀ r)
    (hown : t.getWeight env = s₀.own env r) (hammo : t.ammo env = (s₀.thing r).clonedAmmo env) :
    CloneOf env s₀ r s { s' with totalWeight := Function.update s'.totalWeight s.size (s₀.totalWeight r) } := by
  have hsame {y : Ref} (hy : y ≠ s.size) :
      Same s' { s' with totalWeight := Function.update s'.totalWeight s.size (s₀.totalWeight r) } y :=
    ⟨rfl, rfl, rfl, rfl, Function.update_of_ne hy .., rfl⟩
  have hmember {y z : Ref} (hy : y ∈ s'.items z) : y ≠ s.size := by
    rintro rfl
    exact h.forest.not_mem_of_root h.root z hy
  refine ⟨⟨h.ext.le, fun y hy => (h.ext.same y hy).trans (hsame hy.ne)⟩, h.lt, h.forest, h.root, fun z hz => ?_, ?_, ?_⟩
  · rcases Nat.eq_or_lt_of_le hz with rfl | hlt
    · refine ⟨?_, ?_⟩
      · refine (Function.update_self ..).trans (hr.totalWeight.trans (h.worth.symm.trans ?_))
        exact (inside_congr rfl fun y hy => (hsame (hmember hy)).worth).symm
      · exact h.ammoCount
    · exact (h.right z hlt).congr rfl (Function.update_of_ne hlt.ne' ..) rfl fun y hy => hsame (hmember hy)
  · change (s'.thing s.size).getWeight env + Function.update s'.totalWeight s.size (s₀.totalWeight r) s.size = _
    rw [Function.update_self, h.thing, hown]
    rfl
  · change (s'.thing s.size).ammo env = _
    rw [h.thing, hammo]

/-- An object that is no container is cloned alone. -/
theorem cloneOf_create {s₀ : WeighedHeap} (hforest : Heap.Forest s.toHeap) (hfresh : ∀ z, s.size ≤ z → Right env s z)
    {t : Thing} (htotal : s₀.totalWeight r = 0) (hown : t.getWeight env = s₀.own env r)
    (hammo : t.ammo env = (s₀.thing r).clonedAmmo env) (b : Option Box) : CloneOf env s₀ r s (s.create t b) := by
  have hthing : (s.create t b).thing s.size = t := Function.update_self ..
  refine ⟨extends_create s t b, Nat.lt_succ_self _, hforest.alloc t b, hforest.parent_of_ge le_rfl,
    fun z hz => right_create hforest hfresh t b hz, ?_, ?_⟩
  · rw [Pi.add_apply, Pi.add_apply, own, hthing, hown, htotal]
    exact congrArg _ (Function.update_self ..)
  · rw [ammo, hthing, hammo]

theorem exists_clone {s₀ : WeighedHeap} (h₀ : Sound env s₀) : ∀ {fuel r s l}, Extends s₀ s → Heap.Forest s.toHeap →
    (∀ z, s.size ≤ z → Right env s z) → r < s₀.size → Climb.Above s₀.parent r l → s₀.size < l.length + fuel →
      Clonable env s₀ r → ∃ s', clone env fuel s r = some (s.size, s') ∧ CloneOf env s₀ r s s' := by
  intro fuel
  induction fuel with
  | zero =>
    intro r s l _ _ _ hr habove hfuel
    have hlen := length_le_of_above h₀.toForest hr habove
    omega
  | succ fuel ih =>
    intro r s l hext hforest hfresh hr habove hfuel hclonable
    have hsame := hext.same r hr
    obtain ⟨cls, item, hmade, hcls, hweight⟩ := hclonable.kept r ⟨l, habove, habove.mem_self⟩
    obtain ⟨t, hclone, ht⟩ := Thing.clone_of_made hmade
    have hown : t.getWeight env = s₀.own env r := ht.getWeight.trans hweight
    have hammo : t.ammo env = (s₀.thing r).clonedAmmo env := by
      rw [ht.ammo, Thing.clonedAmmo, hmade]
    rw [WeighedHeap.clone, hsame.thing, hclone, Option.bind_eq_bind, Option.bind_some]
    dsimp only
    rw [hsame.box, hsame.items, hsame.totalWeight]
    split
    · rename_i hnone
      have htotal := h₀.totalWeight_of_not_box (Option.not_isSome_iff_eq_none.mpr (Option.isNone_iff_eq_none.mp hnone) |> Bool.eq_false_iff.mpr)
      exact ⟨_, rfl, cloneOf_create hforest hfresh htotal hown hammo _⟩
    · rename_i hbox
      have hb : (cls.map (Heap.newBox env.toGameEnv t.id)).isSome := by
        rw [Option.isSome_map, hcls]
        exact Option.isSome_iff_ne_none.mpr fun heq => hbox (Option.isNone_iff_eq_none.mpr heq)
      have hchild : ∀ x ∈ s₀.items r, ∀ s', Extends s₀ s' → Heap.Forest s'.toHeap →
          (∀ z, s'.size ≤ z → Right env s' z) →
          ∃ s'', WeighedHeap.clone env fuel s' x = some (s'.size, s'') ∧ CloneOf env s₀ x s' s'' :=
        fun x hx s' hext' hforest' hfresh' => ih hext' hforest' hfresh' (h₀.item_lt hx)
          (.step (h₀.parent_iff.mpr hx) habove) (by rw [List.length_cons]; omega) (hclonable.child h₀.toForest hx)
      have hpartly := partly_foldl hext hchild (hclonable.room r ⟨l, habove, habove.mem_self⟩) (List.nil_append _)
        (partly_nil hforest hfresh t hb)
      exact ⟨_, rfl, hpartly.clone (h₀.right r) hown hammo⟩

end WeighedHeap

end ForgottenServer
