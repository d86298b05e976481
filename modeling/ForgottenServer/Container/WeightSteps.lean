import Mathlib
import ForgottenServer.Container.Weight

/-! # Each change keeps the totals

An object comes into a container, leaves it, takes the place of another or changes its id and
its count. Each time only the container is off, by the difference that the code adds to it and
to everything above it. -/

open Subtotals

namespace ForgottenServer

namespace Thing

variable {env : WeightEnv}

/-- The id, the count and one attribute make the weight. -/
structure SameWeight (t t' : Thing) : Prop where
  id : t'.id = t.id
  count : t'.item.count = t.item.count
  has : t'.hasAttribute (.int .weight) = t.hasAttribute (.int .weight)
  weight : t.hasAttribute (.int .weight) → t'.item.getIntAttr .weight = t.item.getIntAttr .weight

theorem SameWeight.trans {t t' t'' : Thing} (h : SameWeight t t') (h' : SameWeight t' t'') : SameWeight t t'' :=
  ⟨h'.id.trans h.id, h'.count.trans h.count, h'.has.trans h.has,
    fun has => (h'.weight (h.has.trans has)).trans (h.weight has)⟩

theorem SameWeight.getWeight {t t' : Thing} (h : SameWeight t t') : t'.getWeight env = t.getWeight env := by
  have hbase : t'.getBaseWeight env = t.getBaseWeight env := by
    rw [getBaseWeight, getBaseWeight, h.has, h.id]
    split
    · rename_i has
      rw [h.weight has]
    · rfl
  rw [Thing.getWeight, Thing.getWeight, hbase, getItemCount, getItemCount, h.id, h.count]

theorem SameWeight.ammo {t t' : Thing} (h : SameWeight t t') : t'.ammo env = t.ammo env := by
  rw [Thing.ammo, Thing.ammo, getItemCount, getItemCount, h.id, h.count]

/-- The last attribute takes the place of the one that goes, so that every other one stays. -/
theorem hasAttribute_removeAttribute (t : Thing) (a : IntAttr) {k : AttrKind} (hk : k ≠ .int a) :
    (t.removeAttribute a).hasAttribute k = t.hasAttribute k := by
  rw [removeAttribute]
  split
  · rename_i ha
    rcases List.eq_nil_or_concat' t.kinds with hnil | ⟨init, last, hkinds⟩
    · rw [hasAttribute, hnil] at ha
      cases ha
    · rw [hasAttribute, hkinds, List.contains_iff_mem, List.mem_append, List.mem_singleton] at ha
      simp only [hasAttribute, hkinds, List.getLast?_append, List.getLast?_singleton, Option.some_or, List.dropLast_concat]
      rw [kinds, Option.getD_some, Bool.eq_iff_iff, List.contains_iff_mem, List.contains_iff_mem, List.mem_map,
        List.mem_append, List.mem_singleton]
      constructor
      · rintro ⟨x, hx, rfl⟩
        split
        · exact .inr rfl
        · exact .inl hx
      · rintro (hinit | rfl)
        · exact ⟨k, hinit, if_neg hk⟩
        · exact ⟨.int a, ha.resolve_right fun heq => hk heq.symm, if_pos rfl⟩
  · rfl

theorem sameWeight_removeAttribute (t : Thing) {a : IntAttr} (ha : a ≠ .weight) : SameWeight t (t.removeAttribute a) := by
  refine ⟨?_, ?_, hasAttribute_removeAttribute t a fun heq => ha (AttrKind.int.inj heq).symm, ?_⟩
  · rw [removeAttribute]
    split <;> rfl
  · rw [removeAttribute]
    split <;> rfl
  · rw [removeAttribute]
    split
    · exact fun _ => congrArg (Option.getD · 0) (Function.update_of_ne ha.symm ..)
    · exact fun _ => rfl

end Thing

namespace WeighedHeap

variable {env : WeightEnv} {s : WeighedHeap} {c r : Ref}

theorem Sound.above (h : Sound env s) (hc : (s.box c).isSome) : Climb.Above s.parent c (c :: s.parents c) :=
  h.toForest.above hc

/-! ## An object comes in -/

section Attach

variable {list : List Ref}

theorem Attachable.forest (h : Sound env s) (ha : Attachable s c r) (hlist : list.Perm (r :: s.items c)) :
    Heap.Forest (s.attach c r list) :=
  h.toForest.attach hlist ha.root ha.lt ha.box (h.above ha.box) ha.apart

theorem offAt_attach (h : Sound env s) (hlist : list.Perm (r :: s.items c)) :
    OffAt (s.attach c r list).items (s.own env) s.totalWeight c (s.getWeight env r) := by
  intro z
  rw [h.exact z]
  rcases eq_or_ne z c with rfl | hne
  · have hperm : ((s.attach z r list).items z).Perm (r :: s.items z) := by
      change (Function.update s.items z list z).Perm _
      rwa [Function.update_self]
    rw [if_pos rfl, inside_cons hperm, h.getWeight_eq, Pi.add_apply, add_comm]
  · rw [if_neg hne, add_zero]
    exact inside_congr (Function.update_of_ne hne ..) fun _ _ => rfl

theorem ammo_attach (h : Sound env s) (hlist : list.Perm (r :: s.items c)) (z : Ref) :
    Function.update s.ammoCount c (s.ammoCount c + s.ammo env r) z = inside (s.attach c r list).items (s.ammo env) z := by
  rcases eq_or_ne z c with rfl | hne
  · have hperm : ((s.attach z r list).items z).Perm (r :: s.items z) := by
      change (Function.update s.items z list z).Perm _
      rwa [Function.update_self]
    rw [Function.update_self, inside_cons hperm, h.ammoCount z, add_comm]
  · rw [Function.update_of_ne hne, h.ammoCount z]
    exact (inside_congr (Function.update_of_ne hne ..) fun _ _ => rfl).symm

/-- The object comes in, its ammunition is counted and its weight is added all the way up. -/
theorem Sound.attach (h : Sound env s) (ha : Attachable s c r) (hlist : list.Perm (r :: s.items c))
    (hroom : s.ammoCount c + s.ammo env r < 2 ^ 32) :
    let s' := ({ s with toHeap := s.attach c r list } : WeighedHeap).updateAmmoCount env c r (s.getItemCount r)
    ∃ s'', s'.updateItemWeight c (s'.getWeight env r) = some s'' ∧ Sound env s'' := by
  intro s'
  have hs' : s' = { toHeap := s.attach c r list
                    totalWeight := s.totalWeight
                    ammoCount := Function.update s.ammoCount c (s.ammoCount c + s.ammo env r) } :=
    updateAmmoCount_add hroom
  have hforest := ha.forest h hlist
  have habove : Climb.Above (s.attach c r list).parent c (c :: s.parents c) := (h.above ha.box).update ha.apart _
  rw [hs']
  obtain ⟨w, hupdate, hexact⟩ := updateItemWeight_of_off (s := { s with
      toHeap := s.attach c r list
      ammoCount := Function.update s.ammoCount c (s.ammoCount c + s.ammo env r) }) habove (h.length_above ha.box)
    hforest.nodup (fun y _ z => hforest.parent_iff.symm) (offAt_attach h hlist)
  exact ⟨_, hupdate, ⟨hforest, hexact, ammo_attach h hlist⟩⟩

end Attach

theorem Sound.addFront (h : Sound env s) (ha : Attachable s c r) (hroom : s.ammoCount c + s.ammo env r < 2 ^ 32) :
    ∃ s', s.addFront env c r = some s' ∧ Sound env s' :=
  h.attach ha (List.Perm.refl _) hroom

theorem Sound.addThing (h : Sound env s) (ha : Attachable s c r) (hroom : s.ammoCount c + s.ammo env r < 2 ^ 32)
    (index : Int) : ∃ s', s.addThing env c index r = some s' ∧ Sound env s' := by
  rw [WeighedHeap.addThing]
  split
  · exact ⟨s, rfl, h⟩
  · exact h.addFront ha hroom

theorem Sound.addItemBack (h : Sound env s) (ha : Attachable s c r) (hroom : s.ammoCount c + s.ammo env r < 2 ^ 32) :
    ∃ s', s.addItemBack env c r = some s' ∧ Sound env s' :=
  h.attach ha (List.perm_append_singleton r (s.items c)) hroom

/-! ## An object changes -/

section Change

variable {t : Thing}

theorem withThing_self : (s.withThing r t).thing r = t := Heap.setThing_self ..

theorem withThing_of_ne {y : Ref} (hy : y ≠ r) : (s.withThing r t).thing y = s.thing y := Heap.setThing_of_ne _ _ _ hy

theorem offAt_setThing (h : Sound env s) (hr : r ∈ s.items c) :
    OffAt s.items ((s.withThing r t).own env) s.totalWeight c
      (t.getWeight env - s.own env r) := by
  intro z
  have hself : (s.withThing r t).own env r = t.getWeight env := by
    rw [own, withThing_self]
  have hother {y : Ref} (hy : y ≠ r) : (s.withThing r t).own env y = s.own env y := by
    rw [own, withThing_of_ne hy, own]
  rw [h.exact z]
  rcases eq_or_ne z c with rfl | hne
  · have hchange : inside s.items ((s.withThing r t).own env + s.totalWeight) z + (s.own env + s.totalWeight) r =
        inside s.items (s.own env + s.totalWeight) z + ((s.withThing r t).own env + s.totalWeight) r :=
      inside_change (h.nodup z) hr fun y _ hy => by rw [Pi.add_apply, Pi.add_apply, hother hy]
    rw [Pi.add_apply, Pi.add_apply, hself] at hchange
    rw [if_pos rfl]
    refine add_right_cancel (b := s.own env r + s.totalWeight r) (hchange.trans ?_)
    abel
  · rw [if_neg hne, add_zero]
    refine inside_congr rfl fun y hy => ?_
    rw [Pi.add_apply, Pi.add_apply, hother]
    rintro rfl
    exact hne (h.eq_of_mem hr hy)

theorem ammo_setThing (h : Sound env s) (hr : r ∈ s.items c) (z : Ref) :
    Function.update s.ammoCount c (s.ammoCount c - s.ammo env r + t.ammo env) z =
      inside s.items ((s.withThing r t).ammo env) z := by
  have hself : (s.withThing r t).ammo env r = t.ammo env := by
    rw [ammo, withThing_self]
  have hother {y : Ref} (hy : y ≠ r) : (s.withThing r t).ammo env y = s.ammo env y := by
    rw [ammo, withThing_of_ne hy, ammo]
  rcases eq_or_ne z c with rfl | hne
  · have hchange : inside s.items ((s.withThing r t).ammo env) z + s.ammo env r =
        inside s.items (s.ammo env) z + t.ammo env := by
      rw [← hself]
      exact inside_change (h.nodup z) hr fun y _ hy => hother hy
    rw [Function.update_self, h.ammoCount z]
    have hle : s.ammo env r ≤ inside s.items (s.ammo env) z := List.single_le_sum (fun _ _ => Nat.zero_le _) _
      (List.mem_map_of_mem hr)
    omega
  · rw [Function.update_of_ne hne, h.ammoCount z]
    refine (inside_congr rfl fun y hy => hother ?_).symm
    rintro rfl
    exact hne (h.eq_of_mem hr hy)

/-- The difference in weight is that of the object without what it holds. -/
theorem getWeight_setThing_sub (s : WeighedHeap) (r : Ref) (t : Thing) :
    (s.withThing r t).getWeight env r - s.getWeight env r =
      t.getWeight env - s.own env r := by
  have hself : (s.withThing r t).own env r = t.getWeight env := by
    rw [own, withThing_self]
  rw [getWeight, getWeight, hself]
  change (if (s.box r).isSome then _ else _) - (if (s.box r).isSome then _ else _) = _
  split
  · exact add_sub_add_right_eq_sub ..
  · rfl

theorem forest_setThing (h : Sound env s) (r : Ref) (t : Thing) : Heap.Forest (s.setThing r t) :=
  ⟨h.item_lt, h.box_lt, h.holder, h.parent_iff, h.nodup, h.ends⟩

/-- The object changes, and the difference in weight is added all the way up. -/
theorem Sound.setThing (h : Sound env s) (hr : r ∈ s.items c) (t : Thing) :
    ∃ s', updateItemWeight { s.withThing r t with
        ammoCount := Function.update s.ammoCount c (s.ammoCount c - s.ammo env r + t.ammo env) } c
        (t.getWeight env - s.own env r) = some s' ∧ Sound env s' := by
  have hbox := h.holder hr
  obtain ⟨w, hupdate, hexact⟩ := updateItemWeight_of_off (s := { s.withThing r t with
      ammoCount := Function.update s.ammoCount c (s.ammoCount c - s.ammo env r + t.ammo env) })
    (h.above hbox) (h.length_above hbox) h.nodup (fun y _ z => h.parent_iff.symm) (offAt_setThing h hr)
  exact ⟨_, hupdate, ⟨forest_setThing h r t, hexact, ammo_setThing h hr⟩⟩

theorem Sound.ammo_le (h : Sound env s) (hr : r ∈ s.items c) : s.ammo env r ≤ s.ammoCount c := by
  rw [h.ammoCount c]
  exact List.single_le_sum (fun _ _ => Nat.zero_le _) _ (List.mem_map_of_mem hr)

end Change

/-- The ammunition is taken off and counted again, and the difference in weight is added. -/
theorem Sound.change (h : Sound env s) (hr : r ∈ s.items c) (t : Thing) :
    let s' : WeighedHeap := { s.withThing r t with ammoCount := Function.update s.ammoCount c (s.recount env c r t) }
    ∃ s'', s'.updateItemWeight c (s'.getWeight env r - s.getWeight env r) = some s'' ∧ Sound env s'' := by
  intro s'
  have hdiff : s'.getWeight env r - s.getWeight env r = t.getWeight env - s.own env r := getWeight_setThing_sub s r t
  rw [hdiff]
  exact h.setThing hr t

theorem Sound.updateThing (h : Sound env s) {itemId : UInt16} {count : BitVec 32}
    (hroom : r ∈ s.items c → s.recount env c r (s.updated env r itemId count) < 2 ^ 32) :
    ∃ s', s.updateThing env c r itemId count = some s' ∧ Sound env s' := by
  rw [WeighedHeap.updateThing]
  split
  · exact ⟨s, rfl, h⟩
  · rename_i hr
    rw [not_not] at hr
    have hless : s.updateAmmoCount env c r (-s.getItemCount r) =
        { s with ammoCount := Function.update s.ammoCount c (s.ammoCount c - s.ammo env r) } := updateAmmoCount_sub
    let t := s.updated env r itemId count
    let s' : WeighedHeap := { s.withThing r t with
      ammoCount := Function.update s.ammoCount c (s.ammoCount c - s.ammo env r) }
    have hthing : s'.thing r = t := withThing_self
    have hammo : (if (s'.type env.toGameEnv r).weaponType = .ammo then s'.getItemCount r else 0) = t.ammo env := by
      rw [Heap.type, Heap.getItemCount, hthing, Thing.ammo]
    have hmore : s'.updateAmmoCount env c r (s'.getItemCount r) =
        { s.withThing r t with ammoCount := Function.update s.ammoCount c (s.recount env c r t) } := by
      have hcount : s'.ammoCount c = s.ammoCount c - s.ammo env r := Function.update_self ..
      rw [updateAmmoCount_add, hammo, hcount, Function.update_idem]
      · rfl
      · rw [hammo, hcount]
        exact hroom hr
    obtain ⟨s'', hupdate, hsound⟩ := h.change hr t
    refine ⟨s'', ?_, hsound⟩
    rw [← hupdate, ← hmore, hless]
    rfl

/-- A stack is counted down, or with a count beyond 31 bits counted up. -/
theorem updateAmmoCount_recount (h : Sound env s) (hr : r ∈ s.items c) {n : Nat} (hn : n < 256)
    (hroom : s.recount env c r ((s.thing r).setItemCount n) < 2 ^ 32) :
    s.updateAmmoCount env c r (-((s.getItemCount r : Int) - n)) =
      { s with ammoCount := Function.update s.ammoCount c (s.recount env c r ((s.thing r).setItemCount n)) } := by
  have hcount : ((s.thing r).setItemCount n).getItemCount = n := by
    change (BitVec.ofNat 8 n).toNat = n
    rw [BitVec.toNat_ofNat, Nat.mod_eq_of_lt hn]
  have hle := h.ammo_le hr
  have hnew : ((s.thing r).setItemCount n).ammo env = if (s.type env.toGameEnv r).weaponType = .ammo then n else 0 := by
    rw [Thing.ammo, hcount]
    rfl
  have hold : s.ammo env r = if (s.type env.toGameEnv r).weaponType = .ammo then s.getItemCount r else 0 := rfl
  rw [recount, hnew] at hroom ⊢
  rw [hold] at hroom hle ⊢
  rcases Nat.le_total n (s.getItemCount r) with hless | hmore
  · obtain ⟨k, hk⟩ := Nat.exists_eq_add_of_le hless
    have hdiff : -((s.getItemCount r : Int) - n) = -(k : Int) := by omega
    rw [hdiff, updateAmmoCount_sub]
    congr 2
    split
    · rename_i hammo
      rw [if_pos hammo] at hle
      omega
    · rfl
  · obtain ⟨k, hk⟩ := Nat.exists_eq_add_of_le hmore
    have hdiff : -((s.getItemCount r : Int) - n) = (k : Int) := by omega
    have hsame : s.ammoCount c + (if (s.type env.toGameEnv r).weaponType = .ammo then k else 0) =
        s.ammoCount c - (if (s.type env.toGameEnv r).weaponType = .ammo then s.getItemCount r else 0) +
          if (s.type env.toGameEnv r).weaponType = .ammo then n else 0 := by
      split
      · rename_i hammo
        rw [if_pos hammo] at hle
        omega
      · rfl
    rw [hdiff, updateAmmoCount_add, hsame]
    rw [hsame]
    exact hroom

/-! ## An object leaves -/

theorem inside_erase {G : Type} [AddCommMonoid G] (hr : r ∈ s.items c) (worth : Ref → G) :
    inside s.items worth c = worth r + inside (s.erase c r).items worth c := by
  refine inside_cons ?_
  change (s.items c).Perm (r :: Function.update s.items c ((s.items c).erase r) c)
  rw [Function.update_self]
  exact List.perm_cons_erase hr

theorem offAt_erase (h : Sound env s) (hr : r ∈ s.items c) :
    OffAt (s.erase c r).items (s.own env) s.totalWeight c (-s.getWeight env r) := by
  intro z
  rw [h.exact z]
  rcases eq_or_ne z c with rfl | hne
  · rw [if_pos rfl, inside_erase hr (s.own env + s.totalWeight), h.getWeight_eq, Pi.add_apply]
    abel
  · rw [if_neg hne, add_zero]
    exact inside_congr (Function.update_of_ne hne ..) fun _ _ => rfl

theorem ammo_erase (h : Sound env s) (hr : r ∈ s.items c) (z : Ref) :
    Function.update s.ammoCount c (s.ammoCount c - s.ammo env r) z = inside (s.erase c r).items (s.ammo env) z := by
  rcases eq_or_ne z c with rfl | hne
  · rw [Function.update_self, h.ammoCount z, inside_erase hr (s.ammo env), Nat.add_sub_cancel_left]
  · rw [Function.update_of_ne hne, h.ammoCount z]
    exact (inside_congr (Function.update_of_ne hne ..) fun _ _ => rfl).symm

/-- The weight of an object is taken off before it leaves the list. -/
theorem Sound.erase (h : Sound env s) (hr : r ∈ s.items c) :
    ∃ w, s.updateItemWeight c (-s.getWeight env r) = some { s with totalWeight := w } ∧
      Sound env { toHeap := s.erase c r
                  totalWeight := w
                  ammoCount := Function.update s.ammoCount c (s.ammoCount c - s.ammo env r) } := by
  have hbox := h.holder hr
  have hforest := h.toForest.erase hr
  have hkids : ∀ y ∈ c :: s.parents c, ∀ z, y ∈ (s.erase c r).items z ↔ s.parent y = some z := by
    intro y hy z
    have hne : y ≠ r := by
      rintro rfl
      exact h.not_mem_above hr (h.above hbox) hy
    rw [h.mem_erase hr, h.parent_iff]
    exact ⟨And.left, fun hmem => ⟨hmem, hne⟩⟩
  obtain ⟨w, hupdate, hexact⟩ :=
    updateItemWeight_of_off (h.above hbox) (h.length_above hbox) hforest.nodup hkids (offAt_erase h hr)
  exact ⟨w, hupdate, ⟨hforest, hexact, ammo_erase h hr⟩⟩

theorem Sound.removeThing (h : Sound env s) {count : BitVec 32}
    (hroom : r ∈ s.items c → s.isStackable env.toGameEnv r → count.toNat ≠ s.getItemCount r →
      s.recount env c r ((s.thing r).setItemCount (s.newCount r count).toNat) < 2 ^ 32) :
    ∃ s', s.removeThing env c r count = some s' ∧ Sound env s' := by
  rw [WeighedHeap.removeThing]
  split
  · exact ⟨s, rfl, h⟩
  · rename_i hr
    rw [not_not] at hr
    split
    · rename_i hpart
      have hcount := updateAmmoCount_recount h hr (s.newCount r count).isLt (hroom hr hpart.1 hpart.2)
      obtain ⟨s'', hupdate, hsound⟩ := h.change hr ((s.thing r).setItemCount (s.newCount r count).toNat)
      refine ⟨s'', ?_, hsound⟩
      rw [← hupdate]
      dsimp only
      rw [hcount]
      rfl
    · obtain ⟨w, hupdate, hsound⟩ := h.erase hr
      refine ⟨_, ?_, hsound⟩
      rw [hupdate, Option.bind_eq_bind, Option.bind_some]
      dsimp only
      rw [updateAmmoCount_sub]
      rfl

/-! ## An object takes the place of another -/

section Replace

variable {index : Nat} {old : Ref}

theorem perm_set (h : Sound env s) (hold : (s.items c)[index]? = some old) :
    ((s.items c).set index r).Perm (r :: (s.items c).erase old) := by
  obtain ⟨hindex, rfl⟩ := List.getElem?_eq_some_iff.mp hold
  have hindex' : index < ((s.items c).set index r).length := by rwa [List.length_set]
  have hperm := List.getElem_cons_eraseIdx_perm hindex'
  rw [List.getElem_set_self, List.eraseIdx_set_eq] at hperm
  rw [(h.nodup c).erase_getElem]
  exact hperm.symm

/-- The heap after the change: the old object is gone and the new one has its place. -/
def replaced (s : WeighedHeap) (c r : Ref) (index : Nat) (old : Ref) : Heap :=
  (s.erase c old).attach c r ((s.items c).set index r)

theorem replaced_items (s : WeighedHeap) (c r : Ref) (index : Nat) (old : Ref) :
    (s.replaced c r index old).items = Function.update s.items c ((s.items c).set index r) := by
  change Function.update (Function.update s.items c _) c _ = _
  rw [Function.update_idem]

theorem replaced_parent (s : WeighedHeap) {c r : Ref} (index : Nat) {old : Ref} (hne : old ≠ r) :
    (s.replaced c r index old).parent = Function.update (Function.update s.parent r (some c)) old none :=
  (Function.update_comm hne.symm ..).symm

theorem replaced_eq (s : WeighedHeap) {c r : Ref} (index : Nat) {old : Ref} (hne : old ≠ r) :
    s.replaced c r index old = { s.toHeap with
      items := Function.update s.items c ((s.items c).set index r)
      parent := Function.update (Function.update s.parent r (some c)) old none } := by
  rw [← replaced_items, ← replaced_parent s index hne]
  rfl

theorem perm_replaced (h : Sound env s) (hold : (s.items c)[index]? = some old) :
    ((s.replaced c r index old).items c).Perm (r :: (s.erase c old).items c) := by
  rw [replaced_items, Function.update_self]
  change ((s.items c).set index r).Perm (r :: Function.update s.items c ((s.items c).erase old) c)
  rw [Function.update_self]
  exact perm_set h hold

theorem replaced_of_ne (s : WeighedHeap) {c z : Ref} (r : Ref) (index : Nat) (old : Ref) (hne : z ≠ c) :
    (s.replaced c r index old).items z = s.items z := by
  rw [replaced_items, Function.update_of_ne hne]

theorem forest_replaced (h : Sound env s) (ha : Attachable s c r) (hold : (s.items c)[index]? = some old) :
    Heap.Forest (s.replaced c r index old) := by
  have hmem := List.mem_of_getElem? hold
  have hne : r ≠ old := fun heq => h.not_mem_of_root ha.root c (heq ▸ hmem)
  have hlist : ((s.items c).set index r).Perm (r :: (s.erase c old).items c) := by
    change List.Perm _ (r :: Function.update s.items c ((s.items c).erase old) c)
    rw [Function.update_self]
    exact perm_set h hold
  have hroot : (s.erase c old).parent r = none := by
    change Function.update s.parent old none r = none
    rw [Function.update_of_ne hne]
    exact ha.root
  have habove : Climb.Above (s.erase c old).parent c (c :: s.parents c) :=
    (h.above ha.box).update (h.not_mem_above hmem (h.above ha.box)) none
  exact (h.toForest.erase hmem).attach hlist hroot ha.lt ha.box habove ha.apart

theorem offAt_replaced (h : Sound env s) (hold : (s.items c)[index]? = some old) :
    OffAt (s.replaced c r index old).items (s.own env) s.totalWeight c (s.getWeight env r - s.getWeight env old) := by
  intro z
  rw [h.exact z]
  rcases eq_or_ne z c with rfl | hne
  · rw [if_pos rfl, inside_cons (perm_replaced h hold), inside_erase (List.mem_of_getElem? hold) (s.own env + s.totalWeight),
      h.getWeight_eq, h.getWeight_eq, Pi.add_apply, Pi.add_apply]
    abel
  · rw [if_neg hne, add_zero]
    exact inside_congr (replaced_of_ne s r index old hne) fun _ _ => rfl

theorem ammo_replaced (h : Sound env s) (hold : (s.items c)[index]? = some old) (z : Ref) :
    Function.update s.ammoCount c (s.ammoCount c - s.ammo env old + s.ammo env r) z =
      inside (s.replaced c r index old).items (s.ammo env) z := by
  rcases eq_or_ne z c with rfl | hne
  · rw [Function.update_self, inside_cons (perm_replaced h hold), h.ammoCount z,
      inside_erase (List.mem_of_getElem? hold) (s.ammo env), Nat.add_sub_cancel_left, add_comm]
  · rw [Function.update_of_ne hne, h.ammoCount z]
    exact (inside_congr (replaced_of_ne s r index old hne) fun _ _ => rfl).symm

/-- The weight is put right before the old object loses its parent, which is not above the container. -/
theorem Sound.replace (h : Sound env s) (ha : Attachable s c r) (hold : (s.items c)[index]? = some old) :
    ∃ w, ({ s with toHeap := s.attach c r ((s.items c).set index r) } : WeighedHeap).updateItemWeight c
        (s.getWeight env r - s.getWeight env old) =
          some { s with toHeap := s.attach c r ((s.items c).set index r), totalWeight := w } ∧
      Sound env { toHeap := s.replaced c r index old
                  totalWeight := w
                  ammoCount := Function.update s.ammoCount c (s.ammoCount c - s.ammo env old + s.ammo env r) } := by
  have hmem := List.mem_of_getElem? hold
  have hne : old ≠ r := fun heq => h.not_mem_of_root ha.root c (heq ▸ hmem)
  have hforest := forest_replaced h ha hold
  have hkids : ∀ y ∈ c :: s.parents c, ∀ z, y ∈ (s.replaced c r index old).items z ↔
      Function.update s.parent r (some c) y = some z := by
    intro y hy z
    have hyold : y ≠ old := by
      rintro rfl
      exact h.not_mem_above hmem (h.above ha.box) hy
    rw [← hforest.parent_iff, replaced_parent s index hne, Function.update_of_ne hyold]
  have habove : Climb.Above (Function.update s.parent r (some c)) c (c :: s.parents c) := (h.above ha.box).update ha.apart _
  obtain ⟨w, hupdate, hexact⟩ := updateItemWeight_of_off
    (s := { s with toHeap := s.attach c r ((s.items c).set index r) }) habove (h.length_above ha.box) hforest.nodup hkids
    (offAt_replaced h hold)
  exact ⟨w, hupdate, ⟨hforest, hexact, ammo_replaced h hold⟩⟩

theorem Sound.replaceThing (h : Sound env s) {index : BitVec 32} (ha : Attachable s c r)
    (hroom : ∀ old ∈ (s.items c)[index.toNat]?, s.recount env c old (s.thing r) < 2 ^ 32) :
    ∃ s', s.replaceThing env c index r = some s' ∧ Sound env s' := by
  rw [WeighedHeap.replaceThing]
  split
  · exact ⟨s, rfl, h⟩
  · rename_i old hold
    obtain ⟨w, hupdate, hsound⟩ := h.replace ha hold
    have hne : old ≠ r := fun heq => h.not_mem_of_root ha.root c (heq ▸ List.mem_of_getElem? hold)
    let s' : WeighedHeap := { s with toHeap := s.attach c r ((s.items c).set index.toNat r), totalWeight := w }
    have hless : s'.updateAmmoCount env c old (-s'.getItemCount old) =
        { s' with ammoCount := Function.update s.ammoCount c (s.ammoCount c - s.ammo env old) } := updateAmmoCount_sub
    have hmore : ({ s' with ammoCount := Function.update s.ammoCount c (s.ammoCount c - s.ammo env old) } :
        WeighedHeap).updateAmmoCount env c r (s'.getItemCount r) =
        { s' with ammoCount := Function.update s.ammoCount c (s.ammoCount c - s.ammo env old + s.ammo env r) } := by
      have hcount : Function.update s.ammoCount c (s.ammoCount c - s.ammo env old) c = s.ammoCount c - s.ammo env old :=
        Function.update_self ..
      rw [updateAmmoCount_add]
      · dsimp only
        rw [hcount, Function.update_idem]
        rfl
      · dsimp only
        rw [hcount]
        exact hroom old hold
    refine ⟨_, ?_, hsound⟩
    change ((WeighedHeap.updateItemWeight _ c (s.getWeight env r - s.getWeight env old)).bind _) = _
    rw [hupdate, Option.bind_some]
    dsimp only
    rw [hless]
    dsimp only
    rw [hmore]
    exact congrArg (fun heap : Heap => some (WeighedHeap.mk heap w _)) (replaced_eq s index.toNat hne).symm

end Replace

/-! ## Other changes -/

/-- A change that keeps the weight and the ammunition of an object. -/
theorem Sound.withThing (h : Sound env s) (r : Ref) {t : Thing} (ht : Thing.SameWeight (s.thing r) t) :
    Sound env (s.withThing r t) := by
  have hthing (y : Ref) : Thing.SameWeight (s.thing y) ((s.withThing r t).thing y) := by
    rcases eq_or_ne y r with rfl | hne
    · rw [withThing_self]
      exact ht
    · rw [withThing_of_ne hne]
      exact ⟨rfl, rfl, rfl, fun _ => rfl⟩
  have hown : (s.withThing r t).own env = s.own env := funext fun y => (hthing y).getWeight
  have hammo : (s.withThing r t).ammo env = s.ammo env := funext fun y => (hthing y).ammo
  refine ⟨forest_setThing h r t, ?_, ?_⟩
  · rw [hown]
    exact h.exact
  · rw [hammo]
    exact h.ammoCount

theorem Sound.internalAddThing (h : Sound env s) (ha : Attachable s c r)
    (hroom : s.ammoCount c + s.ammo env r < 2 ^ 32) : ∃ s', s.internalAddThing env c r = some s' ∧ Sound env s' := by
  obtain ⟨s', hadd, hsound⟩ := h.addFront ha hroom
  rw [WeighedHeap.internalAddThing, hadd, Option.bind_eq_bind, Option.bind_some]
  split
  · exact ⟨_, rfl, hsound.withThing r (Thing.sameWeight_removeAttribute _ (by decide))⟩
  · exact ⟨_, rfl, hsound⟩

end WeighedHeap

end ForgottenServer
