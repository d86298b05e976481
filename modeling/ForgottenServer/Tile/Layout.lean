import Mathlib
import ForgottenServer.Tile.Tile

/-! # The layout of a tile -/

namespace ForgottenServer.Tiles

open Runs

variable {types : Nat → ItemType} {t : Tile} {downs tops : List Nat} {ref : Nat}

/-- The thing is on the tile in this role. -/
structure Fits (types : Nat → ItemType) (t : Tile) (role : Role) (ref : Nat) : Prop where
  parent : (t.things ref).parent = some t.this
  role : (t.things ref).role types = role
  made : (t.things ref).Made types

/-- The down items and the top items of the tile. -/
structure Inv (types : Nat → ItemType) (t : Tile) (downs tops : List Nat) : Prop where
  items : t.items = downs ++ tops
  count : t.downItemCount = downs.length
  size : (downs ++ tops).length ≤ 0xFFFF
  once : (t.ground.toList ++ ((downs ++ tops) ++ t.creatures)).Nodup
  ground : ∀ ref ∈ t.ground.toList, Fits types t .ground ref
  down : ∀ ref ∈ downs, Fits types t .plain ref
  top : ∀ ref ∈ tops, Fits types t .alwaysOnTop ref
  creature : ∀ ref ∈ t.creatures, Fits types t .creature ref

/-! ## Roles -/

theorem Fits.isCreature {role : Role} (h : Fits types t role ref) :
    (t.things ref).isCreature = decide (role = .creature) := by
  have hrole := h.role
  rw [Thing.role] at hrole
  split at hrole
  · rename_i hcreature
    rw [← hrole, hcreature]
    rfl
  · rename_i hitem
    rw [← hrole, Bool.eq_false_iff.mpr hitem, ItemType.role]
    split
    · rfl
    · split
      · rfl
      · rfl

theorem Fits.itemRole {role : Role} (h : Fits types t role ref) (hrole : role ≠ .creature) :
    (t.itemType types ref).role = role := by
  have heq := h.role
  rw [Thing.role, h.isCreature, if_neg (by simpa using hrole)] at heq
  exact heq

theorem role_alwaysOnTop {type : ItemType} (h : type.role = .alwaysOnTop) : type.alwaysOnTop = true := by
  rw [ItemType.role] at h
  split at h
  · cases h
  · split at h
    · assumption
    · cases h

theorem role_plain {type : ItemType} (h : type.role = .plain) : type.alwaysOnTop = false := by
  rw [ItemType.role] at h
  split at h
  · cases h
  · split at h
    · cases h
    · rename_i htop
      exact Bool.eq_false_iff.mpr htop

/-! ## Indices -/

namespace Inv

theorem downs_eq (h : Inv types t downs tops) : t.downs = downs := by
  rw [Tile.downs, h.items, h.count, List.take_left]

theorem tops_eq (h : Inv types t downs tops) : t.tops = tops := by
  rw [Tile.tops, h.items, h.count, List.drop_left]

theorem listed_eq (h : Inv types t downs tops) : t.listed = t.ground.toList ++ ((downs ++ tops) ++ t.creatures) := by
  rw [Tile.listed, h.items]

theorem mem_listed (h : Inv types t downs tops) :
    ref ∈ t.listed ↔ t.ground = some ref ∨ ref ∈ downs ∨ ref ∈ tops ∨ ref ∈ t.creatures := by
  rw [h.listed_eq, List.mem_append, List.mem_append, List.mem_append, Option.mem_toList]
  exact or_congr_right or_assoc

end Inv

/-- The things in the order of their indices. -/
def Tile.stack (t : Tile) : List Nat := t.ground.toList ++ (t.tops ++ (t.creatures ++ t.downs))

theorem Tile.stack_perm (t : Tile) : t.stack.Perm t.listed := by
  rw [Tile.stack, Tile.listed]
  refine List.Perm.append_left _ ?_
  have hitems : (t.tops ++ t.downs).Perm t.items := by
    conv_rhs => rw [← List.take_append_drop t.downItemCount t.items]
    exact List.perm_append_comm
  calc t.tops ++ (t.creatures ++ t.downs)
    _ |>.Perm (t.tops ++ (t.downs ++ t.creatures)) := List.Perm.append_left _ List.perm_append_comm
    _ = (t.tops ++ t.downs) ++ t.creatures := (List.append_assoc ..).symm
    _ |>.Perm (t.items ++ t.creatures) := hitems.append_right _

theorem Tile.length_stack (t : Tile) : t.stack.length = t.getThingCount := by
  rw [t.stack_perm.length_eq, Tile.listed, Tile.getThingCount, List.length_append, List.length_append]
  cases t.ground with
  | none =>
    simp only [Option.toList_none, List.length_nil, Option.isSome_none, Bool.false_eq_true, if_false]
    omega
  | some ground =>
    simp only [Option.toList_some, List.length_singleton, Option.isSome_some, if_true]
    omega

theorem Inv.getOther_eq (h : Inv types t downs tops) (index : Nat) :
    t.getOther index = (t.tops ++ (t.creatures ++ t.downs))[index]? := by
  have htops := h.tops_eq
  have hdowns := h.downs_eq
  rw [Tile.getOther, htops, hdowns, h.items, h.count]
  split
  · rename_i hlt
    rw [List.getElem?_append_right (Nat.le_add_right _ _), Nat.add_sub_cancel_left, List.getElem?_append_left hlt]
  · rename_i hge
    rw [List.getElem?_append_right (Nat.le_of_not_lt hge)]
    dsimp only
    split
    · rename_i hlt
      rw [List.getElem?_append_left hlt]
    · rename_i hge
      rw [List.getElem?_append_right (Nat.le_of_not_lt hge)]
      split
      · rename_i hlt
        rw [List.getElem?_append_left hlt]
      · rename_i hge
        rw [List.getElem?_eq_none (Nat.le_of_not_lt hge)]

theorem Inv.getThing_eq (h : Inv types t downs tops) (index : Nat) : t.getThing index = t.stack[index]? := by
  rw [Tile.getThing, Tile.stack]
  split
  · rename_i ground heq
    rw [heq, Option.toList_some, List.singleton_append, h.getOther_eq]
    split
    · rename_i hzero
      rw [hzero]
      rfl
    · rename_i hpos
      obtain ⟨i, rfl⟩ := Nat.exists_eq_succ_of_ne_zero hpos
      rfl
  · rename_i heq
    rw [heq, Option.toList_none, List.nil_append, h.getOther_eq]

theorem exists_idxOf? {l : List Nat} (h : ref ∈ l) : ∃ i, l.idxOf? ref = some i ∧ l[i]? = some ref := by
  cases hidx : l.idxOf? ref with
  | none => exact absurd h (List.idxOf?_eq_none_iff.mp hidx)
  | some i =>
    obtain ⟨hlt, heq, -⟩ := List.idxOf?_eq_some_iff.mp hidx
    exact ⟨i, rfl, List.getElem?_eq_some_iff.mpr ⟨hlt, heq⟩⟩

/-- The index of a thing is its place in the stack. -/
theorem Inv.getThingIndex_spec (h : Inv types t downs tops) (href : ref ∈ t.listed) :
    ∃ i, t.getThingIndex types ref = some i ∧ t.stack[i]? = some ref := by
  have hlength : t.ground.toList.length = if t.ground.isSome then 1 else 0 := by
    cases t.ground with
    | none => rfl
    | some ground => rfl
  by_cases hground : t.ground = some ref
  · refine ⟨0, if_pos hground, ?_⟩
    rw [Tile.stack, hground]
    rfl
  rw [Tile.getThingIndex, if_neg hground, ← hlength, Tile.stack]
  rcases (h.mem_listed.mp href).resolve_left hground with hdown | htop | hcreature
  · have hfits := h.down ref hdown
    obtain ⟨i, hidx, hget⟩ := exists_idxOf? hdown
    refine ⟨t.ground.toList.length + t.tops.length + t.creatures.length + i, ?_, ?_⟩
    · rw [hfits.isCreature, role_plain (hfits.itemRole (by decide)), h.downs_eq, hidx]
      rfl
    · rw [List.getElem?_append_right (by omega), List.getElem?_append_right (by omega),
        List.getElem?_append_right (by omega), h.downs_eq, ← hget]
      congr 1
      omega
  · have hfits := h.top ref htop
    obtain ⟨i, hidx, hget⟩ := exists_idxOf? htop
    obtain ⟨hlt, -⟩ := List.getElem?_eq_some_iff.mp hget
    refine ⟨t.ground.toList.length + i, ?_, ?_⟩
    · rw [hfits.isCreature, role_alwaysOnTop (hfits.itemRole (by decide)), h.tops_eq, hidx]
      rfl
    · rw [List.getElem?_append_right (by omega), Nat.add_sub_cancel_left, h.tops_eq, List.getElem?_append_left hlt, hget]
  · have hfits := h.creature ref hcreature
    obtain ⟨i, hidx, hget⟩ := exists_idxOf? hcreature
    obtain ⟨hlt, -⟩ := List.getElem?_eq_some_iff.mp hget
    refine ⟨t.ground.toList.length + t.tops.length + i, ?_, ?_⟩
    · rw [hfits.isCreature, hidx]
      rfl
    · rw [List.getElem?_append_right (by omega), List.getElem?_append_right (by omega),
        List.getElem?_append_left (by omega), ← hget]
      congr 1
      omega

theorem getThingIndex_eq_none (href : ref ∉ t.listed) : t.getThingIndex types ref = none := by
  have hitems (href' : ref ∈ t.items) : False := href (by simp [Tile.listed, href'])
  have hcreatures : ref ∉ t.creatures := fun href' => href (by simp [Tile.listed, href'])
  have htops : ref ∉ t.tops := fun href' => hitems (List.mem_of_mem_drop href')
  have hdowns : ref ∉ t.downs := fun href' => hitems (List.mem_of_mem_take href')
  rw [Tile.getThingIndex, if_neg fun heq => href (by simp [Tile.listed, heq]), List.idxOf?_eq_none_iff.mpr hcreatures,
    List.idxOf?_eq_none_iff.mpr htops, List.idxOf?_eq_none_iff.mpr hdowns]
  split
  · rfl
  · split
    · rfl
    · rfl

theorem Inv.layout (h : Inv types t downs tops) : Layout types t := by
  have hnodup : t.stack.Nodup := by
    rw [t.stack_perm.nodup_iff, h.listed_eq]
    exact h.once
  refine ⟨by rw [h.count, h.downs_eq], fun ref href => ?_, fun ref href => ?_, ?_, fun ref href => ?_, fun ref href => ?_,
    fun i hlt => ?_⟩
  · rw [h.downs_eq] at href
    exact role_plain ((h.down ref href).itemRole (by decide))
  · rw [h.tops_eq] at href
    exact role_alwaysOnTop ((h.top ref href).itemRole (by decide))
  · rw [h.listed_eq]
    exact h.once
  · rcases h.mem_listed.mp href with hground | hdown | htop | hcreature
    · exact (h.ground ref (Option.mem_toList.mpr hground)).parent
    · exact (h.down ref hdown).parent
    · exact (h.top ref htop).parent
    · exact (h.creature ref hcreature).parent
  · obtain ⟨i, hindex, hget⟩ := h.getThingIndex_spec href
    refine ⟨i, hindex, ?_, by rw [h.getThing_eq, hget]⟩
    rw [← t.length_stack]
    exact (List.getElem?_eq_some_iff.mp hget).1
  · rw [← t.length_stack] at hlt
    have hmem := t.stack_perm.mem_iff.mp (List.getElem_mem hlt)
    obtain ⟨j, hindex, hget⟩ := h.getThingIndex_spec hmem
    have hij : i = j := (List.getElem?_inj hlt hnodup).mp (by rw [hget, List.getElem?_eq_getElem hlt])
    subst hij
    exact ⟨t.stack[i], hmem, hindex⟩

/-! ## Changes of things -/

theorem things_change (f : Thing → Thing) : (t.change ref f).things ref = f (t.things ref) := Function.update_self ..

theorem things_change_of_ne (f : Thing → Thing) {ref' : Nat} (hne : ref' ≠ ref) :
    (t.change ref f).things ref' = t.things ref' := Function.update_of_ne hne ..

theorem things_setParent_of_ne (parent : Option Nat) {ref' : Nat} (hne : ref' ≠ ref) :
    (t.setParent ref parent).things ref' = t.things ref' := things_change_of_ne _ hne

theorem Fits.of_eq {t' : Tile} {role : Role} (h : Fits types t role ref) (hthing : t'.things ref = t.things ref)
    (hthis : t'.this = t.this) : Fits types t' role ref := by
  obtain ⟨hparent, hrole, hmade⟩ := h
  refine ⟨?_, ?_, ?_⟩
  · rwa [hthing, hthis]
  · rwa [hthing]
  · rwa [hthing]

/-- The tile has other lists, and no thing on it has changed. -/
theorem Inv.of_lists (h : Inv types t downs tops) {t' : Tile} {downs' tops' : List Nat} (hthis : t'.this = t.this)
    (hthings : ∀ r ∈ t'.ground.toList ++ ((downs' ++ tops') ++ t'.creatures), t'.things r = t.things r)
    (hitems : t'.items = downs' ++ tops') (hcount : t'.downItemCount = downs'.length)
    (hsize : (downs' ++ tops').length ≤ 0xFFFF)
    (honce : (t'.ground.toList ++ ((downs' ++ tops') ++ t'.creatures)).Nodup)
    (hground : ∀ r ∈ t'.ground.toList, r ∈ t.ground.toList) (hdown : ∀ r ∈ downs', r ∈ downs)
    (htop : ∀ r ∈ tops', r ∈ tops) (hcreature : ∀ r ∈ t'.creatures, r ∈ t.creatures) : Inv types t' downs' tops' := by
  refine ⟨hitems, hcount, hsize, honce, fun r hr => ?_, fun r hr => ?_, fun r hr => ?_, fun r hr => ?_⟩
  · exact (h.ground r (hground r hr)).of_eq (hthings r (by simp [hr])) hthis
  · exact (h.down r (hdown r hr)).of_eq (hthings r (by simp [hr])) hthis
  · exact (h.top r (htop r hr)).of_eq (hthings r (by simp [hr])) hthis
  · exact (h.creature r (hcreature r hr)).of_eq (hthings r (by simp [hr])) hthis

/-- A thing that is not on the tile may change. -/
theorem Inv.change (h : Inv types t downs tops) (href : ref ∉ t.listed) (f : Thing → Thing) :
    Inv types (t.change ref f) downs tops := by
  rw [h.listed_eq] at href
  refine h.of_lists rfl (fun r hr => things_change_of_ne f ?_) h.items h.count h.size h.once (fun _ => id) (fun _ => id)
    (fun _ => id) fun _ => id
  rintro rfl
  exact href hr

/-! ## `removeThing` -/

theorem perm_items {ground creatures items items' : List Nat} (h : items.Perm (ref :: items')) :
    (ground ++ (items ++ creatures)).Perm (ref :: (ground ++ (items' ++ creatures))) :=
  ((h.append_right creatures).append_left ground).trans List.perm_middle

theorem nodup_of_perm {all rest : List Nat} (h : all.Nodup) (hperm : all.Perm (ref :: rest)) :
    rest.Nodup ∧ ∀ r ∈ rest, r ≠ ref := by
  obtain ⟨hnotMem, hnodup⟩ := List.nodup_cons.mp (hperm.nodup_iff.mp h)
  refine ⟨hnodup, fun r hr => ?_⟩
  rintro rfl
  exact hnotMem hr

theorem Inv.remove_top (h : Inv types t downs tops) (href : ref ∈ tops) :
    Inv types { t.setParent ref none with items := downs ++ tops.erase ref } downs (tops.erase ref) := by
  obtain ⟨hnodup, hne⟩ := nodup_of_perm h.once
    (perm_items (((List.perm_cons_erase href).append_left downs).trans List.perm_middle))
  have hsize := h.size
  refine h.of_lists rfl (fun r hr => things_setParent_of_ne none (hne r hr)) rfl h.count ?_ hnodup (fun _ => id) (fun _ => id)
    (fun r hr => List.mem_of_mem_erase hr) fun _ => id
  rw [List.length_append] at hsize ⊢
  have hle := (List.erase_sublist (a := ref) (l := tops)).length_le
  omega

theorem Inv.remove_down (h : Inv types t downs tops) (href : ref ∈ downs) :
    Inv types
      { t.setParent ref none with
        items := downs.erase ref ++ tops, downItemCount := (t.downItemCount + (2 ^ 16 - 1)) % 2 ^ 16 }
      (downs.erase ref) tops := by
  obtain ⟨hnodup, hne⟩ := nodup_of_perm h.once (perm_items ((List.perm_cons_erase href).append_right tops))
  have hsize := h.size
  have hlength := List.length_erase_of_mem href
  have hpos := List.length_pos_of_mem href
  rw [List.length_append] at hsize
  refine h.of_lists rfl (fun r hr => things_setParent_of_ne none (hne r hr)) rfl ?_ ?_ hnodup (fun _ => id)
    (fun r hr => List.mem_of_mem_erase hr) (fun _ => id) fun _ => id
  · rw [hlength]
    change (t.downItemCount + (2 ^ 16 - 1)) % 2 ^ 16 = _
    rw [h.count]
    omega
  · rw [List.length_append]
    omega

theorem Inv.remove_ground (h : Inv types t downs tops) (href : t.ground = some ref) :
    Inv types { t.setParent ref none with ground := none } downs tops := by
  have honce := h.once
  rw [href] at honce
  obtain ⟨hnodup, hne⟩ := nodup_of_perm honce (List.Perm.refl _)
  exact h.of_lists rfl (fun r hr => things_setParent_of_ne none (hne r hr)) h.items h.count h.size hnodup
    (fun r hr => absurd hr List.not_mem_nil) (fun _ => id) (fun _ => id) fun _ => id

theorem Inv.remove_creature (h : Inv types t downs tops) :
    Inv types { t with creatures := t.creatures.erase ref } downs tops := by
  refine h.of_lists rfl (fun _ _ => rfl) h.items h.count h.size (h.once.sublist ?_) (fun _ => id) (fun _ => id)
    (fun _ => id) fun r hr => List.mem_of_mem_erase hr
  exact (List.erase_sublist.append_left _).append_left _

/-- The kinds of things stay as they are. -/
def SameKinds (t t' : Tile) : Prop :=
  ∀ ref, (t'.things ref).isCreature = (t.things ref).isCreature ∧ (t'.things ref).id = (t.things ref).id ∧
    (t'.things ref).isMagicField = (t.things ref).isMagicField

theorem sameKinds_refl (t : Tile) : SameKinds t t := fun _ => ⟨rfl, rfl, rfl⟩

theorem SameKinds.trans {t' t'' : Tile} (h : SameKinds t t') (h' : SameKinds t' t'') : SameKinds t t'' := fun ref =>
  ⟨(h' ref).1.trans (h ref).1, (h' ref).2.1.trans (h ref).2.1, (h' ref).2.2.trans (h ref).2.2⟩

theorem sameKinds_change {f : Thing → Thing} (hf : ∀ thing, (f thing).isCreature = thing.isCreature ∧
    (f thing).id = thing.id ∧ (f thing).isMagicField = thing.isMagicField) : SameKinds t (t.change ref f) := by
  intro ref'
  by_cases heq : ref' = ref
  · subst heq
    rw [things_change]
    exact hf _
  · rw [things_change_of_ne f heq]
    exact ⟨rfl, rfl, rfl⟩

theorem sameKinds_setParent (parent : Option Nat) : SameKinds t (t.setParent ref parent) :=
  sameKinds_change fun _ => ⟨rfl, rfl, rfl⟩

/-- A thing on the tile may change if it fits as before. -/
theorem Inv.change_of_fits (h : Inv types t downs tops) {f : Thing → Thing}
    (hf : ∀ role, Fits types t role ref → Fits types (t.change ref f) role ref) :
    Inv types (t.change ref f) downs tops := by
  have hfits {role : Role} {r : Nat} (hr : Fits types t role r) : Fits types (t.change ref f) role r := by
    by_cases heq : r = ref
    · subst heq
      exact hf role hr
    · exact hr.of_eq (things_change_of_ne _ heq) rfl
  exact ⟨h.items, h.count, h.size, h.once, fun r hr => hfits (h.ground r hr), fun r hr => hfits (h.down r hr),
    fun r hr => hfits (h.top r hr), fun r hr => hfits (h.creature r hr)⟩

theorem Inv.setItemCount (h : Inv types t downs tops) (newCount : Nat) :
    Inv types (t.change ref fun thing => { thing with itemCount := newCount }) downs tops := by
  refine h.change_of_fits fun role hfits => ⟨?_, ?_, ?_⟩
  · rw [things_change]
    exact hfits.parent
  · rw [things_change]
    exact hfits.role
  · rw [things_change]
    exact hfits.made

theorem Inv.removeThing (h : Inv types t downs tops) (ref count : Nat) :
    ∃ downs' tops', Inv types (t.removeThing types ref count) downs' tops' ∧ (∀ r ∈ downs', r ∈ downs) ∧
      (∀ r ∈ tops', r ∈ tops) ∧ SameKinds t (t.removeThing types ref count) := by
  rw [Tile.removeThing]
  dsimp only
  split
  · exact ⟨downs, tops, h.remove_creature, fun _ => id, fun _ => id, sameKinds_refl t⟩
  · split
    · exact ⟨downs, tops, h, fun _ => id, fun _ => id, sameKinds_refl t⟩
    · split
      · rename_i hground
        exact ⟨downs, tops, h.remove_ground hground, fun _ => id, fun _ => id, sameKinds_setParent none⟩
      · rw [h.downs_eq, h.tops_eq]
        split
        · split
          · rename_i href
            exact ⟨downs, tops.erase ref, h.remove_top href, fun _ => id, fun r hr => List.mem_of_mem_erase hr,
              sameKinds_setParent none⟩
          · exact ⟨downs, tops, h, fun _ => id, fun _ => id, sameKinds_refl t⟩
        · split
          · rename_i href
            split
            · exact ⟨downs, tops, h.setItemCount _, fun _ => id, fun _ => id, sameKinds_change fun _ => ⟨rfl, rfl, rfl⟩⟩
            · exact ⟨downs.erase ref, tops, h.remove_down href, fun r hr => List.mem_of_mem_erase hr, fun _ => id,
                sameKinds_setParent none⟩
          · exact ⟨downs, tops, h, fun _ => id, fun _ => id, sameKinds_refl t⟩

/-- A top item is removed whatever the count. -/
theorem Inv.removeThing_top (h : Inv types t downs tops) (href : ref ∈ tops) (count : Nat) :
    t.removeThing types ref count = { t.setParent ref none with items := downs ++ tops.erase ref } := by
  have hfits := h.top ref href
  have hground : t.ground ≠ some ref := by
    intro hground
    cases (h.ground ref (Option.mem_toList.mpr hground)).role.symm.trans hfits.role
  obtain ⟨i, hindex, -⟩ := h.getThingIndex_spec (h.mem_listed.mpr (.inr (.inr (.inl href))))
  rw [Tile.removeThing]
  dsimp only
  rw [hfits.isCreature, hindex, role_alwaysOnTop (hfits.itemRole (by decide)), h.downs_eq, h.tops_eq]
  simp only [reduceCtorEq, decide_false, Bool.false_eq_true, if_false, if_neg hground, if_true, if_pos href]

/-- A down item that is not stackable is removed whatever the count. -/
theorem Inv.removeThing_down (h : Inv types t downs tops) (href : ref ∈ downs)
    (hstackable : (t.itemType types ref).stackable = false) (count : Nat) :
    t.removeThing types ref count =
      { t.setParent ref none with
        items := downs.erase ref ++ tops, downItemCount := (t.downItemCount + (2 ^ 16 - 1)) % 2 ^ 16 } := by
  have hfits := h.down ref href
  have hground : t.ground ≠ some ref := by
    intro hground
    cases (h.ground ref (Option.mem_toList.mpr hground)).role.symm.trans hfits.role
  obtain ⟨i, hindex, -⟩ := h.getThingIndex_spec (h.mem_listed.mpr (.inr (.inl href)))
  rw [Tile.removeThing]
  dsimp only
  rw [hfits.isCreature, hindex, role_plain (hfits.itemRole (by decide)), h.downs_eq, h.tops_eq, hstackable]
  simp only [reduceCtorEq, decide_false, Bool.false_eq_true, if_false, if_neg hground, false_and, if_pos href]

/-! ## Old splashes and fields -/

/-- Something else has been taken off the tile, on which `ref` is not. -/
structure Cleared (t t' : Tile) (ref : Nat) : Prop where
  notMem : ref ∉ t'.listed
  thing : t'.things ref = t.things ref
  this : t'.this = t.this
  ground : t'.ground = t.ground
  kinds : SameKinds t t'

theorem Cleared.refl (href : ref ∉ t.listed) : Cleared t t ref := ⟨href, rfl, rfl, rfl, sameKinds_refl t⟩

/-- One thing at most fits. -/
def AtMostOne (p : Nat → Bool) (l : List Nat) : Prop := ∀ a ∈ l, ∀ b ∈ l, p a = true → p b = true → a = b

theorem AtMostOne.erase {p : Nat → Bool} {l : List Nat} (h : AtMostOne p l) (hnodup : l.Nodup) {old : Nat} (hold : old ∈ l)
    (hp : p old = true) : ∀ r ∈ l.erase old, p r = false := by
  intro r hr
  obtain ⟨hne, hr⟩ := hnodup.mem_erase_iff.mp hr
  refine Bool.eq_false_iff.mpr fun hpr => hne (h r hr old hold hpr hp)

theorem Inv.nodup_downs (h : Inv types t downs tops) : downs.Nodup :=
  h.once.sublist (((List.sublist_append_left downs tops).trans (List.sublist_append_left _ _)).trans
    (List.sublist_append_right _ _))

theorem Inv.nodup_tops (h : Inv types t downs tops) : tops.Nodup :=
  h.once.sublist (((List.sublist_append_right downs tops).trans (List.sublist_append_left _ _)).trans
    (List.sublist_append_right _ _))

/-- The parent of what has been taken off is reset. -/
theorem Inv.clear {t' : Tile} {old : Nat} (h' : Inv types t' downs tops) (honce : t.listed.Nodup)
    (hperm : t.listed.Perm (old :: t'.listed)) (hthings : t'.things = (t.setParent old none).things)
    (hthis : t'.this = t.this) (hground : t'.ground = t.ground) (href : ref ∉ t.listed) :
    Inv types (t'.setParent old none) downs tops ∧ Cleared t (t'.setParent old none) ref := by
  obtain ⟨-, hne⟩ := nodup_of_perm honce hperm
  have hold : ref ≠ old := by
    rintro rfl
    exact href (hperm.mem_iff.mpr List.mem_cons_self)
  refine ⟨h'.change (fun hmem => hne old hmem rfl) _, ⟨fun hmem => ?_, ?_, hthis, hground, ?_⟩⟩
  · exact href (hperm.mem_iff.mpr (List.mem_cons_of_mem _ hmem))
  · rw [things_setParent_of_ne none hold, hthings]
    exact things_setParent_of_ne none hold
  · refine @SameKinds.trans t t' _ ?_ (sameKinds_setParent none)
    intro r
    rw [hthings]
    exact sameKinds_setParent none r

theorem Inv.removeOldSplash (h : Inv types t downs tops) (href : ref ∉ t.listed) :
    ∃ tops', Inv types (t.removeOldSplash types) downs tops' ∧ tops'.Sublist tops ∧
      Cleared t (t.removeOldSplash types) ref ∧
      (AtMostOne (fun r => (t.itemType types r).isSplash) tops → ∀ r ∈ tops', (t.itemType types r).isSplash = false) := by
  rw [Tile.removeOldSplash, h.tops_eq]
  split
  · rename_i hnone
    refine ⟨tops, h, List.Sublist.refl _, Cleared.refl href, fun _ r hr => ?_⟩
    exact Bool.eq_false_iff.mpr (List.find?_eq_none.mp hnone r hr)
  · rename_i old hfind
    have hold := List.mem_of_find?_eq_some hfind
    have hsplash := @List.find?_some _ (fun r => (t.itemType types r).isSplash) _ _ hfind
    have hremoved := h.remove_top hold
    have hperm : t.listed.Perm (old :: Tile.listed { t.setParent old none with items := downs ++ tops.erase old }) := by
      rw [h.listed_eq]
      exact perm_items (((List.perm_cons_erase hold).append_left downs).trans List.perm_middle)
    rw [h.removeThing_top hold]
    obtain ⟨hinv, hcleared⟩ := hremoved.clear (h.listed_eq ▸ h.once) hperm rfl rfl rfl href
    exact ⟨tops.erase old, hinv, List.erase_sublist, hcleared, fun hone => hone.erase h.nodup_tops hold hsplash⟩

/-- A magic field that is not stackable is removed as a whole. -/
theorem Inv.removeOldField (h : Inv types t downs tops) (href : ref ∉ t.listed)
    (hfields : ∀ id, (types id).isMagicField = true → (types id).stackable = false) {t' : Tile}
    (hsome : t.removeOldField types = some t') :
    ∃ downs', Inv types t' downs' tops ∧ downs'.Sublist downs ∧ Cleared t t' ref ∧
      (AtMostOne (fun r => (t.things r).isMagicField) downs → ∀ r ∈ downs', (t.things r).isMagicField = false) := by
  rw [Tile.removeOldField, h.downs_eq] at hsome
  split at hsome
  · rename_i hnone
    cases hsome
    refine ⟨downs, h, List.Sublist.refl _, Cleared.refl href, fun _ r hr => ?_⟩
    exact Bool.eq_false_iff.mpr (List.find?_eq_none.mp hnone r hr)
  · rename_i old hfind
    split at hsome
    · cases hsome
      have hold := List.mem_of_find?_eq_some hfind
      have hfield := @List.find?_some _ (fun r => (t.things r).isMagicField) _ _ hfind
      have hfits := h.down old hold
      have hstackable : (t.itemType types old).stackable = false := by
        refine hfields _ ?_
        have hmade := hfits.made hfits.isCreature
        exact hmade.symm.trans hfield
      have hremoved := h.remove_down hold
      have hperm : t.listed.Perm (old :: Tile.listed
          { t.setParent old none with
            items := downs.erase old ++ tops, downItemCount := (t.downItemCount + (2 ^ 16 - 1)) % 2 ^ 16 }) := by
        rw [h.listed_eq]
        exact perm_items ((List.perm_cons_erase hold).append_right tops)
      rw [h.removeThing_down hold hstackable]
      obtain ⟨hinv, hcleared⟩ := hremoved.clear (h.listed_eq ▸ h.once) hperm rfl rfl rfl href
      exact ⟨downs.erase old, hinv, List.erase_sublist, hcleared, fun hone => hone.erase h.nodup_downs hold hfield⟩
    · cases hsome

/-! ## `addThing` -/

theorem Inv.insertDown (h : Inv types t downs tops) (href : ref ∉ t.listed) (hfits : Fits types t .plain ref)
    (hsize : (downs ++ tops).length < 0xFFFF) : Inv types (t.insertDown ref) (ref :: downs) tops := by
  rw [h.listed_eq] at href
  have hfits' {role : Role} {r : Nat} (hr : Fits types t role r) : Fits types (t.insertDown ref) role r := hr.of_eq rfl rfl
  refine ⟨?_, ?_, hsize, ?_, fun r hr => hfits' (h.ground r hr), fun r hr => ?_, fun r hr => hfits' (h.top r hr),
    fun r hr => hfits' (h.creature r hr)⟩
  · rw [Tile.insertDown, h.items]
    rfl
  · change (t.downItemCount + 1) % 2 ^ 16 = downs.length + 1
    rw [h.count]
    rw [List.length_append] at hsize
    omega
  · exact (@perm_items ref _ _ _ _ (List.Perm.refl (ref :: (downs ++ tops)))).nodup_iff.mpr
      (List.nodup_cons.mpr ⟨href, h.once⟩)
  · rcases List.mem_cons.mp hr with rfl | hr
    · exact hfits' hfits
    · exact hfits' (h.down r hr)

theorem Inv.insertTop (h : Inv types t downs tops) (href : ref ∉ t.listed) (hfits : Fits types t .alwaysOnTop ref)
    (hsize : (downs ++ tops).length < 0xFFFF) :
    ∃ tops', Inv types (t.insertTop types ref) downs tops' ∧ tops'.Perm (ref :: tops) := by
  rw [h.listed_eq] at href
  rw [Tile.insertTop, h.downs_eq, h.tops_eq]
  dsimp only
  generalize hlower : (fun other =>
    decide ((t.itemType types other).alwaysOnTopOrder < (t.itemType types ref).alwaysOnTopOrder)) = lower
  have hperm : (tops.takeWhile lower ++ ref :: tops.dropWhile lower).Perm (ref :: tops) := by
    conv_rhs => rw [← List.takeWhile_append_dropWhile (p := lower) (l := tops)]
    exact List.perm_middle
  generalize tops.takeWhile lower ++ ref :: tops.dropWhile lower = tops' at hperm ⊢
  have hitems : (downs ++ tops').Perm (ref :: (downs ++ tops)) := (hperm.append_left downs).trans List.perm_middle
  have hfits' {role : Role} {r : Nat} (hr : Fits types t role r) :
      Fits types { t with items := downs ++ tops' } role r := hr.of_eq rfl rfl
  refine ⟨tops', ⟨rfl, h.count, ?_, ?_, fun r hr => hfits' (h.ground r hr), fun r hr => hfits' (h.down r hr),
    fun r hr => ?_, fun r hr => hfits' (h.creature r hr)⟩, hperm⟩
  · rw [hitems.length_eq]
    exact hsize
  · exact (perm_items hitems).nodup_iff.mpr (List.nodup_cons.mpr ⟨href, h.once⟩)
  · rcases List.mem_cons.mp (hperm.mem_iff.mp hr) with rfl | hr
    · exact hfits' hfits
    · exact hfits' (h.top r hr)

theorem Inv.addGround (h : Inv types t downs tops) (href : ref ∉ t.listed) (hfits : Fits types t .ground ref) :
    Inv types (t.addGround ref) downs tops := by
  rw [h.listed_eq] at href
  -- the tile without a ground
  have hadd {t' : Tile} (h' : Inv types t' downs tops) (hnone : t'.ground = none) (href' : ref ∉ (downs ++ tops) ++ t'.creatures)
      (hfits' : Fits types t' .ground ref) : Inv types { t' with ground := some ref } downs tops := by
    have honce := h'.once
    rw [hnone] at honce
    have hsame {role : Role} {r : Nat} (hr : Fits types t' role r) :
        Fits types { t' with ground := some ref } role r := hr.of_eq rfl rfl
    refine ⟨h'.items, h'.count, h'.size, List.nodup_cons.mpr ⟨href', honce⟩, fun r hr => ?_,
      fun r hr => hsame (h'.down r hr), fun r hr => hsame (h'.top r hr), fun r hr => hsame (h'.creature r hr)⟩
    obtain rfl := List.mem_singleton.mp hr
    exact hsame hfits'
  have hothers : ref ∉ (downs ++ tops) ++ t.creatures := fun hmem => href (List.mem_append_right _ hmem)
  rw [Tile.addGround]
  split
  · rename_i hnone
    exact hadd h hnone hothers hfits
  · rename_i old hsome
    have hne : ref ≠ old := by
      rintro rfl
      rw [hsome] at href
      exact href List.mem_cons_self
    exact @hadd { t.setParent old none with ground := none } (h.remove_ground hsome) rfl hothers
      (hfits.of_eq (things_setParent_of_ne none hne) rfl)

/-- One splash at most is among the top items, and one field among the down items. -/
structure One (types : Nat → ItemType) (t : Tile) (downs tops : List Nat) : Prop where
  splash : AtMostOne (fun r => (t.itemType types r).isSplash) tops
  field : AtMostOne (fun r => (t.things r).isMagicField) downs

theorem AtMostOne.mono {p p' : Nat → Bool} {l l' : List Nat} (h : AtMostOne p l) (hl : ∀ r ∈ l', r ∈ l)
    (hp : ∀ r ∈ l', p' r = true → p r = true) : AtMostOne p' l' := fun a ha b hb hpa hpb =>
  h a (hl a ha) b (hl b hb) (hp a ha hpa) (hp b hb hpb)

theorem AtMostOne.of_none {p : Nat → Bool} {l l' : List Nat} (hl : ∀ r ∈ l', r = ref ∨ r ∈ l)
    (hnone : ∀ r ∈ l, p r = false) : AtMostOne p l' := by
  have href {r : Nat} (hr : r ∈ l') (hp : p r = true) : r = ref := by
    rcases hl r hr with heq | hr
    · exact heq
    · rw [hnone r hr] at hp
      cases hp
  exact fun a ha b hb hpa hpb => (href ha hpa).trans (href hb hpb).symm

theorem AtMostOne.of_false {p : Nat → Bool} {l l' : List Nat} (h : AtMostOne p l) (hl : ∀ r ∈ l', r = ref ∨ r ∈ l)
    (hfalse : p ref = false) : AtMostOne p l' := by
  have hmem {r : Nat} (hr : r ∈ l') (hp : p r = true) : r ∈ l := by
    rcases hl r hr with rfl | hr
    · rw [hfalse] at hp
      cases hp
    · exact hr
  exact fun a ha b hb hpa hpb => h a (hmem ha hpa) b (hmem hb hpb) hpa hpb

theorem SameKinds.itemType {t' : Tile} (h : SameKinds t t') (r : Nat) : t'.itemType types r = t.itemType types r := by
  rw [Tile.itemType, Tile.itemType, Thing.type, Thing.type, (h r).2.1]

theorem One.mono {t' : Tile} {downs' tops' : List Nat} (h : One types t downs tops) (hkinds : SameKinds t t')
    (hdowns : ∀ r ∈ downs', r ∈ downs) (htops : ∀ r ∈ tops', r ∈ tops) : One types t' downs' tops' :=
  ⟨h.splash.mono htops fun r _ hp => by rwa [hkinds.itemType] at hp,
    h.field.mono hdowns fun r _ hp => by rwa [(hkinds r).2.2] at hp⟩

theorem Fits.of_cleared {t' : Tile} {role : Role} (h : Fits types t role ref) (hcleared : Cleared t t' ref) :
    Fits types t' role ref := h.of_eq hcleared.thing hcleared.this

theorem Inv.addItem (h : Inv types t downs tops) (href : ref ∉ t.listed)
    (hfits : Fits types t (t.itemType types ref).role ref) (hsize : (downs ++ tops).length < 0xFFFF)
    (hfields : ∀ id, (types id).isMagicField = true → (types id).stackable = false) :
    ∃ downs' tops', Inv types (t.addItem types ref) downs' tops' ∧
      (One types t downs tops → One types (t.addItem types ref) downs' tops') ∧
      (t.removeOldField types ≠ none → ref ∈ (t.addItem types ref).listed) := by
  rw [Tile.addItem]
  split
  · rename_i hground
    rw [ItemType.role, if_pos hground] at hfits
    have hinv := h.addGround href hfits
    refine ⟨downs, tops, hinv, fun hone => hone.mono ?_ (fun _ => id) fun _ => id, fun _ => hinv.mem_listed.mpr (.inl ?_)⟩
    · rw [Tile.addGround]
      split
      · exact sameKinds_refl t
      · exact sameKinds_setParent none
    · rw [Tile.addGround]
      split
      · rfl
      · rfl
  · rename_i hground
    split
    · rename_i htop
      rw [ItemType.role, if_neg hground, if_pos htop] at hfits
      split
      · obtain ⟨tops₁, h₁, hsub, hcleared, hnone⟩ := h.removeOldSplash href
        have hsize₁ : (downs ++ tops₁).length < 0xFFFF :=
          Nat.lt_of_le_of_lt (hsub.append_left downs).length_le hsize
        obtain ⟨tops₂, h₂, hperm⟩ := h₁.insertTop hcleared.notMem (hfits.of_cleared hcleared) hsize₁
        refine ⟨downs, tops₂, h₂, fun hone => ⟨?_, ?_⟩, fun _ => h₂.mem_listed.mpr (.inr (.inr (.inl ?_)))⟩
        · refine AtMostOne.of_none (fun r hr => List.mem_cons.mp (hperm.mem_iff.mp hr)) fun r hr => ?_
          have hfalse := hnone hone.splash r hr
          rw [← hcleared.kinds.itemType] at hfalse
          exact hfalse
        · exact hone.field.mono (fun _ => id) fun r _ hp => by rwa [← (hcleared.kinds r).2.2]
        · exact hperm.mem_iff.mpr List.mem_cons_self
      · rename_i hsplash
        obtain ⟨tops₂, h₂, hperm⟩ := h.insertTop href hfits hsize
        refine ⟨downs, tops₂, h₂, fun hone => ⟨?_, hone.field⟩, fun _ => h₂.mem_listed.mpr (.inr (.inr (.inl ?_)))⟩
        · exact hone.splash.of_false (fun r hr => List.mem_cons.mp (hperm.mem_iff.mp hr)) (Bool.eq_false_iff.mpr hsplash)
        · exact hperm.mem_iff.mpr List.mem_cons_self
    · rename_i htop
      rw [ItemType.role, if_neg hground, if_neg htop] at hfits
      split
      · rename_i hrefused
        refine ⟨downs, tops, h.change href _, fun hone => hone.mono (sameKinds_setParent none) (fun _ => id) fun _ => id,
          fun hsome => ?_⟩
        split at hrefused
        · exact absurd hrefused hsome
        · cases hrefused
      · rename_i t₁ hsome
        split at hsome
        · obtain ⟨downs₁, h₁, hsub, hcleared, hnone⟩ := h.removeOldField href hfields hsome
          have hsize₁ : (downs₁ ++ tops).length < 0xFFFF :=
            Nat.lt_of_le_of_lt (hsub.append_right tops).length_le hsize
          have hinv := h₁.insertDown hcleared.notMem (hfits.of_cleared hcleared) hsize₁
          refine ⟨ref :: downs₁, tops, hinv, fun hone => ⟨?_, ?_⟩, fun _ => hinv.mem_listed.mpr (.inr (.inl List.mem_cons_self))⟩
          · exact hone.splash.mono (fun _ => id) fun r _ hp => by rwa [← hcleared.kinds.itemType]
          · refine AtMostOne.of_none (fun r hr => List.mem_cons.mp hr) fun r hr => ?_
            have hfalse := hnone hone.field r hr
            rw [← (hcleared.kinds r).2.2] at hfalse
            exact hfalse
        · rename_i hfield
          cases hsome
          have hinv := h.insertDown href hfits hsize
          refine ⟨ref :: downs, tops, hinv, fun hone => ⟨hone.splash, ?_⟩,
            fun _ => hinv.mem_listed.mpr (.inr (.inl List.mem_cons_self))⟩
          refine hone.field.of_false (fun r hr => List.mem_cons.mp hr) ?_
          exact (hfits.made hfits.isCreature).trans (Bool.eq_false_iff.mpr hfield)

theorem Inv.addThing (h : Inv types t downs tops) (href : ref ∉ t.listed) (hmade : (t.things ref).Made types)
    (hfields : ∀ id, (types id).isMagicField = true → (types id).stackable = false) :
    ∃ downs' tops', Inv types (t.addThing types ref) downs' tops' ∧
      (One types t downs tops → One types (t.addThing types ref) downs' tops') ∧ Adds types t (.addThing ref) := by
  have hparent : Inv types (t.setParent ref (some t.this)) downs tops := h.change href _
  have hkinds : SameKinds t (t.setParent ref (some t.this)) := sameKinds_setParent _
  have hthing : (t.setParent ref (some t.this)).things ref = { t.things ref with parent := some t.this } :=
    things_change _
  rw [Adds, Tile.addThing]
  split
  · rename_i hcreature
    have hfits : Fits types (t.setParent ref (some t.this)) .creature ref := by
      refine ⟨?_, ?_, ?_⟩
      · rw [hthing]
        rfl
      · rw [hthing, Thing.role, if_pos hcreature]
      · rw [hthing]
        exact hmade
    have hsame {role : Role} {r : Nat} (hr : Fits types (t.setParent ref (some t.this)) role r) :
        Fits types { t.setParent ref (some t.this) with creatures := ref :: t.creatures } role r := hr.of_eq rfl rfl
    refine ⟨downs, tops, ⟨h.items, h.count, h.size, ?_, fun r hr => hsame (hparent.ground r hr),
      fun r hr => hsame (hparent.down r hr), fun r hr => hsame (hparent.top r hr), fun r hr => ?_⟩,
      fun hone => hone.mono hkinds (fun _ => id) fun _ => id,
      fun _ _ => List.mem_append_right _ (List.mem_append_right _ List.mem_cons_self)⟩
    · rw [h.listed_eq] at href
      have hperm : (t.ground.toList ++ ((downs ++ tops) ++ (ref :: t.creatures))).Perm
          (ref :: (t.ground.toList ++ ((downs ++ tops) ++ t.creatures))) :=
        (List.perm_middle.append_left _).trans List.perm_middle
      exact hperm.nodup_iff.mpr (List.nodup_cons.mpr ⟨href, h.once⟩)
    · rcases List.mem_cons.mp hr with rfl | hr
      · exact hsame hfits
      · exact hsame (hparent.creature r hr)
  · rename_i hitem
    split
    · rename_i hfull
      exact ⟨downs, tops, h, id, fun hroom => absurd hroom (Nat.not_lt.mpr hfull)⟩
    · rename_i hroom
      rw [h.items] at hroom
      have hfits : Fits types (t.setParent ref (some t.this)) ((t.setParent ref (some t.this)).itemType types ref).role ref := by
        refine ⟨?_, ?_, ?_⟩
        · rw [hthing]
          rfl
        · rw [Tile.itemType, hthing, Thing.role, if_neg hitem]
        · rw [hthing]
          exact hmade
      obtain ⟨downs', tops', h', hone, hadds⟩ := hparent.addItem href hfits (Nat.lt_of_not_le hroom) hfields
      refine ⟨downs', tops', h', fun h₀ => hone (h₀.mono hkinds (fun _ => id) fun _ => id), fun _ hreplaceable => hadds ?_⟩
      rw [Tile.removeOldField]
      split
      · exact Option.some_ne_none _
      · rename_i old hfind
        have hfield := @List.find?_some _ (fun r => ((t.setParent ref (some t.this)).things r).isMagicField) _ _ hfind
        rw [(hkinds old).2.2] at hfield
        rw [hkinds.itemType, if_pos (hreplaceable old (List.mem_of_find?_eq_some hfind) hfield)]
        exact Option.some_ne_none _

/-! ## `updateThing` -/

theorem setSubType_spec (n : Nat) (thing : Thing) :
    (thing.setSubType types n).isCreature = thing.isCreature ∧ (thing.setSubType types n).id = thing.id ∧
      (thing.setSubType types n).isMagicField = thing.isMagicField ∧
      (thing.setSubType types n).parent = thing.parent := by
  rw [Thing.setSubType]
  split
  · exact ⟨rfl, rfl, rfl, rfl⟩
  · split
    · exact ⟨rfl, rfl, rfl, rfl⟩
    · split
      · exact ⟨rfl, rfl, rfl, rfl⟩
      · exact ⟨rfl, rfl, rfl, rfl⟩

theorem Inv.updateThing (h : Inv types t downs tops) (itemId count : Nat)
    (hallowed : ref ∈ t.listed → (t.itemType types ref).role = (types itemId).role ∧
      (t.itemType types ref).isMagicField = (types itemId).isMagicField) :
    Inv types (t.updateThing types ref itemId count) downs tops ∧
      ((ref ∈ t.listed → (types itemId).isSplash = true → (t.itemType types ref).isSplash = true) →
        One types t downs tops → One types (t.updateThing types ref itemId count) downs tops) := by
  rw [Tile.updateThing]
  split
  · exact ⟨h, fun _ => id⟩
  · rename_i i hindex
    have href : ref ∈ t.listed := by
      by_contra href
      rw [getThingIndex_eq_none href] at hindex
      cases hindex
    obtain ⟨hrole, hmagic⟩ := hallowed href
    split
    · exact ⟨h, fun _ => id⟩
    · rename_i hitem
      generalize hf : (fun thing : Thing => Thing.setSubType types (count % 2 ^ 16) { thing with id := itemId }) = f
      have hthing : (t.change ref f).things ref =
          Thing.setSubType types (count % 2 ^ 16) { t.things ref with id := itemId } := by
        rw [things_change, ← hf]
      obtain ⟨hcreature, hid, hflag, hparent⟩ := @setSubType_spec types (count % 2 ^ 16) { t.things ref with id := itemId }
      rw [← hthing] at hcreature hid hflag hparent
      refine ⟨h.change_of_fits fun role hfits => ⟨hparent.trans hfits.parent, ?_, fun _ => ?_⟩, fun hsplash hone => ⟨?_, ?_⟩⟩
      · rw [← hfits.role, Thing.role, Thing.role, hcreature, if_neg hitem, if_neg hitem, Thing.type, hid]
        exact hrole.symm
      · rw [hflag, Thing.type, hid]
        exact (hfits.made (Bool.eq_false_iff.mpr hitem)).trans hmagic
      · refine hone.splash.mono (fun _ => id) fun r _ hp => ?_
        by_cases heq : r = ref
        · subst heq
          rw [Tile.itemType, Thing.type, hid] at hp
          exact hsplash href hp
        · rwa [Tile.itemType, things_change_of_ne f heq] at hp
      · refine hone.field.mono (fun _ => id) fun r _ hp => ?_
        by_cases heq : r = ref
        · subst heq
          rwa [hflag] at hp
        · rwa [things_change_of_ne f heq] at hp

/-! ## `replaceThing` -/

section Replace

variable {old : Nat}

/-- The new item gets the tile as its parent and the old one none. -/
def Tile.swapParents (t : Tile) (ref old : Nat) : Tile := (t.setParent ref (some t.this)).setParent old none

theorem things_swapParents {r : Nat} (href : r ≠ ref) (hold : r ≠ old) :
    (t.swapParents ref old).things r = t.things r :=
  (things_setParent_of_ne none hold).trans (things_setParent_of_ne _ href)

theorem sameKinds_swapParents : SameKinds t (t.swapParents ref old) :=
  (sameKinds_setParent _).trans (sameKinds_setParent _)

theorem fits_swapParents (hitem : (t.things ref).isCreature = false) (hmade : (t.things ref).Made types)
    (hne : ref ≠ old) : Fits types (t.swapParents ref old) (t.itemType types ref).role ref := by
  have hthing : (t.swapParents ref old).things ref = { t.things ref with parent := some t.this } :=
    (things_setParent_of_ne none hne).trans (things_change _)
  refine ⟨?_, ?_, ?_⟩
  · rw [hthing]
    rfl
  · rw [hthing, Thing.role, if_neg (by rw [hitem]; exact Bool.false_ne_true)]
    rfl
  · rw [hthing]
    exact hmade

/-- What else is on the tile is neither the old item nor the new one. -/
theorem ne_of_rest {all rest : List Nat} (honce : all.Nodup) (hperm : all.Perm (old :: rest)) (href : ref ∉ all) :
    (ref :: rest).Nodup ∧ ref ≠ old ∧ ∀ r ∈ rest, r ≠ ref ∧ r ≠ old := by
  obtain ⟨hnodup, hne⟩ := nodup_of_perm honce hperm
  have hrest : ref ∉ rest := fun hmem => href (hperm.mem_iff.mpr (List.mem_cons_of_mem _ hmem))
  refine ⟨List.nodup_cons.mpr ⟨hrest, hnodup⟩, ?_, fun r hr => ⟨?_, hne r hr⟩⟩
  · rintro rfl
    exact href (hperm.mem_iff.mpr List.mem_cons_self)
  · rintro rfl
    exact hrest hr

theorem Inv.replaceGround (h : Inv types t downs tops) (href : ref ∉ t.listed)
    (hitem : (t.things ref).isCreature = false) (hmade : (t.things ref).Made types) (hold : t.ground = some old)
    (hrole : (t.itemType types ref).role = .ground) : Inv types (t.replaceGround ref old) downs tops := by
  rw [h.listed_eq] at href
  have honce := h.once
  rw [hold] at honce href
  obtain ⟨hnodup, hneOld, hne⟩ := ne_of_rest honce (List.Perm.refl _) href
  have hsame {role : Role} {r : Nat} (hr : Fits types t role r) (hmem : r ∈ (downs ++ tops) ++ t.creatures) :
      Fits types (t.replaceGround ref old) role r :=
    hr.of_eq (things_swapParents (hne r hmem).1 (hne r hmem).2) rfl
  refine ⟨h.items, h.count, h.size, hnodup, fun r hr => ?_,
    fun r hr => hsame (h.down r hr) (List.mem_append_left _ (List.mem_append_left _ hr)),
    fun r hr => hsame (h.top r hr) (List.mem_append_left _ (List.mem_append_right _ hr)),
    fun r hr => hsame (h.creature r hr) (List.mem_append_right _ hr)⟩
  obtain rfl := List.mem_singleton.mp hr
  rw [← hrole]
  exact (fits_swapParents hitem hmade hneOld).of_eq rfl rfl

theorem perm_set {l : List Nat} {pos : Nat} (hlt : pos < l.length) (ref : Nat) :
    l.Perm (l[pos] :: l.eraseIdx pos) ∧ (l.set pos ref).Perm (ref :: l.eraseIdx pos) :=
  ⟨(List.getElem_cons_eraseIdx_perm hlt).symm, List.set_perm_cons_eraseIdx hlt ref⟩

theorem Inv.replaceItem_top (h : Inv types t downs tops) (href : ref ∉ t.listed)
    (hitem : (t.things ref).isCreature = false) (hmade : (t.things ref).Made types) {pos : Nat} (hlt : pos < tops.length)
    (hrole : (t.itemType types ref).role = .alwaysOnTop) :
    Inv types (t.replaceItem ref tops[pos] (downs ++ tops.set pos ref)) downs (tops.set pos ref) := by
  rw [h.listed_eq] at href
  obtain ⟨hold, hnew⟩ := perm_set hlt ref
  obtain ⟨hnodup, hneOld, hne⟩ := ne_of_rest h.once
    (perm_items ((hold.append_left downs).trans List.perm_middle)) href
  have hsame {role : Role} {r : Nat} (hr : Fits types t role r)
      (hmem : r ∈ t.ground.toList ++ ((downs ++ tops.eraseIdx pos) ++ t.creatures)) :
      Fits types (t.replaceItem ref tops[pos] (downs ++ tops.set pos ref)) role r :=
    hr.of_eq (things_swapParents (hne r hmem).1 (hne r hmem).2) rfl
  refine ⟨rfl, h.count, ?_, ?_, fun r hr => hsame (h.ground r hr) (List.mem_append_left _ hr),
    fun r hr => hsame (h.down r hr) (List.mem_append_right _ (List.mem_append_left _ (List.mem_append_left _ hr))), fun r hr => ?_,
    fun r hr => hsame (h.creature r hr) (List.mem_append_right _ (List.mem_append_right _ hr))⟩
  · have hsize := h.size
    rwa [List.length_append, List.length_set, ← List.length_append]
  · exact (perm_items ((hnew.append_left downs).trans List.perm_middle)).nodup_iff.mpr hnodup
  · rcases List.mem_cons.mp (hnew.mem_iff.mp hr) with rfl | hr
    · rw [← hrole]
      exact (fits_swapParents hitem hmade hneOld).of_eq rfl rfl
    · exact hsame (h.top r (List.mem_of_mem_eraseIdx hr))
        (List.mem_append_right _ (List.mem_append_left _ (List.mem_append_right _ hr)))

theorem Inv.replaceItem_down (h : Inv types t downs tops) (href : ref ∉ t.listed)
    (hitem : (t.things ref).isCreature = false) (hmade : (t.things ref).Made types) {pos : Nat} (hlt : pos < downs.length)
    (hrole : (t.itemType types ref).role = .plain) :
    Inv types (t.replaceItem ref downs[pos] (downs.set pos ref ++ tops)) (downs.set pos ref) tops := by
  rw [h.listed_eq] at href
  obtain ⟨hold, hnew⟩ := perm_set hlt ref
  obtain ⟨hnodup, hneOld, hne⟩ := ne_of_rest h.once (perm_items (hold.append_right tops)) href
  have hsame {role : Role} {r : Nat} (hr : Fits types t role r)
      (hmem : r ∈ t.ground.toList ++ ((downs.eraseIdx pos ++ tops) ++ t.creatures)) :
      Fits types (t.replaceItem ref downs[pos] (downs.set pos ref ++ tops)) role r :=
    hr.of_eq (things_swapParents (hne r hmem).1 (hne r hmem).2) rfl
  refine ⟨rfl, ?_, ?_, ?_, fun r hr => hsame (h.ground r hr) (List.mem_append_left _ hr), fun r hr => ?_,
    fun r hr => hsame (h.top r hr) (List.mem_append_right _ (List.mem_append_left _ (List.mem_append_right _ hr))),
    fun r hr => hsame (h.creature r hr) (List.mem_append_right _ (List.mem_append_right _ hr))⟩
  · rw [List.length_set]
    exact h.count
  · have hsize := h.size
    rwa [List.length_append, List.length_set, ← List.length_append]
  · exact (perm_items (hnew.append_right tops)).nodup_iff.mpr hnodup
  · rcases List.mem_cons.mp (hnew.mem_iff.mp hr) with rfl | hr
    · rw [← hrole]
      exact (fits_swapParents hitem hmade hneOld).of_eq rfl rfl
    · exact hsame (h.down r (List.mem_of_mem_eraseIdx hr))
        (List.mem_append_right _ (List.mem_append_left _ (List.mem_append_left _ hr)))

theorem AtMostOne.set {p : Nat → Bool} {l : List Nat} (h : AtMostOne p l) {pos : Nat} (hlt : pos < l.length)
    (hnodup : l.Nodup) (hp : p ref = true → p l[pos] = true) : AtMostOne p (l.set pos ref) := by
  obtain ⟨hold, hnew⟩ := perm_set hlt ref
  obtain ⟨-, hne⟩ := nodup_of_perm hnodup hold
  have hmem {r : Nat} (hr : r ∈ l.set pos ref) : r = ref ∨ r ∈ l ∧ r ≠ l[pos] :=
    (List.mem_cons.mp (hnew.mem_iff.mp hr)).imp id fun hr => ⟨List.mem_of_mem_eraseIdx hr, hne r hr⟩
  -- the new item has the property only if the old one had it, and then no other has it
  have halone {r : Nat} (hr : r ∈ l ∧ r ≠ l[pos]) (hpr : p r = true) (hpref : p ref = true) : False :=
    hr.2 (h r hr.1 l[pos] (List.getElem_mem hlt) hpr (hp hpref))
  intro a ha b hb hpa hpb
  rcases hmem ha with rfl | ha
  · rcases hmem hb with rfl | hb
    · rfl
    · exact (halone hb hpb hpa).elim
  · rcases hmem hb with heq | hb
    · rw [heq] at hpb
      exact (halone ha hpa hpb).elim
    · exact h a ha.1 b hb.1 hpa hpb

theorem Inv.replaceOther (h : Inv types t downs tops) (href : ref ∉ t.listed)
    (hitem : (t.things ref).isCreature = false) (hmade : (t.things ref).Made types) {pos : Nat}
    (hrole : ∀ old, t.getOther pos = some old → (t.things old).isCreature = false →
      (t.itemType types old).role = (t.itemType types ref).role) :
    ∃ downs' tops', Inv types (t.replaceOther pos ref) downs' tops' ∧
      ((∀ old, t.getOther pos = some old → (t.things old).isCreature = false →
          ((t.itemType types ref).isSplash = true → (t.itemType types old).isSplash = true) ∧
            ((t.things ref).isMagicField = true → (t.things old).isMagicField = true)) →
        One types t downs tops → One types (t.replaceOther pos ref) downs' tops') := by
  rw [h.getOther_eq] at hrole ⊢
  obtain rfl := h.tops_eq
  obtain rfl := h.downs_eq
  rw [Tile.replaceOther]
  split
  · rename_i hlt
    have hget : (t.tops ++ (t.creatures ++ t.downs))[pos]? = some t.tops[pos] := by
      rw [List.getElem?_append_left hlt, List.getElem?_eq_getElem hlt]
    have hfits := h.top _ (List.getElem_mem hlt)
    have hold := hrole _ hget hfits.isCreature
    refine ⟨t.downs, t.tops.set pos ref, h.replaceItem_top href hitem hmade hlt ?_, fun hturns hone => ⟨?_, ?_⟩⟩
    · rw [← hold]
      exact hfits.itemRole (by decide)
    · have hset := hone.splash.set hlt h.nodup_tops (hturns _ hget hfits.isCreature).1
      exact hset.mono (fun _ => id) fun r _ hp => (congrArg ItemType.isSplash (sameKinds_swapParents.itemType r)).symm.trans hp
    · exact hone.field.mono (fun _ => id) fun r _ hp => (sameKinds_swapParents r).2.2.symm.trans hp
  · rename_i hge
    dsimp only
    split
    · exact ⟨t.downs, t.tops, h, fun _ => id⟩
    · rename_i hge'
      split
      · rename_i hlt
        have hget : (t.tops ++ (t.creatures ++ t.downs))[pos]? =
            some t.downs[pos - t.tops.length - t.creatures.length] := by
          rw [List.getElem?_append_right (Nat.le_of_not_lt hge), List.getElem?_append_right (Nat.le_of_not_lt hge'),
            List.getElem?_eq_getElem hlt]
        have hfits := h.down _ (List.getElem_mem hlt)
        have hold := hrole _ hget hfits.isCreature
        refine ⟨t.downs.set _ ref, t.tops, h.replaceItem_down href hitem hmade hlt ?_, fun hturns hone => ⟨?_, ?_⟩⟩
        · rw [← hold]
          exact hfits.itemRole (by decide)
        · exact hone.splash.mono (fun _ => id) fun r _ hp =>
            (congrArg ItemType.isSplash (sameKinds_swapParents.itemType r)).symm.trans hp
        · have hset := hone.field.set hlt h.nodup_downs (hturns _ hget hfits.isCreature).2
          exact hset.mono (fun _ => id) fun r _ hp => (sameKinds_swapParents r).2.2.symm.trans hp
      · exact ⟨t.downs, t.tops, h, fun _ => id⟩

end Replace

theorem Inv.replaceThing (h : Inv types t downs tops) {index : Nat} (hallowed : Allowed types t (.replaceThing index ref)) :
    ∃ downs' tops', Inv types (t.replaceThing index ref) downs' tops' ∧
      (TurnsNone types t (.replaceThing index ref) →
        One types t downs tops → One types (t.replaceThing index ref) downs' tops') := by
  obtain ⟨href, hmade, hrole⟩ := hallowed
  rw [TurnsNone]
  rw [Tile.getThing] at hrole ⊢
  rw [Tile.replaceThing]
  split
  · exact ⟨downs, tops, h, fun _ => id⟩
  · rename_i hcreature
    have hitem := Bool.eq_false_iff.mpr hcreature
    split
    · rename_i old hground
      rw [hground] at hrole
      dsimp only at hrole
      split
      · rename_i hzero
        have hfits := h.ground old (Option.mem_toList.mpr hground)
        have hold := hrole old (if_pos hzero) hfits.isCreature
        refine ⟨downs, tops, h.replaceGround href hitem hmade hground ?_, fun _ hone =>
          hone.mono sameKinds_swapParents (fun _ => id) fun _ => id⟩
        rw [← hold]
        exact hfits.itemRole (by decide)
      · rename_i hpos
        rw [if_neg hpos] at hrole
        obtain ⟨downs', tops', hinv, hone⟩ := h.replaceOther href hitem hmade hrole
        exact ⟨downs', tops', hinv, hone⟩
    · rename_i hground
      rw [hground] at hrole
      exact h.replaceOther href hitem hmade hrole

/-! ## Runs -/

theorem Inv.step (h : Inv types t downs tops) (hfields : ∀ id, (types id).isMagicField = true → (types id).stackable = false)
    {e : Event} (hallowed : Allowed types t e) :
    ∃ downs' tops', Inv types (step types t e) downs' tops' ∧
      (TurnsNone types t e → One types t downs tops → One types (step types t e) downs' tops') ∧ Adds types t e := by
  cases e with
  | addThing ref =>
    obtain ⟨downs', tops', hinv, hone, hadds⟩ := h.addThing hallowed.1 hallowed.2 hfields
    exact ⟨downs', tops', hinv, fun _ => hone, hadds⟩
  | updateThing ref itemId count =>
    obtain ⟨hinv, hone⟩ := h.updateThing itemId count hallowed
    exact ⟨downs, tops, hinv, hone, trivial⟩
  | replaceThing index ref =>
    obtain ⟨downs', tops', hinv, hone⟩ := h.replaceThing hallowed
    exact ⟨downs', tops', hinv, hone, trivial⟩
  | removeThing ref count =>
    obtain ⟨downs', tops', hinv, hdowns, htops, hkinds⟩ := h.removeThing ref count
    exact ⟨downs', tops', hinv, fun _ hone => hone.mono hkinds hdowns htops, trivial⟩

theorem Inv.oneOfEach (h : Inv types t downs tops) (hone : One types t downs tops) : OneOfEach types t := by
  refine ⟨?_, ?_⟩
  · rw [h.tops_eq]
    exact hone.splash
  · rw [h.downs_eq]
    exact hone.field

/-- A tile with nothing on it. -/
def Tile.empty (this : Nat) (things : Nat → Thing) : Tile := { this, things }

theorem inv_empty (this : Nat) (things : Nat → Thing) : Inv types (Tile.empty this things) [] [] :=
  ⟨rfl, rfl, Nat.zero_le _, List.nodup_nil, fun _ hr => absurd hr List.not_mem_nil, fun _ hr => absurd hr List.not_mem_nil,
    fun _ hr => absurd hr List.not_mem_nil, fun _ hr => absurd hr List.not_mem_nil⟩

theorem one_empty (this : Nat) (things : Nat → Thing) : One types (Tile.empty this things) [] [] :=
  ⟨fun _ ha => absurd ha List.not_mem_nil, fun _ ha => absurd ha List.not_mem_nil⟩

/-- In every run from an empty tile the layout is kept and what is added is on the tile. There is at most one splash among
the top items and at most one magic field among the down items while no update turns another item into one. -/
theorem layout_run (hfields : ∀ id, (types id).isMagicField = true → (types id).stackable = false) (this : Nat)
    (things : Nat → Thing) {es : List Event} (hrun : Along (step types) (Allowed types) (Tile.empty this things) es) :
    Along (step types) (fun t e => Layout types (step types t e) ∧ Adds types t e) (Tile.empty this things) es ∧
      (Along (step types) (TurnsNone types) (Tile.empty this things) es →
        Along (step types) (fun t e => OneOfEach types (step types t e)) (Tile.empty this things) es) := by
  constructor
  · refine (Along.of_invariant (fun t => ∃ downs tops, Inv types t downs tops) ?_ es _ ⟨[], [], inv_empty this things⟩ hrun).1
    intro t e ⟨downs, tops, hinv⟩ hallowed
    obtain ⟨downs', tops', hinv', -, hadds⟩ := hinv.step hfields hallowed
    exact ⟨⟨downs', tops', hinv'⟩, hinv'.layout, hadds⟩
  · intro hturns
    refine (Along.of_invariant (fun t => ∃ downs tops, Inv types t downs tops ∧ One types t downs tops) ?_ es _
      ⟨[], [], inv_empty this things, one_empty this things⟩ (Along.and es _ hrun hturns)).1
    intro t e ⟨downs, tops, hinv, hone⟩ ⟨hallowed, hturns⟩
    obtain ⟨downs', tops', hinv', hone', -⟩ := hinv.step hfields hallowed
    exact ⟨⟨downs', tops', hinv', hone' hturns hone⟩, hinv'.oneOfEach (hone' hturns hone)⟩

/-- Grounds, splashes and magic fields. -/
def someTypes : Nat → ItemType
  | 0 => { isGroundTile := true }
  | 1 => { alwaysOnTop := true, isSplash := true }
  | _ => { isMagicField := true }

def someThings : Nat → Thing
  | 0 => { id := 0 }
  | 1 => { id := 1 }
  | 2 => { id := 1 }
  | 3 => { id := 2, isMagicField := true }
  | 4 => { id := 2, isMagicField := true }
  | _ => { isCreature := true }

/-- A splash and a field are replaced, and the new field is removed. -/
theorem layout_run_replace :
    let es : List Event := [.addThing 0, .addThing 1, .addThing 3, .addThing 5, .addThing 2, .addThing 4, .removeThing 4 1]
    Along (step someTypes) (fun t e => Layout someTypes (step someTypes t e) ∧ Adds someTypes t e)
        (Tile.empty 0 someThings) es ∧
      (Along (step someTypes) (TurnsNone someTypes) (Tile.empty 0 someThings) es →
        Along (step someTypes) (fun t e => OneOfEach someTypes (step someTypes t e)) (Tile.empty 0 someThings) es) := by
  refine layout_run (fun id hfield => ?_) 0 someThings ?_
  · match id with
    | 0 => cases hfield
    | 1 => cases hfield
    | _ + 2 => rfl
  · exact ⟨⟨by decide, fun _ => rfl⟩, ⟨by decide, fun _ => rfl⟩, ⟨by decide, fun _ => rfl⟩, ⟨by decide, fun h => by cases h⟩,
      ⟨by decide, fun _ => rfl⟩, ⟨by decide, fun _ => rfl⟩, trivial, trivial⟩

/-- A magic field that is always on top, as the agony field is. -/
def agony : Nat → ItemType := fun _ => { alwaysOnTop := true, alwaysOnTopOrder := 1, isMagicField := true }

/-- The second agony field does not replace the first. -/
theorem not_replaced_agony :
    ¬ ∀ es : List Event,
      Along (step agony) (Allowed agony) (Tile.empty 0 fun _ => { isMagicField := true }) es →
        Along (step agony) (TurnsNone agony) (Tile.empty 0 fun _ => { isMagicField := true }) es →
          let t := es.foldl (step agony) (Tile.empty 0 fun _ => { isMagicField := true })
          ∀ a ∈ t.listed, ∀ b ∈ t.listed, (t.itemType agony a).isMagicField = true →
            (t.itemType agony b).isMagicField = true → a = b := by
  intro h
  have heq := h [.addThing 0, .addThing 1] ⟨⟨by decide, fun _ => rfl⟩, ⟨by decide, fun _ => rfl⟩, trivial⟩
    ⟨trivial, trivial, trivial⟩ 0 (by decide) 1 (by decide) rfl rfl
  cases heq

end ForgottenServer.Tiles
