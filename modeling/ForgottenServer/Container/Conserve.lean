import ForgottenServer.Container.Transfer

/-! # Transfers conserve items

When a transfer, from `removeThing` to `addThing`, keeps the total of every item id and leaves a
forest in which every stack has a count that its type allows. -/

namespace ForgottenServer

theorem Thing.compareAttributes_eq_true {t other : Thing} {ks : List AttrKind} :
    t.compareAttributes other ks = some true ↔ ∀ k ∈ ks, match k with
      | .str a => t.item.strs a = other.item.strs a
      | .int a => t.item.ints a = other.item.ints a
      | .custom => False := by
  induction ks with
  | nil => simp [compareAttributes]
  | cons k ks ih =>
    rw [List.forall_mem_cons, ← ih]
    cases k with
    | str a =>
      rw [compareAttributes]
      split <;> rename_i h <;> simp [h]
    | int a =>
      rw [compareAttributes]
      split <;> rename_i h <;> simp [h]
    | custom => simp [compareAttributes]

theorem Thing.equalsIgnoringInstance_symm {t other : Thing} (h : t.equalsIgnoringInstance other = some true) :
    other.equalsIgnoringInstance t = some true := by
  rw [equalsIgnoringInstance] at h
  split at h
  · cases h
  · rename_i hid
    split at h
    · cases h
    · rename_i hbits
      have hsame : sameBits t other = true := by simpa using hbits
      have hback : sameBits other t = true := by rwa [sameBits, Bool.and_comm]
      rw [equalsIgnoringInstance, if_neg (not_not.mpr (not_not.mp hid).symm), if_neg (by simp [hback]),
        compareAttributes_eq_true]
      rw [compareAttributes_eq_true] at h
      intro k hk
      have hmem : k ∈ t.kinds := by
        rw [sameBits, Bool.and_eq_true, List.all_eq_true] at hback
        simpa using hback.1 k hk
      have hk' := h k hmem
      cases k with
      | str a => exact hk'.symm
      | int a => exact hk'.symm
      | custom => exact hk'

namespace Heap

variable {env : GameEnv} {s : Heap}

/-- The same objects in the same containers, with the same ids and counts. -/
structure SameContents (s s' : Heap) : Prop where
  items : s'.items = s.items
  id : ∀ r, (s'.thing r).id = (s.thing r).id
  count : ∀ r, s'.getItemCount r = s.getItemCount r

/-- What a call must keep. The bounds on the stacks are part of `Valid`. -/
structure Conserves (env : GameEnv) (s : Heap) (o : Outcome) : Prop where
  forest : Valid env o.state
  total : ∀ id, o.state.total id = s.total id
  unchanged : o.ret ≠ some .noError → o.moved = 0 → SameContents s o.state

theorem Conserves.refused (h : Valid env s) (ret : Option ReturnValue) : Conserves env s { ret, state := s } :=
  ⟨h, fun _ => rfl, fun _ _ => ⟨rfl, fun _ => rfl, fun _ => rfl⟩⟩

/-! ## A stack -/

/-- How much of a stack joins the one at the destination. -/
def joinCount (env : GameEnv) (s : Heap) (d : Dest) (item : Ref) (m : Nat) (inst : UInt32) : Option Nat :=
  match d.destItem with
  | none => some 0
  | some toItem =>
    if (s.thing toItem).instanceId ≠ inst then some 0
    else ((s.thing item).equalsIgnoringInstance (s.thing toItem)).map fun equal =>
      if equal then min (s.getStackSize env toItem - s.getItemCount toItem) m else 0

theorem joinCount_le {d : Dest} {item : Ref} {m n : Nat} {inst : UInt32} (h : joinCount env s d item m inst = some n) :
    n ≤ m := by
  rw [joinCount] at h
  split at h
  · cases h
    exact Nat.zero_le _
  · split at h
    · cases h
      exact Nat.zero_le _
    · obtain ⟨equal, _, rfl⟩ := Option.map_eq_some_iff.mp h
      split
      · exact Nat.min_le_right _ _
      · exact Nat.zero_le _

theorem Taken.mergeInto {s' : Heap} {d : Dest} {item : Ref} {m : Nat} (inst : UInt32) (h : Valid env s)
    (ht : Taken env s s' item m) (htable : TableOk env) (hstack : s.isStackable env item = true)
    (hdest : ∀ {r}, d.destItem = some r → r ∈ s.items d.toCylinder) (hself : d.destItem ≠ some item) :
    match joinCount env s d item m inst with
    | none => s'.mergeInto env d item m inst = none
    | some n => ∃ s'', s'.mergeInto env d item m inst = some (s'', n) ∧ Joined env s' s'' item n := by
  rw [joinCount, Heap.mergeInto]
  cases hd : d.destItem with
  | none => exact ⟨s', rfl, ht.valid.joined_none item⟩
  | some toItem =>
    have hne : toItem ≠ item := fun heq => hself (hd.trans (heq ▸ rfl))
    have hother := ht.other hne
    simp only [hother]
    by_cases hinst : (s.thing toItem).instanceId ≠ inst
    · rw [if_pos hinst, if_pos hinst]
      exact ⟨s', rfl, ht.valid.joined_none item⟩
    · rw [if_neg hinst, if_neg hinst, ht.alike]
      cases hequal : (s.thing item).equalsIgnoringInstance (s.thing toItem) with
      | none => rfl
      | some equal =>
        cases equal with
        | false => exact ⟨s', rfl, ht.valid.joined_none item⟩
        | true =>
          have hid := Thing.id_eq_of_equalsIgnoringInstance hequal
          have hcount : s'.getItemCount toItem = s.getItemCount toItem := by rw [getItemCount, hother, getItemCount]
          have hsize : s'.getStackSize env toItem = s.getStackSize env toItem := by
            rw [getStackSize, getStackSize, isStackable, isStackable, type, type, hother]
          have hstack' : s.isStackable env toItem = true := by
            rw [isStackable, type, ← hid]
            exact hstack
          have hle : s.getItemCount toItem ≤ s.getStackSize env toItem := by
            rw [getStackSize_of_stackable hstack']
            exact (h.stack (hdest hd) hstack').2
          have hbyte : s.getStackSize env toItem < 256 := by
            rw [getStackSize_of_stackable hstack']
            exact UInt8.toNat_lt _
          have hroom : (s.getStackSize env toItem + 2 ^ 32 - s.getItemCount toItem) % 2 ^ 32 =
              s.getStackSize env toItem - s.getItemCount toItem := by
            rw [Nat.add_comm, Nat.add_sub_assoc hle, Nat.add_mod_left, Nat.mod_eq_of_lt (by omega)]
          simp only [Option.map_some, if_true, hcount, hsize, hroom]
          refine ⟨_, rfl, ?_⟩
          rw [← hcount, ← hother]
          refine ht.valid.joined_update htable (ht.listed hne (hdest hd)) hne ?_ ?_ ?_
          · rw [ht.id, hother]
            exact hid
          · rw [isStackable, type, ht.id]
            exact hstack
          · rw [hcount, hsize]
            omega

/-- A transfer of a part of a stack conserves items if all of it joins a stack, or the rest is
added below the capacity. -/
theorem transfer_stack (h : Valid env s) (htable : TableOk env) {fromCylinder item : Ref} {d : Dest} {m : Nat}
    {inst : UInt32} (ret : ReturnValue) (hfound : Found env s item inst d) (hmem : item ∈ s.items fromCylinder)
    (hstack : s.isStackable env item = true) (hpos : 0 < m) (hle : m ≤ s.getItemCount item)
    (hself : d.destItem ≠ some item) :
    (∃ o, s.transfer env fromCylinder d item m inst ret = some o ∧ Conserves env s o) ↔
      ∃ n, joinCount env s d item m inst = some n ∧ (n = m ∨ ¬ (s.capacity d.toCylinder : Int) ≤ d.index) := by
  have ht := h.taken hmem hstack hpos hle
  have hmerge := ht.mergeInto inst h htable hstack hfound.mem hself
  have hshare : s.share item m (s.thing item).id = m := if_pos rfl
  rw [transfer]
  simp only [hstack, if_true]
  cases hjoin : joinCount env s d item m inst with
  | none =>
    simp only [hjoin] at hmerge
    simp only [hmerge]
    -- the comparison threw after the items were taken
    refine ⟨?_, nofun⟩
    rintro ⟨o, ho, hkept⟩
    obtain rfl := Option.some.inj ho
    have htotal := ht.total (s.thing item).id
    rw [hkept.total, hshare] at htotal
    omega
  | some n =>
    simp only [hjoin] at hmerge
    obtain ⟨s'', hs'', hjoined⟩ := hmerge
    simp only [hs'']
    have hn := joinCount_le hjoin
    have hsum (id : UInt16) : s''.total id + s.share item (m - n) id = s.total id := by
      have htotal := ht.total id
      rw [hjoined.total, ← htotal]
      simp only [share, ht.id]
      split_ifs <;> omega
    by_cases hall : m - n = 0
    · -- everything joined the stack
      rw [if_pos hall]
      refine ⟨fun _ => ⟨n, rfl, .inl (by omega)⟩, fun _ => ⟨_, rfl, ?_⟩⟩
      refine ⟨hjoined.valid, fun id => ?_, fun _ hzero => absurd hzero hpos.ne'⟩
      have hid := hsum id
      rwa [hall, share_zero, Nat.add_zero] at hid
    · -- the rest is a clone
      have hthing : (s''.thing item).id = (s.thing item).id := by rw [hjoined.same, ht.id]
      have hstack'' : s''.isStackable env item = true := by
        rw [isStackable, type, hthing]
        exact hstack
      have hlt : item < s''.size := by
        rw [hjoined.size, ht.size]
        exact h.item_lt hmem
      have hrest : m - n ≤ s''.getStackSize env item := by
        have hcount := (h.stack hmem hstack).2
        rw [getStackSize_of_stackable hstack'', hthing]
        exact ((Nat.sub_le m n).trans hle).trans hcount
      obtain ⟨new, t, hclone, hcloned⟩ := hjoined.valid.cloned htable inst hlt hstack'' (Nat.pos_of_ne_zero hall) hrest
      have hbox : s''.box = s.box := hjoined.box.trans ht.box
      have hcap := capacity_congr (hcloned.box.trans hbox) d.toCylinder
      rw [if_neg hall, hclone]
      simp only [Option.bind_eq_bind, Option.bind_some]
      by_cases hindex : (s.capacity d.toCylinder : Int) ≤ d.index
      · rw [addThing_of_le (by rwa [hcap])]
        refine ⟨?_, ?_⟩
        · rintro ⟨o, ho, hkept⟩
          obtain rfl := Option.some.inj ho
          have htotal := hsum (s.thing item).id
          rw [← hcloned.total, hkept.total, share, if_pos rfl] at htotal
          omega
        · rintro ⟨n', hn', hor⟩
          obtain rfl := Option.some.inj hn'
          rcases hor with rfl | hor
          · exact absurd (Nat.sub_self _) hall
          · exact absurd hindex hor
      · obtain ⟨hvalid, htotal⟩ := hcloned.push (by rw [hbox]; exact hfound.isBox)
        rw [addThing_of_lt (by rwa [hcap]) hvalid.forest (by rw [hcloned.box, hbox]; exact hfound.isBox)]
        refine ⟨fun _ => ⟨n, rfl, .inr hindex⟩, fun _ => ⟨_, rfl, ?_⟩⟩
        refine ⟨hvalid, fun id => ?_, fun _ hzero => absurd hzero hpos.ne'⟩
        rw [htotal, ← hsum id, share, share, hthing]

/-! ## Everything else -/

theorem Valid.setInstanceID (h : Valid env s) (r : Ref) (inst : UInt32) :
    Valid env (s.setInstanceID r inst) ∧ (∀ id, (s.setInstanceID r inst).total id = s.total id) ∧
      SameContents s (s.setInstanceID r inst) := by
  have hthing (r' : Ref) : ((s.setInstanceID r inst).thing r').id = (s.thing r').id ∧
      (s.setInstanceID r inst).getItemCount r' = s.getItemCount r' := by
    rcases eq_or_ne r' r with rfl | hne
    · rw [getItemCount, Heap.setInstanceID, setThing_self]
      exact ⟨rfl, rfl⟩
    · rw [getItemCount, Heap.setInstanceID, setThing_of_ne _ _ _ hne]
      exact ⟨rfl, rfl⟩
  have hcontrib (id : UInt16) (r' : Ref) : (s.setInstanceID r inst).contrib id r' = s.contrib id r' := by
    rw [contrib, contrib, (hthing r').1, (hthing r').2]
  refine ⟨h.setThing rfl fun hlisted => ?_, fun id => ?_, rfl, fun r' => (hthing r').1, fun r' => (hthing r').2⟩
  · obtain ⟨c, hc⟩ := hlisted
    exact h.stack hc
  · exact total_congr id rfl rfl rfl (fun _ r' _ => hcontrib id r') fun r' _ => hcontrib id r'

/-- An object that is not a stack goes as a whole, unless the container is inside it. -/
theorem transfer_whole (h : Valid env s) {fromCylinder item : Ref} {d : Dest} {m : Nat} {inst : UInt32}
    (ret : ReturnValue) (hfound : Found env s item inst d) (hmem : item ∈ s.items fromCylinder)
    (hstack : s.isStackable env item = false) (hpos : 0 < m) :
    (∃ o, s.transfer env fromCylinder d item m inst ret = some o ∧ Conserves env s o) ↔
      item ∉ d.toCylinder :: s.parents d.toCylinder := by
  have hindex : ¬ (s.capacity d.toCylinder : Int) ≤ d.index := fun hle => by
    obtain ⟨r, hauto⟩ := hfound.index hle
    rw [hauto.stackable] at hstack
    cases hstack
  obtain ⟨hvalid, htotal, _⟩ := h.setInstanceID item inst
  have hremove : (s.removeThing env fromCylinder item m).setInstanceID item inst =
      (s.setInstanceID item inst).erase fromCylinder item := by
    rw [removeThing, if_neg (not_not.mpr hmem), if_neg (by simp [hstack])]
    rfl
  have hmem' : item ∈ (s.setInstanceID item inst).items fromCylinder := hmem
  have hindex' : ¬ ((((s.setInstanceID item inst).erase fromCylinder item).capacity d.toCylinder : Nat) : Int) ≤
      d.index := hindex
  have habove := h.above hfound.isBox
  rw [transfer, hremove]
  simp only [hstack, Bool.false_eq_true, if_false, Option.bind_eq_bind]
  by_cases hloop : item ∈ d.toCylinder :: s.parents d.toCylinder
  · obtain ⟨l, hl, hitem⟩ := habove.cut hloop
    have hl' : Climb.Above ((s.setInstanceID item inst).erase fromCylinder item).parent d.toCylinder l := hl
    rw [addThing_loop hindex' hl' hitem]
    refine ⟨fun hsome => ?_, fun hnot => absurd hloop hnot⟩
    obtain ⟨_, hnone, _⟩ := hsome
    cases hnone
  · have hloose := hvalid.erase hmem'
    have hpush := hloose.push (c := d.toCylinder) (Function.update_self ..) (h.place_of_listed hmem) (h.item_lt hmem)
      hfound.isBox (hvalid.stack hmem') (habove.update hloop none) hloop
    rw [addThing_of_lt hindex' hpush.forest hfound.isBox]
    refine ⟨fun _ => hloop, fun _ => ⟨_, rfl, hpush, fun id => ?_, fun _ hzero => absurd hzero hpos.ne'⟩⟩
    have hlt : d.toCylinder < ((s.setInstanceID item inst).erase fromCylinder item).size := h.box_lt hfound.isBox
    rw [total_push id hlt, ← htotal id, ← hvalid.total_erase id hmem']
    rfl

end Heap

end ForgottenServer
