import ForgottenServer.Container.Add
import ForgottenServer.Container.Conserve
import ForgottenServer.Container.Holdings

/-! # Added items arrive

A call of `internalAddItem` without an error puts the new item into the destination, but for the
remainder that it reports, unless the call `Forgets` a part of it. -/

namespace ForgottenServer

namespace Heap

variable {env : GameEnv} {s : Heap}

/-! ## What a call should do -/

/-- The container that an index of a call stands for: 254 is the one above. -/
def target (s : Heap) (dest : Ref) (index : Int) : Ref := if index = 254 then (s.parent dest).getD dest else dest

/-- An item that is nowhere yet, to be added to a container that is not inside it. -/
structure New (env : GameEnv) (s : Heap) (dest item : Ref) : Prop extends Loose env s item where
  root : s.parent item = none
  nowhere : s.place item = none
  lt : item < s.size
  isBox : (s.box dest).isSome
  outside : item ∉ dest :: s.parents dest
  count : s.isStackable env item → 1 ≤ s.getItemCount item

/-- After a call without an error the target holds the new item and what is inside it, but for
the remainder, and every stack has a count that its type allows. Any other call changes nothing. -/
structure Adds (env : GameEnv) (s : Heap) (target item : Ref) (test : Bool) (o : Added) : Prop where
  added : o.ret = some .noError → test = false → Valid env o.state ∧ ∀ id,
    o.state.holds id target + s.share item o.remainderCount id = s.holds id target + s.holds id item
  unchanged : (test = true ∨ ∃ ret, ret ≠ .noError ∧ o.ret = some ret) → o.state = s

/-! ## What a call may forget -/

/-- The checks let the item through to the destination `d`. -/
def Admits (env : GameEnv) (s : Heap) (dest item : Ref) (index : Int) (flags : BitVec 32) (d : Dest) : Prop :=
  ∃ n, s.addQuery env dest item index flags = some (.noError, d, n)

def Refused (env : GameEnv) (s : Heap) (dest item : Ref) (index : Int) (flags : BitVec 32) : Prop :=
  ∃ ret d n, ret ≠ .noError ∧ s.addQuery env dest item index flags = some (ret, d, n)

/-- The item joins no stack, or one that is full, so that it is added as it is. -/
def AddedWhole (env : GameEnv) (s : Heap) (d : Dest) (item : Ref) : Prop :=
  s.stackAt env d item = some none ∨
    ∃ toItem, s.stackAt env d item = some (some toItem) ∧ s.roomIn env toItem = 0

/-- Nothing is added beyond the capacity, and a stack may be too large. -/
def Misplaced (env : GameEnv) (s : Heap) (d : Dest) (item : Ref) : Prop :=
  AddedWhole env s d item ∧ ((s.capacity d.toCylinder : Int) ≤ d.index ∨
    s.isStackable env item ∧ s.getStackSize env item < s.getItemCount item)

/-- A part of the item joins a stack, and `new` is the rest of it. -/
def Splits (env : GameEnv) (s : Heap) (d : Dest) (item : Ref) (s' : Heap) (new : Ref) : Prop :=
  ∃ toItem, s.stackAt env d item = some (some toItem) ∧ 0 < s.roomIn env toItem ∧
    s.roomIn env toItem < s.getItemCount item ∧
    let filled := s.fill env d toItem (s.roomIn env toItem)
    ∃ t, clone env filled.size filled item = some (new, t) ∧
      s' = t.setItemCount new (s.getItemCount item - s.roomIn env toItem)

/-- Some of the item, or of what is left of it after a split, is not added or is misplaced. -/
inductive Forgotten (env : GameEnv) (dest : Ref) (flags : BitVec 32) : Heap → Ref → Int → Prop
  | refused {s item index} (h : Refused env s dest item index flags) : Forgotten env dest flags s item index
  | misplaced {s item index d} (hadm : Admits env s dest item index flags d) (h : Misplaced env s d item) :
      Forgotten env dest flags s item index
  | rest {s item index d s' new} (hadm : Admits env s dest item index flags d) (hsplit : Splits env s d item s' new)
      (h : Forgotten env dest flags s' new INDEX_WHEREEVER) : Forgotten env dest flags s item index

/-- The item is misplaced, or its remainder is accepted and then forgotten. -/
def Forgets (env : GameEnv) (s : Heap) (dest item : Ref) (index : Int) (flags : BitVec 32) : Prop :=
  ∃ d, Admits env s dest item index flags d ∧ (Misplaced env s d item ∨
    ∃ s' new, Splits env s d item s' new ∧ ¬ Refused env s' dest new INDEX_WHEREEVER flags ∧
      Forgotten env dest flags s' new INDEX_WHEREEVER)

/-! ## The destination -/

theorem autoStack_toCylinder {d d' : Dest} {item : Ref} {flags : BitVec 32} {inst : UInt32}
    (h : s.autoStack env d item flags inst = some d') : d'.toCylinder = d.toCylinder := by
  rw [autoStack] at h
  split at h
  · obtain rfl := Option.some.inj h
    rfl
  · obtain ⟨there, _, h⟩ := Option.bind_eq_some_iff.mp h
    split at h
    · obtain rfl := Option.some.inj h
      rfl
    · obtain ⟨found, _, h⟩ := Option.bind_eq_some_iff.mp h
      cases found with
      | none =>
        obtain rfl := Option.some.inj h
        rfl
      | some nr =>
        obtain rfl := Option.some.inj h
        rfl

/-- The item goes to the target or to a container in it. -/
theorem Forest.above_containerQueryDestination (h : Forest s) {d d' : Dest} {item : Ref} {flags : BitVec 32}
    {inst : UInt32} (hmem : ∀ {r}, d.destItem = some r → r ∈ s.items d.toCylinder)
    (hd' : s.containerQueryDestination env d item flags inst = some d') :
    s.target d.toCylinder d.index ∈ d'.toCylinder :: s.parents d'.toCylinder ∧
      (d.index = 254 → d'.destItem = none) := by
  rw [containerQueryDestination] at hd'
  split at hd'
  · rename_i hup
    obtain rfl := Option.some.inj hd'
    rw [target, if_pos hup]
    exact ⟨List.mem_cons_self .., fun _ => rfl⟩
  · rename_i hup
    rw [target, if_neg hup]
    refine ⟨?_, fun heq => absurd heq hup⟩
    -- the destination with the index in its range
    obtain ⟨e, he, hto, hemem⟩ : ∃ e : Dest,
        (if d.index = 255 ∨ (s.capacity d.toCylinder : Int) ≤ d.index then
          { toCylinder := d.toCylinder, index := INDEX_WHEREEVER } else d) = e ∧ e.toCylinder = d.toCylinder ∧
        ∀ {r}, e.destItem = some r → r ∈ s.items d.toCylinder := by
      refine ⟨_, rfl, ?_⟩
      split
      · refine ⟨rfl, fun hnone => ?_⟩
        cases hnone
      · exact ⟨rfl, hmem⟩
    simp only [he] at hd'
    have hhere {e' : Dest} (heq : e'.toCylinder = e.toCylinder) :
        d.toCylinder ∈ e'.toCylinder :: s.parents e'.toCylinder := by
      rw [heq, hto]
      exact List.mem_cons_self ..
    split at hd'
    · exact hhere (autoStack_toCylinder hd')
    · split at hd'
      · rename_i r hr
        split at hd'
        · obtain rfl := Option.some.inj hd'
          have hlisted : r ∈ s.items d.toCylinder := by
            change (s.getItemByIndex e.toCylinder e.index).or e.destItem = some r at hr
            cases hget : s.getItemByIndex e.toCylinder e.index with
            | none =>
              rw [hget] at hr
              exact hemem hr
            | some x =>
              rw [hget] at hr
              obtain rfl := Option.some.inj hr
              rw [← hto]
              exact mem_of_getItemByIndex hget
          rw [h.parents_of_listed hlisted]
          exact List.mem_cons_of_mem _ (List.mem_cons_self ..)
        · have hsame := autoStack_toCylinder hd'
          exact hhere hsame
      · have hsame := autoStack_toCylinder hd'
        exact hhere hsame

theorem Forest.above_trans (h : Forest s) {x y z : Ref} (hz : (s.box z).isSome) (hx : x ∈ y :: s.parents y)
    (hy : y ∈ z :: s.parents z) : x ∈ z :: s.parents z := by
  obtain ⟨l, hl, hsuffix⟩ := (h.above hz).of_mem hy
  have hbox : (s.box y).isSome := by
    rcases eq_or_ne y z with rfl | hne
    · exact hz
    · obtain ⟨w, hw⟩ := (h.above hz).exists_up hy hne
      exact h.holder (h.parent_iff.mp hw)
  rw [hl.unique (h.above hbox)] at hsuffix
  exact hsuffix.subset hx

theorem Forest.above_queryDestination (h : Forest s) {item : Ref} {flags : BitVec 32} {inst : UInt32} (fuel : Nat) :
    ∀ {d d' : Dest}, (s.box d'.toCylinder).isSome → (∀ {r}, d.destItem = some r → r ∈ s.items d.toCylinder) →
      s.queryDestination env fuel d item flags inst = some d' →
      s.target d.toCylinder d.index ∈ d'.toCylinder :: s.parents d'.toCylinder ∧
        (d.index = 254 → d'.destItem = none) := by
  induction fuel with
  | zero => exact fun _ hmem hd' => h.above_containerQueryDestination hmem hd'
  | succ fuel ih =>
    intro d d' hbox hmem hd'
    rw [queryDestination] at hd'
    split at hd'
    · rename_i hchest
      split at hd'
      · -- a box of the depot chest
        rename_i r hr
        have hr := List.mem_of_find?_eq_some hr
        have habove : r ∈ d'.toCylinder :: s.parents d'.toCylinder := by
          refine (ih (d := { toCylinder := r, index := INDEX_WHEREEVER }) hbox (fun hnone => ?_) hd').1
          cases hnone
        have hup : d.index ≠ 254 := by
          rw [hchest.2.2]
          decide
        refine ⟨h.above_trans hbox ?_ habove, fun heq => absurd heq hup⟩
        rw [target, if_neg hup, h.parents_of_listed hr]
        exact List.mem_cons_of_mem _ (List.mem_cons_self ..)
      · exact h.above_containerQueryDestination hmem hd'
    · exact h.above_containerQueryDestination hmem hd'

/-! ## What the checks tell -/

theorem le_of_queryMaxCount {c item : Ref} {index : Int} {count n : Nat} {flags : BitVec 32}
    (hstack : s.isStackable env item = true) (h : s.queryMaxCount env c index item count flags = some (.noError, n)) :
    count ≤ n := by
  rw [queryMaxCount] at h
  split at h
  · obtain rfl := congrArg Prod.snd (Option.some.inj h)
    exact Nat.le_max_right ..
  · simp only at h
    obtain ⟨space, _, h⟩ := Option.bind_eq_some_iff.mp h
    have hpair := Option.some.inj h
    obtain ⟨hret, rfl⟩ := Prod.mk.inj hpair
    split at hret
    · cases hret
    · rename_i hge
      exact Nat.not_lt.mp hge

theorem of_addQuery {dest item : Ref} {index : Int} {flags : BitVec 32} {d : Dest} {n : Nat}
    (h : s.addQuery env dest item index flags = some (.noError, d, n)) :
    s.queryDestination env s.size { toCylinder := dest, index } item flags
        (s.getDestinationInstanceId dest (s.thing item).instanceId) = some d ∧
      (s.isStackable env item = true → s.getItemCount item ≤ n) := by
  obtain ⟨d', hdest, h⟩ := Option.bind_eq_some_iff.mp h
  obtain ⟨ret, hadd, h⟩ := Option.bind_eq_some_iff.mp h
  split at h
  · rename_i hne
    exact absurd (congrArg Prod.fst (Option.some.inj h)) hne
  · obtain ⟨⟨ret', n'⟩, hmax, h⟩ := Option.bind_eq_some_iff.mp h
    cases h
    exact ⟨hdest, fun hstack => le_of_queryMaxCount hstack hmax⟩

/-- Where an item goes that the checks let through. -/
structure Aimed (env : GameEnv) (s : Heap) (dest item : Ref) (index : Int) (d : Dest) : Prop where
  isBox : (s.box d.toCylinder).isSome
  mem : ∀ {r}, d.destItem = some r → r ∈ s.items d.toCylinder
  stackable : (s.capacity d.toCylinder : Int) ≤ d.index → s.isStackable env item = true
  above : s.target dest index ∈ d.toCylinder :: s.parents d.toCylinder
  up : index = 254 → d.destItem = none
  outside : item ∉ d.toCylinder :: s.parents d.toCylinder

theorem Forest.target_above (h : Forest s) (dest : Ref) (index : Int) :
    s.target dest index ∈ dest :: s.parents dest := by
  rw [target]
  split
  · cases hp : s.parent dest with
    | none => exact List.mem_cons_self ..
    | some c =>
      rw [h.parents_of_listed (h.parent_iff.mp hp)]
      exact List.mem_cons_of_mem _ (List.mem_cons_self ..)
  · exact List.mem_cons_self ..

theorem New.aimed {dest item : Ref} (h : New env s dest item) {index : Int} {flags : BitVec 32} {d : Dest}
    (hadm : Admits env s dest item index flags d) : Aimed env s dest item index d := by
  obtain ⟨n, hquery⟩ := hadm
  obtain ⟨hdest, _⟩ := of_addQuery hquery
  have hnone {r : Ref} (hr : (none : Option Ref) = some r) : r ∈ s.items dest := nomatch hr
  obtain ⟨hfound, _⟩ := found_queryDestination h.forest s.size h.isBox hnone hdest
  obtain ⟨habove, hup⟩ := h.forest.above_queryDestination s.size hfound.isBox hnone hdest
  refine ⟨hfound.isBox, hfound.mem, fun hle => ?_, habove, hup, fun hmem => ?_⟩
  · obtain ⟨r, hauto⟩ := hfound.index hle
    exact hauto.stackable
  · -- the item would be the root of the target and of the container of the call
    obtain ⟨l, hl, _⟩ := (h.forest.above hfound.isBox).of_mem habove
    have hroot := (h.forest.above hfound.isBox).top_mem hmem h.root habove hl
    obtain ⟨l', hl', hsuffix⟩ := (h.forest.above h.isBox).of_mem (h.forest.target_above dest index)
    rw [hl.unique hl'] at hroot
    exact h.outside (hsuffix.subset hroot)

/-- An object equal to the item, in the container it goes to. -/
structure Alike (env : GameEnv) (s : Heap) (d : Dest) (item toItem : Ref) : Prop where
  stackable : s.isStackable env item = true
  destItem : d.destItem = some toItem
  mem : toItem ∈ s.items d.toCylinder
  ne : toItem ≠ item
  id : (s.thing item).id = (s.thing toItem).id
  room : s.getItemCount toItem + s.roomIn env toItem = s.getStackSize env toItem

theorem New.alike {dest item : Ref} (h : New env s dest item) {index : Int} {d : Dest}
    (haimed : Aimed env s dest item index d) {toItem : Ref} (hat : s.stackAt env d item = some (some toItem)) :
    Alike env s d item toItem := by
  rw [stackAt] at hat
  split at hat
  · rename_i hstack
    cases hd : d.destItem with
    | none =>
      rw [hd] at hat
      cases hat
    | some r =>
      rw [hd] at hat
      obtain ⟨equal, hequal, hat⟩ := Option.bind_eq_some_iff.mp hat
      cases equal with
      | false => cases hat
      | true =>
        obtain rfl := Option.some.inj (Option.some.inj hat)
        have hmem := haimed.mem hd
        have hid : (s.thing item).id = (s.thing r).id := by
          rw [Thing.equals] at hequal
          split at hequal
          · cases hequal
          · exact Thing.id_eq_of_equalsIgnoringInstance hequal
        have hstack' : s.isStackable env r = true := by
          rw [isStackable, type, ← hid]
          exact hstack
        have hsize := getStackSize_of_stackable hstack'
        have hle := (h.stack hmem hstack').2
        have hbyte : (env.items (s.thing r).id).stackSize.toNat < 256 := UInt8.toNat_lt _
        change s.getItemCount r ≤ _ at hle
        refine ⟨hstack, hd, hmem, ?_, hid, ?_⟩
        · rintro rfl
          exact h.forest.not_mem_of_root h.root _ hmem
        · rw [roomIn, hsize]
          omega
  · cases hat

/-! ## What the changes do -/

/-- All of the item is in the target. -/
structure Arrives (env : GameEnv) (s : Heap) (target item : Ref) (s' : Heap) : Prop where
  forest : Valid env s'
  holds : ∀ id, s'.holds id target = s.holds id target + s.holds id item

/-- The item is added unless the index is too large, and its count has to be right. -/
theorem New.addThing {dest item : Ref} (h : New env s dest item) {index : Int} {d : Dest}
    (haimed : Aimed env s dest item index d) : ∃ s', s.addThing d.toCylinder d.index item = some s' ∧
      (Arrives env s (s.target dest index) item s' ↔ ¬ ((s.capacity d.toCylinder : Int) ≤ d.index ∨
        s.isStackable env item ∧ s.getStackSize env item < s.getItemCount item)) := by
  have hpos : 0 < s.size := Nat.zero_lt_of_lt h.lt
  by_cases hindex : (s.capacity d.toCylinder : Int) ≤ d.index
  · refine ⟨s, addThing_of_le hindex, ⟨fun harrives => ?_, fun hnot => absurd (.inl hindex) hnot⟩⟩
    -- nothing was added, but the item has a count
    have hcount := h.count (haimed.stackable hindex)
    have hsame := harrives.holds (s.thing item).id
    rw [h.forest.holds_eq hpos _ item, contrib, if_pos rfl] at hsame
    omega
  · have habove := h.forest.above haimed.isBox
    have hforest : Forest (s.push d.toCylinder item) :=
      h.forest.attach (List.Perm.refl _) h.root h.lt haimed.isBox habove haimed.outside
    refine ⟨_, addThing_of_lt hindex hforest haimed.isBox, ?_⟩
    have hholds (id : UInt16) : (s.push d.toCylinder item).holds id (s.target dest index) =
        s.holds id (s.target dest index) + s.holds id item := by
      rw [h.forest.holds_push hforest haimed.isBox haimed.outside, if_pos haimed.above]
    constructor
    · intro harrives hbad
      obtain ⟨hstack, hlarge⟩ := hbad.resolve_left hindex
      have hmem : item ∈ (s.push d.toCylinder item).items d.toCylinder := by
        rw [push_items, Function.update_self]
        exact List.mem_cons_self ..
      have hle := (harrives.forest.stack hmem hstack).2
      rw [getStackSize_of_stackable hstack] at hlarge
      exact absurd hlarge (Nat.not_lt.mpr hle)
    · intro hnot
      refine ⟨h.push h.root h.nowhere h.lt haimed.isBox (fun hstack => ⟨h.count hstack, ?_⟩) habove haimed.outside,
        hholds⟩
      rw [← getStackSize_of_stackable hstack]
      exact Nat.not_lt.mp fun hlt => hnot (.inr ⟨hstack, hlt⟩)

theorem holds_of_not_box (h : Forest s) {r : Ref} (hr : r < s.size) (hbox : s.box r = none) (id : UInt16) :
    s.holds id r = s.share r (s.getItemCount r) id := by
  rw [h.holds_eq (Nat.zero_lt_of_lt hr), below, Subtotals.inside, h.items_of_not_box (by rw [hbox]; rfl)]
  rfl

/-- The new item is a stack, so that all containers have a place. -/
theorem New.valid {dest item : Ref} (h : New env s dest item) (hstack : s.isStackable env item = true) :
    Valid env s ∧ s.box item = none := by
  have hbox : s.box item = none := by
    by_contra hne
    have hplain := h.plain (Option.isSome_iff_ne_none.mpr hne)
    rw [isStackable, type, hplain] at hstack
    cases hstack
  refine ⟨h.toLoose.valid fun hsome => ?_, hbox⟩
  rw [hbox] at hsome
  cases hsome

/-- A stack is filled up with a part of the item. -/
structure Filled (env : GameEnv) (s : Heap) (dest item : Ref) (d : Dest) (n : Nat) (s' : Heap) : Prop where
  isNew : New env s' dest item
  valid : Valid env s'
  same : s'.thing item = s.thing item
  size : s'.size = s.size
  box : s'.box = s.box
  parent : s'.parent = s.parent
  items : s'.items = s.items
  kept : ∀ id, s'.holds id item = s.holds id item
  holds : ∀ id z, (s.box z).isSome →
    s'.holds id z = s.holds id z + if z ∈ d.toCylinder :: s.parents d.toCylinder then s.share item n id else 0

theorem New.fill {dest item : Ref} (h : New env s dest item) (htable : TableOk env) {d : Dest} {toItem : Ref}
    (halike : Alike env s d item toItem) {n : Nat} (hn : n ≤ s.roomIn env toItem) :
    Filled env s dest item d n (s.fill env d toItem n) := by
  obtain ⟨hvalid, hbox⟩ := h.valid halike.stackable
  have hstack' : s.isStackable env toItem = true := by
    rw [isStackable, type, ← halike.id]
    exact halike.stackable
  have hroom : s.getItemCount toItem + n ≤ s.getStackSize env toItem := by
    rw [← halike.room]
    exact Nat.add_le_add_left hn _
  obtain ⟨htid, htcount⟩ := updated_stack htable hstack' hroom
  have hjoined := hvalid.joined_update htable halike.mem halike.ne halike.id halike.stackable hroom
  have hfill : s.fill env d toItem n = s.setThing toItem (((s.thing toItem).setID env (s.thing toItem).id).setSubType
      env.items (BitVec.ofNat 16 (s.getItemCount toItem + n))) := if_neg (not_not.mpr halike.mem)
  have hfilled : s.updateThing env d.toCylinder toItem (s.thing toItem).id (s.getItemCount toItem + n) =
      s.fill env d toItem n := rfl
  rw [hfilled] at hjoined
  have hparent : (s.fill env d toItem n).parent = s.parent := by rw [hfill]; rfl
  have hplace : (s.fill env d toItem n).place = s.place := by rw [hfill]; rfl
  have hitems : (s.fill env d toItem n).items = s.items := by rw [hfill]; rfl
  have hparents : (s.fill env d toItem n).parents dest = s.parents dest := by rw [hfill]; rfl
  refine {
    isNew := { hjoined.valid.loose item with
      root := by rw [hparent]; exact h.root
      nowhere := by rw [hplace]; exact h.nowhere
      lt := by rw [hjoined.size]; exact h.lt
      isBox := by rw [hjoined.box]; exact h.isBox
      outside := by rw [hparents]; exact h.outside
      count := fun _ => by
        rw [getItemCount, hjoined.same]
        exact h.count halike.stackable }
    valid := hjoined.valid
    same := hjoined.same
    size := hjoined.size
    box := hjoined.box
    parent := hparent
    items := hitems
    kept := fun id => by
      rw [holds_of_not_box hjoined.valid.forest (by rw [hjoined.size]; exact h.lt) (by rw [hjoined.box]; exact hbox),
        holds_of_not_box h.forest h.lt hbox, getItemCount, share, hjoined.same, share, getItemCount]
    holds := fun id z hz => ?_ }
  have hd : (s.fill env d toItem n).contrib id toItem = s.contrib id toItem + s.share item n id := by
    have hcount : (s.fill env d toItem n).getItemCount toItem = s.getItemCount toItem + n := by
      rw [hfill]
      exact (congrArg Thing.getItemCount (setThing_self ..)).trans htcount
    have hid : ((s.fill env d toItem n).thing toItem).id = (s.thing toItem).id := by
      rw [hfill, setThing_self]
      exact htid
    rw [contrib, hcount, hid, contrib, share, halike.id]
    split <;> rfl
  have hne : z ≠ toItem := by
    rintro rfl
    rw [hvalid.not_box_of_stackable hstack'] at hz
    cases hz
  rw [hfill] at hd ⊢
  exact hvalid.forest.holds_setThing halike.mem id _ hd hne

theorem Filled.aimed {dest item : Ref} {index : Int} {d : Dest} {n : Nat} {s' : Heap}
    (h : Filled env s dest item d n s') (haimed : Aimed env s dest item index d) : Aimed env s' dest item index d := by
  have hparents (c : Ref) : s'.parents c = s.parents c := by rw [parents, parents, h.parent, h.size]
  have htarget : s'.target dest index = s.target dest index := by rw [target, target, h.parent]
  refine ⟨by rw [h.box]; exact haimed.isBox, by rw [h.items]; exact haimed.mem, fun hle => ?_, ?_, haimed.up, ?_⟩
  · rw [capacity_congr h.box] at hle
    rw [isStackable, type, h.same]
    exact haimed.stackable hle
  · rw [hparents, htarget]
    exact haimed.above
  · rw [hparents]
    exact haimed.outside

/-- Nothing joined the stack. -/
theorem Filled.arrives_iff {dest item target : Ref} {d : Dest} {s' s'' : Heap} (h : Filled env s dest item d 0 s')
    (hbox : (s.box target).isSome) : Arrives env s target item s'' ↔ Arrives env s' target item s'' := by
  have hsame (id : UInt16) : s'.holds id target + s'.holds id item = s.holds id target + s.holds id item := by
    rw [h.holds id target hbox, h.kept, share_zero, ite_self, Nat.add_zero]
  constructor
  · exact fun harrives => ⟨harrives.forest, fun id => by rw [hsame]; exact harrives.holds id⟩
  · exact fun harrives => ⟨harrives.forest, fun id => by rw [← hsame]; exact harrives.holds id⟩

/-- What a split leaves: the rest of the item is a new item, which is as much as is missing. -/
structure Remains (env : GameEnv) (s : Heap) (dest item : Ref) (s' : Heap) (new : Ref) : Prop where
  isNew : New env s' dest new
  valid : Valid env s'
  pos : 0 < s'.getItemCount new
  less : s'.getItemCount new < s.getItemCount item
  rest : ∀ id, s'.holds id new = s.share item (s'.getItemCount new) id
  holds : ∀ id, s'.holds id dest + s'.holds id new = s.holds id dest + s.holds id item

theorem New.split {dest item : Ref} (h : New env s dest item) (htable : TableOk env) {d : Dest} {toItem : Ref}
    (halike : Alike env s d item toItem) (habove : dest ∈ d.toCylinder :: s.parents d.toCylinder)
    {n : Nat} (hn : n ≤ s.roomIn env toItem) (hpos : 0 < n) (hlt : n < s.getItemCount item) :
    let s' := s.fill env d toItem n
    ∃ t, clone env s'.size s' item = some (s'.size, t) ∧
      Remains env s dest item (t.setItemCount s'.size (s.getItemCount item - n)) s'.size ∧
      (t.setItemCount s'.size (s.getItemCount item - n)).getItemCount s'.size =
        s.getItemCount item - n := by
  intro s'
  have hfilled := h.fill htable halike hn
  change Filled env s dest item d n s' at hfilled
  have hstack : s'.isStackable env item = true := by
    rw [isStackable, type, hfilled.same]
    exact halike.stackable
  have hbyte : s.getItemCount item < 256 := BitVec.isLt _
  obtain ⟨t, hclone, hid⟩ := hfilled.valid.clone_leaf htable hfilled.isNew.lt hstack
  refine ⟨_, hclone, ?_⟩
  rw [setItemCount_alloc]
  let rest := t.setItemCount (s.getItemCount item - n)
  change Remains env s dest item (s'.alloc rest none) s'.size ∧ (s'.alloc rest none).getItemCount s'.size = _
  have hvalid := hfilled.valid.alloc rest
  have hthing := s'.alloc_thing_self rest none
  have hcount : (s'.alloc rest none).getItemCount s'.size = s.getItemCount item - n := by
    rw [getItemCount, hthing]
    exact Thing.setItemCount_count (by omega)
  have hleaf : (s'.alloc rest none).box s'.size = none := Function.update_self ..
  have hdest : dest < s'.size := hfilled.valid.box_lt hfilled.isNew.isBox
  have hbox : ((s'.alloc rest none).box dest).isSome := by
    rw [alloc_box, Function.update_of_ne hdest.ne]
    exact hfilled.isNew.isBox
  have hrest (id : UInt16) : (s'.alloc rest none).holds id s'.size =
      s.share item (s.getItemCount item - n) id := by
    rw [holds_of_not_box hvalid.forest (Nat.lt_succ_self _) hleaf, hcount, share, hthing]
    change (if t.id = id then _ else _) = _
    rw [hid, hfilled.same, share]
  refine ⟨?_, hcount⟩
  exact {
    isNew := { hvalid.loose s'.size with
      root := hfilled.valid.parent_of_ge le_rfl
      nowhere := hfilled.valid.place_size
      lt := Nat.lt_succ_self _
      isBox := hbox
      outside := fun hmem => by
        have hsome := hvalid.box_of_above (hvalid.above hbox) hbox _ hmem
        rw [hleaf] at hsome
        cases hsome
      count := fun _ => by
        rw [hcount]
        omega }
    valid := hvalid
    pos := by
      rw [hcount]
      omega
    less := by
      rw [hcount]
      omega
    rest := fun id => by rw [hrest, hcount]
    holds := fun id => by
      have hbefore := hfilled.holds id dest h.isBox
      rw [if_pos habove] at hbefore
      rw [hrest, hfilled.valid.forest.holds_alloc rest none id hdest, hbefore,
        holds_of_not_box h.forest h.lt (h.valid halike.stackable).2]
      simp only [share]
      split <;> omega }

/-! ## One call -/

theorem addTurns_of_query {dest item : Ref} {index : Int} {flags : BitVec 32} {d : Dest} {n : Nat}
    (h : s.addQuery env dest item index flags = some (.noError, d, n)) (fuel : Nat) :
    addTurns env (fuel + 1) s dest item index flags false =
      s.addAt env (fun s' new => addTurns env fuel s' dest new INDEX_WHEREEVER flags false) d item n := by
  rw [addTurns, h]
  rfl

/-- How the changes of an admitted call go on: the comparison throws, the item is added or joins
a stack as a whole, or it is split and the rest is added by another call. -/
inductive Course (env : GameEnv) (s : Heap) (dest item : Ref) (index : Int) (d : Dest)
    (again : Heap → Ref → Option Added) : Option Added → Prop
  | throws (hat : s.stackAt env d item = none) :
      Course env s dest item index d again (some { ret := none, state := s })
  | whole {s' : Heap} (harrives : Arrives env s (s.target dest index) item s' ↔ ¬ Misplaced env s d item)
      (hsplit : ∀ t new, ¬ Splits env s d item t new) :
      Course env s dest item index d again (some { ret := some .noError, state := s' })
  | splits {s' : Heap} {new : Ref} (hsplit : Splits env s d item s' new) (hrest : Remains env s dest item s' new)
      (htarget : s.target dest index = dest) :
      Course env s dest item index d again ((again s' new).map (·.finish (s'.getItemCount new)))

theorem New.course {dest item : Ref} (h : New env s dest item) (htable : TableOk env) {index : Int} {d : Dest}
    {n : Nat} (haimed : Aimed env s dest item index d) (hmax : s.isStackable env item = true → s.getItemCount item ≤ n)
    (again : Heap → Ref → Option Added) : Course env s dest item index d again (s.addAt env again d item n) := by
  rw [addAt]
  cases hat : s.stackAt env d item with
  | none => exact .throws hat
  | some found =>
    cases found with
    | none =>
      obtain ⟨s', hadd, harrives⟩ := h.addThing haimed
      have hcourse : Course env s dest item index d again (some { ret := some .noError, state := s' }) := by
        refine .whole (harrives.trans (not_congr ⟨fun hbad => ⟨.inl hat, hbad⟩, And.right⟩)) fun t new hsplit => ?_
        obtain ⟨toItem, hat', _⟩ := hsplit
        rw [hat] at hat'
        cases hat'
      simp only [hadd]
      exact hcourse
    | some toItem =>
      have halike := h.alike haimed hat
      have htarget : s.target dest index = dest := by
        rw [target, if_neg fun hup => ?_]
        have hnone := haimed.up hup
        rw [halike.destItem] at hnone
        cases hnone
      have habove : dest ∈ d.toCylinder :: s.parents d.toCylinder := by
        rw [← htarget]
        exact haimed.above
      have hcount := h.count halike.stackable
      simp only [Nat.min_eq_left (hmax halike.stackable)]
      rcases Nat.eq_zero_or_pos (s.roomIn env toItem) with hfull | hroom
      · -- nothing joins the stack, which is set to its own count
        have hfilled := h.fill htable halike (Nat.zero_le _)
        obtain ⟨s', hadd, harrives⟩ := hfilled.isNew.addThing (hfilled.aimed haimed)
        have htarget' : (s.fill env d toItem 0).target dest index = s.target dest index := by
          rw [target, target, hfilled.parent]
        rw [htarget', htarget, ← hfilled.arrives_iff h.isBox] at harrives
        rw [hfull, Nat.zero_min, Nat.sub_zero, if_neg (Nat.ne_of_gt hcount), if_neg (not_not.mpr rfl), hadd]
        rw [capacity_congr hfilled.box, isStackable, getStackSize, isStackable, type, getItemCount,
          hfilled.same] at harrives
        have hmisplaced : Misplaced env s d item ↔ _ := and_iff_right (.inr ⟨toItem, hat, hfull⟩)
        refine .whole ?_ fun t new hsplit => ?_
        · rw [htarget, hmisplaced]
          exact harrives
        · obtain ⟨toItem', hat', hpos, _⟩ := hsplit
          rw [hat] at hat'
          obtain rfl := Option.some.inj (Option.some.inj hat')
          omega
      · have hnotWhole : ¬ Misplaced env s d item := by
          intro hbad
          rcases hbad.1 with hnone | ⟨toItem', hat', hfull⟩
          · rw [hat] at hnone
            cases hnone
          · rw [hat] at hat'
            obtain rfl := Option.some.inj (Option.some.inj hat')
            omega
        rcases Nat.lt_or_ge (s.roomIn env toItem) (s.getItemCount item) with hlt | hge
        · obtain ⟨t, hclone, hrest, hleft⟩ := h.split htable halike habove (le_refl _) hroom hlt
          have hsplit : Splits env s d item _ _ := ⟨toItem, hat, hroom, hlt, t, hclone, rfl⟩
          have hcourse : Course env s dest item index d again _ := .splits hsplit hrest htarget
          rw [hleft, Option.map_eq_bind] at hcourse
          rw [Nat.min_eq_left hlt.le, if_neg (by omega), if_pos (by omega), hclone]
          exact hcourse
        · -- everything joins the stack
          have hfilled := h.fill htable halike hge
          rw [Nat.min_eq_right hge, Nat.sub_self, if_pos rfl]
          refine .whole (iff_of_true ⟨hfilled.valid, fun id => ?_⟩ hnotWhole) fun t new hsplit => ?_
          · rw [htarget, hfilled.holds id dest h.isBox, if_pos habove,
              holds_of_not_box h.forest h.lt (h.valid halike.stackable).2]
          · obtain ⟨toItem', hat', _, hlt, _⟩ := hsplit
            rw [hat] at hat'
            obtain rfl := Option.some.inj (Option.some.inj hat')
            omega

/-! ## All calls -/

theorem Splits.unique {d : Dest} {item new new' : Ref} {s' s'' : Heap} (h : Splits env s d item s' new)
    (h' : Splits env s d item s'' new') : s'' = s' ∧ new' = new := by
  obtain ⟨toItem, hat, _, _, t, hclone, rfl⟩ := h
  obtain ⟨toItem', hat', _, _, t', hclone', rfl⟩ := h'
  rw [hat] at hat'
  obtain rfl := Option.some.inj (Option.some.inj hat')
  rw [hclone] at hclone'
  obtain ⟨rfl, rfl⟩ := Prod.mk.inj (Option.some.inj hclone')
  exact ⟨rfl, rfl⟩

theorem Splits.not_misplaced {d : Dest} {item new : Ref} {s' : Heap} (h : Splits env s d item s' new) :
    ¬ Misplaced env s d item := by
  obtain ⟨toItem, hat, hpos, _⟩ := h
  intro hbad
  rcases hbad.1 with hnone | ⟨toItem', hat', hfull⟩
  · rw [hat] at hnone
    cases hnone
  · rw [hat] at hat'
    obtain rfl := Option.some.inj (Option.some.inj hat')
    omega

section Query

variable {dest item : Ref} {index : Int} {flags : BitVec 32} {d : Dest} {n : Nat}

theorem not_forgets_of_query (h : ∀ d n, s.addQuery env dest item index flags ≠ some (.noError, d, n)) :
    ¬ Forgets env s dest item index flags := by
  intro hforgets
  obtain ⟨d, ⟨n, hquery⟩, _⟩ := hforgets
  exact h d n hquery

theorem Forgotten.answered (h : Forgotten env dest flags s item index) :
    ∃ answer, s.addQuery env dest item index flags = some answer := by
  cases h with
  | refused hrefused =>
    obtain ⟨_, _, _, _, hquery⟩ := hrefused
    exact ⟨_, hquery⟩
  | misplaced hadm _ =>
    obtain ⟨_, hquery⟩ := hadm
    exact ⟨_, hquery⟩
  | rest hadm _ _ =>
    obtain ⟨_, hquery⟩ := hadm
    exact ⟨_, hquery⟩

theorem admits_iff (h : s.addQuery env dest item index flags = some (.noError, d, n)) {d' : Dest} :
    Admits env s dest item index flags d' ↔ d' = d := by
  constructor
  · intro hadm
    obtain ⟨n', hquery⟩ := hadm
    rw [h] at hquery
    cases hquery
    rfl
  · rintro rfl
    exact ⟨n, h⟩

theorem not_refused (h : s.addQuery env dest item index flags = some (.noError, d, n)) :
    ¬ Refused env s dest item index flags := by
  intro hrefused
  obtain ⟨ret, d', n', hret, hquery⟩ := hrefused
  rw [h] at hquery
  cases hquery
  exact hret rfl

theorem forgotten_iff (h : s.addQuery env dest item index flags = some (.noError, d, n)) :
    Forgotten env dest flags s item index ↔ Misplaced env s d item ∨
      ∃ s' new, Splits env s d item s' new ∧ Forgotten env dest flags s' new INDEX_WHEREEVER := by
  constructor
  · intro hforgotten
    cases hforgotten with
    | refused hrefused => exact absurd hrefused (not_refused h)
    | misplaced hadm hbad =>
      obtain rfl := (admits_iff h).mp hadm
      exact .inl hbad
    | rest hadm hsplit hrest =>
      obtain rfl := (admits_iff h).mp hadm
      exact .inr ⟨_, _, hsplit, hrest⟩
  · intro hcase
    rcases hcase with hbad | ⟨s', new, hsplit, hrest⟩
    · exact .misplaced ⟨n, h⟩ hbad
    · exact .rest ⟨n, h⟩ hsplit hrest

theorem forgets_iff (h : s.addQuery env dest item index flags = some (.noError, d, n)) :
    Forgets env s dest item index flags ↔ Misplaced env s d item ∨ ∃ s' new, Splits env s d item s' new ∧
      ¬ Refused env s' dest new INDEX_WHEREEVER flags ∧ Forgotten env dest flags s' new INDEX_WHEREEVER := by
  constructor
  · intro hforgets
    obtain ⟨d', hadm, hcase⟩ := hforgets
    obtain rfl := (admits_iff h).mp hadm
    exact hcase
  · exact fun hcase => ⟨d, ⟨n, h⟩, hcase⟩

end Query

theorem Added.finish_of_noError {o : Added} (h : o.ret = some .noError) (count : Nat) :
    o.finish count = { ret := some .noError, state := o.state } := by
  rw [finish, h]

theorem Added.finish_of_error {o : Added} {ret : ReturnValue} (h : o.ret = some ret) (hret : ret ≠ .noError)
    (count : Nat) : o.finish count = { ret := some .noError, state := o.state, remainderCount := count } := by
  rw [finish, h]
  split
  · rename_i heq
    cases heq
  · rename_i heq
    exact absurd (Option.some.inj heq) hret
  · rfl

/-- A call without an error and without a remainder adds the item if all of it arrives. -/
theorem adds_iff {target item : Ref} {o : Added} (hret : o.ret = some .noError) (hrest : o.remainderCount = 0) :
    Adds env s target item false o ↔ Arrives env s target item o.state := by
  constructor
  · intro hadds
    obtain ⟨hvalid, hholds⟩ := hadds.added hret rfl
    refine ⟨hvalid, fun id => ?_⟩
    rw [← hholds, hrest, share_zero, Nat.add_zero]
  · intro harrives
    refine ⟨fun _ _ => ⟨harrives.forest, fun id => ?_⟩, fun hstop => ?_⟩
    · rw [hrest, share_zero, Nat.add_zero]
      exact harrives.holds id
    · obtain ⟨ret, hne, hret'⟩ := hstop.resolve_left Bool.false_ne_true
      rw [hret] at hret'
      exact absurd (Option.some.inj hret').symm hne

theorem adds_unchanged {target item : Ref} {test : Bool} {o : Added} (hret : o.ret ≠ some .noError ∨ test = true)
    (hstate : o.state = s) : Adds env s target item test o := by
  refine ⟨fun hno htest => ?_, fun _ => hstate⟩
  rcases hret with hne | htrue
  · exact absurd hno hne
  · rw [htest] at htrue
    cases htrue

/-- What a call without `test` comes to. -/
structure Ran (env : GameEnv) (s : Heap) (dest item : Ref) (index : Int) (flags : BitVec 32) (o : Added) : Prop where
  thrown : o.ret = none → ¬ Forgotten env dest flags s item index
  added : o.ret = some .noError → ¬ Refused env s dest item index flags ∧
    (Arrives env s (s.target dest index) item o.state ↔ ¬ Forgotten env dest flags s item index)
  refused : ∀ ret, ret ≠ .noError → o.ret = some ret → Refused env s dest item index flags ∧ o.state = s
  adds : Adds env s (s.target dest index) item false o ↔ ¬ Forgets env s dest item index flags

theorem Remains.arrives_iff {dest item new : Ref} {s' s'' : Heap} (h : Remains env s dest item s' new) :
    Arrives env s' dest new s'' ↔ Arrives env s dest item s'' := by
  constructor
  · exact fun harrives => ⟨harrives.forest, fun id => by rw [← h.holds]; exact harrives.holds id⟩
  · exact fun harrives => ⟨harrives.forest, fun id => by rw [h.holds]; exact harrives.holds id⟩

/-- The rest of the item is missing. -/
theorem Remains.not_arrives {dest item new : Ref} {s' : Heap} (h : Remains env s dest item s' new) :
    ¬ Arrives env s' dest new s' := by
  intro harrives
  have hsame := harrives.holds (s.thing item).id
  rw [h.rest, share, if_pos rfl] at hsame
  have hpos := h.pos
  omega

section Cases

variable {dest item : Ref} {index : Int} {flags : BitVec 32} {d : Dest} {n : Nat}

theorem ran_unanswered (h : s.addQuery env dest item index flags = none) :
    Ran env s dest item index flags { ret := none, state := s } := by
  have hforgets : ¬ Forgets env s dest item index flags := not_forgets_of_query fun d n heq => by
    rw [h] at heq
    cases heq
  refine ⟨fun _ hforgotten => ?_, nofun, nofun, iff_of_true (adds_unchanged (.inl nofun) rfl) hforgets⟩
  obtain ⟨answer, hanswer⟩ := hforgotten.answered
  rw [h] at hanswer
  cases hanswer

theorem ran_refused {ret : ReturnValue} (h : s.addQuery env dest item index flags = some (ret, d, n))
    (hret : ret ≠ .noError) : Ran env s dest item index flags { ret := some ret, state := s } := by
  have hforgets : ¬ Forgets env s dest item index flags := not_forgets_of_query fun d' n' heq => by
    rw [h] at heq
    cases heq
    exact hret rfl
  have herror : (some ret : Option ReturnValue) ≠ some .noError := fun hno => hret (Option.some.inj hno)
  exact ⟨nofun, fun hno => absurd hno herror, fun _ _ _ => ⟨⟨ret, d, n, hret, h⟩, rfl⟩,
    iff_of_true (adds_unchanged (.inl herror) rfl) hforgets⟩

theorem ran_throws (h : s.addQuery env dest item index flags = some (.noError, d, n))
    (hat : s.stackAt env d item = none) : Ran env s dest item index flags { ret := none, state := s } := by
  have hbad : ¬ Misplaced env s d item := by
    intro hbad
    rcases hbad.1 with hat' | ⟨toItem, hat', _⟩ <;> rw [hat] at hat' <;> cases hat'
  have hsplit : ∀ s' new, ¬ Splits env s d item s' new := by
    intro s' new hsplit
    obtain ⟨toItem, hat', _⟩ := hsplit
    rw [hat] at hat'
    cases hat'
  refine ⟨fun _ hl => ?_, nofun, nofun, iff_of_true (adds_unchanged (.inl nofun) rfl) fun hl => ?_⟩
  · obtain ⟨s', new, hs, _⟩ := ((forgotten_iff h).mp hl).resolve_left hbad
    exact hsplit s' new hs
  · obtain ⟨s', new, hs, _⟩ := ((forgets_iff h).mp hl).resolve_left hbad
    exact hsplit s' new hs

theorem ran_whole {s' : Heap} (h : s.addQuery env dest item index flags = some (.noError, d, n))
    (harrives : Arrives env s (s.target dest index) item s' ↔ ¬ Misplaced env s d item)
    (hsplit : ∀ t new, ¬ Splits env s d item t new) :
    Ran env s dest item index flags { ret := some .noError, state := s' } := by
  have hforgotten : Forgotten env dest flags s item index ↔ Misplaced env s d item :=
    (forgotten_iff h).trans (or_iff_left fun ⟨t, new, hs, _⟩ => hsplit t new hs)
  have hforgets : Forgets env s dest item index flags ↔ Misplaced env s d item :=
    (forgets_iff h).trans (or_iff_left fun ⟨t, new, hs, _⟩ => hsplit t new hs)
  refine ⟨nofun, fun _ => ⟨not_refused h, harrives.trans (not_congr hforgotten.symm)⟩, fun ret hne hret => ?_, ?_⟩
  · exact absurd (Option.some.inj hret).symm hne
  · rw [adds_iff rfl rfl, hforgets]
    exact harrives

/-- Where the item is split, only the rest can be forgotten. -/
theorem Splits.iff {s' : Heap} {new : Ref} (h : Splits env s d item s' new) (p : Heap → Ref → Prop) :
    (Misplaced env s d item ∨ ∃ t r, Splits env s d item t r ∧ p t r) ↔ p s' new := by
  constructor
  · intro hcase
    obtain ⟨t, r, hs, hp⟩ := hcase.resolve_left h.not_misplaced
    obtain ⟨rfl, rfl⟩ := h.unique hs
    exact hp
  · exact fun hp => .inr ⟨s', new, h, hp⟩

theorem ran_splits {s' : Heap} {new : Ref} {o : Added} (h : s.addQuery env dest item index flags = some (.noError, d, n))
    (hsplit : Splits env s d item s' new) (hrest : Remains env s dest item s' new) (htarget : s.target dest index = dest)
    (hran : Ran env s' dest new INDEX_WHEREEVER flags o) :
    Ran env s dest item index flags (o.finish (s'.getItemCount new)) := by
  have hforgotten : Forgotten env dest flags s item index ↔ Forgotten env dest flags s' new INDEX_WHEREEVER :=
    (forgotten_iff h).trans (hsplit.iff fun t r => Forgotten env dest flags t r INDEX_WHEREEVER)
  have hforgets : Forgets env s dest item index flags ↔
      ¬ Refused env s' dest new INDEX_WHEREEVER flags ∧ Forgotten env dest flags s' new INDEX_WHEREEVER :=
    (forgets_iff h).trans (hsplit.iff fun t r =>
      ¬ Refused env t dest r INDEX_WHEREEVER flags ∧ Forgotten env dest flags t r INDEX_WHEREEVER)
  have hnot := not_refused h
  have hto : s'.target dest INDEX_WHEREEVER = dest := if_neg (by decide)
  have hdone (ret : ReturnValue) (hne : ret ≠ .noError) : some .noError ≠ some ret := fun hno =>
    hne (Option.some.inj hno).symm
  cases hret : o.ret with
  | none =>
    have hnone := hran.thrown hret
    rw [Added.finish, hret]
    exact ⟨fun _ => (not_congr hforgotten).mpr hnone, nofun, nofun,
      iff_of_true ⟨nofun, fun hstop => by simp at hstop⟩ fun hl => hnone (hforgets.mp hl).2⟩
  | some ret =>
    by_cases herror : ret = .noError
    · subst herror
      obtain ⟨haccepted, harrives⟩ := hran.added hret
      rw [hto, hrest.arrives_iff, ← hforgotten] at harrives
      rw [Added.finish_of_noError hret]
      refine ⟨nofun, fun _ => ⟨hnot, by rwa [htarget]⟩, fun ret hne hno => absurd hno (hdone ret hne), ?_⟩
      rw [adds_iff rfl rfl, hforgets, htarget, and_iff_right haccepted, ← hforgotten]
      exact harrives
    · obtain ⟨hrefused, hstate⟩ := hran.refused ret herror hret
      have hmissing : ¬ Arrives env s (s.target dest index) item o.state := by
        rw [htarget, ← hrest.arrives_iff, hstate]
        exact hrest.not_arrives
      rw [Added.finish_of_error hret herror]
      refine ⟨nofun, fun _ => ⟨hnot, iff_of_false hmissing fun hkept => hkept ?_⟩,
        fun ret hne hno => absurd hno (hdone ret hne), iff_of_true ?_ fun hl => (hforgets.mp hl).1 hrefused⟩
      · exact hforgotten.mpr (.refused hrefused)
      · -- the remainder that is reported is what was not added
        refine ⟨fun _ _ => ?_, fun hstop => by simp at hstop⟩
        rw [hstate, htarget]
        exact ⟨hrest.valid, fun id => by rw [← hrest.rest, hrest.holds]⟩

end Cases

/-- By induction on the calls, each of which has fewer items left. -/
theorem exists_ran (htable : TableOk env) {dest : Ref} (flags : BitVec 32) (fuel : Nat) :
    ∀ {s item}, New env s dest item → s.getItemCount item < fuel → ∀ index,
      ∃ o, addTurns env fuel s dest item index flags false = some o ∧ Ran env s dest item index flags o := by
  induction fuel with
  | zero => exact fun _ hfuel => absurd hfuel (Nat.not_lt_zero _)
  | succ fuel ih =>
    intro s item h hfuel index
    cases hquery : s.addQuery env dest item index flags with
    | none => exact ⟨_, by rw [addTurns, hquery], ran_unanswered hquery⟩
    | some answer =>
      obtain ⟨ret, d, n⟩ := answer
      by_cases hret : ret = .noError
      · subst hret
        have hcourse := h.course htable (h.aimed ⟨n, hquery⟩) (of_addQuery hquery).2
          fun s' new => addTurns env fuel s' dest new INDEX_WHEREEVER flags false
        rw [← addTurns_of_query hquery] at hcourse
        generalize addTurns env (fuel + 1) s dest item index flags false = out at hcourse ⊢
        cases hcourse with
        | throws hat => exact ⟨_, rfl, ran_throws hquery hat⟩
        | whole harrives hsplit => exact ⟨_, rfl, ran_whole hquery harrives hsplit⟩
        | splits hsplit hrest htarget =>
          obtain ⟨o, ho, hran⟩ := ih hrest.isNew (Nat.lt_of_lt_of_le hrest.less (Nat.le_of_lt_succ hfuel)) INDEX_WHEREEVER
          exact ⟨_, by rw [ho]; rfl, ran_splits hquery hsplit hrest htarget hran⟩
      · have hrun : addTurns env (fuel + 1) s dest item index flags false = some { ret := some ret, state := s } := by
          rw [addTurns, hquery]
          exact if_pos hret
        exact ⟨_, hrun, ran_refused hquery hret⟩

variable (env s) in
/-- A call with `test` changes nothing. -/
theorem addTurns_test (fuel : Nat) (dest item : Ref) (index : Int) (flags : BitVec 32) :
    ∃ o, addTurns env (fuel + 1) s dest item index flags true = some o ∧ o.state = s := by
  rw [addTurns]
  split
  · exact ⟨_, rfl, rfl⟩
  · split
    · exact ⟨_, rfl, rfl⟩
    · exact ⟨_, rfl, rfl⟩

theorem internalAddItem_adds_iff (htable : TableOk env) {dest item : Ref} (h : New env s dest item) (index : Int)
    (flags : BitVec 32) (test : Bool) :
    (∃ o, s.internalAddItem env dest item index flags test = some o ∧ Adds env s (s.target dest index) item test o) ↔
      test = true ∨ ¬ Forgets env s dest item index flags := by
  rw [internalAddItem]
  cases test with
  | true =>
    obtain ⟨o, ho, hstate⟩ := addTurns_test env s (s.getItemCount item) dest item index flags
    exact iff_of_true ⟨o, ho, adds_unchanged (.inr rfl) hstate⟩ (.inl rfl)
  | false =>
    obtain ⟨o, ho, hran⟩ := exists_ran htable flags _ h (Nat.lt_succ_self _) index
    rw [or_iff_right Bool.false_ne_true, ← hran.adds]
    constructor
    · intro hadds
      obtain ⟨o', ho', hadds⟩ := hadds
      rw [ho] at ho'
      rwa [Option.some.inj ho']
    · exact fun hadds => ⟨o, ho, hadds⟩

/-! ## A gold pouch that a creature carries -/

/-- Gold coins are stackable and can be picked up. -/
def coinEnv : GameEnv where
  items id := { id, stackable := id == 3031, pickupable := true, moveable := true }

/-- A gold pouch for one item that holds another item and 90 gold coins, and new coins. What a
creature carries belongs to instance 0. -/
def carriedPouch (coins : Nat) (instanceId : UInt32) : Heap where
  size := 4
  thing
    | 0 => { item := { id := ITEM_GOLD_POUCH } }
    | 1 => { item := { id := 3003 } }
    | 2 => { item := { id := 3031, count := 90 } }
    | _ => { item := { id := 3031, count := BitVec.ofNat 8 coins }, instanceId }
  box
    | 0 => some { maxSize := 1, pagination := true }
    | _ => none
  items
    | 0 => [1, 2]
    | _ => []
  parent
    | 1 => some 0
    | 2 => some 0
    | _ => none
  place
    | 0 => some (.creature fun _ _ => true)
    | _ => none

theorem coinEnv_tableOk : TableOk coinEnv := by
  intro id hid
  obtain rfl : id = 3031 := by simpa [coinEnv] using hid
  constructor <;> decide

section Pouch

variable {coins : Nat} {instanceId : UInt32}

theorem carriedPouch_listed {c r : Ref} :
    r ∈ (carriedPouch coins instanceId).items c ↔ c = 0 ∧ (r = 1 ∨ r = 2) := by
  match c with
  | 0 => simp [carriedPouch]
  | c + 1 => simp [carriedPouch]

theorem carriedPouch_box {c : Ref} (h : ((carriedPouch coins instanceId).box c).isSome) : c = 0 := by
  match c with
  | 0 => rfl
  | c + 1 => cases h

theorem carriedPouch_new (hcoins : 1 ≤ (BitVec.ofNat 8 coins).toNat) :
    New coinEnv (carriedPouch coins instanceId) 0 3 where
  item_lt h := by
    have hsize : (carriedPouch coins instanceId).size = 4 := rfl
    rw [hsize]
    obtain ⟨_, rfl | rfl⟩ := carriedPouch_listed.mp h <;> decide
  box_lt h := by
    rw [carriedPouch_box h]
    exact Nat.zero_lt_succ _
  holder h := by
    obtain ⟨rfl, _⟩ := carriedPouch_listed.mp h
    rfl
  parent_iff {c r} := by
    rw [carriedPouch_listed]
    match r with
    | 0 => simp [carriedPouch]
    | 1 => simp [carriedPouch, eq_comm]
    | 2 => simp [carriedPouch, eq_comm]
    | r + 3 => simp [carriedPouch]
  nodup c := by
    match c with
    | 0 => simp [carriedPouch]
    | c + 1 => exact List.nodup_nil
  placed {r} h := by
    match r with
    | 0 => exact ⟨rfl, Nat.zero_lt_succ _⟩
    | r + 1 => cases h
  rooted h _ _ := by
    rw [carriedPouch_box h]
    rfl
  ends h := by
    rw [carriedPouch_box h]
    exact ⟨_, .top rfl⟩
  plain h := by
    rw [carriedPouch_box h]
    rfl
  stack h := by
    have hother : StackOk coinEnv { item := { id := 3003 } } := by
      rw [StackOk]
      decide
    have hstack : StackOk coinEnv { item := { id := 3031, count := 90 } } := by
      rw [StackOk]
      decide
    obtain ⟨_, rfl | rfl⟩ := carriedPouch_listed.mp h
    · exact hother
    · exact hstack
  root := rfl
  nowhere := rfl
  lt := Nat.lt_succ_self _
  isBox := rfl
  outside := by
    change 3 ∉ [0]
    simp
  count _ := hcoins

end Pouch

/-- Ten coins fit into the stack of the pouch. -/
theorem carriedPouch_ten : ∃ o, (carriedPouch 10 0).internalAddItem coinEnv 0 3 INDEX_WHEREEVER 0 false = some o ∧
    Adds coinEnv (carriedPouch 10 0) ((carriedPouch 10 0).target 0 INDEX_WHEREEVER) 3 false o := by
  have hnew : New coinEnv (carriedPouch 10 0) 0 3 := carriedPouch_new (by decide)
  refine (internalAddItem_adds_iff coinEnv_tableOk hnew INDEX_WHEREEVER 0 false).mpr (.inr ?_)
  have hquery : (carriedPouch 10 0).addQuery coinEnv 0 3 INDEX_WHEREEVER 0 =
      some (.noError, { toCylinder := 0, index := 1, destItem := some 2 }, 10) := rfl
  have hat : (carriedPouch 10 0).stackAt coinEnv { toCylinder := 0, index := 1, destItem := some 2 } 3 =
      some (some 2) := rfl
  have hroom : (carriedPouch 10 0).roomIn coinEnv 2 = 10 := by decide +kernel
  rw [forgets_iff hquery]
  rintro (⟨hnone | ⟨toItem, hat', hfull⟩, _⟩ | ⟨_, _, ⟨toItem, hat', _, hpart, _⟩, _⟩)
  · rw [hat] at hnone
    cases hnone
  · rw [hat] at hat'
    cases hat'
    rw [hroom] at hfull
    cases hfull
  · rw [hat] at hat'
    cases hat'
    rw [hroom] at hpart
    exact absurd hpart (by decide)

/-- Coins of another instance join no stack, and are not added at the place of the one there. -/
theorem carriedPouch_instance : New coinEnv (carriedPouch 50 1) 0 3 ∧
    ((carriedPouch 50 1).internalAddItem coinEnv 0 3 INDEX_WHEREEVER 0 false).map
      (fun o => (o.ret, o.remainderCount, o.state.holds 3031 0)) = some (some .noError, 0, 90) ∧
    (carriedPouch 50 1).holds 3031 0 = 90 ∧ (carriedPouch 50 1).holds 3031 3 = 50 ∧
    ¬ ∃ o, (carriedPouch 50 1).internalAddItem coinEnv 0 3 INDEX_WHEREEVER 0 false = some o ∧
      Adds coinEnv (carriedPouch 50 1) 0 3 false o := by
  have hout : ((carriedPouch 50 1).internalAddItem coinEnv 0 3 INDEX_WHEREEVER 0 false).map
      (fun o => (o.ret, o.remainderCount, o.state.holds 3031 0)) = some (some .noError, 0, 90) := by decide +kernel
  have hpouch : (carriedPouch 50 1).holds 3031 0 = 90 := by decide +kernel
  have hcoins : (carriedPouch 50 1).holds 3031 3 = 50 := by decide +kernel
  refine ⟨carriedPouch_new (by decide), hout, hpouch, hcoins, ?_⟩
  rintro ⟨o, ho, hadds⟩
  rw [ho] at hout
  simp only [Option.map_some, Option.some.injEq, Prod.mk.injEq] at hout
  obtain ⟨hret, hrest, hholds⟩ := hout
  have hsum := (hadds.added hret rfl).2 3031
  rw [hrest, hpouch, hcoins, hholds, share_zero] at hsum
  omega

end Heap

end ForgottenServer
