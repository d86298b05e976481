import ForgottenServer.Container.Conserve

/-! # Moves conserve items

A call of `internalMoveItem` keeps the total of every item id and leaves a forest, in which
every stack has a count that its type allows, unless the call `Loses` the item. -/

namespace ForgottenServer

namespace Heap

variable {env : GameEnv} {s : Heap}

/-! ## The queries -/

theorem ite_ne {p : Prop} [Decidable p] {x y r : Option ReturnValue} (hx : x ≠ r) (hy : y ≠ r) :
    (if p then x else y) ≠ r := by
  split
  · exact hx
  · exact hy

theorem containerQueryAdd_ne_exchange {ask : Cylinder → Option ReturnValue} (hask : ∀ x, ask x ≠ some .needExchange)
    (c : Ref) (index : Int) (item : Ref) (count : Nat) (flags : BitVec 32) :
    s.containerQueryAdd env ask c index item count flags ≠ some .needExchange := by
  unfold containerQueryAdd
  iterate 6 refine ite_ne (fun hret => by cases hret) ?_
  refine ite_ne (ite_ne (fun hret => by cases hret) fun hret => by cases hret) ?_
  refine ite_ne (fun hret => by cases hret) ?_
  intro hret
  obtain ⟨room, _, hret⟩ := Option.bind_eq_some_iff.mp hret
  split at hret
  · cases hret
  · split at hret
    · split at hret
      · cases hret
      · exact hask _ hret
    · exact hask _ hret
    · cases hret

theorem classQueryAdd_ne_exchange {ask : Cylinder → Option ReturnValue} (hask : ∀ x, ask x ≠ some .needExchange)
    (c : Ref) (index : Int) (item : Ref) (count : Nat) (flags : BitVec 32) :
    s.classQueryAdd env ask c index item count flags ≠ some .needExchange := by
  have hfull (p : Prop) [Decidable p] : (if p then some .depotIsFull
      else s.containerQueryAdd env ask c index item count flags) ≠ some .needExchange := by
    split
    · exact fun hret => by cases hret
    · exact containerQueryAdd_ne_exchange hask _ _ _ _ _
  rw [classQueryAdd]
  split
  · exact hfull _
  · split_ifs <;> exact fun hret => by cases hret
  · exact fun hret => by cases hret
  · exact containerQueryAdd_ne_exchange hask _ _ _ _ _

/-- No container asks for an exchange. -/
theorem queryAdd_ne_exchange (c : Ref) (index : Int) (item : Ref) (count : Nat) (flags : BitVec 32) :
    s.queryAdd env c index item count flags ≠ some .needExchange := by
  refine classQueryAdd_ne_exchange (fun x => ?_) c index item count flags
  cases x with
  | container top => exact classQueryAdd_ne_exchange (fun _ hret => by cases hret) _ _ _ _ _
  | creature hasCapacity =>
    simp only
    split_ifs <;> exact fun hret => by cases hret

theorem of_queryRemove {c item : Ref} {count : Nat} {flags : BitVec 32}
    (h : s.queryRemove env c item count flags = .noError) :
    item ∈ s.items c ∧ 0 < count ∧ (s.isStackable env item = true → count ≤ s.getItemCount item) := by
  rw [queryRemove] at h
  split at h
  · cases h
  · split at h
    · cases h
    · rename_i hmem
      split at h
      · cases h
      · rename_i hcount
        rw [not_or] at hcount
        refine ⟨not_not.mp hmem, Nat.pos_of_ne_zero hcount.1, fun hstack => ?_⟩
        by_contra hlt
        exact hcount.2 ⟨hstack, Nat.lt_of_not_le hlt⟩

/-- At a stack beyond the capacity, a container with a limit has the room of that stack only. -/
theorem AutoStacked.queryMaxCount_le {item r : Ref} {inst : UInt32} {d : Dest} (h : AutoStacked env s item inst d r)
    (hlimit : s.hasCapacityLimit d.toCylinder = true) (hindex : (s.capacity d.toCylinder : Int) ≤ d.index) {count n : Nat}
    {flags : BitVec 32} {ret : ReturnValue}
    (hmax : s.queryMaxCount env d.toCylinder d.index item count flags = some (ret, n)) :
    n ≤ s.getStackSize env r - s.getItemCount r := by
  have hat := h.at_index
  have hpos : ¬ d.index < 0 := by omega
  rw [getItemByIndex, if_neg hpos] at hat
  have hlen := (List.getElem?_eq_some_iff.mp hat).1
  have hslots : s.getFreeSlotsFor env d.toCylinder item count = 0 := by
    simp only [getFreeSlotsFor]
    rw [if_neg fun hp => h.elsewhere hp.1]
    omega
  have hwhere : d.index ≠ INDEX_WHEREEVER := by
    simp only [INDEX_WHEREEVER]
    omega
  rw [queryMaxCount, if_neg (by simp [hlimit])] at hmax
  simp only [h.stackable, if_true, hslots, stackSpace, if_neg hwhere] at hmax
  obtain ⟨room, hroom, hmax⟩ := Option.bind_eq_some_iff.mp hmax
  have hn : n = room % 2 ^ 32 := by
    have := congrArg Prod.snd (Option.some.inj hmax)
    simpa using this.symm
  refine hn ▸ (Nat.mod_le _ _).trans ?_
  simp only [destRoom, h.at_index] at hroom
  obtain ⟨equal, _, hroom⟩ := Option.bind_eq_some_iff.mp hroom
  split at hroom
  · obtain ⟨answer, _, hroom⟩ := Option.bind_eq_some_iff.mp hroom
    split at hroom
    · exact (Option.some.inj hroom).ge
    · exact (Option.some.inj hroom) ▸ Nat.zero_le _
  · exact (Option.some.inj hroom) ▸ Nat.zero_le _

/-- How much of the item is moved, once `queryMaxCount` gave its count. -/
def moveCount (env : GameEnv) (s : Heap) (item : Ref) (count n : Nat) : Nat :=
  if s.isStackable env item then min count n else n

/-- The queries let `m` of the item through to the destination `d`. -/
structure Admitted (env : GameEnv) (s : Heap) (fromCylinder toCylinder : Ref) (index : Int) (item : Ref) (count : Nat)
    (flags : BitVec 32) (source : UInt32) (d : Dest) (m : Nat) : Prop where
  resolved : ∃ flags' ret n,
    s.resolve env item source (MAP_MAX_LAYERS - 1) { toCylinder, index } flags = some (d, flags') ∧
    s.queryAdd env d.toCylinder d.index item count flags' = some .noError ∧
    s.queryMaxCount env d.toCylinder d.index item count flags' = some (ret, n) ∧ ¬ (ret ≠ .noError ∧ n = 0) ∧
    m = moveCount env s item count n ∧
    s.queryRemove env fromCylinder item m flags' = .noError
  other : d.destItem ≠ some item
  notReward : s.isRewardContainer d.toCylinder = false
  item_notReward : ¬ ((s.box item).isSome ∧ s.isRewardContainer item)

/-- The cases in which an admitted item does not arrive. The comparison of a stack with the one
at the destination throws, after the items were taken. The stack is at an index at which a
container without a limit adds nothing, and has not enough room. A container gets below itself. -/
def Lost (env : GameEnv) (s : Heap) (d : Dest) (item : Ref) (count : Nat) (inst : UInt32) : Prop :=
  if s.isStackable env item then ∃ t, d.destItem = some t ∧
    (((s.thing t).instanceId = inst ∧ (s.thing item).equalsIgnoringInstance (s.thing t) = none) ∨
      (s.hasCapacityLimit d.toCylinder = false ∧ (s.capacity d.toCylinder : Int) ≤ d.index ∧
        s.getStackSize env t - s.getItemCount t < count))
  else item ∈ d.toCylinder :: s.parents d.toCylinder

theorem moveAdmitted_cases (env : GameEnv) (s : Heap) (fromCylinder : Ref) (d : Dest) (item : Ref) (count : Nat) (flags : BitVec 32)
    (inst : UInt32) :
    (∃ ret n ret', s.queryMaxCount env d.toCylinder d.index item count flags = some (ret, n) ∧
      ¬ (ret ≠ .noError ∧ n = 0) ∧ s.queryRemove env fromCylinder item (moveCount env s item count n) flags = .noError ∧
      s.moveAdmitted env fromCylinder d item count flags inst =
        s.transfer env fromCylinder d item (moveCount env s item count n) inst ret') ∨
    (∃ ret, s.moveAdmitted env fromCylinder d item count flags inst = some { ret, state := s }) ∧
      ∀ ret n, s.queryMaxCount env d.toCylinder d.index item count flags = some (ret, n) →
        ¬ (ret ≠ .noError ∧ n = 0) → s.queryRemove env fromCylinder item (moveCount env s item count n) flags ≠ .noError := by
  rw [moveAdmitted]
  cases hmax : s.queryMaxCount env d.toCylinder d.index item count flags with
  | none => exact .inr ⟨⟨_, rfl⟩, nofun⟩
  | some found =>
    obtain ⟨retMaxCount, n⟩ := found
    have hcount : (if s.isStackable env item then min count n else n) = moveCount env s item count n := rfl
    simp only [hcount]
    by_cases hrefuse : retMaxCount ≠ .noError ∧ n = 0
    · rw [if_pos hrefuse]
      refine .inr ⟨⟨_, rfl⟩, fun ret n' heq haccept => ?_⟩
      cases heq
      exact absurd hrefuse haccept
    · rw [if_neg hrefuse]
      by_cases hremove : s.queryRemove env fromCylinder item (moveCount env s item count n) flags = .noError
      · rw [if_neg (not_not.mpr hremove)]
        exact .inl ⟨_, n, _, rfl, hrefuse, hremove, rfl⟩
      · rw [if_pos hremove]
        refine .inr ⟨⟨_, rfl⟩, fun ret n' heq _ => ?_⟩
        cases heq
        exact hremove

/-- A call is refused and changes nothing, or it is admitted and the item is transferred. -/
theorem moveFrom_cases (env : GameEnv) (s : Heap) (fromCylinder toCylinder : Ref) (index : Int) (item : Ref) (count : Nat) (flags : BitVec 32)
    (source : UInt32) :
    (∃ ret d m, Admitted env s fromCylinder toCylinder index item count flags source d m ∧
      s.moveFrom env fromCylinder toCylinder index item count flags source =
        s.transfer env fromCylinder d item m (s.getDestinationInstanceId d.toCylinder source) ret) ∨
    (∃ ret, s.moveFrom env fromCylinder toCylinder index item count flags source = some { ret, state := s }) ∧
      ∀ d m, ¬ Admitted env s fromCylinder toCylinder index item count flags source d m := by
  rw [moveFrom]
  cases hresolve : s.resolve env item source (MAP_MAX_LAYERS - 1) { toCylinder, index } flags with
  | none =>
    refine .inr ⟨⟨_, rfl⟩, fun d m hadm => ?_⟩
    obtain ⟨_, _, _, hres, _⟩ := hadm.resolved
    rw [hresolve] at hres
    cases hres
  | some found =>
    obtain ⟨d, flags'⟩ := found
    -- an admitted destination is the one that was found
    have hadmitted {d' m} (hadm : Admitted env s fromCylinder toCylinder index item count flags source d' m) :
        d' = d ∧ s.queryAdd env d.toCylinder d.index item count flags' = some .noError ∧
        ∃ ret n, s.queryMaxCount env d.toCylinder d.index item count flags' = some (ret, n) ∧
          ¬ (ret ≠ .noError ∧ n = 0) ∧
          s.queryRemove env fromCylinder item (moveCount env s item count n) flags' = .noError := by
      obtain ⟨flags'', ret, n, hres, hadd, hmax, haccept, rfl, hremove⟩ := hadm.resolved
      rw [hresolve] at hres
      cases hres
      exact ⟨rfl, hadd, ret, n, hmax, haccept, hremove⟩
    simp only
    split
    · rename_i hself
      exact .inr ⟨⟨_, rfl⟩, fun d' m hadm => hadm.other ((hadmitted hadm).1 ▸ hself)⟩
    · rename_i hself
      split
      · rename_i hreward
        refine .inr ⟨⟨_, rfl⟩, fun d' m hadm => ?_⟩
        have hnot := hadm.notReward
        rw [(hadmitted hadm).1, hreward] at hnot
        cases hnot
      · rename_i hreward
        split
        · rename_i hitem
          exact .inr ⟨⟨_, rfl⟩, fun d' m hadm => hadm.item_notReward hitem⟩
        · rename_i hitem
          split
          · rename_i hq
            refine .inr ⟨⟨_, rfl⟩, fun d' m hadm => ?_⟩
            rw [(hadmitted hadm).2.1] at hq
            cases hq
          · rename_i hq
            exact absurd hq (queryAdd_ne_exchange _ _ _ _ _)
          · rename_i hq
            rcases moveAdmitted_cases env s fromCylinder d item count flags'
              (s.getDestinationInstanceId d.toCylinder source) with
              ⟨ret, n, ret', hmax, haccept, hremove, hmove⟩ | ⟨hrefused, hnone⟩
            · refine .inl ⟨ret', d, _, ⟨⟨flags', ret, n, hresolve, hq, hmax, haccept, rfl, hremove⟩, hself, ?_, hitem⟩,
                hmove⟩
              simpa using hreward
            · refine .inr ⟨hrefused, fun d' m hadm => ?_⟩
              obtain ⟨_, _, ret, n, hmax, haccept, hremove⟩ := hadmitted hadm
              exact hnone ret n hmax haccept hremove
          · rename_i ret hne hq
            exact .inr ⟨⟨_, rfl⟩, fun d' m hadm => hne (Option.some.inj (hq.symm.trans (hadmitted hadm).2.1))⟩

theorem SameContents.symm {s' : Heap} (h : SameContents s s') : SameContents s' s :=
  ⟨h.items.symm, fun r => (h.id r).symm, fun r => (h.count r).symm⟩

theorem SameContents.trans {s' s'' : Heap} (h : SameContents s s') (h' : SameContents s' s'') : SameContents s s'' :=
  ⟨h'.items.trans h.items, fun r => (h'.id r).trans (h.id r), fun r => (h'.count r).trans (h.count r)⟩

theorem Valid.normalise (h : Valid env s) (item : Ref) :
    Valid env (s.normalise item) ∧ (∀ id, (s.normalise item).total id = s.total id) ∧
      SameContents s (s.normalise item) := by
  rw [Heap.normalise]
  split
  · exact h.setInstanceID item 0
  · exact ⟨h, fun _ => rfl, rfl, fun _ => rfl, fun _ => rfl⟩

/-- The instance of the item is no part of what a call must keep. -/
theorem conserves_normalise (h : Valid env s) (item : Ref) (o : Outcome) :
    Conserves env (s.normalise item) o ↔ Conserves env s o := by
  obtain ⟨_, htotal, hsame⟩ := h.normalise item
  constructor
  · intro hc
    exact ⟨hc.forest, fun id => (hc.total id).trans (htotal id), fun hret hmoved =>
      hsame.trans (hc.unchanged hret hmoved)⟩
  · intro hc
    exact ⟨hc.forest, fun id => (hc.total id).trans (htotal id).symm, fun hret hmoved =>
      hsame.symm.trans (hc.unchanged hret hmoved)⟩

theorem joinCount_of_equal {d : Dest} {item t : Ref} {m : Nat} {inst : UInt32} (hd : d.destItem = some t)
    (hinst : (s.thing t).instanceId = inst) (hequal : (s.thing item).equalsIgnoringInstance (s.thing t) = some true) :
    joinCount env s d item m inst = some (min (s.getStackSize env t - s.getItemCount t) m) := by
  simp only [joinCount, hd, hinst, ne_eq, not_true_eq_false, if_false, hequal, Option.map_some, if_true]

theorem AutoStacked.joins_iff {item r : Ref} {inst : UInt32} {d : Dest} (h : AutoStacked env s item inst d r) :
    (s.thing r).instanceId = inst ∧ (s.thing item).equalsIgnoringInstance (s.thing r) = some true := by
  have hjoins := h.joins
  rw [autoStacks] at hjoins
  split at hjoins
  · cases hjoins
  · rename_i hinst
    obtain ⟨equal, hequal, hjoins⟩ := Option.bind_eq_some_iff.mp hjoins
    have htrue := Option.some.inj hjoins
    rw [Bool.and_eq_true] at htrue
    rw [htrue.1] at hequal
    exact ⟨not_not.mp hinst, Thing.equalsIgnoringInstance_symm hequal⟩

/-- For an admitted stack, the rest is added or everything joins unless the item is lost. -/
theorem Admitted.joins_iff_not_lost {fromCylinder toCylinder : Ref} {index : Int} {item : Ref} {count : Nat}
    {flags : BitVec 32} {source : UInt32} {d : Dest} {m : Nat}
    (hadm : Admitted env s fromCylinder toCylinder index item count flags source d m)
    (hfound : Found env s item (s.getDestinationInstanceId d.toCylinder source) d)
    (hstack : s.isStackable env item = true) :
    (∃ n, joinCount env s d item m (s.getDestinationInstanceId d.toCylinder source) = some n ∧
      (n = m ∨ ¬ (s.capacity d.toCylinder : Int) ≤ d.index)) ↔
    ¬ Lost env s d item count (s.getDestinationInstanceId d.toCylinder source) := by
  obtain ⟨flags', ret, n, _, _, hmax, _, hm, _⟩ := hadm.resolved
  rw [moveCount, if_pos hstack] at hm
  generalize s.getDestinationInstanceId d.toCylinder source = inst at *
  rw [Lost, if_pos hstack]
  by_cases hindex : (s.capacity d.toCylinder : Int) ≤ d.index
  · -- the stack that was looked up is beyond the capacity
    obtain ⟨t, hauto⟩ := hfound.index hindex
    obtain ⟨hinst, hequal⟩ := hauto.joins_iff
    rw [joinCount_of_equal hauto.destItem hinst hequal]
    have hall : (∃ n, some (min (s.getStackSize env t - s.getItemCount t) m) = some n ∧
        (n = m ∨ ¬ (s.capacity d.toCylinder : Int) ≤ d.index)) ↔ m ≤ s.getStackSize env t - s.getItemCount t := by
      simp only [Option.some.injEq, exists_eq_left', hindex, not_true_eq_false, or_false, min_eq_right_iff]
    rw [hall]
    have honly (t' : Ref) : d.destItem = some t' ↔ t' = t := by
      rw [hauto.destItem, Option.some.injEq]
      exact eq_comm
    simp only [honly, exists_eq_left, hinst, hequal, reduceCtorEq, and_false, false_or, hindex, true_and]
    cases hlimit : s.hasCapacityLimit d.toCylinder with
    | true =>
      have hle := hauto.queryMaxCount_le hlimit hindex hmax
      have hmle : m ≤ s.getStackSize env t - s.getItemCount t := hm ▸ (Nat.min_le_right _ _).trans hle
      exact ⟨fun _ => nofun, fun _ => hmle⟩
    | false =>
      rw [queryMaxCount, if_pos hlimit] at hmax
      cases hmax
      have hcount : m = count := by omega
      rw [hcount]
      simp only [true_and, Nat.not_lt]
  · -- the rest is added, unless the comparison throws
    cases hd : d.destItem with
    | none =>
      refine ⟨fun _ => ?_, fun _ => ⟨0, ?_, .inr hindex⟩⟩
      · rintro ⟨t, ht, _⟩
        cases ht
      · simp only [joinCount, hd]
    | some t =>
      simp only [Option.some.injEq, exists_eq_left', hindex, false_and, and_false, or_false, not_false_eq_true,
        or_true, and_true]
      rw [joinCount]
      simp only [hd]
      by_cases hinst : (s.thing t).instanceId = inst
      · simp only [hinst, ne_eq, not_true_eq_false, if_false, true_and]
        cases (s.thing item).equalsIgnoringInstance (s.thing t) <;> simp
      · simp [hinst]

/-! ## Whole calls -/

/-- The queries admit the item, and it does not arrive. -/
def Loses (env : GameEnv) (s : Heap) (fromCylinder toCylinder : Ref) (index : Int) (item : Ref) (count : Nat)
    (flags : BitVec 32) : Prop :=
  let source := s.sourceInstanceId item
  let s := s.normalise item
  ∃ d m, Admitted env s fromCylinder toCylinder index item count flags source d m ∧
    Lost env s d item count (s.getDestinationInstanceId d.toCylinder source)

theorem moveFrom_conserves_iff (htable : TableOk env) (h : Valid env s) {toCylinder : Ref}
    (hto : (s.box toCylinder).isSome) (fromCylinder : Ref) (index : Int) (item : Ref) (count : Nat) (flags : BitVec 32)
    (source : UInt32) :
    (∃ o, s.moveFrom env fromCylinder toCylinder index item count flags source = some o ∧ Conserves env s o) ↔
      ¬ ∃ d m, Admitted env s fromCylinder toCylinder index item count flags source d m ∧
        Lost env s d item count (s.getDestinationInstanceId d.toCylinder source) := by
  rcases moveFrom_cases env s fromCylinder toCylinder index item count flags source with
    ⟨ret, d, m, hadm, hmove⟩ | ⟨⟨ret, hmove⟩, hnone⟩
  · have honly : (∃ d m, Admitted env s fromCylinder toCylinder index item count flags source d m ∧
        Lost env s d item count (s.getDestinationInstanceId d.toCylinder source)) ↔
        Lost env s d item count (s.getDestinationInstanceId d.toCylinder source) := by
      refine ⟨?_, fun hlost => ⟨d, m, hadm, hlost⟩⟩
      rintro ⟨d', m', hadm', hlost⟩
      obtain ⟨_, _, _, hres, _⟩ := hadm.resolved
      obtain ⟨_, _, _, hres', _⟩ := hadm'.resolved
      rw [hres] at hres'
      cases hres'
      exact hlost
    have hfound : Found env s item (s.getDestinationInstanceId d.toCylinder source) d := by
      obtain ⟨_, _, _, hres, _⟩ := hadm.resolved
      exact found_resolve h.forest _ hto (fun hr => by cases hr) hres
    obtain ⟨_, _, _, _, _, _, _, _, hremove⟩ := hadm.resolved
    obtain ⟨hmem, hpos, hle⟩ := of_queryRemove hremove
    rw [honly, hmove]
    cases hstack : s.isStackable env item with
    | true =>
      rw [transfer_stack h htable ret hfound hmem hstack hpos (hle hstack) hadm.other,
        hadm.joins_iff_not_lost hfound hstack]
    | false =>
      rw [transfer_whole h ret hfound hmem hstack hpos, Lost, if_neg (by simp [hstack])]
  · refine ⟨fun _ => ?_, fun _ => ⟨_, hmove, .refused h ret⟩⟩
    rintro ⟨d, m, hadm, _⟩
    exact hnone d m hadm

/-- A call ends and conserves items if and only if it does not lose the item. -/
theorem internalMoveItem_conserves_iff (htable : TableOk env) (h : Valid env s) {toCylinder : Ref}
    (hto : (s.box toCylinder).isSome) (fromCylinder : Ref) (index : Int) (item : Ref) (count : Nat) (flags : BitVec 32) :
    (∃ o, s.internalMoveItem env fromCylinder toCylinder index item count flags = some o ∧ Conserves env s o) ↔
      ¬ Loses env s fromCylinder toCylinder index item count flags := by
  have hto' : ((s.normalise item).box toCylinder).isSome := by
    rw [Heap.normalise]
    split <;> exact hto
  have hmove := moveFrom_conserves_iff htable (h.normalise item).1 hto' fromCylinder index item count flags
    (s.sourceInstanceId item)
  simp only [conserves_normalise h item] at hmove
  exact hmove

/-! ## A gold pouch that is full -/

/-- Gold coins are stackable, everything can be picked up and moved. -/
def pouchEnv : GameEnv where
  items id := { id, stackable := id == 3031, pickupable := true, moveable := true }

/-- A bag with 50 gold coins, and a gold pouch for one item that holds another item and 90 gold
coins. A gold pouch has no limit, so that it can hold more items than its capacity. -/
def pouchHeap : Heap where
  size := 5
  thing
    | 0 => { item := { id := 2853 } }
    | 1 => { item := { id := ITEM_GOLD_POUCH } }
    | 2 => { item := { id := 3031, count := 50 } }
    | 4 => { item := { id := 3031, count := 90 } }
    | _ => { item := { id := 3003 } }
  box
    | 0 => some { maxSize := 8 }
    | 1 => some { maxSize := 1, pagination := true }
    | _ => none
  items
    | 0 => [2]
    | 1 => [3, 4]
    | _ => []
  parent
    | 2 => some 0
    | 3 => some 1
    | 4 => some 1
    | _ => none
  place
    | 0 => some .ground
    | 1 => some .ground
    | _ => none

theorem pouchEnv_tableOk : TableOk pouchEnv := by
  intro id hid
  obtain rfl : id = 3031 := by simpa [pouchEnv] using hid
  constructor <;> decide

theorem pouchHeap_listed {c r : Ref} : r ∈ pouchHeap.items c ↔ (c = 0 ∧ r = 2) ∨ (c = 1 ∧ (r = 3 ∨ r = 4)) := by
  match c with
  | 0 => simp [pouchHeap]
  | 1 => simp [pouchHeap]
  | c + 2 => simp [pouchHeap]

theorem pouchHeap_box {c : Ref} (h : (pouchHeap.box c).isSome) : c = 0 ∨ c = 1 := by
  match c with
  | 0 => exact .inl rfl
  | 1 => exact .inr rfl
  | c + 2 => cases h

theorem pouchHeap_valid : Valid pouchEnv pouchHeap where
  item_lt h := by
    rcases pouchHeap_listed.mp h with ⟨_, rfl⟩ | ⟨_, rfl | rfl⟩ <;> decide
  box_lt h := by
    rcases pouchHeap_box h with rfl | rfl <;> decide
  holder h := by
    rcases pouchHeap_listed.mp h with ⟨rfl, _⟩ | ⟨rfl, _⟩ <;> rfl
  parent_iff {c r} := by
    rw [pouchHeap_listed]
    match r with
    | 0 => simp [pouchHeap]
    | 1 => simp [pouchHeap]
    | 2 => simp [pouchHeap, eq_comm]
    | 3 => simp [pouchHeap, eq_comm]
    | 4 => simp [pouchHeap, eq_comm]
    | r + 5 => simp [pouchHeap]
  nodup c := by
    match c with
    | 0 => decide
    | 1 => decide
    | c + 2 => exact List.nodup_nil
  placed {r} h := by
    match r with
    | 0 => decide
    | 1 => decide
    | r + 2 => cases h
  rooted h _ _ := by
    rcases pouchHeap_box h with rfl | rfl <;> rfl
  all_rooted h _ := by
    rcases pouchHeap_box h with rfl | rfl <;> rfl
  ends h := by
    rcases pouchHeap_box h with rfl | rfl <;> exact ⟨_, .top rfl⟩
  plain h := by
    rcases pouchHeap_box h with rfl | rfl <;> decide
  stack h := by
    rw [StackOk]
    rcases pouchHeap_listed.mp h with ⟨_, rfl⟩ | ⟨_, rfl | rfl⟩ <;> decide

/-- Ten coins fit into the stack of the pouch. -/
theorem pouchHeap_ten_conserved : ∃ o, pouchHeap.internalMoveItem pouchEnv 0 1 255 2 10 0 = some o ∧
    Conserves pouchEnv pouchHeap o := by
  refine (internalMoveItem_conserves_iff pouchEnv_tableOk pouchHeap_valid rfl 0 255 2 10 0).mpr ?_
  have hres : (pouchHeap.normalise 2).resolve pouchEnv 2 (pouchHeap.sourceInstanceId 2) (MAP_MAX_LAYERS - 1)
      { toCylinder := 1, index := 255 } 0 = some ({ toCylinder := 1, index := 1, destItem := some 4 }, 0) := rfl
  rintro ⟨d, m, hadm, hlost⟩
  obtain ⟨_, _, _, hres', _⟩ := hadm.resolved
  rw [hres] at hres'
  cases hres'
  obtain ⟨t, ht, ⟨_, hthrows⟩ | ⟨_, _, hroom⟩⟩ := hlost
  · cases ht
    cases hthrows
  · cases ht
    exact absurd hroom (by decide)

/-- Of 50 coins ten join the stack in the pouch, and 40 are gone. -/
theorem pouchHeap_fifty_lost : Valid pouchEnv pouchHeap ∧
    (pouchHeap.internalMoveItem pouchEnv 0 1 255 2 50 0).map (fun o => (o.ret, o.moved, o.state.total 3031)) =
      some (some .noError, 50, 100) ∧ pouchHeap.total 3031 = 140 ∧
    ¬ ∃ o, pouchHeap.internalMoveItem pouchEnv 0 1 255 2 50 0 = some o ∧ Conserves pouchEnv pouchHeap o := by
  have hout : (pouchHeap.internalMoveItem pouchEnv 0 1 255 2 50 0).map
      (fun o => (o.ret, o.moved, o.state.total 3031)) = some (some .noError, 50, 100) := by decide +kernel
  have htotal : pouchHeap.total 3031 = 140 := by decide +kernel
  refine ⟨pouchHeap_valid, hout, htotal, ?_⟩
  rintro ⟨o, ho, hkept⟩
  rw [ho] at hout
  have hid := hkept.total 3031
  rw [htotal] at hid
  simp [hid] at hout

end Heap

end ForgottenServer
