import ForgottenServer.Trade.Belongings

/-! # The exchange of the items of a trade

The part of `Game::playerAcceptTrade` behind `TRADE_TRANSFER`, with `internalMoveItem` as it is called there: no actor,
the player as the cylinder and `INDEX_WHEREEVER` as the index. The checks answer what they like; where the item goes
depends on them. The events around a move are left out. -/

namespace ForgottenServer.Trade

inductive ReturnValue where
  | noError
  | notPossible
  | notEnoughRoom
  | other (code : Nat)
  deriving DecidableEq, Repr

def slotFirst : Int := 1

def slotLast : Int := 10

def slotBackpack : Nat := 3

/-- Reward corpses and reward containers. Stackable items are no containers. -/
def Object.isRewardContainer (o : Object) : Bool := !o.stackable && o.isReward

/-! ## Moving an item -/

/-- Where `queryDestination` leads: to the player or to one of their containers, with an index there. Flags that ignore
stacks count for the player only, so a container may also name an item to stack with. -/
inductive Dest where
  | player (index : Int)
  | container (c : Ref) (index : Int) (toItem : Option Ref)
  deriving DecidableEq, Repr

namespace Dest

def toItem : Dest → Option Ref
  | player _ => none
  | container _ _ toItem => toItem

/-- The item of the cylinder and of the cylinders above it. -/
def cylinders (s : Belongings) : Dest → List Ref
  | player _ => []
  | container c _ _ => s.chain c

/-- What an item has for its parent after `addThing`, which does nothing for an index that is out of range. -/
def addThing (s : Belongings) (side : Side) : Dest → Option Parent
  | player index => if index < slotFirst ∨ slotLast < index then none else some (.inventory side index.toNat)
  | container c index _ => if (s.object c).capacity ≤ index then none else some (.container c)

/-- The search takes slots that are free, and containers that the player has on them and that are not in the item. -/
def Valid (s : Belongings) (side : Side) (item : Ref) : Dest → Prop
  | player index => slotFirst ≤ index → index ≤ slotLast → ∀ r, s.parent r ≠ some (.inventory side index.toNat)
  | container c _ toItem => c < s.size ∧ (s.object c).stackable = false ∧ s.holder c = some (.side side) ∧
      item ∉ s.chain c ∧ ∀ t, toItem = some t → s.parent t = some (.container c) ∧ (s.object item).stackable ∧
        (s.object t).kind = (s.object item).kind ∧ (s.object t).count < (s.object t).stackSize

def isContainer : Dest → Bool
  | player _ => false
  | container .. => true

end Dest

/-- What the checks of one move answer. Containers that have too little room for a stack say so; a free slot does not.
Nothing asks for an exchange: slots are free, and containers never do. -/
structure MoveAnswers (s : Belongings) (side : Side) (item : Ref) where
  dest : Dest
  queryAdd : ReturnValue
  queryMaxCount : ReturnValue
  maxQueryCount : Nat
  queryRemove : ReturnValue
  valid : dest.Valid s side item
  room : dest.isContainer → queryMaxCount = .noError → (s.object item).stackable →
    (s.object item).count ≤ maxQueryCount

namespace MoveAnswers

variable {s : Belongings} {side : Side} {item : Ref} (a : MoveAnswers s side item)

def count : Nat :=
  if (s.object item).stackable then min (s.object item).count a.maxQueryCount else a.maxQueryCount

/-- All the implementations of `queryRemove` look at the count first. -/
def remove : ReturnValue :=
  if a.count = 0 ∨ ((s.object item).stackable ∧ (s.object item).count < a.count) then .notPossible else a.queryRemove

def isRewardDest : Bool := match a.dest with
  | .player _ => false
  | .container c _ _ => (s.object c).isRewardContainer

/-- What `internalMoveItem` returns when it returns before it removes the item. -/
def refusal (tradeItem : Option Ref) : Option ReturnValue :=
  if a.dest.toItem = some item then some .noError
  else if a.isRewardDest then some .notPossible
  else if (s.object item).isRewardContainer then some .noError
  else if a.queryAdd ≠ .noError then some a.queryAdd
  else if a.queryMaxCount ≠ .noError ∧ a.maxQueryCount = 0 then some a.queryMaxCount
  else if a.remove ≠ .noError then some a.remove
  else if ∃ t ∈ tradeItem, t ∈ a.dest.cylinders s then some .notEnoughRoom
  else none

/-- How much of a stack joins the item to stack with. -/
def joined : Nat := match a.dest.toItem with
  | none => 0
  | some t =>
    if (s.object t).kind = (s.object item).kind then min ((s.object t).stackSize - (s.object t).count) a.count else 0

/-- `removeThing` of a part of a stack. -/
def removeStack : Belongings :=
  if a.count = (s.object item).count then s.setParent item none
  else s.setCount item ((s.object item).count - a.count)

def joinStack : Belongings := match a.dest.toItem with
  | none => a.removeStack
  | some t =>
    if (s.object t).kind = (s.object item).kind then a.removeStack.setCount t ((s.object t).count + a.joined)
    else a.removeStack

/-- The item is removed and added again, or a clone of it when it is a stack. -/
def moved : Belongings :=
  if (s.object item).stackable then
    if 0 < a.count - a.joined then
      a.joinStack.alloc { s.object item with count := a.count - a.joined } (a.dest.addThing s side)
    else a.joinStack
  else s.setParent item (a.dest.addThing s side)

/-- For the end of `internalMoveItem`, where not everything was moved. -/
def result : ReturnValue :=
  if (s.object item).stackable ∧ a.maxQueryCount < (s.object item).count then a.queryMaxCount else .noError

def internalMoveItem (tradeItem : Option Ref) : ReturnValue × Belongings := match a.refusal tradeItem with
  | some ret => (ret, s)
  | none => (a.result, a.moved)

end MoveAnswers

/-! ## The transfer -/

/-- What the checks of `internalAddItem` answer. It is only asked to test. -/
structure AddAnswers where
  queryAdd : ReturnValue
  queryMaxCount : ReturnValue

def AddAnswers.internalAddItem (a : AddAnswers) : ReturnValue :=
  if a.queryAdd ≠ .noError then a.queryAdd else a.queryMaxCount

/-- What the checks of `internalRemoveItem` answer. It is only asked to test, too. -/
structure RemoveAnswers where
  queryRemove : ReturnValue
  canRemove : Bool

def RemoveAnswers.internalRemoveItem (a : RemoveAnswers) (s : Belongings) (item : Ref) : ReturnValue :=
  if s.parent item = none then .notPossible
  else if a.queryRemove ≠ .noError then a.queryRemove
  else if !a.canRemove then .notPossible
  else .noError

def getInventoryItem (s : Belongings) (side : Side) (slot : Nat) : Option Ref :=
  (List.range s.size).find? fun r => s.parent r = some (.inventory side slot)

/-- What the calls of a transfer answer: the dry runs, and the moves. The second move is asked about what the first one
leaves. -/
structure Answers (s : Belongings) (playerItem partnerItem : Ref) where
  addToPartner : AddAnswers
  addToPlayer : AddAnswers
  removeFromPlayer : RemoveAnswers
  removeFromPartner : RemoveAnswers
  first : MoveAnswers s .partner playerItem
  second : MoveAnswers (first.internalMoveItem (some partnerItem)).2 .player partnerItem

namespace Answers

variable {s : Belongings} {playerItem partnerItem : Ref} (a : Answers s playerItem partnerItem)

/-- The checks for a backpack that is worn: of the partner, and of the player. -/
def backpacks (s : Belongings) (playerItem partnerItem : Ref) : ReturnValue × ReturnValue :=
  let partnerWorn := getInventoryItem s .partner slotBackpack = some partnerItem
  let playerWorn := getInventoryItem s .player slotBackpack = some playerItem
  let tradePartnerRet :=
    if partnerWorn ∧ (getInventoryItem s .partner (s.object playerItem).slotType).isSome then .notEnoughRoom
    else .noError
  let playerRet :=
    if playerWorn ∧ (getInventoryItem s .player (s.object partnerItem).slotType).isSome then .notEnoughRoom
    else .noError
  (tradePartnerRet, if playerWorn ∧ partnerWorn then .notEnoughRoom else playerRet)

/-- Everything in front of the moves agrees. -/
def Agreed : Prop :=
  Answers.backpacks s playerItem partnerItem = (.noError, .noError) ∧
    a.addToPartner.internalAddItem = .noError ∧ a.addToPlayer.internalAddItem = .noError ∧
    a.removeFromPlayer.internalRemoveItem s playerItem = .noError ∧
    a.removeFromPartner.internalRemoveItem s partnerItem = .noError

instance : Decidable a.Agreed := inferInstanceAs (Decidable (_ ∧ _))

/-- The transfer, with `isSuccess`. What the second move returns is not looked at. -/
def transfer : Bool × Belongings :=
  if a.Agreed then
    let move := a.first.internalMoveItem (some partnerItem)
    if move.1 = .noError then (true, (a.second.internalMoveItem none).2) else (false, move.2)
  else (false, s)

end Answers

/-! ## What a move does -/

namespace Dest

variable {s : Belongings} {side : Side} {item : Ref} {d : Dest}

theorem eq_of_addThing {c : Ref} (h : d.addThing s side = some (.container c)) :
    ∃ index toItem, d = .container c index toItem := by
  cases d with
  | player index =>
    rw [addThing] at h
    split at h
    · cases h
    · cases h
  | container c' index toItem =>
    rw [addThing] at h
    split at h
    · cases h
    · cases h
      exact ⟨index, toItem, rfl⟩

theorem Valid.fits (h : d.Valid s side item) : s.Fits item (d.addThing s side) := by
  intro c hc
  obtain ⟨index, toItem, rfl⟩ := eq_of_addThing hc
  exact ⟨h.1, h.2.1, h.2.2.2.1⟩

/-- Whatever is added is added to what the player has. -/
theorem Valid.placeHolder (h : d.Valid s side item) :
    s.placeHolder (d.addThing s side) = if (d.addThing s side).isSome then some (.side side) else none := by
  cases d with
  | player index =>
    rw [addThing]
    split
    · rfl
    · rfl
  | container c index toItem =>
    rw [addThing]
    split
    · rfl
    · exact h.2.2.1

end Dest

/-- What is outside an item is as it was. -/
structure Apart (s s' : Belongings) (x : Ref) : Prop where
  size_le : s.size ≤ s'.size
  chain : ∀ r, r < s.size → x ∉ s.chain r → s'.chain r = s.chain r
  holder : ∀ r, r < s.size → x ∉ s.chain r → s'.holder r = s.holder r

namespace Apart

variable {s s' s'' : Belongings} {x : Ref}

theorem refl (s : Belongings) (x : Ref) : Apart s s x := ⟨le_rfl, fun _ _ _ => rfl, fun _ _ _ => rfl⟩

theorem trans (h : Apart s s' x) (h' : Apart s' s'' x) : Apart s s'' x := by
  refine ⟨h.size_le.trans h'.size_le, fun r hr hnot => ?_, fun r hr hnot => ?_⟩
  · have hchain := h.chain r hr hnot
    exact (h'.chain r (hr.trans_le h.size_le) (hchain ▸ hnot)).trans hchain
  · have hchain := h.chain r hr hnot
    exact (h'.holder r (hr.trans_le h.size_le) (hchain ▸ hnot)).trans (h.holder r hr hnot)

theorem setParent (h : s.WellFormed) (hx : x < s.size) {p : Option Parent} (hp : s.Fits x p) :
    Apart s (s.setParent x p) x :=
  ⟨le_rfl, fun _ hr hnot => h.chain_setParent hx hp hr hnot,
    fun _ hr hnot => (h.holder_setParent hx hp hr).trans (if_neg hnot)⟩

theorem setCount (s : Belongings) (y count : Nat) : Apart s (s.setCount y count) x :=
  ⟨le_rfl, fun _ _ _ => rfl, fun _ _ _ => rfl⟩

theorem alloc (h : s.WellFormed) {object : Object} {p : Option Parent} (hcount : 0 < object.count)
    (hp : ∀ c, p = some (.container c) → c < s.size ∧ (s.object c).stackable = false) :
    Apart s (s.alloc object p) x :=
  ⟨Nat.le_succ _, fun _ hr _ => Belongings.chain_alloc h hcount hp hr,
    fun _ hr _ => Belongings.holder_alloc h hcount hp hr⟩

end Apart

namespace MoveAnswers

variable {s : Belongings} {side : Side} {item : Ref} (a : MoveAnswers s side item)

theorem remove_eq_noError (h : a.remove = .noError) :
    0 < a.count ∧ ((s.object item).stackable → a.count ≤ (s.object item).count) := by
  unfold remove at h
  split at h
  · cases h
  · rename_i hnot
    rw [not_or, not_and, Nat.not_lt] at hnot
    exact ⟨Nat.pos_of_ne_zero hnot.1, hnot.2⟩

/-- What is known of a move that is made. -/
theorem of_refusal_eq_none {tradeItem : Option Ref} (h : a.refusal tradeItem = none) :
    a.dest.toItem ≠ some item ∧ 0 < a.count ∧ ((s.object item).stackable → a.count ≤ (s.object item).count) ∧
      ∀ t, tradeItem = some t → t ∉ a.dest.cylinders s := by
  unfold refusal at h
  repeat' split at h
  any_goals cases h
  rename_i htoItem _ _ _ _ hremove htrade
  obtain ⟨hpos, hle⟩ := a.remove_eq_noError (not_not.mp hremove)
  exact ⟨htoItem, hpos, hle, fun t ht hmem => htrade ⟨t, ht, hmem⟩⟩

/-- A move that is silently ignored. -/
theorem of_refusal_eq_noError {tradeItem : Option Ref} (h : a.refusal tradeItem = some .noError) :
    a.dest.toItem = some item ∨ (s.object item).stackable = false := by
  unfold refusal at h
  split at h
  · exact .inl ‹_›
  split at h
  · cases h
  split at h
  · rename_i hreward
    unfold Object.isRewardContainer at hreward
    rw [Bool.and_eq_true, Bool.not_eq_true'] at hreward
    exact .inr hreward.1
  split at h
  · exact absurd (Option.some.inj h) ‹_›
  split at h
  · rename_i hmax
    exact absurd (Option.some.inj h) hmax.1
  split at h
  · exact absurd (Option.some.inj h) ‹_›
  split at h
  · cases h
  · cases h

/-- The item to stack with. -/
theorem toItem_spec (h : s.WellFormed) {t : Ref} (ht : a.dest.toItem = some t) :
    t < s.size ∧ s.holder t = some (.side side) ∧ (s.object item).stackable ∧
      (s.object t).kind = (s.object item).kind ∧ (s.object t).count < (s.object t).stackSize ∧
      a.dest.isContainer ∧ s.chain t = t :: a.dest.cylinders s := by
  have hvalid := a.valid
  cases hdest : a.dest with
  | player index =>
    rw [hdest] at ht
    cases ht
  | container c index toItem =>
    rw [hdest] at ht hvalid
    obtain ⟨hc, _, hholder, _, hstack⟩ := hvalid
    obtain ⟨hparent, hstackable, hkind, hroom⟩ := hstack t ht
    have hup : s.up t = some c := Belongings.boxOf_eq_some.mpr hparent
    have htlt := (h.up_lt hup).1
    have hchain : s.chain t = t :: s.chain c := h.chain_eq htlt (.step hup (h.above hc))
    refine ⟨htlt, ?_, hstackable, hkind, hroom, rfl, hchain⟩
    rw [h.holder_eq htlt (hchain ▸ List.mem_cons_of_mem t (h.mem_self hc))]
    exact hholder

theorem joined_le : a.joined ≤ a.count := by
  unfold joined
  split
  · exact Nat.zero_le _
  · split
    · exact Nat.min_le_right _ _
    · exact Nat.zero_le _

/-! ### Stacks -/

section Stack

variable (h : s.WellFormed) (hitem : item < s.size) (hstack : (s.object item).stackable = true)
  (hle : a.count ≤ (s.object item).count)

theorem fits_none : s.Fits item none := fun _ hc => (by cases hc)

theorem size_removeStack : a.removeStack.size = s.size := by
  unfold removeStack
  split
  · rfl
  · rfl

theorem object_removeStack {r : Ref} (hr : r ≠ item) : a.removeStack.object r = s.object r := by
  unfold removeStack
  split
  · rfl
  · exact Function.update_of_ne hr ..

include h hitem

theorem apart_removeStack : Apart s a.removeStack item := by
  unfold removeStack
  split
  · exact .setParent h hitem fits_none
  · exact .setCount ..

theorem holder_removeStack_self : a.removeStack.holder item =
    if a.count = (s.object item).count then none else s.holder item := by
  unfold removeStack
  split
  · exact h.holder_setParent_self hitem fits_none
  · rfl

include hle in
theorem wellFormed_removeStack : a.removeStack.WellFormed := by
  unfold removeStack
  split
  · exact h.setParent hitem fits_none
  · exact h.setCount item (by omega)

include hstack

theorem goods_removeStack {y : Ref} (hy : y < s.size) (hyitem : y ∉ s.chain item) :
    a.removeStack.goods y = s.goods y := by
  unfold removeStack
  split
  · refine h.goods_setParent hitem fits_none hy (fun hmem => hyitem ?_) hyitem fun _ hc => (by cases hc)
    rw [(h.mem_chain_stack hy hstack).mp hmem]
    exact h.mem_self hitem
  · funext kind
    have hgoods := @Belongings.goods_setCount s item ((s.object item).count - a.count) hitem y kind
    rwa [if_neg fun hboth => hyitem hboth.1, if_neg fun hboth => hyitem hboth.1] at hgoods

include hle

theorem amount_removeStack (who : Holder) (kind : Nat) :
    a.removeStack.amount who kind +
        (if s.holder item = some who ∧ (s.object item).kind = kind then a.count else 0) = s.amount who kind := by
  unfold removeStack
  split
  · rename_i hall
    have hamount := h.amount_setParent hitem fits_none who kind
    rw [h.goods_stack hitem hstack, ← hall] at hamount
    have hnone : s.placeHolder none ≠ some who := fun heq => (by cases heq)
    rwa [if_neg hnone, Nat.add_zero, ← ite_and] at hamount
  · have hamount := @Belongings.amount_setCount s item ((s.object item).count - a.count) hitem who kind
    split at hamount
    · rename_i hboth
      rw [if_pos hboth]
      omega
    · rename_i hboth
      rw [if_neg hboth]
      exact hamount

end Stack

/-- Joining changes nothing but the count of the item to stack with. -/
theorem joinStack_eq (h : s.WellFormed) : (a.dest.toItem = none ∧ a.joinStack = a.removeStack ∧ a.joined = 0) ∨
    ∃ t, a.dest.toItem = some t ∧ a.joinStack = a.removeStack.setCount t ((s.object t).count + a.joined) ∧
      a.joined = min ((s.object t).stackSize - (s.object t).count) a.count := by
  unfold joinStack joined
  cases ht : a.dest.toItem with
  | none => exact .inl ⟨rfl, rfl, rfl⟩
  | some t =>
    have hkind := (a.toItem_spec h ht).2.2.2.1
    refine .inr ⟨t, rfl, ?_, if_pos hkind⟩
    exact if_pos hkind

theorem joined_pos (h : s.WellFormed) (hpos : 0 < a.count) {t : Ref} (ht : a.dest.toItem = some t) : 0 < a.joined := by
  have hroom := (a.toItem_spec h ht).2.2.2.2.1
  rcases a.joinStack_eq h with ⟨hnone, _⟩ | ⟨t', ht', _, hjoined⟩
  · rw [ht] at hnone
    cases hnone
  · rw [ht] at ht'
    cases ht'
    omega

section Join

variable (h : s.WellFormed) (hitem : item < s.size) (hstack : (s.object item).stackable = true)
  (hle : a.count ≤ (s.object item).count) (hne : a.dest.toItem ≠ some item)
include h

theorem size_joinStack : a.joinStack.size = s.size := by
  rcases a.joinStack_eq h with ⟨_, heq, _⟩ | ⟨t, _, heq, _⟩
  · rw [heq, a.size_removeStack]
  · rw [heq]
    exact a.size_removeStack

theorem object_joinStack {r : Ref} (hr : r ≠ item) (hrt : a.dest.toItem ≠ some r) :
    a.joinStack.object r = s.object r := by
  rcases a.joinStack_eq h with ⟨_, heq, _⟩ | ⟨t, ht, heq, _⟩
  · rw [heq, a.object_removeStack hr]
  · have hne : r ≠ t := fun hrt' => hrt (hrt' ▸ ht)
    rw [heq, Belongings.object_setCount, if_neg hne, a.object_removeStack hr]

theorem object_joinStack_self (hne : a.dest.toItem ≠ some item) : a.joinStack.object item = a.removeStack.object item := by
  rcases a.joinStack_eq h with ⟨_, heq, _⟩ | ⟨t, ht, heq, _⟩
  · rw [heq]
  · have hne : item ≠ t := fun hit => hne (hit ▸ ht)
    rw [heq, Belongings.object_setCount, if_neg hne]

include hitem

theorem apart_joinStack : Apart s a.joinStack item := by
  rcases a.joinStack_eq h with ⟨_, heq, _⟩ | ⟨t, ht, heq, _⟩
  · rw [heq]
    exact a.apart_removeStack h hitem
  · rw [heq]
    exact (a.apart_removeStack h hitem).trans (.setCount ..)

theorem holder_joinStack_self : a.joinStack.holder item =
    if a.count = (s.object item).count then none else s.holder item := by
  rw [← a.holder_removeStack_self h hitem]
  rcases a.joinStack_eq h with ⟨_, heq, _⟩ | ⟨t, ht, heq, _⟩
  · rw [heq]
  · rw [heq]
    rfl

include hle in
theorem wellFormed_joinStack : a.joinStack.WellFormed := by
  have hremove := a.wellFormed_removeStack h hitem hle
  rcases a.joinStack_eq h with ⟨_, heq, _⟩ | ⟨t, ht, heq, _⟩
  · rwa [heq]
  · rw [heq]
    exact hremove.setCount t (Nat.add_pos_left (h.count_pos (a.toItem_spec h ht).1) _)

include hstack

theorem not_mem_chain_toItem (hne : a.dest.toItem ≠ some item) {t : Ref} (ht : a.dest.toItem = some t) :
    item ∉ s.chain t := by
  intro hmem
  have heq := (h.mem_chain_stack (a.toItem_spec h ht).1 hstack).mp hmem
  exact hne (heq ▸ ht)

include hne

theorem goods_joinStack {y : Ref} (hy : y < s.size) (hyitem : y ∉ s.chain item) (hdest : y ∉ a.dest.cylinders s)
    (kind : Nat) : a.joinStack.goods y kind =
      s.goods y kind + if a.dest.toItem = some y ∧ (s.object item).kind = kind then a.joined else 0 := by
  have hremove := a.goods_removeStack h hitem hstack hy hyitem
  rcases a.joinStack_eq h with ⟨hnone, heq, hjoined⟩ | ⟨t, ht, heq, _⟩
  · rw [heq, hremove, hjoined, ite_self, Nat.add_zero]
  · obtain ⟨htlt, _, _, hkind, _, _, hchain⟩ := a.toItem_spec h ht
    have hnot := a.not_mem_chain_toItem h hitem hstack hne ht
    have htne : t ≠ item := fun heq => hne (heq ▸ ht)
    have hgoods := @Belongings.goods_setCount a.removeStack t ((s.object t).count + a.joined)
      (a.size_removeStack ▸ htlt) y kind
    have hmem : y ∈ a.removeStack.chain t ↔ t = y := by
      rw [(a.apart_removeStack h hitem).chain t htlt hnot, hchain, List.mem_cons]
      exact ⟨fun hor => hor.elim Eq.symm fun hin => absurd hin hdest, fun heq => .inl heq.symm⟩
    rw [hremove, a.object_removeStack htne, hkind] at hgoods
    rw [heq, ht]
    simp only [Option.some.injEq]
    simp only [hmem] at hgoods
    split at hgoods
    · rename_i hboth
      rw [if_pos hboth]
      omega
    · rename_i hboth
      rw [if_neg hboth]
      omega

include hle

theorem amount_joinStack (who : Holder) (kind : Nat) :
    a.joinStack.amount who kind +
        (if s.holder item = some who ∧ (s.object item).kind = kind then a.count else 0) =
      s.amount who kind + if who = .side side ∧ (s.object item).kind = kind then a.joined else 0 := by
  have hremove := a.amount_removeStack h hitem hstack hle who kind
  rcases a.joinStack_eq h with ⟨hnone, heq, hjoined⟩ | ⟨t, ht, heq, _⟩
  · rw [heq, hremove, hjoined, ite_self, Nat.add_zero]
  · obtain ⟨htlt, hholder, _, hkind, _⟩ := a.toItem_spec h ht
    have hnot := a.not_mem_chain_toItem h hitem hstack hne ht
    have htne : t ≠ item := fun heq => hne (heq ▸ ht)
    have hamount := @Belongings.amount_setCount a.removeStack t ((s.object t).count + a.joined)
      (a.size_removeStack ▸ htlt) who kind
    have hwho : (some (Holder.side side) = some who) ↔ who = .side side := by
      rw [Option.some.injEq]
      exact eq_comm
    rw [(a.apart_removeStack h hitem).holder t htlt hnot, hholder, a.object_removeStack htne, hkind] at hamount
    simp only [hwho] at hamount
    rw [heq]
    split at hamount
    · rename_i hboth
      rw [if_pos hboth]
      omega
    · rename_i hboth
      rw [if_neg hboth]
      omega

end Join

/-! ### Every item -/

/-- What leaves the holder of the item. -/
def taken (kind : Nat) : Nat :=
  if (s.object item).stackable then (if (s.object item).kind = kind then a.count else 0) else s.goods item kind

/-- What the player gets. -/
def arrived (kind : Nat) : Nat :=
  if (a.dest.addThing s side).isSome then a.taken kind
  else if (s.object item).stackable ∧ (s.object item).kind = kind then a.joined
  else 0

section Moved

variable (h : s.WellFormed) (hitem : item < s.size) {tradeItem : Option Ref} (hmade : a.refusal tradeItem = none)

include h in
theorem stackable_joinStack (r : Ref) : (a.joinStack.object r).stackable = (s.object r).stackable := by
  have hcount (s' : Belongings) (t count : Nat) :
      ((s'.setCount t count).object r).stackable = (s'.object r).stackable := by
    rw [Belongings.object_setCount]
    split
    · rw [‹r = t›]
    · rfl
  have hremove : (a.removeStack.object r).stackable = (s.object r).stackable := by
    unfold removeStack
    split
    · rfl
    · exact hcount ..
  rcases a.joinStack_eq h with ⟨_, heq, _⟩ | ⟨t, ht, heq, _⟩
  · rw [heq, hremove]
  · rw [heq, hcount, hremove]

include h in
theorem container_joinStack (c : Ref) (hc : a.dest.addThing s side = some (.container c)) :
    c < a.joinStack.size ∧ (a.joinStack.object c).stackable = false := by
  obtain ⟨hlt, hbox, _⟩ := a.valid.fits c hc
  exact ⟨a.size_joinStack h ▸ hlt, (a.stackable_joinStack h c).trans hbox⟩

/-- The cases of `moved`. -/
theorem moved_eq :
    ((s.object item).stackable = false ∧ a.moved = s.setParent item (a.dest.addThing s side)) ∨
    ((s.object item).stackable = true ∧ a.joined = a.count ∧ a.moved = a.joinStack) ∨
    ((s.object item).stackable = true ∧ a.joined < a.count ∧ a.moved =
      a.joinStack.alloc { s.object item with count := a.count - a.joined } (a.dest.addThing s side)) := by
  unfold moved
  have hjoined := a.joined_le
  by_cases hstack : (s.object item).stackable = true
  · rw [if_pos hstack]
    split
    · exact .inr (.inr ⟨hstack, by omega, rfl⟩)
    · exact .inr (.inl ⟨hstack, by omega, rfl⟩)
  · rw [if_neg hstack]
    exact .inl ⟨Bool.eq_false_iff.mpr hstack, rfl⟩

include h hitem in
theorem holder_moved_item (hbox : (s.object item).stackable = false) : a.moved.holder item =
    if (a.dest.addThing s side).isSome then some (.side side) else none := by
  rw [← a.valid.placeHolder, ← h.holder_setParent_self hitem a.valid.fits]
  unfold moved
  rw [if_neg (by rw [hbox]; exact Bool.false_ne_true)]

include h in
/-- Only the item and the one to stack with change. -/
theorem object_moved {r : Ref} (hr : r < s.size) (hne : r ≠ item) (htoItem : a.dest.toItem ≠ some r) :
    a.moved.object r = s.object r := by
  rcases a.moved_eq with ⟨_, heq⟩ | ⟨_, _, heq⟩ | ⟨_, hlt, heq⟩
  · rw [heq]
    rfl
  · rw [heq, a.object_joinStack h hne htoItem]
  · have hsize : r ≠ a.joinStack.size := (a.size_joinStack h ▸ hr).ne
    rw [heq, ← a.object_joinStack h hne htoItem]
    exact Function.update_of_ne hsize ..

include h hitem in
theorem placeHolder_joinStack : a.joinStack.placeHolder (a.dest.addThing s side) =
    s.placeHolder (a.dest.addThing s side) := by
  unfold Belongings.placeHolder
  cases hbox : Belongings.boxOf (a.dest.addThing s side) with
  | none => rfl
  | some c =>
    obtain ⟨hlt, _, hnot⟩ := a.valid.fits c (Belongings.boxOf_eq_some.mp hbox)
    exact (a.apart_joinStack h hitem).holder c hlt hnot

include h in
theorem stackable_moved {r : Ref} (hr : r < s.size) : (a.moved.object r).stackable = (s.object r).stackable := by
  rcases a.moved_eq with ⟨_, heq⟩ | ⟨_, _, heq⟩ | ⟨_, _, heq⟩
  · rw [heq]
    rfl
  · rw [heq, a.stackable_joinStack h]
  · have hsize : r ≠ a.joinStack.size := (a.size_joinStack h ▸ hr).ne
    rw [heq, ← a.stackable_joinStack h]
    exact congrArg Object.stackable (Function.update_of_ne hsize ..)

include h hitem hmade

theorem wellFormed_moved : a.moved.WellFormed := by
  obtain ⟨_, _, hle, _⟩ := a.of_refusal_eq_none hmade
  rcases a.moved_eq with ⟨_, heq⟩ | ⟨hstack, _, heq⟩ | ⟨hstack, hlt, heq⟩
  · rw [heq]
    exact h.setParent hitem a.valid.fits
  · rw [heq]
    exact a.wellFormed_joinStack h hitem (hle hstack)
  · rw [heq]
    exact (a.wellFormed_joinStack h hitem (hle hstack)).alloc (Nat.sub_pos_of_lt hlt)
      (a.container_joinStack h)

theorem apart_moved : Apart s a.moved item := by
  obtain ⟨_, _, hle, _⟩ := a.of_refusal_eq_none hmade
  rcases a.moved_eq with ⟨_, heq⟩ | ⟨hstack, _, heq⟩ | ⟨hstack, hlt, heq⟩
  · rw [heq]
    exact .setParent h hitem a.valid.fits
  · rw [heq]
    exact a.apart_joinStack h hitem
  · rw [heq]
    exact (a.apart_joinStack h hitem).trans (.alloc (a.wellFormed_joinStack h hitem (hle hstack))
      (Nat.sub_pos_of_lt hlt) (a.container_joinStack h))

theorem holder_moved_stack (hstack : (s.object item).stackable = true) : a.moved.holder item =
    if a.count = (s.object item).count then none else s.holder item := by
  obtain ⟨_, _, hle, _⟩ := a.of_refusal_eq_none hmade
  rw [← a.holder_joinStack_self h hitem]
  rcases a.moved_eq with ⟨hbox, _⟩ | ⟨_, _, heq⟩ | ⟨_, hlt, heq⟩
  · rw [hbox] at hstack
    cases hstack
  · rw [heq]
  · rw [heq]
    exact Belongings.holder_alloc (a.wellFormed_joinStack h hitem (hle hstack)) (Nat.sub_pos_of_lt hlt)
      (a.container_joinStack h) (a.size_joinStack h ▸ hitem)

theorem count_moved_stack (hstack : (s.object item).stackable = true) (hpart : a.count ≠ (s.object item).count) :
    (a.moved.object item).count = (s.object item).count - a.count := by
  obtain ⟨hne, _⟩ := a.of_refusal_eq_none hmade
  have hremove : (a.joinStack.object item).count = (s.object item).count - a.count := by
    rw [a.object_joinStack_self h hne]
    unfold removeStack
    rw [if_neg hpart, Belongings.object_setCount, if_pos rfl]
  rcases a.moved_eq with ⟨hbox, _⟩ | ⟨_, _, heq⟩ | ⟨_, hlt, heq⟩
  · rw [hbox] at hstack
    cases hstack
  · rw [heq, hremove]
  · have hsize : item ≠ a.joinStack.size := (a.size_joinStack h ▸ hitem).ne
    rw [heq, ← hremove]
    exact congrArg Object.count (Function.update_of_ne hsize ..)

theorem not_mem_chain_moved {y : Ref} (hyitem : y ∉ s.chain item) (hdest : y ∉ a.dest.cylinders s) :
    y ∉ a.moved.chain item := by
  obtain ⟨_, _, hle, _⟩ := a.of_refusal_eq_none hmade
  have hne : y ≠ item := fun heq => hyitem (heq.symm ▸ h.mem_self hitem)
  have hremove : y ∉ a.removeStack.chain item := by
    unfold removeStack
    split
    · exact h.not_mem_chain_setParent hitem fits_none hne fun _ hc => (by cases hc)
    · exact hyitem
  have hjoin : y ∉ a.joinStack.chain item := by
    rcases a.joinStack_eq h with ⟨_, heq, _⟩ | ⟨t, _, heq, _⟩
    · rwa [heq]
    · rw [heq]
      exact hremove
  rcases a.moved_eq with ⟨_, heq⟩ | ⟨_, _, heq⟩ | ⟨hstack, hlt, heq⟩
  · rw [heq]
    refine h.not_mem_chain_setParent hitem a.valid.fits hne fun c hc => ?_
    obtain ⟨index, toItem, hcontainer⟩ := Dest.eq_of_addThing hc
    rwa [hcontainer] at hdest
  · rwa [heq]
  · rw [heq, Belongings.chain_alloc (a.wellFormed_joinStack h hitem (hle hstack)) (Nat.sub_pos_of_lt hlt)
      (a.container_joinStack h) (a.size_joinStack h ▸ hitem)]
    exact hjoin

/-- Another item holds what it held, unless the stack joins it. -/
theorem goods_moved {y : Ref} (hy : y < s.size) (hitemy : item ∉ s.chain y) (hyitem : y ∉ s.chain item)
    (hdest : y ∉ a.dest.cylinders s) (kind : Nat) : a.moved.goods y kind =
      s.goods y kind + if a.dest.toItem = some y ∧ (s.object item).kind = kind then a.joined else 0 := by
  obtain ⟨hne, _, hle, _⟩ := a.of_refusal_eq_none hmade
  have hplace (c : Ref) (hc : a.dest.addThing s side = some (.container c)) : y ∉ s.chain c := by
    obtain ⟨index, toItem, hcontainer⟩ := Dest.eq_of_addThing hc
    rwa [hcontainer] at hdest
  rcases a.moved_eq with ⟨hbox, heq⟩ | ⟨hstack, _, heq⟩ | ⟨hstack, hlt, heq⟩
  · have htoItem : a.dest.toItem ≠ some y := by
      intro ht
      have hstack := (a.toItem_spec h ht).2.2.1
      rw [hbox] at hstack
      cases hstack
    rw [if_neg fun hboth => htoItem hboth.1, Nat.add_zero, heq,
      h.goods_setParent hitem a.valid.fits hy hitemy hyitem hplace]
  · rw [heq, a.goods_joinStack h hitem hstack hne hy hyitem hdest]
  · have hjoin := a.wellFormed_joinStack h hitem (hle hstack)
    rw [heq, ← a.goods_joinStack h hitem hstack hne hy hyitem hdest]
    refine congrFun (Belongings.goods_alloc hjoin (Nat.sub_pos_of_lt hlt) (a.container_joinStack h)
      (a.size_joinStack h ▸ hy) fun c hc => ?_) kind
    obtain ⟨hlt, _, hnot⟩ := a.valid.fits c hc
    rw [(a.apart_joinStack h hitem).chain c hlt hnot]
    exact hplace c hc

/-- What a move takes from whom and gives to whom. -/
theorem amount_moved (who : Holder) (kind : Nat) :
    a.moved.amount who kind + (if s.holder item = some who then a.taken kind else 0) =
      s.amount who kind + if who = .side side then a.arrived kind else 0 := by
  obtain ⟨hne, _, hle, _⟩ := a.of_refusal_eq_none hmade
  have hholder := a.valid.placeHolder
  have hwho : (some (Holder.side side) = some who) ↔ who = .side side := by
    rw [Option.some.injEq]
    exact eq_comm
  unfold arrived taken
  rcases a.moved_eq with ⟨hbox, heq⟩ | ⟨hstack, hall, heq⟩ | ⟨hstack, hlt, heq⟩
  · have hnot : ¬ (s.object item).stackable = true := by
      rw [hbox]
      exact Bool.false_ne_true
    have hamount := h.amount_setParent hitem a.valid.fits who kind
    rw [hholder] at hamount
    rw [heq, if_neg hnot, hamount]
    by_cases hsome : (a.dest.addThing s side).isSome = true
    · simp only [hsome, if_true, hwho]
    · simp only [hsome, if_false, hnot, false_and, ite_self, reduceCtorEq, Bool.false_eq_true]
  · have hamount := a.amount_joinStack h hitem hstack (hle hstack) hne who kind
    simp only [heq, hstack, if_true, true_and, ← ite_and, hall, ite_self] at hamount ⊢
    exact hamount
  · have hamount := a.amount_joinStack h hitem hstack (hle hstack) hne who kind
    have halloc := @Belongings.amount_alloc a.joinStack { s.object item with count := a.count - a.joined } _
      (a.wellFormed_joinStack h hitem (hle hstack)) (Nat.sub_pos_of_lt hlt) (a.container_joinStack h) who kind
    rw [a.placeHolder_joinStack h hitem, hholder] at halloc
    rw [heq, halloc]
    by_cases hsome : (a.dest.addThing s side).isSome = true
    · simp only [hsome, hstack, if_true, ← ite_and, hwho] at hamount ⊢
      by_cases hget : who = .side side ∧ (s.object item).kind = kind
      · rw [if_pos hget] at hamount ⊢
        rw [if_pos hget]
        omega
      · rw [if_neg hget] at hamount ⊢
        rw [if_neg hget]
        exact hamount
    · simp only [hsome, hstack, if_true, true_and, ← ite_and, if_false, reduceCtorEq, false_and, Nat.add_zero,
        Bool.false_eq_true] at hamount ⊢
      exact hamount

end Moved

end MoveAnswers

end ForgottenServer.Trade
