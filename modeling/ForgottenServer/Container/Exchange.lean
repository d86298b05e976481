import Mathlib

/-! # The exchange

`Game::internalMoveItem` from the moment at which the destination has answered that its item has to
make place. The cylinders are whatever they are: the call only sees their virtual functions, whose
answers may be any. Notifications and the start and the end of decays are left out. -/

namespace ForgottenServer.Exchange

inductive ReturnValue where
  | noError | notPossible | notEnoughRoom | needExchange
  | other (code : ℕ)
  deriving DecidableEq, Repr

def INDEX_WHEREEVER : Int := -1

/-- The functions of cylinders and items that the call uses. `getThingIndex` is -1 where the thing
is not. `addThing` has an overload without an index. `clone` gives a new item. An exception may
leave `equalsIgnoringInstance`. -/
structure World (σ Cyl Item : Type) where
  queryAdd : σ → Cyl → Int → Item → ℕ → (flags : BitVec 32) → (actor : Bool) → ReturnValue
  queryMaxCount : σ → Cyl → Int → Item → ℕ → (flags : BitVec 32) → ReturnValue × ℕ
  queryRemove : σ → Cyl → Item → ℕ → (flags : BitVec 32) → ReturnValue
  getThingIndex : σ → Cyl → Item → Int
  addThing : σ → Cyl → Option Int → Item → σ
  removeThing : σ → Cyl → Item → ℕ → σ
  updateThing : σ → Cyl → Item → UInt16 → ℕ → σ
  getID : σ → Item → UInt16
  getItemCount : σ → Item → ℕ
  getStackSize : σ → Item → ℕ
  getInstanceID : σ → Item → UInt32
  isStackable : Item → Bool
  equalsIgnoringInstance : σ → Item → Item → Option Bool
  clone : σ → Item → Item × σ
  setItemCount : σ → Item → ℕ → σ
  setInstanceID : σ → Item → UInt32 → σ
  /-- `getItemSharedRef` finds the owner of the item. -/
  isShared : σ → Item → Bool
  /-- The cylinder or one that it is in is the item that is traded. -/
  isTraded : σ → Cyl → Bool
  eventPlayerOnMoveItem : σ → Item → ℕ → ReturnValue

/-- The arguments of the call. `watched` is `actorPlayer && fromPos && toPos`. -/
structure Call (Cyl Item : Type) where
  fromCylinder : Cyl
  toCylinder : Cyl
  index : Int
  item : Item
  count : ℕ
  flags : BitVec 32 := 0
  watched : Bool := false
  destinationInstanceId : UInt32 := 0

/-- What a call leaves behind. `ret` is `none` when an exception leaves the call. -/
structure Outcome (σ : Type) where
  ret : Option ReturnValue
  state : σ

variable {σ Cyl Item : Type} (world : World σ Cyl Item) (c : Call Cyl Item)

/-- How much of `m` joins the item at the destination: the inner `none` when they are not alike. -/
def joining (s : σ) (toItem : Option Item) (m : ℕ) : Option (Option ℕ) :=
  match toItem with
  | none => some none
  | some toItem =>
    if world.getInstanceID s toItem ≠ c.destinationInstanceId then some none else do
      if ← world.equalsIgnoringInstance s c.item toItem then
        pure (some (min ((world.getStackSize s toItem + 2 ^ 32 - world.getItemCount s toItem) % 2 ^ 32) m))
      else pure none

def join (s : σ) (toItem : Option Item) (n : Option ℕ) : σ :=
  match toItem, n with
  | some toItem, some n =>
    world.updateThing s c.toCylinder toItem (world.getID s toItem) (world.getItemCount s toItem + n)
  | _, _ => s

/-- What does not join is added as a clone. -/
def addRest (s : σ) (newCount : ℕ) : σ :=
  if newCount = 0 then s
  else
    let (moveItem, s) := world.clone s c.item
    let s := world.setInstanceID (world.setItemCount s moveItem newCount) moveItem c.destinationInstanceId
    world.addThing s c.toCylinder (some c.index) moveItem

def transfer (s : σ) (toItem : Option Item) (m : ℕ) (ret : ReturnValue) : Outcome σ :=
  let s := world.removeThing s c.fromCylinder c.item m
  if world.isStackable c.item then
    match joining world c s toItem m with
    | none => ⟨none, s⟩
    | some n => ⟨some ret, addRest world c (join world c s toItem n) (m - n.getD 0)⟩
  else ⟨some ret, world.addThing (world.setInstanceID s c.item c.destinationInstanceId) c.toCylinder (some c.index) c.item⟩

/-- How much the source is asked for. -/
def amount (s : σ) : ℕ :=
  let maxQueryCount := (world.queryMaxCount s c.toCylinder c.index c.item c.count c.flags).2
  if world.isStackable c.item then min c.count maxQueryCount else maxQueryCount

/-- The call from `queryMaxCount` on. -/
def move (s : σ) (toItem : Option Item) : Outcome σ :=
  let (retMaxCount, maxQueryCount) := world.queryMaxCount s c.toCylinder c.index c.item c.count c.flags
  if retMaxCount ≠ .noError ∧ maxQueryCount = 0 then ⟨some retMaxCount, s⟩
  else
    let m := amount world c s
    let ret := world.queryRemove s c.fromCylinder c.item m c.flags
    if ret ≠ .noError then ⟨some ret, s⟩
    else if world.isTraded s c.toCylinder then ⟨some .notEnoughRoom, s⟩
    else if !world.isShared s c.item then ⟨some .notPossible, s⟩
    else transfer world c s toItem m (if world.isStackable c.item ∧ maxQueryCount < c.count then retMaxCount else .noError)

/-- The item at the destination goes to the source. -/
def displace (s : σ) (toItem : Item) : σ :=
  world.addThing (world.removeThing s c.toCylinder toItem (world.getItemCount s toItem)) c.fromCylinder none toItem

/-- `internalMoveItem` once `toCylinder->queryAdd` has answered `RETURNVALUE_NEEDEXCHANGE`. -/
def exchange (s : σ) (toItem : Item) : Outcome σ :=
  let toCount := world.getItemCount s toItem
  let ret := world.queryAdd s c.fromCylinder (world.getThingIndex s c.fromCylinder c.item) toItem toCount 0 false
  if ret ≠ .noError then ⟨some ret, s⟩
  else
    let eventRet := if c.watched then world.eventPlayerOnMoveItem s toItem toCount else .noError
    if eventRet ≠ .noError then ⟨some eventRet, s⟩
    else
      let (retMaxCount, maxQueryCount) := world.queryMaxCount s c.fromCylinder INDEX_WHEREEVER toItem toCount 0
      if retMaxCount ≠ .noError ∧ maxQueryCount = 0 then ⟨some retMaxCount, s⟩
      else if world.queryRemove s c.toCylinder toItem toCount c.flags = .noError then
        if !world.isShared s toItem then ⟨some .notPossible, s⟩
        else
          let s := displace world c s toItem
          let ret := world.queryAdd s c.toCylinder c.index c.item c.count c.flags true
          if ret ≠ .noError then ⟨some ret, s⟩ else move world c s none
      -- an item that cannot be taken away does not end the call
      else move world c s (some toItem)

/-! ## What is claimed of it -/

/-- Both items are in the cylinder and place they were in. -/
structure InPlace (s s' : σ) (toItem : Item) : Prop where
  item : world.getThingIndex s' c.fromCylinder c.item = world.getThingIndex s c.fromCylinder c.item
  toItem : world.getThingIndex s' c.toCylinder toItem = world.getThingIndex s c.toCylinder toItem

/-- An error leaves both items in place. -/
def Atomic (s : σ) (toItem : Item) : Prop :=
  ∀ ret, (exchange world c s toItem).ret = some ret → ret ≠ .noError →
    InPlace world c s (exchange world c s toItem).state toItem

/-- The source, the script and the source's room let the item at the destination come. -/
structure Offers (s : σ) (toItem : Item) : Prop where
  add : world.queryAdd s c.fromCylinder (world.getThingIndex s c.fromCylinder c.item) toItem
    (world.getItemCount s toItem) 0 false = .noError
  event : c.watched = true → world.eventPlayerOnMoveItem s toItem (world.getItemCount s toItem) = .noError
  room : (world.queryMaxCount s c.fromCylinder INDEX_WHEREEVER toItem (world.getItemCount s toItem) 0).1 = .noError ∨
    (world.queryMaxCount s c.fromCylinder INDEX_WHEREEVER toItem (world.getItemCount s toItem) 0).2 ≠ 0

/-- The item at the destination is taken away. -/
structure Displaces (s : σ) (toItem : Item) : Prop extends Offers world c s toItem where
  remove : world.queryRemove s c.toCylinder toItem (world.getItemCount s toItem) c.flags = .noError
  shared : world.isShared s toItem = true

/-- The checks of the move itself accept. -/
structure Admits (s : σ) : Prop where
  room : (world.queryMaxCount s c.toCylinder c.index c.item c.count c.flags).1 = .noError ∨
    (world.queryMaxCount s c.toCylinder c.index c.item c.count c.flags).2 ≠ 0
  remove : world.queryRemove s c.fromCylinder c.item (amount world c s) c.flags = .noError
  traded : world.isTraded s c.toCylinder = false
  shared : world.isShared s c.item = true

/-- Only a part of a stack has room. -/
def Parts (s : σ) : Prop :=
  world.isStackable c.item = true ∧
    (world.queryMaxCount s c.toCylinder c.index c.item c.count c.flags).2 < c.count ∧
    (world.queryMaxCount s c.toCylinder c.index c.item c.count c.flags).1 ≠ .noError

/-- The destination takes all of the item. -/
structure Accepts (s : σ) : Prop extends Admits world c s where
  add : world.queryAdd s c.toCylinder c.index c.item c.count c.flags true = .noError
  whole : ¬ Parts world c s

/-- Once the item at the destination was taken away everything is accepted, and where it cannot be
taken away no part is moved. -/
structure Safe (s : σ) (toItem : Item) : Prop where
  displaced : Displaces world c s toItem → Accepts world c (displace world c s toItem)
  kept : Offers world c s toItem →
    world.queryRemove s c.toCylinder toItem (world.getItemCount s toItem) c.flags ≠ .noError →
      Admits world c s → ¬ Parts world c s

/-- What adding and removing do to the places of other things. -/
structure World.Lawful : Prop where
  addThing : ∀ s d i x e y, x ≠ y ∨ d ≠ e → world.getThingIndex s e y = -1 →
    world.getThingIndex (world.addThing s d i x) e y = -1
  removeThing : ∀ s d x n e y, world.getThingIndex s e y = -1 →
    world.getThingIndex (world.removeThing s d x n) e y = -1
  setItemCount : ∀ s x n e y, world.getThingIndex (world.setItemCount s x n) e y = world.getThingIndex s e y
  setInstanceID : ∀ s x n e y, world.getThingIndex (world.setInstanceID s x n) e y = world.getThingIndex s e y
  clone : ∀ s x e y, world.getThingIndex (world.clone s x).2 e y = world.getThingIndex s e y

/-- An item of the destination, listed once, is to make place for an item of another cylinder. -/
structure Meets (s : σ) (toItem : Item) : Prop where
  apart : c.fromCylinder ≠ c.toCylinder
  ne : c.item ≠ toItem
  present : world.getThingIndex s c.toCylinder toItem ≠ -1
  once : world.getThingIndex (world.removeThing s c.toCylinder toItem (world.getItemCount s toItem)) c.toCylinder toItem = -1
  fresh : ∀ s, (world.clone s c.item).1 ≠ toItem

variable {world c} {s : σ} {toItem : Item}

/-! ## The move -/

theorem room_iff (answer : ReturnValue × ℕ) :
    ¬ (answer.1 ≠ .noError ∧ answer.2 = 0) ↔ answer.1 = .noError ∨ answer.2 ≠ 0 := by
  rw [not_and_or, not_not]

/-- A refused move changes nothing and ends with an error. -/
theorem move_refused (stack : Option Item) (h : ¬ Admits world c s) :
    ∃ ret, move world c s stack = ⟨some ret, s⟩ ∧ ret ≠ .noError := by
  simp only [move]
  split
  · rename_i hroom
    exact ⟨_, rfl, hroom.1⟩
  rename_i hroom
  split
  · rename_i hremove
    exact ⟨_, rfl, hremove⟩
  rename_i hremove
  split
  · exact ⟨_, rfl, by decide⟩
  rename_i htraded
  split
  · exact ⟨_, rfl, by decide⟩
  rename_i hshared
  exact absurd ⟨(room_iff _).mp hroom, not_not.mp hremove, by simpa using htraded, by simpa using hshared⟩ h

theorem move_admitted (stack : Option Item) (h : Admits world c s) :
    move world c s stack = transfer world c s stack (amount world c s)
      (if world.isStackable c.item ∧ (world.queryMaxCount s c.toCylinder c.index c.item c.count c.flags).2 < c.count
        then (world.queryMaxCount s c.toCylinder c.index c.item c.count c.flags).1 else .noError) := by
  simp only [move]
  rw [if_neg ((room_iff _).mpr h.room), if_neg (not_not.mpr h.remove), h.traded, if_neg Bool.false_ne_true, h.shared, Bool.not_true,
    if_neg Bool.false_ne_true]

variable (world c s) in
theorem transfer_ret (stack : Option Item) (m : ℕ) (ret : ReturnValue) :
    (transfer world c s stack m ret).ret = none ∨ (transfer world c s stack m ret).ret = some ret := by
  rw [transfer]
  split
  · split
    · exact .inl rfl
    · exact .inr rfl
  · exact .inr rfl

/-- A move that ends with an error has changed nothing, unless only a part had room. -/
theorem move_error {stack : Option Item} {ret : ReturnValue} (h : (move world c s stack).ret = some ret)
    (herr : ret ≠ .noError) : (move world c s stack).state = s ∨ Admits world c s ∧ Parts world c s := by
  by_cases hadm : Admits world c s
  · refine .inr ⟨hadm, ?_⟩
    rw [move_admitted stack hadm] at h
    rcases transfer_ret world c s stack (amount world c s) _ with hret | hret
    · rw [hret] at h
      cases h
    · rw [hret] at h
      have hret := Option.some.inj h
      split at hret
      · rename_i hpart
        exact ⟨hpart.1, hpart.2, hret ▸ herr⟩
      · exact absurd hret.symm herr
  · obtain ⟨_, hmove, -⟩ := move_refused stack hadm
    exact .inl (by rw [hmove])

/-! ## The branches of the exchange -/

/-- What the script answers, where it is asked. -/
theorem event_iff : (if c.watched then world.eventPlayerOnMoveItem s toItem (world.getItemCount s toItem) else .noError) =
    .noError ↔ (c.watched = true → world.eventPlayerOnMoveItem s toItem (world.getItemCount s toItem) = .noError) := by
  by_cases hwatched : c.watched = true <;> simp [hwatched]

theorem exchange_refused (h : ¬ Offers world c s toItem) : (exchange world c s toItem).state = s := by
  simp only [exchange]
  by_cases hadd : world.queryAdd s c.fromCylinder (world.getThingIndex s c.fromCylinder c.item) toItem
      (world.getItemCount s toItem) 0 false = .noError
  · rw [if_neg (not_not.mpr hadd)]
    by_cases hevent : (if c.watched then world.eventPlayerOnMoveItem s toItem (world.getItemCount s toItem) else .noError) =
        .noError
    · rw [if_neg (not_not.mpr hevent), if_pos]
      by_contra hroom
      exact h ⟨hadd, event_iff.mp hevent, (room_iff _).mp hroom⟩
    · rw [if_pos hevent]
  · rw [if_pos hadd]

theorem exchange_offered (h : Offers world c s toItem) :
    exchange world c s toItem =
      if world.queryRemove s c.toCylinder toItem (world.getItemCount s toItem) c.flags = .noError then
        if !world.isShared s toItem then ⟨some .notPossible, s⟩
        else
          let s := displace world c s toItem
          let ret := world.queryAdd s c.toCylinder c.index c.item c.count c.flags true
          if ret ≠ .noError then ⟨some ret, s⟩ else move world c s none
      else move world c s (some toItem) := by
  simp only [exchange]
  rw [if_neg (not_not.mpr h.add), if_neg (not_not.mpr (event_iff.mpr h.event)), if_neg ((room_iff _).mpr h.room)]

theorem exchange_displaced (h : Displaces world c s toItem) :
    exchange world c s toItem =
      if world.queryAdd (displace world c s toItem) c.toCylinder c.index c.item c.count c.flags true ≠ .noError then
        ⟨some (world.queryAdd (displace world c s toItem) c.toCylinder c.index c.item c.count c.flags true),
          displace world c s toItem⟩
      else move world c (displace world c s toItem) none := by
  rw [exchange_offered h.toOffers, if_pos h.remove, h.shared, Bool.not_true, if_neg Bool.false_ne_true]

/-! ## Nothing is left displaced -/

theorem inPlace_of_eq {s' : σ} (h : s' = s) : InPlace world c s s' toItem := by
  subst h
  exact ⟨rfl, rfl⟩

theorem atomic_of_safe (h : Safe world c s toItem) : Atomic world c s toItem := by
  intro ret hret herr
  by_cases hoffers : Offers world c s toItem
  · by_cases hremove : world.queryRemove s c.toCylinder toItem (world.getItemCount s toItem) c.flags = .noError
    · by_cases hshared : world.isShared s toItem = true
      · have hdisplaces : Displaces world c s toItem := ⟨hoffers, hremove, hshared⟩
        have haccepts := h.displaced hdisplaces
        rw [exchange_displaced hdisplaces, if_neg (not_not.mpr haccepts.add), move_admitted none haccepts.toAdmits] at hret
        -- an accepted move ends without an error
        rcases transfer_ret world c (displace world c s toItem) none
          (amount world c (displace world c s toItem)) _ with hnone | hsome
        · rw [hnone] at hret
          cases hret
        · rw [hsome] at hret
          have hret := Option.some.inj hret
          split at hret
          · rename_i hpart
            exact absurd ⟨hpart.1, hpart.2, hret ▸ herr⟩ haccepts.whole
          · exact absurd hret.symm herr
      · refine inPlace_of_eq ?_
        rw [exchange_offered hoffers, if_pos hremove, Bool.eq_false_iff.mpr hshared]
        rfl
    · rw [exchange_offered hoffers, if_neg hremove] at hret ⊢
      rcases move_error hret herr with hstate | ⟨hadm, hparts⟩
      · exact inPlace_of_eq hstate
      · exact absurd hparts (h.kept hoffers hremove hadm)
  · exact inPlace_of_eq (exchange_refused hoffers)

/-! ## What was taken away is away -/

theorem away_displace (hlaw : world.Lawful) (hmeets : Meets world c s toItem) :
    world.getThingIndex (displace world c s toItem) c.toCylinder toItem = -1 :=
  hlaw.addThing _ _ _ _ _ _ (.inr hmeets.apart) hmeets.once

theorem away_transfer (hlaw : world.Lawful) (hmeets : Meets world c s toItem) {s' : σ}
    (haway : world.getThingIndex s' c.toCylinder toItem = -1) (m : ℕ) (ret : ReturnValue) :
    world.getThingIndex (transfer world c s' none m ret).state c.toCylinder toItem = -1 := by
  have hremoved := hlaw.removeThing s' c.fromCylinder c.item m c.toCylinder toItem haway
  rw [transfer]
  split
  · simp only [joining, join, addRest]
    split
    · exact hremoved
    · refine hlaw.addThing _ _ _ _ _ _ (.inl (hmeets.fresh _)) ?_
      rw [hlaw.setInstanceID, hlaw.setItemCount, hlaw.clone]
      exact hremoved
  · refine hlaw.addThing _ _ _ _ _ _ (.inl hmeets.ne) ?_
    rw [hlaw.setInstanceID]
    exact hremoved

/-- Once the item at the destination was taken away, every refusal leaves it displaced. -/
theorem accepts_of_atomic (hlaw : world.Lawful) (hmeets : Meets world c s toItem)
    (hdisplaces : Displaces world c s toItem) (h : Atomic world c s toItem) :
    Accepts world c (displace world c s toItem) := by
  have hno : ∀ out : Outcome σ, exchange world c s toItem = out → ∀ ret, out.ret = some ret → ret ≠ .noError →
      world.getThingIndex out.state c.toCylinder toItem ≠ -1 := by
    intro out hout ret hret herr haway
    subst hout
    exact hmeets.present ((h ret hret herr).toItem.symm.trans haway)
  have haway := away_displace hlaw hmeets
  have hout := exchange_displaced hdisplaces
  have hadd : world.queryAdd (displace world c s toItem) c.toCylinder c.index c.item c.count c.flags true = .noError := by
    by_contra hadd
    rw [if_pos hadd] at hout
    exact hno _ hout _ rfl hadd haway
  rw [if_neg (not_not.mpr hadd)] at hout
  have hadm : Admits world c (displace world c s toItem) := by
    by_contra hadm
    obtain ⟨ret, hmove, herr⟩ := move_refused none hadm
    exact hno _ (hout.trans hmove) ret rfl herr haway
  refine ⟨hadm, hadd, fun hparts => ?_⟩
  have hmove := hout.trans (move_admitted none hadm)
  rw [if_pos ⟨hparts.1, hparts.2.1⟩] at hmove
  refine hno _ hmove _ ?_ hparts.2.2 (away_transfer hlaw hmeets haway _ _)
  rw [transfer]
  simp only [hparts.1, if_true, joining]

/-- The exchange leaves both items in place where what was taken away is followed by no refusal;
between two cylinders it does so only there. -/
theorem exchange_atomic (world : World σ Cyl Item) (c : Call Cyl Item) (s : σ) (toItem : Item) :
    (Safe world c s toItem → Atomic world c s toItem) ∧
      (world.Lawful → Meets world c s toItem → Displaces world c s toItem →
        (Atomic world c s toItem ↔ Accepts world c (displace world c s toItem))) := by
  refine ⟨atomic_of_safe, fun hlaw hmeets hdisplaces => ⟨accepts_of_atomic hlaw hmeets hdisplaces, fun haccepts => ?_⟩⟩
  exact atomic_of_safe ⟨fun _ => haccepts, fun _ hremove => absurd hdisplaces.remove hremove⟩

/-! ## A wall -/

/-- The items 0 and 2 can hang on a wall. -/
def isHangable (x : ℕ) : Bool := x != 1

/-- A wall (`true`) and a bag (`false`), each with the list of its items. A wall takes one thing
that hangs. -/
def wallWorld : World (Bool → List ℕ) Bool ℕ where
  queryAdd s d _ x _ _ _ := if d && isHangable x && (s d).any isHangable then .needExchange else .noError
  queryMaxCount _ _ _ _ count _ := (.noError, max 1 count)
  queryRemove s d x _ _ := if x ∈ s d then .noError else .notPossible
  getThingIndex s d x := if x ∈ s d then (s d).idxOf x else -1
  addThing s d _ x := Function.update s d (x :: s d)
  removeThing s d x _ := Function.update s d ((s d).erase x)
  updateThing s _ _ _ _ := s
  getID _ _ := 0
  getItemCount _ _ := 1
  getStackSize _ _ := 1
  getInstanceID _ _ := 0
  isStackable _ := false
  equalsIgnoringInstance _ _ _ := some false
  clone s x := (x, s)
  setItemCount s _ _ := s
  setInstanceID s _ _ := s
  isShared _ _ := true
  isTraded _ _ := false
  eventPlayerOnMoveItem _ _ _ := .noError

theorem wallWorld_away (s : Bool → List ℕ) (d : Bool) (x : ℕ) : wallWorld.getThingIndex s d x = -1 ↔ x ∉ s d := by
  show (if x ∈ s d then ((s d).idxOf x : Int) else -1) = -1 ↔ x ∉ s d
  split
  · rename_i hmem
    exact ⟨fun h => by omega, fun h => absurd hmem h⟩
  · rename_i hmem
    exact ⟨fun _ => hmem, fun _ => rfl⟩

theorem wallWorld_lawful : wallWorld.Lawful where
  addThing s d i x e y hne haway := by
    rw [wallWorld_away] at haway ⊢
    show y ∉ Function.update s d (x :: s d) e
    by_cases hde : d = e
    · subst hde
      rw [Function.update_self, List.mem_cons, not_or]
      exact ⟨fun h => hne.elim (fun hx => hx h.symm) fun hd => hd rfl, haway⟩
    · rwa [Function.update_of_ne (Ne.symm hde)]
  removeThing s d x n e y haway := by
    rw [wallWorld_away] at haway ⊢
    show y ∉ Function.update s d ((s d).erase x) e
    by_cases hde : d = e
    · subst hde
      rw [Function.update_self]
      exact fun h => haway (List.mem_of_mem_erase h)
    · rwa [Function.update_of_ne (Ne.symm hde)]
  setItemCount _ _ _ _ _ := rfl
  setInstanceID _ _ _ _ _ := rfl
  clone _ _ _ _ := rfl

/-- The item 0 is moved from the bag to the wall. -/
def hang : Call Bool ℕ where
  fromCylinder := false
  toCylinder := true
  index := 0
  item := 0
  count := 1

/-- The item 2 hangs on the wall. -/
def lamp : Bool → List ℕ := fun d => if d then [2] else [0]

/-- Another thing lies on top of it. -/
def hiddenLamp : Bool → List ℕ := fun d => if d then [1, 2] else [0]

theorem displaces_lamp : Displaces wallWorld hang lamp 2 := ⟨⟨rfl, fun _ => rfl, .inl rfl⟩, rfl, rfl⟩

theorem accepts_lamp : Accepts wallWorld hang (displace wallWorld hang lamp 2) :=
  ⟨⟨.inl rfl, rfl, rfl, rfl⟩, rfl, fun h => Bool.false_ne_true h.1⟩

/-- The lamp is changed for the item. -/
theorem exchange_atomic_lamp :
    Atomic wallWorld hang lamp 2 ∧ Accepts wallWorld hang (displace wallWorld hang lamp 2) := by
  have hmeets : Meets wallWorld hang lamp 2 :=
    ⟨Bool.false_ne_true, by decide, by decide, by decide, fun _ => Nat.zero_ne_add_one 1⟩
  have hatomic := (exchange_atomic wallWorld hang lamp 2).1
    ⟨fun _ => accepts_lamp, fun _ hremove => absurd displaces_lamp.remove hremove⟩
  exact ⟨hatomic, ((exchange_atomic wallWorld hang lamp 2).2 wallWorld_lawful hmeets displaces_lamp).mp hatomic⟩

/-- What lies on top goes into the bag, and the item is refused because of the lamp under it. -/
theorem exchange_displaces_top :
    wallWorld.queryAdd hiddenLamp true 0 0 1 0 true = .needExchange ∧ ¬ Atomic wallWorld hang hiddenLamp 1 := by
  refine ⟨rfl, fun h => ?_⟩
  have hplace := (h .needExchange rfl (by decide)).toItem
  exact absurd hplace (by decide)

end ForgottenServer.Exchange
