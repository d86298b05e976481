import ForgottenServer.Lib.Levels
import ForgottenServer.Lib.Runs

/-! # Mana spent

`addManaSpent` spends mana on one magic level after another, `removeManaSpent` borrows it back. `reqMana` is
`getReqMana` of the vocation, and `basisPointLevel` the quotient of `getBasisPointLevel`, which the source takes in
floats. Mana has 64 bits, magic levels 32 and percents 8. -/

namespace ForgottenServer.ManaSpent

open Levels

structure Mana where
  magLevel : Nat := 0
  manaSpent : Nat := 0
  magLevelPercent : Nat := 0
  notGainMana : Bool := false
  deriving DecidableEq, Repr

def subtract (a b : Nat) : Nat := (a + 2 ^ 64 - b % 2 ^ 64) % 2 ^ 64

/-- The level after this one, in 32 bits. -/
def nextLevel (level : Nat) : Nat := (level + 1) % 2 ^ 32

section Calls

variable (reqMana : Nat → Nat) (basisPointLevel : Nat → Nat → Nat)

def percentOf (manaSpent req : Nat) : Nat := basisPointLevel manaSpent req / 100 % 2 ^ 8

/-- The loop of `addManaSpent`: the level, the mana spent and, unless the highest level was reached, what is left of the
amount and the requirements of the level and of the next. -/
def addLoop : Nat → Nat → Nat → Nat → Nat → Nat → Option (Nat × Nat × Option (Nat × Nat × Nat))
  | 0, _, _, _, _, _ => none
  | turns + 1, magLevel, manaSpent, amount, currReqMana, nextReqMana =>
    if (manaSpent + amount) % 2 ^ 64 ≥ nextReqMana then
      let amount := subtract amount (subtract nextReqMana manaSpent)
      let magLevel := nextLevel magLevel
      let currReqMana := nextReqMana
      let nextReqMana := reqMana (nextLevel magLevel)
      if currReqMana ≥ nextReqMana then some (magLevel, 0, none)
      else addLoop turns magLevel 0 amount currReqMana nextReqMana
    else some (magLevel, manaSpent, some (amount, currReqMana, nextReqMana))

/-- Requirements that grow from level to level let the loop turn at most once for each level. -/
def addManaSpent (m : Mana) (amount : Nat) : Option Mana :=
  if m.notGainMana then some m
  else
    let currReqMana := reqMana m.magLevel
    let nextReqMana := reqMana (nextLevel m.magLevel)
    if currReqMana ≥ nextReqMana then some m
    else if amount = 0 then some m
    else do
      match ← addLoop reqMana (2 ^ 32) m.magLevel m.manaSpent amount currReqMana nextReqMana with
      | (magLevel, manaSpent, none) => return { m with magLevel, manaSpent }
      | (magLevel, manaSpent, some (amount, currReqMana, nextReqMana)) =>
        let manaSpent := (manaSpent + amount) % 2 ^ 64
        return { m with
          magLevel
          manaSpent
          magLevelPercent :=
            if nextReqMana > currReqMana then percentOf basisPointLevel manaSpent nextReqMana else 0 }

/-- The loop of `removeManaSpent`: the level, the mana spent, and what is left of the amount. -/
def removeLoop : Nat → Nat → Nat → Nat × Nat × Nat
  | 0, manaSpent, amount => (0, manaSpent, amount)
  | magLevel + 1, manaSpent, amount =>
    if amount > manaSpent then removeLoop magLevel (reqMana (magLevel + 1)) (amount - manaSpent)
    else (magLevel + 1, manaSpent, amount)

def removeManaSpent (m : Mana) (amount : Nat) : Mana :=
  if amount = 0 then m
  else
    let (magLevel, manaSpent, amount) := removeLoop reqMana m.magLevel m.manaSpent amount
    let manaSpent := subtract manaSpent amount
    let nextReqMana := reqMana (nextLevel magLevel)
    { m with
      magLevel
      manaSpent
      magLevelPercent :=
        if nextReqMana > reqMana magLevel then percentOf basisPointLevel manaSpent nextReqMana else 0 }

inductive Event where
  | addManaSpent (amount : Nat)
  | removeManaSpent (amount : Nat)
  deriving DecidableEq, Repr

def step (m : Mana) : Event → Option Mana
  | .addManaSpent amount => addManaSpent reqMana basisPointLevel m amount
  | .removeManaSpent amount => some (removeManaSpent reqMana basisPointLevel m amount)

/-- The mana after an event, which `step` is shown to give. -/
def after (m : Mana) (e : Event) : Mana := (step reqMana basisPointLevel m e).getD m

end Calls

/-! ## What is asked of them -/

/-- The mana spent, and what the levels reached have cost. -/
def total (reqMana : Nat → Nat) (m : Mana) : Nat := reached reqMana 0 m.magLevel + m.manaSpent

/-- The mana spent is below the requirement of the next level. -/
structure Below (reqMana : Nat → Nat) (m : Mana) : Prop where
  level : m.magLevel < 2 ^ 32
  word : m.manaSpent < 2 ^ 64
  spent : m.manaSpent < reqMana (m.magLevel + 1)

/-- Sums have 64 bits. -/
def Fits (m : Mana) : Event → Prop
  | .addManaSpent amount => m.manaSpent + amount < 2 ^ 64
  | .removeManaSpent amount => amount < 2 ^ 64

/-- The event keeps the mana below the next requirement. A removal does not add to the total, and one of more than the
total leaves nothing. -/
def Good (reqMana : Nat → Nat) (basisPointLevel : Nat → Nat → Nat) (m : Mana) (e : Event) : Prop :=
  ∃ m', step reqMana basisPointLevel m e = some m' ∧ Below reqMana m' ∧
    match e with
    | .addManaSpent _ => True
    | .removeManaSpent amount => total reqMana m' ≤ total reqMana m ∧
        (total reqMana m < amount → m'.magLevel = 0 ∧ m'.manaSpent = 0)

/-- A removal is not larger than the total. -/
def Covered (reqMana : Nat → Nat) (m : Mana) : Event → Prop
  | .addManaSpent _ => True
  | .removeManaSpent amount => amount ≤ total reqMana m

variable {reqMana : Nat → Nat}

/-! ## Gains -/

theorem subtract_eq {a b : Nat} (hb : b ≤ a) (ha : a < 2 ^ 64) : subtract a b = a - b := by
  unfold subtract
  omega

theorem nextLevel_eq {level : Nat} (h : level + 1 < 2 ^ 32) : nextLevel level = level + 1 := Nat.mod_eq_of_lt h

/-- Behind the highest level comes level 0. -/
theorem level_lt_of_requires_more (hreq : StrictMono reqMana) {level : Nat} (hlevel : level < 2 ^ 32)
    (hmore : reqMana level < reqMana (nextLevel level)) : level + 1 < 2 ^ 32 := by
  by_contra htop
  have hzero : nextLevel level = 0 := by
    unfold nextLevel
    omega
  rw [hzero] at hmore
  exact absurd (hreq.lt_iff_lt.mp hmore) (Nat.not_lt_zero _)

theorem addLoop_below (hreq : StrictMono reqMana) (turns : Nat) : ∀ {magLevel manaSpent amount : Nat},
    magLevel + 1 < 2 ^ 32 → manaSpent < reqMana (magLevel + 1) → manaSpent + amount < 2 ^ 64 →
    2 ^ 32 - magLevel ≤ turns →
    ∃ magLevel' manaSpent' rest, addLoop reqMana turns magLevel manaSpent amount (reqMana magLevel)
        (reqMana (magLevel + 1)) = some (magLevel', manaSpent', rest) ∧ magLevel' < 2 ^ 32 ∧
      match rest with
      | none => manaSpent' = 0
      | some (amount', _) => manaSpent' + amount' < 2 ^ 64 ∧ manaSpent' + amount' < reqMana (magLevel' + 1) := by
  induction turns with
  | zero => intro magLevel manaSpent amount hlevel _ _ hturns; omega
  | succ turns ih =>
    intro magLevel manaSpent amount hlevel hspent hsum hturns
    unfold addLoop
    rw [Nat.mod_eq_of_lt hsum]
    by_cases hmore : manaSpent + amount ≥ reqMana (magLevel + 1)
    · have hleft : subtract amount (subtract (reqMana (magLevel + 1)) manaSpent) =
          amount - (reqMana (magLevel + 1) - manaSpent) := by
        rw [subtract_eq hspent.le (by omega), subtract_eq (by omega) (by omega)]
      rw [if_pos hmore]
      simp only [hleft, nextLevel_eq hlevel]
      by_cases htop : reqMana (magLevel + 1) ≥ reqMana (nextLevel (magLevel + 1))
      · rw [if_pos htop]
        exact ⟨magLevel + 1, 0, none, rfl, hlevel, rfl⟩
      · rw [if_neg htop]
        have hlevel' := level_lt_of_requires_more hreq hlevel (Nat.not_le.mp htop)
        have hpos : 0 < reqMana (magLevel + 1 + 1) := Nat.lt_of_le_of_lt (Nat.zero_le _) (hreq (Nat.lt_succ_self _))
        rw [nextLevel_eq hlevel']
        exact ih hlevel' hpos (by omega) (by omega)
    · rw [if_neg hmore]
      exact ⟨magLevel, manaSpent, _, rfl, by omega, hsum, Nat.not_le.mp hmore⟩

theorem addManaSpent_below (hreq : StrictMono reqMana) (basisPointLevel : Nat → Nat → Nat) {m : Mana}
    (hm : Below reqMana m) {amount : Nat} (hsum : m.manaSpent + amount < 2 ^ 64) :
    ∃ m', addManaSpent reqMana basisPointLevel m amount = some m' ∧ Below reqMana m' := by
  unfold addManaSpent
  split
  · exact ⟨m, rfl, hm⟩
  · by_cases htop : reqMana m.magLevel ≥ reqMana (nextLevel m.magLevel)
    · simp only [if_pos htop]
      exact ⟨m, rfl, hm⟩
    · have hlevel := level_lt_of_requires_more hreq hm.level (Nat.not_le.mp htop)
      simp only [if_neg htop]
      split
      · exact ⟨m, rfl, hm⟩
      · obtain ⟨magLevel', manaSpent', rest, hrun, hlevel', hrest⟩ :=
          addLoop_below hreq (2 ^ 32) hlevel hm.spent hsum (Nat.sub_le _ _)
        rw [nextLevel_eq hlevel, hrun]
        cases rest with
        | none =>
          obtain rfl : manaSpent' = 0 := hrest
          refine ⟨_, rfl, hlevel', Nat.two_pow_pos 64, ?_⟩
          exact Nat.lt_of_le_of_lt (Nat.zero_le _) (hreq (Nat.lt_succ_self _))
        | some rest =>
          obtain ⟨amount', curr, next⟩ := rest
          refine ⟨_, rfl, hlevel', Nat.mod_lt _ (Nat.two_pow_pos 64), ?_⟩
          show (manaSpent' + amount') % 2 ^ 64 < reqMana (magLevel' + 1)
          rw [Nat.mod_eq_of_lt hrest.1]
          exact hrest.2

/-! ## Removals -/

/-- What the loop keeps: the total less the amount, and mana below the next requirement as soon as anything is taken off
it. It ends where the mana covers the amount, or at level 0. -/
structure Borrowed (reqMana : Nat → Nat) (magLevel manaSpent amount : Nat) (r : Nat × Nat × Nat) : Prop where
  level : r.1 ≤ magLevel
  word : r.2.1 < 2 ^ 64
  spent : r.2.1 - r.2.2 < reqMana (r.1 + 1)
  balance : reached reqMana 0 r.1 + r.2.1 + amount = reached reqMana 0 magLevel + manaSpent + r.2.2
  less : r.2.2 ≤ amount
  ended : r.2.2 ≤ r.2.1 ∨ r.1 = 0

theorem removeLoop_borrowed (hreq : StrictMono reqMana) (hword : ∀ level < 2 ^ 32, reqMana level < 2 ^ 64)
    (magLevel : Nat) : ∀ {manaSpent amount : Nat}, magLevel < 2 ^ 32 → manaSpent < 2 ^ 64 →
    manaSpent - amount < reqMana (magLevel + 1) →
    Borrowed reqMana magLevel manaSpent amount (removeLoop reqMana magLevel manaSpent amount) := by
  induction magLevel with
  | zero => exact fun _ hspent h => ⟨le_rfl, hspent, h, rfl, le_rfl, .inr rfl⟩
  | succ magLevel ih =>
    intro manaSpent amount hlevel hspent h
    rw [removeLoop]
    split
    · rename_i hmore
      have hpos : 0 < reqMana (magLevel + 1) := Nat.lt_of_le_of_lt (Nat.zero_le _) (hreq (Nat.lt_succ_self _))
      have hlow : reqMana (magLevel + 1) - (amount - manaSpent) < reqMana (magLevel + 1) := by omega
      have hrest := ih (by omega) (hword _ hlevel) hlow
      have hbalance := hrest.balance
      refine ⟨hrest.level.trans (Nat.le_succ _), hrest.word, hrest.spent, ?_, hrest.less.trans (Nat.sub_le _ _),
        hrest.ended⟩
      rw [reached_succ (Nat.zero_le magLevel)]
      omega
    · rename_i hless
      exact ⟨le_rfl, hspent, h, rfl, le_rfl, .inl (Nat.not_lt.mp hless)⟩

section Removal

variable (hreq : StrictMono reqMana) (hword : ∀ level < 2 ^ 32, reqMana level < 2 ^ 64)
  (basisPointLevel : Nat → Nat → Nat) {m : Mana} (hm : Below reqMana m) {amount : Nat}

include hreq hword hm

theorem borrowed_removeManaSpent (amount : Nat) :
    Borrowed reqMana m.magLevel m.manaSpent amount (removeLoop reqMana m.magLevel m.manaSpent amount) :=
  removeLoop_borrowed hreq hword m.magLevel hm.level hm.word (by have := hm.spent; omega)

/-- A removal that the total covers is taken off the total. -/
theorem removeManaSpent_covered (hcovered : amount ≤ total reqMana m) :
    Below reqMana (removeManaSpent reqMana basisPointLevel m amount) ∧
      total reqMana (removeManaSpent reqMana basisPointLevel m amount) = total reqMana m - amount := by
  unfold removeManaSpent
  split
  · rename_i hzero
    exact ⟨hm, by rw [hzero, Nat.sub_zero]⟩
  · have h := borrowed_removeManaSpent hreq hword hm amount
    unfold total at hcovered ⊢
    cases hr : removeLoop reqMana m.magLevel m.manaSpent amount with
    | mk magLevel' rest =>
      obtain ⟨manaSpent', amount'⟩ := rest
      rw [hr] at h
      obtain ⟨hle, hspent', hlt, hbalance, -, hended⟩ := h
      dsimp only at hle hspent' hlt hbalance hended ⊢
      have henough : amount' ≤ manaSpent' := by
        obtain henough | hzero := hended
        · exact henough
        · rw [hzero, reached_self] at hbalance
          omega
      rw [subtract_eq henough hspent']
      have hlevel := hm.level
      exact ⟨⟨by dsimp only; omega, by dsimp only; omega, hlt⟩, by omega⟩

/-- A removal of more than the total wraps what is left around, which is not 0. -/
theorem removeManaSpent_wraps (hamount : amount < 2 ^ 64) (hmore : total reqMana m < amount) :
    (removeManaSpent reqMana basisPointLevel m amount).manaSpent ≠ 0 := by
  unfold removeManaSpent
  rw [if_neg (by omega)]
  have h := borrowed_removeManaSpent hreq hword hm amount
  unfold total at hmore
  cases hr : removeLoop reqMana m.magLevel m.manaSpent amount with
  | mk magLevel' rest =>
    obtain ⟨manaSpent', amount'⟩ := rest
    rw [hr] at h
    obtain ⟨-, hspent', -, hbalance, hless, -⟩ := h
    dsimp only at hspent' hbalance hless ⊢
    unfold subtract
    omega

end Removal

/-! ## Runs -/

section Run

variable (hreq : StrictMono reqMana) (hword : ∀ level < 2 ^ 32, reqMana level < 2 ^ 64)
  (basisPointLevel : Nat → Nat → Nat)

include hreq hword

/-- An event is good exactly when it is no removal of more than the total. -/
theorem good_iff {m : Mana} (hm : Below reqMana m) {e : Event} (he : Fits m e) :
    Good reqMana basisPointLevel m e ↔ Covered reqMana m e := by
  cases e with
  | addManaSpent amount =>
    obtain ⟨m', hrun, hm'⟩ := addManaSpent_below hreq basisPointLevel hm he
    exact ⟨fun _ => trivial, fun _ => ⟨m', hrun, hm', trivial⟩⟩
  | removeManaSpent amount =>
    constructor
    · rintro ⟨m', hrun, -, -, hnothing⟩
      obtain rfl := Option.some.inj hrun
      by_contra hmore
      exact removeManaSpent_wraps hreq hword basisPointLevel hm he (Nat.not_le.mp hmore)
        (hnothing (Nat.not_le.mp hmore)).2
    · intro hcovered
      obtain ⟨hbelow, htotal⟩ := removeManaSpent_covered hreq hword basisPointLevel hm hcovered
      exact ⟨_, rfl, hbelow, htotal.trans_le (Nat.sub_le _ _), fun hmore => absurd hcovered (Nat.not_le.mpr hmore)⟩

theorem below_after {m : Mana} (hm : Below reqMana m) {e : Event} (he : Fits m e) (hcovered : Covered reqMana m e) :
    Below reqMana (after reqMana basisPointLevel m e) := by
  obtain ⟨m', hrun, hm', -⟩ := (good_iff hreq hword basisPointLevel hm he).mpr hcovered
  rw [after, hrun]
  exact hm'

end Run

/-- Over a run of events from mana below the next requirement, every event is good exactly when no removal is larger
than the total before it. -/
theorem manaSpent_good_iff {reqMana : Nat → Nat} (hreq : StrictMono reqMana)
    (hword : ∀ level < 2 ^ 32, reqMana level < 2 ^ 64) (basisPointLevel : Nat → Nat → Nat) {m : Mana}
    (hm : Below reqMana m) {events : List Event}
    (hfits : Runs.Along (after reqMana basisPointLevel) Fits m events) :
    Runs.Along (after reqMana basisPointLevel) (Good reqMana basisPointLevel) m events ↔
      Runs.Along (after reqMana basisPointLevel) (Covered reqMana) m events := by
  induction events generalizing m with
  | nil => exact Iff.rfl
  | cons e events ih =>
    obtain ⟨he, hrest⟩ := hfits
    have hstep := good_iff hreq hword basisPointLevel hm he
    constructor
    · rintro ⟨hgood, hgoods⟩
      have hcovered := hstep.mp hgood
      exact ⟨hcovered, (ih (below_after hreq hword basisPointLevel hm he hcovered) hrest).mp hgoods⟩
    · rintro ⟨hcovered, hcovereds⟩
      exact ⟨hstep.mpr hcovered, (ih (below_after hreq hword basisPointLevel hm he hcovered) hrest).mpr hcovereds⟩

/-! ## A run -/

/-- Requirements of one mana more for every level. -/
def linearReq (level : Nat) : Nat := level + 1

theorem linearReq_increasing : StrictMono linearReq := fun _ _ h => Nat.succ_lt_succ h

theorem linearReq_word : ∀ level < 2 ^ 32, linearReq level < 2 ^ 64 := by
  intro level hlevel
  unfold linearReq
  omega

theorem below_new : Below linearReq {} := ⟨Nat.two_pow_pos 32, Nat.two_pow_pos 64, by decide⟩

theorem fits_one (e : Event) (he : Fits {} e) : Runs.Along (after linearReq fun _ _ => 0) Fits {} [e] := ⟨he, trivial⟩

theorem manaSpent_good_iff_one :
    Runs.Along (after linearReq fun _ _ => 0) (Good linearReq fun _ _ => 0) {} [.addManaSpent 1] ↔
      Runs.Along (after linearReq fun _ _ => 0) (Covered linearReq) {} [.addManaSpent 1] :=
  manaSpent_good_iff linearReq_increasing linearReq_word _ below_new
    (fits_one (.addManaSpent 1) (show 0 + 1 < 2 ^ 64 by decide))

/-- Taking one mana of a player that has spent none leaves it with all but one of the 64-bit numbers. -/
theorem removal_not_good :
    Below linearReq {} ∧ Fits {} (.removeManaSpent 1) ∧ ¬ Good linearReq (fun _ _ => 0) {} (.removeManaSpent 1) := by
  refine ⟨below_new, show 1 < 2 ^ 64 by decide, ?_⟩
  rintro ⟨m', hrun, -, -, hnothing⟩
  obtain rfl := Option.some.inj hrun
  have hwraps := removeManaSpent_wraps linearReq_increasing linearReq_word (fun _ _ => 0) below_new
    (show 1 < 2 ^ 64 by decide) (show total linearReq {} < 1 by decide)
  exact hwraps (hnothing (by decide)).2

end ForgottenServer.ManaSpent
