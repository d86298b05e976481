import Mathlib
import ForgottenServer.Lib.Runs

/-! # Bestiary charms

The charm states and the minor charm echoes of a player are in the database, its charm points and its gold in memory. A
transaction changes everything it should or nothing. -/

namespace ForgottenServer.Bestiary

open Runs

inductive BestiaryCharmCategory where
  | major
  | minor
deriving DecidableEq

structure BestiaryCharmDefinition where
  id : Nat
  category : BestiaryCharmCategory
  prices : List Nat

def charmDefinitions : List BestiaryCharmDefinition := [
  ⟨0, .major, [240, 360, 1200]⟩, ⟨1, .major, [400, 600, 2000]⟩, ⟨2, .major, [240, 360, 1200]⟩,
  ⟨3, .major, [320, 480, 1600]⟩, ⟨4, .major, [320, 480, 1600]⟩, ⟨5, .major, [360, 540, 1800]⟩,
  ⟨6, .minor, [100, 150, 225]⟩, ⟨7, .major, [400, 600, 2000]⟩, ⟨8, .major, [240, 360, 1200]⟩,
  ⟨9, .minor, [100, 150, 225]⟩, ⟨10, .minor, [100, 150, 225]⟩, ⟨11, .minor, [100, 150, 225]⟩,
  ⟨12, .minor, [100, 150, 225]⟩, ⟨13, .minor, [100, 150, 225]⟩, ⟨14, .minor, [100, 150, 225]⟩,
  ⟨15, .major, [800, 1200, 4000]⟩, ⟨16, .major, [600, 900, 3000]⟩, ⟨17, .minor, [100, 150, 225]⟩,
  ⟨18, .minor, [100, 150, 225]⟩, ⟨19, .major, [800, 1200, 4000]⟩, ⟨20, .minor, [100, 150, 225]⟩,
  ⟨21, .minor, [100, 150, 225]⟩, ⟨22, .major, [600, 900, 3000]⟩, ⟨23, .major, [600, 900, 3000]⟩,
  ⟨24, .major, [600, 900, 3000]⟩]

def getCharmDefinition (charmId : Nat) : Option BestiaryCharmDefinition :=
  (charmDefinitions[charmId]?).filter fun definition => definition.id = charmId

def sameCategory (leftCharmId rightCharmId : Nat) : Bool :=
  match getCharmDefinition leftCharmId, getCharmDefinition rightCharmId with
  | some left, some right => left.category = right.category
  | _, _ => false

def getCharmPriceForTier (charm : BestiaryCharmDefinition) (tier : Nat) : Nat := charm.prices.getD tier 0

def getSpentCharmPointsForTier (charm : BestiaryCharmDefinition) (tier : Nat) : Nat :=
  (charm.prices.take tier).sum

def getMinorEchoRewardForMajorTier (tier : Nat) : Nat := 25 * tier * tier + 25 * tier + 50

/-- A charm without a row is locked and not assigned. -/
structure CharmState where
  tier : Nat := 0
  raceId : Nat := 0

/-- The player in memory, and its rows. -/
structure Player where
  charmPoints : Nat := 0
  inventoryMoney : Nat := 0
  bankBalance : Nat := 0
  charms : Nat → CharmState := fun _ => {}
  minorEchoes : Nat := 0
  maxMinorEchoes : Nat := 0

/-- What a creature needs to be assigned. -/
structure BestiaryCreatureInfo where
  toKill : Nat
  secondUnlock : Nat

/-- What a call meets: the player's level, vocation and kills, the bestiary, and the outcomes of the transaction (or the
statement) of the call, of the one that restores, and of taking money from the inventory. -/
structure Env where
  level : Nat
  isPremium : Bool
  getKillCount : Nat → Nat
  getMonster : Nat → Option BestiaryCreatureInfo
  commits : Bool
  restores : Bool
  removes : Bool

structure Result where
  success : Bool
  message : String

def fail (message : String) : Result := ⟨false, message⟩
def ok (message : String) : Result := ⟨true, message⟩

/-- Machine words of 32 bits. -/
def word (n : Nat) : Nat := n % 2 ^ 32

namespace Player

def loadCharmStates (p : Player) (charmId : Nat) : CharmState := { p.charms charmId with tier := min (p.charms charmId).tier 3 }

def hasGold (p : Player) (amount : Nat) : Bool :=
  amount = 0 || decide (p.inventoryMoney ≥ amount) || decide (p.bankBalance ≥ amount - p.inventoryMoney)

/-- The player without the gold, unless taking it fails. -/
def removeGold (env : Env) (p : Player) (amount : Nat) : Option Player :=
  if amount = 0 then some p
  else if !p.hasGold amount then none
  else
    let fromInventory := min p.inventoryMoney amount
    if fromInventory > 0 ∧ env.removes = false then none
    else some { p with
      inventoryMoney := p.inventoryMoney - fromInventory
      bankBalance := p.bankBalance - (amount - fromInventory) }

/-- The value of the tiers of one category. -/
def total (value : BestiaryCharmDefinition → Nat → Nat) (category : BestiaryCharmCategory)
    (states : Nat → CharmState) : Nat :=
  ∑ charmId ∈ Finset.range charmDefinitions.length, match getCharmDefinition charmId with
    | some charm => if charm.category = category then value charm (states charmId).tier else 0
    | none => 0

def getSpentMajorCharmPoints (states : Nat → CharmState) : Nat := total getSpentCharmPointsForTier .major states

def getAssignedCharmCount (states : Nat → CharmState) : Nat :=
  ((List.range charmDefinitions.length).filter fun charmId =>
    (getCharmDefinition charmId).isSome && decide ((states charmId).tier > 0) && decide ((states charmId).raceId > 0)).length

def setCharm (p : Player) (charmId : Nat) (state : CharmState) : Player :=
  { p with charms := Function.update p.charms charmId state }

/-! ## The actions -/

/-- The row of the next tier. -/
def unlockTier (p : Player) (charmId : Nat) : Player :=
  p.setCharm charmId { p.charms charmId with tier := (p.loadCharmStates charmId).tier + 1 }

variable (env : Env)

def upgrade (p : Player) (charmId : Nat) (charm : BestiaryCharmDefinition) : Player × Result :=
  let currentState := p.loadCharmStates charmId
  if currentState.tier ≥ 3 then (p, fail "This charm is already fully unlocked.")
  else
    let price := getCharmPriceForTier charm currentState.tier
    let message := if currentState.tier = 0 then "Charm unlocked." else "Charm upgraded."
    let upgraded := p.unlockTier charmId
    if price = 0 then (p, fail "This charm cannot be upgraded.")
    else match charm.category with
      | .major =>
        let echoReward := getMinorEchoRewardForMajorTier currentState.tier
        if p.charmPoints < price then (p, fail "You do not have enough charm points.")
        else if !env.commits then (p, fail "Could not upgrade this charm.")
        else ({ upgraded with
          minorEchoes := word (p.minorEchoes + echoReward)
          maxMinorEchoes := word (p.maxMinorEchoes + echoReward)
          charmPoints := p.charmPoints - price }, ok message)
      | .minor =>
        if p.minorEchoes < price then (p, fail "You do not have enough minor charm echoes.")
        else if !env.commits then (p, fail "Could not upgrade this charm.")
        else ({ upgraded with minorEchoes := p.minorEchoes - price }, ok message)

def resetCost : Nat := 100000 + if env.level > 100 then env.level * 11000 else 0

def reset (p : Player) : Player × Result :=
  if !p.hasGold (resetCost env) then (p, fail "You do not have enough gold.")
  else if !env.commits then (p, fail "Could not reset charms.")
  else
    let states := p.loadCharmStates
    let p' : Player := { p with
      charms := fun _ => {}, minorEchoes := 0, maxMinorEchoes := 0
      charmPoints := word (p.charmPoints + getSpentMajorCharmPoints states) }
    match p'.removeGold env (resetCost env) with
    | none =>
      if env.restores then
        ({ p' with
          charms := states, minorEchoes := p.minorEchoes, maxMinorEchoes := p.maxMinorEchoes
          charmPoints := p.charmPoints }, fail "Could not charge gold for resetting charms.")
      else (p', fail "Could not charge gold or restore charm state.")
    | some p' => (p', ok "All charms were reset.")

def requiredKills (charm : BestiaryCharmDefinition) (monster : BestiaryCreatureInfo) : Nat :=
  match charm.category with
  | .major => monster.toKill
  | .minor => monster.secondUnlock

def maxSlots : Nat := if env.isPremium then 6 else 2

def assign (p : Player) (charmId : Nat) (charm : BestiaryCharmDefinition) (raceId : Nat) : Player × Result :=
  let states := p.loadCharmStates
  match env.getMonster raceId with
  | none => (p, fail "Creature not found.")
  | some monster =>
    let major := decide (charm.category = .major)
    if env.getKillCount raceId < requiredKills charm monster then
      (p, fail (if major then "This creature is not fully unlocked."
        else "This creature has not reached the charm assignment stage."))
    else if (states charmId).raceId = 0 ∧ getAssignedCharmCount states ≥ maxSlots env then
      (p, fail "You do not have any charm slots available.")
    else if ∃ other ∈ List.range charmDefinitions.length, other ≠ charmId ∧ (states other).tier ≠ 0 ∧
        (states other).raceId = raceId ∧ sameCategory charmId other then
      (p, fail ("You already have this creature set on another " ++ (if major then "major" else "minor") ++ " charm."))
    else if !env.commits then (p, fail "Could not assign this charm.")
    else (p.setCharm charmId { p.charms charmId with raceId }, ok "Charm assigned.")

def removeCost : Nat := env.level * 100

def unassign (p : Player) (charmId : Nat) : Player × Result :=
  let states := p.loadCharmStates
  if (states charmId).raceId = 0 then (p, fail "This charm is not assigned.")
  else if !p.hasGold (removeCost env) then (p, fail "You do not have enough gold.")
  else if !env.commits then (p, fail "Could not remove this charm.")
  else
    let p' := p.setCharm charmId { p.charms charmId with raceId := 0 }
    match p'.removeGold env (removeCost env) with
    | none =>
      if env.restores then ({ p' with charms := states }, fail "Could not charge gold for removing this charm.")
      else (p', fail "Could not charge gold or restore charm state.")
    | some p' => (p', ok "Charm removed.")

def handleCharmAction (p : Player) (charmId action raceId : Nat) : Player × Result :=
  match getCharmDefinition charmId with
  | none => if action = 3 then p.reset env else (p, fail "Charm not found.")
  | some charm =>
    if action = 0 then p.upgrade env charmId charm
    else if action = 3 then p.reset env
    else if (p.loadCharmStates charmId).tier = 0 then (p, fail "This charm is not unlocked.")
    else if action = 1 then p.assign env charmId charm raceId
    else if action = 2 then p.unassign env charmId
    else (p, fail "Invalid charm action.")

end Player

structure Call where
  env : Env
  charmId : Nat
  action : Nat
  raceId : Nat

def Player.step (p : Player) (call : Call) : Player :=
  (p.handleCharmAction call.env call.charmId call.action call.raceId).1

/-! ## The accounts -/

/-- All rewards of a major charm's tiers. -/
def rewards (_ : BestiaryCharmDefinition) (tier : Nat) : Nat :=
  ((List.range tier).map getMinorEchoRewardForMajorTier).sum

namespace Player

/-- The charm points, with those that the unlocked tiers have cost. -/
def allPoints (p : Player) : Nat := p.charmPoints + getSpentMajorCharmPoints p.loadCharmStates

structure Accounted (p : Player) : Prop where
  echoes : p.minorEchoes + total getSpentCharmPointsForTier .minor p.loadCharmStates = p.maxMinorEchoes
  maxEchoes : p.maxMinorEchoes = total rewards .major p.loadCharmStates
  distinct : ∀ charmId other, charmId ≠ other → sameCategory charmId other → (p.loadCharmStates charmId).raceId ≠ 0 →
    (p.loadCharmStates charmId).raceId ≠ (p.loadCharmStates other).raceId
  locked : ∀ charmId, (p.loadCharmStates charmId).tier = 0 → (p.loadCharmStates charmId).raceId = 0

/-- Nothing that the claims of a player rest on has changed. -/
def Unchanged (p p' : Player) : Prop :=
  p'.loadCharmStates = p.loadCharmStates ∧ p'.charmPoints = p.charmPoints ∧ p'.minorEchoes = p.minorEchoes ∧
    p'.maxMinorEchoes = p.maxMinorEchoes ∧ p'.inventoryMoney = p.inventoryMoney ∧ p'.bankBalance = p.bankBalance

/-- What a call keeps. -/
structure Kept (env : Env) (p : Player) (r : Player × Result) : Prop where
  accounted : p.Accounted → r.1.Accounted
  points : r.1.allPoints ≡ p.allPoints [MOD 2 ^ 32]
  exactly : p.allPoints < 2 ^ 32 → r.1.allPoints = p.allPoints
  no_more : r.1.allPoints ≤ p.allPoints
  failed : r.2.success = false → env.restores = true → p.Unchanged r.1

variable {env : Env} {p : Player}

theorem Unchanged.kept {p' : Player} (h : p.Unchanged p') (result : Result) : Kept env p (p', result) := by
  obtain ⟨hstates, hpoints, hechoes, hmax, -, -⟩ := id h
  have hall : p'.allPoints = p.allPoints := by rw [allPoints, allPoints, hstates, hpoints]
  refine ⟨fun ha => ⟨?_, ?_, ?_, ?_⟩, by rw [hall], fun _ => hall, hall.le, fun _ _ => h⟩
  · rw [hstates, hechoes, hmax]
    exact ha.echoes
  · rw [hstates, hmax]
    exact ha.maxEchoes
  · rw [hstates]
    exact ha.distinct
  · rw [hstates]
    exact ha.locked

theorem kept_self (result : Result) : Kept env p (p, result) :=
  Unchanged.kept ⟨rfl, rfl, rfl, rfl, rfl, rfl⟩ result

/-! ## Totals -/

theorem lt_of_getCharmDefinition {charmId : Nat} {charm : BestiaryCharmDefinition}
    (h : getCharmDefinition charmId = some charm) : charmId < charmDefinitions.length := by
  rw [getCharmDefinition, Option.filter_eq_some_iff] at h
  exact (List.getElem?_eq_some_iff.mp h.1).1

theorem total_congr {value : BestiaryCharmDefinition → Nat → Nat} {category : BestiaryCharmCategory}
    {states states' : Nat → CharmState} (h : ∀ charmId, (states charmId).tier = (states' charmId).tier) :
    total value category states = total value category states' := by
  rw [total, total]
  exact Finset.sum_congr rfl fun charmId _ => by rw [h]

/-- One charm gets another tier. -/
theorem total_update {value : BestiaryCharmDefinition → Nat → Nat} {category : BestiaryCharmCategory}
    {states : Nat → CharmState} {charmId : Nat} {charm : BestiaryCharmDefinition}
    (hdef : getCharmDefinition charmId = some charm) (state : CharmState) :
    total value category (Function.update states charmId state) +
        (if charm.category = category then value charm (states charmId).tier else 0) =
      total value category states + if charm.category = category then value charm state.tier else 0 := by
  have hmem : charmId ∈ Finset.range charmDefinitions.length := Finset.mem_range.mpr (lt_of_getCharmDefinition hdef)
  rw [total, total, ← Finset.add_sum_erase _ _ hmem, ← Finset.add_sum_erase _ _ hmem, hdef, Function.update_self]
  have hothers : ∀ other ∈ (Finset.range charmDefinitions.length).erase charmId,
      Function.update states charmId state other = states other :=
    fun other hother => Function.update_of_ne (Finset.ne_of_mem_erase hother) _ _
  rw [Finset.sum_congr rfl fun other hother => by rw [hothers other hother]]
  dsimp only
  omega

theorem total_locked {value : BestiaryCharmDefinition → Nat → Nat} (hzero : ∀ charm, value charm 0 = 0)
    (category : BestiaryCharmCategory) : total value category (fun _ => {}) = 0 := by
  rw [total]
  refine Finset.sum_eq_zero fun charmId _ => ?_
  cases getCharmDefinition charmId with
  | none => rfl
  | some charm => simp [hzero]

theorem rewards_le {charm : BestiaryCharmDefinition} {tier : Nat} (h : tier ≤ 3) : rewards charm tier ≤ 350 := by
  rcases show tier = 0 ∨ tier = 1 ∨ tier = 2 ∨ tier = 3 by omega with rfl | rfl | rfl | rfl <;>
    simp [rewards, List.range_succ, getMinorEchoRewardForMajorTier]

theorem total_rewards_le (p : Player) : total rewards .major p.loadCharmStates ≤ 25 * 350 := by
  rw [total]
  refine (Finset.sum_le_card_nsmul _ _ 350 fun charmId _ => ?_).trans (by decide)
  cases getCharmDefinition charmId with
  | none => exact Nat.zero_le _
  | some charm =>
    dsimp only
    split
    · exact rewards_le (Nat.min_le_right _ _)
    · exact Nat.zero_le _

theorem prices_length : ∀ charm ∈ charmDefinitions, charm.prices.length = 3 := by
  decide

/-- The next tier costs what is then spent on it. -/
theorem spent_succ {charmId tier : Nat} {charm : BestiaryCharmDefinition}
    (hdef : getCharmDefinition charmId = some charm) (htier : tier < 3) :
    getSpentCharmPointsForTier charm (tier + 1) = getSpentCharmPointsForTier charm tier + getCharmPriceForTier charm tier := by
  rw [getCharmDefinition, Option.filter_eq_some_iff] at hdef
  have hlt : tier < charm.prices.length := by
    rw [prices_length charm (List.mem_of_getElem? hdef.1)]
    exact htier
  rw [getSpentCharmPointsForTier, getSpentCharmPointsForTier, getCharmPriceForTier, List.take_add_one, List.sum_append,
    List.getElem?_eq_getElem hlt, List.getD_eq_getElem?_getD, List.getElem?_eq_getElem hlt]
  simp

theorem rewards_succ (charm : BestiaryCharmDefinition) (tier : Nat) :
    rewards charm (tier + 1) = rewards charm tier + getMinorEchoRewardForMajorTier tier := by
  rw [rewards, rewards, List.range_succ, List.map_append, List.sum_append]
  simp

/-! ## What each action keeps -/

theorem loadCharmStates_setCharm (p : Player) (charmId : Nat) (state : CharmState) :
    (p.setCharm charmId state).loadCharmStates =
      Function.update p.loadCharmStates charmId { state with tier := min state.tier 3 } := by
  funext other
  by_cases hother : other = charmId
  · subst hother
    simp [loadCharmStates, setCharm]
  · simp [loadCharmStates, setCharm, Function.update_of_ne hother]

/-- Loading what was loaded changes nothing. -/
theorem loadCharmStates_loaded (p p' : Player) :
    ({ p' with charms := p.loadCharmStates } : Player).loadCharmStates = p.loadCharmStates := by
  funext charmId
  simp [loadCharmStates]

/-- An upgrade leaves the assignments as they are. -/
theorem Accounted.assignments_upgrade (ha : p.Accounted) {charmId tier : Nat} {p' : Player}
    (hstates : p'.loadCharmStates =
      Function.update p.loadCharmStates charmId { p.loadCharmStates charmId with tier := tier + 1 }) :
    (∀ c other, c ≠ other → sameCategory c other → (p'.loadCharmStates c).raceId ≠ 0 →
      (p'.loadCharmStates c).raceId ≠ (p'.loadCharmStates other).raceId) ∧
      ∀ c, (p'.loadCharmStates c).tier = 0 → (p'.loadCharmStates c).raceId = 0 := by
  have hrace : ∀ c, (p'.loadCharmStates c).raceId = (p.loadCharmStates c).raceId := by
    intro c
    rw [hstates]
    by_cases hc : c = charmId
    · subst hc
      rw [Function.update_self]
    · rw [Function.update_of_ne hc]
  refine ⟨fun c other hne hsame => ?_, fun c htier => ?_⟩
  · rw [hrace, hrace]
    exact ha.distinct c other hne hsame
  · rw [hrace]
    rw [hstates] at htier
    by_cases hc : c = charmId
    · subst hc
      rw [Function.update_self] at htier
      cases htier
    · rw [Function.update_of_ne hc] at htier
      exact ha.locked c htier

theorem kept_upgrade {charmId : Nat} {charm : BestiaryCharmDefinition}
    (hdef : getCharmDefinition charmId = some charm) : Kept env p (p.upgrade env charmId charm) := by
  rw [upgrade]
  dsimp only
  split
  · exact kept_self _
  · rename_i htier
    have htier : (p.loadCharmStates charmId).tier < 3 := by omega
    have hstates : (p.unlockTier charmId).loadCharmStates =
        Function.update p.loadCharmStates charmId
          { p.loadCharmStates charmId with tier := (p.loadCharmStates charmId).tier + 1 } := by
      rw [unlockTier, loadCharmStates_setCharm, Nat.min_eq_left htier]
      rfl
    have hspent := spent_succ hdef htier
    have hspents := fun category => @total_update getSpentCharmPointsForTier category p.loadCharmStates charmId charm
      hdef { p.loadCharmStates charmId with tier := (p.loadCharmStates charmId).tier + 1 }
    have hrewards := @total_update rewards .major p.loadCharmStates charmId charm
      hdef { p.loadCharmStates charmId with tier := (p.loadCharmStates charmId).tier + 1 }
    rw [← hstates] at hspents hrewards
    split
    · exact kept_self _
    · cases hcategory : charm.category with
      | major =>
        dsimp only
        split
        · exact kept_self _
        · split
          · exact kept_self _
          · rename_i hprice _
            have hmajor := hspents .major
            have hminor := hspents .minor
            simp only [hcategory, if_true, reduceCtorEq, if_false, Nat.add_zero, hspent] at hmajor hminor
            simp only [hcategory, if_true, rewards_succ] at hrewards
            have hall : p.charmPoints - getCharmPriceForTier charm (p.loadCharmStates charmId).tier +
                getSpentMajorCharmPoints (p.unlockTier charmId).loadCharmStates = p.allPoints := by
              rw [allPoints, getSpentMajorCharmPoints, getSpentMajorCharmPoints]
              omega
            refine ⟨fun ha => ?_, by rw [← hall]; rfl, fun _ => hall, hall.le, fun hfailed => absurd hfailed (by simp [ok])⟩
            have hbound := total_rewards_le (p.unlockTier charmId)
            have hechoes := ha.echoes
            have hmax := ha.maxEchoes
            obtain ⟨hdistinct, hlocked⟩ := ha.assignments_upgrade hstates
            refine ⟨?_, ?_, hdistinct, hlocked⟩
            · show word _ + total _ _ (p.unlockTier charmId).loadCharmStates = word _
              rw [word, word, Nat.mod_eq_of_lt (by omega), Nat.mod_eq_of_lt (by omega), hminor]
              omega
            · show word _ = total _ _ (p.unlockTier charmId).loadCharmStates
              rw [word, Nat.mod_eq_of_lt (by omega)]
              omega
      | minor =>
        dsimp only
        split
        · exact kept_self _
        · split
          · exact kept_self _
          · rename_i hprice _
            have hmajor := hspents .major
            have hminor := hspents .minor
            simp only [hcategory, if_true, reduceCtorEq, if_false, Nat.add_zero, hspent] at hmajor hminor hrewards
            have hall : p.charmPoints + getSpentMajorCharmPoints (p.unlockTier charmId).loadCharmStates = p.allPoints := by
              rw [allPoints, getSpentMajorCharmPoints, getSpentMajorCharmPoints, hmajor]
            refine ⟨fun ha => ?_, by rw [← hall]; rfl, fun _ => hall, hall.le, fun hfailed => absurd hfailed (by simp [ok])⟩
            have hechoes := ha.echoes
            obtain ⟨hdistinct, hlocked⟩ := ha.assignments_upgrade hstates
            refine ⟨?_, ?_, hdistinct, hlocked⟩
            · show p.minorEchoes - _ + total _ _ (p.unlockTier charmId).loadCharmStates = p.maxMinorEchoes
              omega
            · show p.maxMinorEchoes = total _ _ (p.unlockTier charmId).loadCharmStates
              rw [hrewards]
              exact ha.maxEchoes

/-- Only gold is taken. -/
theorem eq_of_removeGold {p' : Player} {amount : Nat} (h : p.removeGold env amount = some p') :
    ∃ inventoryMoney bankBalance, p' = { p with inventoryMoney, bankBalance } := by
  rw [removeGold] at h
  split at h
  · cases h
    exact ⟨p.inventoryMoney, p.bankBalance, rfl⟩
  · split at h
    · cases h
    · dsimp only at h
      split at h
      · cases h
      · cases h
        exact ⟨_, _, rfl⟩

/-- All charms are locked, and the points refunded. -/
theorem kept_locked {p' : Player} (hstates : p'.loadCharmStates = fun _ => {}) (hechoes : p'.minorEchoes = 0)
    (hmax : p'.maxMinorEchoes = 0) (hpoints : p'.charmPoints = word p.allPoints) (result : Result)
    (hfailed : result.success = false → env.restores = true → p.Unchanged p') : Kept env p (p', result) := by
  have hspent : ∀ charm : BestiaryCharmDefinition, getSpentCharmPointsForTier charm 0 = 0 := fun charm => rfl
  have hall : p'.allPoints = word p.allPoints := by
    rw [allPoints, hstates, getSpentMajorCharmPoints, total_locked hspent, hpoints, Nat.add_zero]
  refine ⟨fun _ => ⟨?_, ?_, fun _ _ _ _ hne => ?_, fun _ _ => ?_⟩, ?_, fun hlt => ?_, hall.trans_le (Nat.mod_le _ _),
    hfailed⟩
  · rw [hstates, total_locked hspent, hechoes, hmax]
  · rw [hstates, total_locked fun _ => rfl, hmax]
  · rw [hstates] at hne
    exact absurd rfl hne
  · rw [hstates]
  · show p'.allPoints ≡ p.allPoints [MOD 2 ^ 32]
    rw [hall, word]
    exact Nat.mod_modEq _ _
  · show p'.allPoints = p.allPoints
    rw [hall, word, Nat.mod_eq_of_lt hlt]

theorem kept_reset : Kept env p (p.reset env) := by
  rw [reset]
  split
  · exact kept_self _
  · split
    · exact kept_self _
    · dsimp only
      split
      · split
        · exact @Unchanged.kept env p _ ⟨loadCharmStates_loaded p _, rfl, rfl, rfl, rfl, rfl⟩ _
        · rename_i hrestores
          refine kept_locked ?_ ?_ ?_ ?_ _ fun _ h => absurd h hrestores
          · rfl
          · rfl
          · rfl
          · rfl
      · rename_i hgold
        obtain ⟨_, _, rfl⟩ := eq_of_removeGold hgold
        refine kept_locked ?_ ?_ ?_ ?_ _ ?_
        · rfl
        · rfl
        · rfl
        · rfl
        · exact fun h => absurd h (by simp [ok])

/-- A charm changes its creature only. -/
theorem kept_assigned (charmId raceId : Nat) {p' : Player}
    (hstates : p'.loadCharmStates =
      Function.update p.loadCharmStates charmId { p.loadCharmStates charmId with raceId })
    (hpoints : p'.charmPoints = p.charmPoints) (hechoes : p'.minorEchoes = p.minorEchoes)
    (hmax : p'.maxMinorEchoes = p.maxMinorEchoes) (result : Result)
    (hlocked : raceId ≠ 0 → (p.loadCharmStates charmId).tier ≠ 0)
    (hdistinct : p.Accounted → raceId ≠ 0 → ∀ other ≠ charmId, sameCategory charmId other →
      (p.loadCharmStates other).raceId ≠ raceId)
    (hfailed : result.success = false → env.restores = true → p.Unchanged p') : Kept env p (p', result) := by
  have htier : ∀ c, (p'.loadCharmStates c).tier = (p.loadCharmStates c).tier := by
    intro c
    rw [hstates]
    by_cases hc : c = charmId
    · subst hc
      rw [Function.update_self]
    · rw [Function.update_of_ne hc]
  have hrace : ∀ c, (p'.loadCharmStates c).raceId = if c = charmId then raceId else (p.loadCharmStates c).raceId := by
    intro c
    rw [hstates]
    by_cases hc : c = charmId
    · subst hc
      rw [Function.update_self, if_pos rfl]
    · rw [Function.update_of_ne hc, if_neg hc]
  have hall : p'.allPoints = p.allPoints := by
    rw [allPoints, allPoints, hpoints, getSpentMajorCharmPoints, getSpentMajorCharmPoints, total_congr htier]
  refine ⟨fun ha => ⟨?_, ?_, fun c other hne hsame hc => ?_, fun c hc => ?_⟩, by rw [hall], fun _ => hall, hall.le,
    hfailed⟩
  · rw [hechoes, hmax, total_congr htier]
    exact ha.echoes
  · rw [hmax, total_congr htier]
    exact ha.maxEchoes
  · rw [hrace] at hc
    rw [hrace, hrace]
    have hsymm : sameCategory other c := by
      rw [sameCategory] at hsame ⊢
      split at hsame
      · rename_i hleft hright
        rw [hleft, hright]
        exact decide_eq_true (of_decide_eq_true hsame).symm
      · cases hsame
    by_cases h₁ : c = charmId
    · subst h₁
      rw [if_pos rfl] at hc ⊢
      rw [if_neg (Ne.symm hne)]
      exact (hdistinct ha hc other (Ne.symm hne) hsame).symm
    · rw [if_neg h₁] at hc ⊢
      by_cases h₂ : other = charmId
      · subst h₂
        rw [if_pos rfl]
        intro heq
        rw [heq] at hc
        exact hdistinct ha hc c h₁ hsymm heq
      · rw [if_neg h₂]
        exact ha.distinct c other hne hsame hc
  · rw [htier] at hc
    rw [hrace]
    split
    · rename_i heq
      subst heq
      by_contra hne
      exact hlocked hne hc
    · exact ha.locked c hc

theorem kept_assign {charmId : Nat} {charm : BestiaryCharmDefinition} {raceId : Nat}
    (htier : (p.loadCharmStates charmId).tier ≠ 0) : Kept env p (p.assign env charmId charm raceId) := by
  rw [assign]
  dsimp only
  split
  · exact kept_self _
  · split
    · exact kept_self _
    · split
      · exact kept_self _
      · split
        · exact kept_self _
        · rename_i hfree
          split
          · exact kept_self _
          · refine kept_assigned charmId raceId ?_ ?_ ?_ ?_ _ (fun _ => htier)
              (fun ha hrace other hne hsame heq => ?_) ?_
            · exact loadCharmStates_setCharm p charmId _
            · rfl
            · rfl
            · rfl
            · refine hfree ⟨other, ?_, hne, fun hlocked => ?_, heq, hsame⟩
              · rw [sameCategory] at hsame
                split at hsame
                · rename_i hright
                  exact List.mem_range.mpr (lt_of_getCharmDefinition hright)
                · cases hsame
              · rw [ha.locked other hlocked] at heq
                exact hrace heq.symm
            · exact fun h => absurd h (by simp [ok])

theorem kept_unassign {charmId : Nat} : Kept env p (p.unassign env charmId) := by
  rw [unassign]
  dsimp only
  split
  · exact kept_self _
  · split
    · exact kept_self _
    · split
      · exact kept_self _
      · split
        · split
          · exact @Unchanged.kept env p _ ⟨loadCharmStates_loaded p _, rfl, rfl, rfl, rfl, rfl⟩ _
          · rename_i hrestores
            refine kept_assigned charmId 0 ?_ ?_ ?_ ?_ _ (fun h => absurd rfl h) (fun _ h => absurd rfl h)
              fun _ h => absurd h hrestores
            · exact loadCharmStates_setCharm p charmId _
            · rfl
            · rfl
            · rfl
        · rename_i hgold
          obtain ⟨_, _, rfl⟩ := eq_of_removeGold hgold
          refine kept_assigned charmId 0 ?_ ?_ ?_ ?_ _ (fun h => absurd rfl h) (fun _ h => absurd rfl h) ?_
          · exact loadCharmStates_setCharm p charmId _
          · rfl
          · rfl
          · rfl
          · exact fun h => absurd h (by simp [ok])

theorem kept_handleCharmAction (env : Env) (p : Player) (charmId action raceId : Nat) :
    Kept env p (p.handleCharmAction env charmId action raceId) := by
  rw [handleCharmAction]
  split
  · split
    · exact kept_reset
    · exact kept_self _
  · rename_i hdef
    split
    · exact kept_upgrade hdef
    · split
      · exact kept_reset
      · split
        · exact kept_self _
        · rename_i htier
          split
          · exact kept_assign htier
          · split
            · exact kept_unassign
            · exact kept_self _

/-- A call that fails, and whose restoring transaction does not, has changed nothing. -/
def FailsClean (p : Player) (call : Call) : Prop :=
  (p.handleCharmAction call.env call.charmId call.action call.raceId).2.success = false → call.env.restores = true →
    p.Unchanged (p.step call)

/-- Any calls keep the accounts of a player: its points with the spent ones, as a word of 32 bits and exactly unless they
overflow one, its echoes and its assignments. -/
theorem charms_accounted (p : Player) (ha : p.Accounted) (calls : List Call) :
    Along step FailsClean p calls ∧ (calls.foldl step p).Accounted ∧
      (calls.foldl step p).allPoints ≡ p.allPoints [MOD 2 ^ 32] ∧
      (p.allPoints < 2 ^ 32 → (calls.foldl step p).allPoints = p.allPoints) := by
  induction calls generalizing p with
  | nil => exact ⟨trivial, ha, rfl, fun _ => rfl⟩
  | cons call calls ih =>
    have hkept := kept_handleCharmAction call.env p call.charmId call.action call.raceId
    obtain ⟨hclean, haccounted, hpoints, hexactly⟩ := ih (p.step call) (hkept.accounted ha)
    refine ⟨⟨hkept.failed, hclean⟩, haccounted, hpoints.trans hkept.points, fun hlt => ?_⟩
    have hstep := hkept.exactly hlt
    exact (hexactly (by rw [step, hstep]; exact hlt)).trans hstep

theorem loadCharmStates_new (charmPoints inventoryMoney bankBalance : Nat) :
    ({ charmPoints, inventoryMoney, bankBalance } : Player).loadCharmStates = fun _ => {} := rfl

theorem allPoints_new (charmPoints inventoryMoney bankBalance : Nat) :
    ({ charmPoints, inventoryMoney, bankBalance } : Player).allPoints = charmPoints := by
  rw [allPoints, loadCharmStates_new, getSpentMajorCharmPoints, total_locked fun _ => rfl, Nat.add_zero]

/-- A new player has nothing. -/
theorem accounted_new (charmPoints inventoryMoney bankBalance : Nat) :
    ({ charmPoints, inventoryMoney, bankBalance } : Player).Accounted := by
  refine ⟨?_, ?_, fun _ _ _ _ hne => absurd rfl hne, fun _ _ => rfl⟩
  · rw [loadCharmStates_new, total_locked fun _ => rfl]
  · rw [loadCharmStates_new, total_locked fun _ => rfl]

/-- A charm is unlocked, and a reset is undone whose gold cannot be taken. -/
def openRun : List Call :=
  let env : Env := ⟨8, false, fun _ => 0, fun _ => none, true, true, false⟩
  [⟨env, 0, 0, 0⟩, ⟨env, 0, 3, 0⟩]

theorem charms_accounted_open :
    Along step FailsClean { charmPoints := 300, inventoryMoney := 100000 } openRun ∧
      (openRun.foldl step { charmPoints := 300, inventoryMoney := 100000 }).Accounted ∧
      (openRun.foldl step { charmPoints := 300, inventoryMoney := 100000 }).allPoints ≡ 300 [MOD 2 ^ 32] ∧
      (openRun.foldl step { charmPoints := 300, inventoryMoney := 100000 }).allPoints = 300 := by
  have hall := allPoints_new 300 100000 0
  obtain ⟨hclean, haccounted, hpoints, hexactly⟩ := charms_accounted _ (accounted_new 300 100000 0) openRun
  rw [hall] at hpoints hexactly
  exact ⟨hclean, haccounted, hpoints, hexactly (by decide)⟩

end Player

end ForgottenServer.Bestiary
