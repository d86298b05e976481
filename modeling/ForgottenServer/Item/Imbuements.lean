import ForgottenServer.Lib.Runs
import Mathlib

/-! # Imbuement slots

An item has a number of slots and the imbuements that are in them. Two imbuements are the same if their pointers are. -/

open Runs

namespace ForgottenServer.Imbuements

def IMBUEMENT_TYPE_CAPACITY_BOOST : UInt8 := 19

/-- A `shared_ptr` to an imbuement, and the type that is read through it. -/
structure Imbuement where
  pointer : Nat
  imbuetype : UInt8
deriving DecidableEq

/-- What a call reads of the configuration and of the holder of the item, and what `eventItemOnImbue` answers. -/
structure Surroundings where
  systemEnabled : Bool
  holdingPlayer : Bool
  isEquipped : Bool
  isBackpack : Bool
  eventItemOnImbue : Bool

/-- The calls of the player and of the events. -/
inductive Effect where
  | addImbuementEffect (imbue : Imbuement)
  | removeImbuementEffect (imbue : Imbuement)
  | eventItemOnImbue (imbuement : Imbuement) (created : Bool)
  | eventItemOnRemoveImbue (imbuetype : UInt8) (decayed : Bool)
deriving DecidableEq

structure Item where
  imbuementSlots : UInt16 := 0
  imbuements : List Imbuement := []
deriving DecidableEq

/-- What a call returned, the item after it, and its effects. -/
structure Outcome where
  result : Bool
  item : Item
  effects : List Effect := []

namespace Item

def addImbuementSlots (amount : UInt16) (item : Item) : Outcome :=
  let limit : UInt16 := 65535
  let currentSlots := UInt16.ofNat item.imbuements.length
  if limit.toNat ≤ currentSlots.toNat + amount.toNat then { result := false, item }
  else { result := true, item := { item with imbuementSlots := item.imbuementSlots + amount } }

/-- The imbuement has an effect on the player that holds the item. -/
def actsOnPlayer (w : Surroundings) (imbue : Imbuement) : Bool :=
  w.holdingPlayer && w.isEquipped && (imbue.imbuetype ≠ IMBUEMENT_TYPE_CAPACITY_BOOST || w.isBackpack)

def removeImbuement (w : Surroundings) (imbuement : Imbuement) (decayed : Bool) (item : Item) : Outcome :=
  if imbuement ∈ item.imbuements then
    { result := true
      item := { item with imbuements := item.imbuements.filter (· ≠ imbuement) }
      effects := (if actsOnPlayer w imbuement then [.removeImbuementEffect imbuement] else []) ++
        [.eventItemOnRemoveImbue imbuement.imbuetype decayed] }
  else { result := false, item }

/-- The loop that destroys imbuements from the end. -/
def destroyExcess (w : Surroundings) : Nat → Item → Item × List Effect
  | 0, item => (item, [])
  | excess + 1, item =>
    match item.imbuements.getLast? with
    | none => destroyExcess w excess item
    | some last =>
      let removed := item.removeImbuement w last false
      let (item, effects) := destroyExcess w excess removed.item
      (item, removed.effects ++ effects)

def removeImbuementSlots (w : Surroundings) (amount : UInt16) (destroyImbues : Bool) (item : Item) : Outcome :=
  if amount = 0 ∨ item.imbuementSlots < amount then { result := false, item }
  else
    let newSlotCount := item.imbuementSlots - amount
    let activeCount := UInt16.ofNat item.imbuements.length
    if newSlotCount < activeCount then
      if destroyImbues then
        let excess := activeCount - newSlotCount
        let (item, effects) := destroyExcess w excess.toNat item
        { result := true, item := { item with imbuementSlots := newSlotCount }, effects }
      else { result := false, item }
    else { result := true, item := { item with imbuementSlots := newSlotCount } }

def addImbuement (w : Surroundings) (imbuement : Imbuement) (created : Bool) (item : Item) : Outcome :=
  if created ∧ ¬ w.systemEnabled then { result := false, item }
  else
    let hasRoom := 0 < item.imbuementSlots ∧ item.imbuements.length < item.imbuementSlots.toNat
    let asked : List Effect := if hasRoom ∧ created then [.eventItemOnImbue imbuement created] else []
    if hasRoom ∧ (¬ created ∨ w.eventItemOnImbue) then
      let imbuements := item.imbuements ++ [imbuement]
      let added := (imbuements.filter (· = imbuement)).filter fun imbue => w.systemEnabled && actsOnPlayer w imbue
      { result := true, item := { item with imbuements }, effects := asked ++ added.map .addImbuementEffect }
    else { result := false, item, effects := asked }

end Item

inductive Call where
  | addImbuementSlots (amount : UInt16)
  | removeImbuementSlots (w : Surroundings) (amount : UInt16) (destroyImbues : Bool)
  | addImbuement (w : Surroundings) (imbuement : Imbuement) (created : Bool)
  | removeImbuement (w : Surroundings) (imbuement : Imbuement) (decayed : Bool)

def Call.run (item : Item) : Call → Outcome
  | .addImbuementSlots amount => item.addImbuementSlots amount
  | .removeImbuementSlots w amount destroyImbues => item.removeImbuementSlots w amount destroyImbues
  | .addImbuement w imbuement created => item.addImbuement w imbuement created
  | .removeImbuement w imbuement decayed => item.removeImbuement w imbuement decayed

def after (item : Item) (call : Call) : Item := (call.run item).item

/-- Every imbuement is in a slot. -/
def Fits (item : Item) : Prop := item.imbuements.length ≤ item.imbuementSlots.toNat

/-- What is asked of a call. -/
structure Good (item : Item) (call : Call) : Prop where
  fits : Fits (after item call)
  added : ∀ amount, call = .addImbuementSlots amount → (call.run item).result = true →
    (after item call).imbuementSlots.toNat = item.imbuementSlots.toNat + amount.toNat
  removed : ∀ w amount destroyImbues, call = .removeImbuementSlots w amount destroyImbues →
    (call.run item).result = true → (after item call).imbuementSlots.toNat + amount.toNat = item.imbuementSlots.toNat
  failed : (call.run item).result = false → after item call = item

/-- An amount of slots that is not refused does not wrap their number. -/
def NoWrap (item : Item) (call : Call) : Prop :=
  ∀ amount, call = .addImbuementSlots amount → item.imbuements.length + amount.toNat < 65535 →
    item.imbuementSlots.toNat + amount.toNat < 2 ^ 16

/-! ## One call -/

variable {item : Item} {w : Surroundings}

theorem Fits.activeCount (h : Fits item) : (UInt16.ofNat item.imbuements.length).toNat = item.imbuements.length := by
  have hlt := item.imbuementSlots.toNat_lt
  rw [Fits] at h
  rw [UInt16.toNat_ofNat', Nat.mod_eq_of_lt (by omega)]

theorem good_of_same {call : Call} (h : Fits item) (hresult : (call.run item).result = false)
    (hsame : after item call = item) : Good item call where
  fits := hsame.symm ▸ h
  added _ _ htrue := absurd (hresult.symm.trans htrue) Bool.false_ne_true
  removed _ _ _ _ htrue := absurd (hresult.symm.trans htrue) Bool.false_ne_true
  failed _ := hsame

/-- A call for imbuements that succeeds. -/
theorem good_of_true {call : Call} (hresult : (call.run item).result = true) (hfits : Fits (after item call))
    (hadd : ∀ amount, call ≠ .addImbuementSlots amount)
    (hremove : ∀ w amount destroyImbues, call ≠ .removeImbuementSlots w amount destroyImbues) : Good item call where
  fits := hfits
  added amount heq := absurd heq (hadd amount)
  removed w amount destroyImbues heq := absurd heq (hremove w amount destroyImbues)
  failed hfalse := absurd (hfalse.symm.trans hresult) Bool.false_ne_true

theorem noWrap_of_ne {call : Call} (h : ∀ amount, call ≠ .addImbuementSlots amount) : NoWrap item call :=
  fun amount heq => absurd heq (h amount)

theorem addImbuementSlots_good_iff (h : Fits item) (amount : UInt16) :
    Good item (.addImbuementSlots amount) ↔ NoWrap item (.addImbuementSlots amount) := by
  have hlimit : (65535 : UInt16).toNat = 65535 := rfl
  by_cases hrefused : 65535 ≤ item.imbuements.length + amount.toNat
  · have hrun : Call.run item (.addImbuementSlots amount) = { result := false, item } := by
      simp only [Call.run, Item.addImbuementSlots, hlimit, h.activeCount, if_pos hrefused]
    refine iff_of_true (good_of_same h (by rw [hrun]) (by rw [after, hrun])) ?_
    intro _ heq hfew
    cases heq
    omega
  · have hrun : Call.run item (.addImbuementSlots amount) =
        { result := true, item := { item with imbuementSlots := item.imbuementSlots + amount } } := by
      simp only [Call.run, Item.addImbuementSlots, hlimit, h.activeCount, if_neg hrefused]
    have hslots : (after item (.addImbuementSlots amount)).imbuementSlots.toNat =
        (item.imbuementSlots.toNat + amount.toNat) % 2 ^ 16 := by
      rw [after, hrun, UInt16.toNat_add]
    constructor
    · intro hgood _ heq _
      cases heq
      have hadded := hgood.added amount rfl (by rw [hrun])
      have hlt := (after item (.addImbuementSlots amount)).imbuementSlots.toNat_lt
      omega
    · intro hwrap
      rw [Nat.mod_eq_of_lt (hwrap amount rfl (by omega))] at hslots
      refine ⟨?_, ?_, fun _ _ _ heq => ?_, fun hfalse => ?_⟩
      · have himbuements : (after item (.addImbuementSlots amount)).imbuements = item.imbuements := by rw [after, hrun]
        rw [Fits, hslots, himbuements]
        exact Nat.le_add_right_of_le h
      · intro _ heq _
        cases heq
        exact hslots
      · cases heq
      · rw [hrun] at hfalse
        cases hfalse

theorem length_destroyExcess_le (w : Surroundings) (excess : Nat) (item : Item) :
    (item.destroyExcess w excess).1.imbuements.length ≤ item.imbuements.length - excess := by
  induction excess generalizing item with
  | zero => exact le_rfl
  | succ excess ih =>
    rw [Item.destroyExcess]
    cases hlast : item.imbuements.getLast? with
    | none =>
      rw [List.getLast?_eq_none_iff] at hlast
      have hnil := ih item
      rw [hlast] at hnil ⊢
      simpa using hnil
    | some last =>
      have hmem : last ∈ item.imbuements := List.mem_of_getLast? hlast
      have hfewer : (item.removeImbuement w last false).item.imbuements.length < item.imbuements.length := by
        rw [Item.removeImbuement, if_pos hmem]
        exact List.length_filter_lt_length_iff_exists.mpr ⟨last, hmem, by simp⟩
      have hrest := ih (item.removeImbuement w last false).item
      dsimp only
      omega

theorem removeImbuementSlots_good (h : Fits item) (w : Surroundings) (amount : UInt16) (destroyImbues : Bool) :
    Good item (.removeImbuementSlots w amount destroyImbues) := by
  by_cases hrefused : amount = 0 ∨ item.imbuementSlots < amount
  · have hrun : Call.run item (.removeImbuementSlots w amount destroyImbues) = { result := false, item } := by
      simp only [Call.run, Item.removeImbuementSlots, if_pos hrefused]
    exact good_of_same h (by rw [hrun]) (by rw [after, hrun])
  · have hle : amount ≤ item.imbuementSlots := UInt16.not_lt.mp fun hlt => hrefused (.inr hlt)
    have hslots : (item.imbuementSlots - amount).toNat = item.imbuementSlots.toNat - amount.toNat :=
      UInt16.toNat_sub_of_le _ _ hle
    have hleNat : amount.toNat ≤ item.imbuementSlots.toNat := UInt16.le_iff_toNat_le.mp hle
    have hwhole : (item.imbuementSlots - amount).toNat + amount.toNat = item.imbuementSlots.toNat := by omega
    have hcount := h.activeCount
    have hdone (item' : Item) (effects : List Effect)
        (hrun : Call.run item (.removeImbuementSlots w amount destroyImbues) =
          { result := true, item := { item' with imbuementSlots := item.imbuementSlots - amount }, effects })
        (hroom : item'.imbuements.length ≤ (item.imbuementSlots - amount).toNat) :
        Good item (.removeImbuementSlots w amount destroyImbues) := by
      refine ⟨?_, fun _ heq => ?_, fun _ _ _ heq _ => ?_, fun hfalse => ?_⟩
      · rw [Fits, after, hrun]
        exact hroom
      · cases heq
      · cases heq
        rw [after, hrun]
        exact hwhole
      · rw [hrun] at hfalse
        cases hfalse
    by_cases hmany : item.imbuementSlots - amount < UInt16.ofNat item.imbuements.length
    · cases destroyImbues with
      | false =>
        have hrun : Call.run item (.removeImbuementSlots w amount false) = { result := false, item } := by
          simp only [Call.run, Item.removeImbuementSlots, if_neg hrefused, if_pos hmany, Bool.false_eq_true, if_false]
        exact good_of_same h (by rw [hrun]) (by rw [after, hrun])
      | true =>
        let excess := UInt16.ofNat item.imbuements.length - (item.imbuementSlots - amount)
        refine hdone (item.destroyExcess w excess.toNat).1 (item.destroyExcess w excess.toNat).2 ?_ ?_
        · simp only [Call.run, Item.removeImbuementSlots, if_neg hrefused, if_pos hmany, if_true, excess]
        · have hshorter := length_destroyExcess_le w excess.toNat item
          have hexcess : excess.toNat = item.imbuements.length - (item.imbuementSlots - amount).toNat := by
            rw [UInt16.toNat_sub_of_le _ _ (UInt16.le_of_lt hmany), hcount]
          rw [UInt16.lt_iff_toNat_lt, hcount] at hmany
          omega
    · refine hdone item [] ?_ ?_
      · simp only [Call.run, Item.removeImbuementSlots, if_neg hrefused, if_neg hmany]
      · rw [UInt16.not_lt, UInt16.le_iff_toNat_le, hcount] at hmany
        exact hmany

theorem addImbuement_good (h : Fits item) (w : Surroundings) (imbuement : Imbuement) (created : Bool) :
    Good item (.addImbuement w imbuement created) := by
  by_cases hadds : ¬ (created ∧ ¬ w.systemEnabled) ∧
      (0 < item.imbuementSlots ∧ item.imbuements.length < item.imbuementSlots.toNat) ∧
      (¬ created ∨ w.eventItemOnImbue)
  · obtain ⟨hsystem, hroom, hanswer⟩ := hadds
    have hresult : (Call.run item (.addImbuement w imbuement created)).result = true := by
      simp only [Call.run, Item.addImbuement, if_neg hsystem, if_pos (And.intro hroom hanswer)]
    have hafter : after item (.addImbuement w imbuement created) =
        { item with imbuements := item.imbuements ++ [imbuement] } := by
      simp only [after, Call.run, Item.addImbuement, if_neg hsystem, if_pos (And.intro hroom hanswer)]
    refine good_of_true hresult ?_ (fun _ heq => by cases heq) fun _ _ _ heq => by cases heq
    rw [Fits, hafter, List.length_append, List.length_singleton]
    exact hroom.2
  · have hboth : (Call.run item (.addImbuement w imbuement created)).result = false ∧
        after item (.addImbuement w imbuement created) = item := by
      simp only [after, Call.run, Item.addImbuement]
      split
      · exact ⟨rfl, rfl⟩
      · rename_i hsystem
        split
        · rename_i hyes
          exact absurd ⟨hsystem, hyes⟩ hadds
        · exact ⟨rfl, rfl⟩
    exact good_of_same h hboth.1 hboth.2

theorem removeImbuement_good (h : Fits item) (w : Surroundings) (imbuement : Imbuement) (decayed : Bool) :
    Good item (.removeImbuement w imbuement decayed) := by
  by_cases hmem : imbuement ∈ item.imbuements
  · have hresult : (Call.run item (.removeImbuement w imbuement decayed)).result = true := by
      simp only [Call.run, Item.removeImbuement, if_pos hmem]
    refine good_of_true hresult ?_ (fun _ heq => by cases heq) fun _ _ _ heq => by cases heq
    simp only [Fits, after, Call.run, Item.removeImbuement, if_pos hmem]
    exact (List.length_filter_le _ _).trans h
  · have hrun : Call.run item (.removeImbuement w imbuement decayed) = { result := false, item } := by
      simp only [Call.run, Item.removeImbuement, if_neg hmem]
    exact good_of_same h (by rw [hrun]) (by rw [after, hrun])

/-! ## All calls -/

theorem good_iff (h : Fits item) (call : Call) : NoWrap item call ↔ Good item call := by
  cases call with
  | addImbuementSlots amount => exact (addImbuementSlots_good_iff h amount).symm
  | removeImbuementSlots w amount destroyImbues =>
    exact iff_of_true (noWrap_of_ne fun _ heq => by cases heq) (removeImbuementSlots_good h w amount destroyImbues)
  | addImbuement w imbuement created =>
    exact iff_of_true (noWrap_of_ne fun _ heq => by cases heq) (addImbuement_good h w imbuement created)
  | removeImbuement w imbuement decayed =>
    exact iff_of_true (noWrap_of_ne fun _ heq => by cases heq) (removeImbuement_good h w imbuement decayed)

/-- All calls do what is asked of them if and only if no amount of slots that is accepted wraps their number. -/
theorem imbuements_good_iff (h : Fits item) (calls : List Call) :
    Along after Good item calls ↔ Along after NoWrap item calls :=
  (Along.iff_of_invariant Fits (fun _ call hfits hwrap => ((good_iff hfits call).mp hwrap).fits)
    (fun _ call hfits => good_iff hfits call) calls item h).symm

/-- A new item with two slots that gets an imbuement. -/
def twoSlots : List Call :=
  [.addImbuementSlots 2, .addImbuement ⟨true, false, false, false, true⟩ ⟨1, 0⟩ true]

theorem twoSlots_good : Along after Good {} twoSlots ↔ Along after NoWrap {} twoSlots :=
  imbuements_good_iff (Nat.zero_le _) twoSlots

/-- To 65534 slots two are added: the call succeeds, and no slot is left. -/
theorem wrappedSlots_not_good : ¬ Along after Good {} [.addImbuementSlots 65534, .addImbuementSlots 2] := by
  intro h
  have hadded := h.2.1.added 2 rfl (by decide)
  exact absurd hadded (by decide)

end ForgottenServer.Imbuements
