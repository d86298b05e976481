import ForgottenServer.Condition.Condition
import ForgottenServer.Lib.Runs

/-! # The bonuses of `ConditionAttributes`

A condition on attributes gives a player its bonuses when it starts, takes the old ones back and gives the new ones
when it is refreshed, and takes them back when it ends. `scale` is the product of a number of the player and of a
percentage, which the source takes in floats. -/

namespace ForgottenServer.Condition

/-- An object of the class, with its own members beside it. -/
structure ConditionAttributes where
  condition : Condition
  attributes : Attributes
  kind : condition.kind = .attributes attributes

namespace ConditionAttributes

def setAttributes (c : ConditionAttributes) (a : Attributes) : ConditionAttributes :=
  ⟨{ c.condition with kind := .attributes a }, a, rfl⟩

def setTicks (now : BitVec 64) (newTicks : BitVec 32) (c : ConditionAttributes) : ConditionAttributes :=
  ⟨c.condition.setTicks now newTicks, c.attributes, c.kind⟩

@[simp] theorem setAttributes_attributes (c : ConditionAttributes) (a : Attributes) :
    (c.setAttributes a).attributes = a := rfl

@[simp] theorem setTicks_attributes (now : BitVec 64) (newTicks : BitVec 32) (c : ConditionAttributes) :
    (c.setTicks now newTicks).attributes = c.attributes := rfl

end ConditionAttributes

/-- The bonuses of a player, and what the percentages are taken of. -/
structure Player where
  skills : Vector (BitVec 16) skillCount
  magLevel : BitVec 32
  healthMax : BitVec 32
  manaMax : BitVec 32
  capacity : BitVec 32
  resetHpBonus : BitVec 32 := 0
  resetManaBonus : BitVec 32 := 0
  cannotPickupItem : Bool := false
  hasInfiniteCapacity : Bool := false
  varSkills : Vector (BitVec 32) skillCount := .replicate _ 0
  varSpecialSkills : Vector (BitVec 32) specialSkillCount := .replicate _ 0
  varStats : Vector (BitVec 32) statCount := .replicate _ 0
  experienceRate : Vector (BitVec 32) experienceRateCount := .replicate _ 100
  useDefense : Bool := true

def STAT_MAXHITPOINTS : Fin statCount := ⟨0, by decide⟩
def STAT_MAXMANAPOINTS : Fin statCount := ⟨1, by decide⟩
def STAT_MAGICPOINTS : Fin statCount := ⟨3, by decide⟩
def STAT_CAPACITY : Fin statCount := ⟨4, by decide⟩

namespace Player

def getMaxHealth (p : Player) : Int := max 1 (p.healthMax + p.varStats[STAT_MAXHITPOINTS] + p.resetHpBonus).toInt

def getMaxMana (p : Player) : Int := max 0 (p.manaMax + p.varStats[STAT_MAXMANAPOINTS] + p.resetManaBonus).toInt

def getBaseMagicLevel (p : Player) : Int := p.magLevel.toNat

def getCapacity (p : Player) : Int :=
  if p.cannotPickupItem then 0
  else if p.hasInfiniteCapacity then 2 ^ 32 - 1
  else max 0 (p.capacity + p.varStats[STAT_CAPACITY]).toInt

end Player

/-- `var[i] += mods[i]`, in a loop over the indices that are touched. -/
def addEach {n : Nat} (touched : Fin n → Bool) (var mods : Vector (BitVec 32) n) : Vector (BitVec 32) n :=
  .ofFn fun i => if touched i then var[i] + mods[i] else var[i]

/-- `var[i] += -mods[i]`, in the same way. -/
def subEach {n : Nat} (touched : Fin n → Bool) (var mods : Vector (BitVec 32) n) : Vector (BitVec 32) n :=
  .ofFn fun i => if touched i then var[i] + -mods[i] else var[i]

def nonzero {n : Nat} (mods : Vector (BitVec 32) n) (i : Fin n) : Bool := mods[i] != 0

/-- `ExperienceRateType::BASE` is 1. -/
def isRate (i : Fin experienceRateCount) : Bool := 1 ≤ i.val

section Updates

variable (scale : Int → Int → BitVec 32)

/-- The switch of `updatePercentStats`. There is no percentage for the soul points. -/
def percentStat (p : Player) (a : Attributes) (i : Fin statCount) : BitVec 32 :=
  if a.statsPercent[i] = 0 then a.stats[i]
  else if i = STAT_MAXHITPOINTS then scale p.getMaxHealth a.statsPercent[i].toInt
  else if i = STAT_MAXMANAPOINTS then scale p.getMaxMana a.statsPercent[i].toInt
  else if i = STAT_MAGICPOINTS then scale p.getBaseMagicLevel a.statsPercent[i].toInt
  else if i = STAT_CAPACITY then scale p.getCapacity a.statsPercent[i].toInt
  else a.stats[i]

def updatePercentStats (p : Player) (a : Attributes) : Attributes :=
  { a with stats := .ofFn (percentStat scale p a) }

def updatePercentSkills (p : Player) (a : Attributes) : Attributes :=
  { a with skills := .ofFn fun i =>
      if a.skillsPercent[i] = 0 then a.skills[i] else scale p.skills[i].toNat a.skillsPercent[i].toInt }

def updateStats (p : Player) (a : Attributes) : Player :=
  { p with varStats := addEach (nonzero a.stats) p.varStats a.stats }

def updateSkills (p : Player) (a : Attributes) : Player :=
  { p with
    varSkills := addEach (nonzero a.skills) p.varSkills a.skills
    varSpecialSkills := addEach (nonzero a.specialSkills) p.varSpecialSkills a.specialSkills }

/-- `setExperienceRate` for every rate of the condition that is not zero. -/
def updateExperienceRate (p : Player) (a : Attributes) : Player :=
  { p with experienceRate := .ofFn fun i =>
      if isRate i && nonzero a.experienceRate i then a.experienceRate[i] else p.experienceRate[i] }

/-- The updates that a start and a refresh share, in their order. -/
def applySkillsAndStats (p : Player) (c : ConditionAttributes) : Player × ConditionAttributes :=
  let c := c.setAttributes (updatePercentSkills scale p c.attributes)
  let p := updateSkills p c.attributes
  let c := c.setAttributes (updatePercentStats scale p c.attributes)
  (updateStats p c.attributes, c)

/-- `Condition::startCondition`. -/
def startBase (now : BitVec 64) (c : ConditionAttributes) : ConditionAttributes :=
  if 0 < c.condition.ticks.toInt ∧ c.condition.endTime = 0 then
    ⟨{ c.condition with endTime := c.condition.ticks.signExtend 64 + now }, c.attributes, c.kind⟩
  else c

def startCondition (now : BitVec 64) (p : Player) (c : ConditionAttributes) : Player × ConditionAttributes :=
  let c := startBase now c
  let p := { p with useDefense := !c.attributes.disableDefense }
  let (p, c) := applySkillsAndStats scale p c
  (updateExperienceRate p c.attributes, c)

def endCondition (p : Player) (c : ConditionAttributes) : Player :=
  let a := c.attributes
  let p := { p with
    varSkills := subEach (fun i => nonzero a.skills i || nonzero a.skillsPercent i) p.varSkills a.skills
    varSpecialSkills := subEach (nonzero a.specialSkills) p.varSpecialSkills a.specialSkills
    varStats := subEach (nonzero a.stats) p.varStats a.stats
    experienceRate := subEach (fun i => isRate i && nonzero a.experienceRate i) p.experienceRate a.experienceRate }
  if a.disableDefense then { p with useDefense := true } else p

def updateCondition (now : BitVec 64) (c addCondition : ConditionAttributes) : Bool :=
  if c.condition.conditionType ≠ addCondition.condition.conditionType then false
  else if c.condition.ticks = -1 ∧ 0 < addCondition.condition.ticks.toInt then false
  else if 0 ≤ addCondition.condition.ticks.toInt ∧
      (now + addCondition.condition.ticks.signExtend 64).toInt < c.condition.endTime.toInt then false
  else true

/-- What `addCondition` copies from the other condition. -/
def copyFrom (a conditionAttrs : Attributes) : Attributes :=
  { a with
    skills := conditionAttrs.skills
    specialSkills := conditionAttrs.specialSkills
    skillsPercent := conditionAttrs.skillsPercent
    stats := conditionAttrs.stats
    statsPercent := conditionAttrs.statsPercent
    experienceRate := conditionAttrs.experienceRate
    disableDefense := conditionAttrs.disableDefense }

def addCondition (now : BitVec 64) (p : Player) (c condition : ConditionAttributes) : Player × ConditionAttributes :=
  if updateCondition now c condition then
    let c := c.setTicks now condition.condition.ticks
    let p := endCondition p c
    let c := c.setAttributes (copyFrom c.attributes condition.attributes)
    applySkillsAndStats scale p c
  else (p, c)

end Updates

/-! ## Each bonus -/

section Bonuses

variable {n : Nat} {touched : Fin n → Bool} {var mods : Vector (BitVec 32) n}

theorem eq_zero_of_not_nonzero {i : Fin n} (h : nonzero mods i = false) : mods[i] = 0 := by
  simpa [nonzero] using h

theorem addEach_nonzero (i : Fin n) : (addEach (nonzero mods) var mods)[i] = var[i] + mods[i] := by
  have hi : (addEach (nonzero mods) var mods)[i] = if nonzero mods i then var[i] + mods[i] else var[i] := by
    simp [addEach]
  rw [hi]
  cases h : nonzero mods i with
  | true => rfl
  | false =>
    rw [eq_zero_of_not_nonzero h]
    simp

/-- What is not touched is zero. -/
theorem subEach_touched (h : ∀ i : Fin n, nonzero mods i = true → touched i = true) (i : Fin n) :
    (subEach touched var mods)[i] = var[i] - mods[i] := by
  have hi : (subEach touched var mods)[i] = if touched i then var[i] + -mods[i] else var[i] := by simp [subEach]
  rw [hi]
  cases htouched : touched i with
  | true => exact (BitVec.sub_eq_add_neg _ _).symm
  | false =>
    have hzero : nonzero mods i = false := by
      by_contra hne
      rw [h i (by simpa using hne)] at htouched
      cases htouched
    rw [eq_zero_of_not_nonzero hzero]
    simp

theorem subEach_where (q : Fin n → Bool) (i : Fin n) :
    (subEach (fun i => q i && nonzero mods i) var mods)[i] = var[i] - if q i then mods[i] else 0 := by
  have hi : (subEach (fun i => q i && nonzero mods i) var mods)[i] =
      if q i && nonzero mods i then var[i] + -mods[i] else var[i] := by simp [subEach]
  rw [hi]
  cases q i with
  | false => simp
  | true =>
    cases hzero : nonzero mods i with
    | true => exact (BitVec.sub_eq_add_neg _ _).symm
    | false =>
      rw [if_pos rfl, eq_zero_of_not_nonzero hzero]
      simp

end Bonuses

/-- The bonuses of the player are those of `p₀` and those of the condition. -/
structure Exact (p₀ p : Player) (a : Attributes) : Prop where
  varSkills : ∀ i : Fin skillCount, p.varSkills[i] = p₀.varSkills[i] + a.skills[i]
  varSpecialSkills : ∀ i : Fin specialSkillCount, p.varSpecialSkills[i] = p₀.varSpecialSkills[i] + a.specialSkills[i]
  varStats : ∀ i : Fin statCount, p.varStats[i] = p₀.varStats[i] + a.stats[i]
  experienceRate : ∀ i : Fin experienceRateCount, p.experienceRate[i] =
    p₀.experienceRate[i] + if isRate i then a.experienceRate[i] else 0
  useDefense : p.useDefense = (p₀.useDefense && !a.disableDefense)

/-- The bonuses of two players are the same. -/
structure Same (p₀ p : Player) : Prop where
  varSkills : p.varSkills = p₀.varSkills
  varSpecialSkills : p.varSpecialSkills = p₀.varSpecialSkills
  varStats : p.varStats = p₀.varStats
  experienceRate : p.experienceRate = p₀.experienceRate
  useDefense : p.useDefense = p₀.useDefense

theorem vector_ext {n : Nat} {v w : Vector (BitVec 32) n} (h : ∀ i : Fin n, v[i] = w[i]) : v = w :=
  Vector.ext fun i hi => h ⟨i, hi⟩

variable {scale : Int → Int → BitVec 32} {p₀ p : Player} {c : ConditionAttributes}

/-- Ending takes back what the condition gave. -/
theorem endCondition_same (h : Exact p₀ p c.attributes) :
    (endCondition p c).varSkills = p₀.varSkills ∧ (endCondition p c).varSpecialSkills = p₀.varSpecialSkills ∧
      (endCondition p c).varStats = p₀.varStats ∧ (endCondition p c).experienceRate = p₀.experienceRate := by
  have hend : endCondition p c = { endCondition p c with
      varSkills := subEach (fun i => nonzero c.attributes.skills i || nonzero c.attributes.skillsPercent i)
        p.varSkills c.attributes.skills
      varSpecialSkills := subEach (nonzero c.attributes.specialSkills) p.varSpecialSkills c.attributes.specialSkills
      varStats := subEach (nonzero c.attributes.stats) p.varStats c.attributes.stats
      experienceRate := subEach (fun i => isRate i && nonzero c.attributes.experienceRate i) p.experienceRate
        c.attributes.experienceRate } := by
    unfold endCondition
    dsimp only
    split <;> rfl
  rw [hend]
  refine ⟨vector_ext fun i => ?_, vector_ext fun i => ?_, vector_ext fun i => ?_, vector_ext fun i => ?_⟩
  · rw [subEach_touched (fun i hi => by rw [hi, Bool.true_or]), h.varSkills, BitVec.add_sub_cancel]
  · rw [subEach_touched fun i hi => hi, h.varSpecialSkills, BitVec.add_sub_cancel]
  · rw [subEach_touched fun i hi => hi, h.varStats, BitVec.add_sub_cancel]
  · rw [subEach_where, h.experienceRate, BitVec.add_sub_cancel]

/-- The defense is used again once a condition has ended, unless the player had it disabled otherwise. -/
theorem endCondition_useDefense (h : p.useDefense = true ∨ c.attributes.disableDefense = true) :
    (endCondition p c).useDefense = true := by
  cases hdisable : c.attributes.disableDefense with
  | true => simp only [endCondition, hdisable, if_true]
  | false =>
    obtain h | h := h
    · simpa only [endCondition, hdisable, Bool.false_eq_true, if_false] using h
    · cases hdisable.symm.trans h

/-- The updates that a start and a refresh share give the skills, the special skills and the stats. -/
theorem applySkillsAndStats_spec (scale : Int → Int → BitVec 32) (p : Player) (c : ConditionAttributes) :
    (∀ i : Fin skillCount, (applySkillsAndStats scale p c).1.varSkills[i] =
      p.varSkills[i] + (applySkillsAndStats scale p c).2.attributes.skills[i]) ∧
    (∀ i : Fin specialSkillCount, (applySkillsAndStats scale p c).1.varSpecialSkills[i] =
      p.varSpecialSkills[i] + (applySkillsAndStats scale p c).2.attributes.specialSkills[i]) ∧
    (∀ i : Fin statCount, (applySkillsAndStats scale p c).1.varStats[i] =
      p.varStats[i] + (applySkillsAndStats scale p c).2.attributes.stats[i]) :=
  ⟨fun _ => addEach_nonzero _, fun _ => addEach_nonzero _, fun _ => addEach_nonzero _⟩

/-! ## Runs -/

section Runs

variable (scale : Int → Int → BitVec 32)

/-- A refresh: the time and the other condition. -/
abbrev Refresh := BitVec 64 × ConditionAttributes

def refresh (s : Player × ConditionAttributes) (e : Refresh) : Player × ConditionAttributes :=
  addCondition scale e.1 s.1 s.2 e.2

/-- A run from `startCondition` over refreshes to `endCondition`: between two steps the bonuses are those of the
condition, and after the run they are what they were. -/
def LeavesNoResidue (now : BitVec 64) (p₀ : Player) (c₀ : ConditionAttributes) (refreshes : List Refresh) : Prop :=
  let s := startCondition scale now p₀ c₀
  let t := refreshes.foldl (refresh scale) s
  Exact p₀ s.1 s.2.attributes ∧
    Runs.Along (refresh scale) (fun s e => Exact p₀ (refresh scale s e).1 (refresh scale s e).2.attributes) s refreshes ∧
    Same p₀ (endCondition t.1 t.2)

/-- A refresh that takes effect gives no experience rate and leaves the defense. -/
def Harmless (s : Player × ConditionAttributes) (e : Refresh) : Prop :=
  updateCondition e.1 s.2 e.2 = true →
    (∀ i : Fin experienceRateCount, isRate i → e.2.attributes.experienceRate[i] = 0) ∧
      e.2.attributes.disableDefense = false

end Runs

theorem startBase_attributes (now : BitVec 64) (c : ConditionAttributes) :
    (startBase now c).attributes = c.attributes := by
  unfold startBase
  split <;> rfl

theorem startCondition_rates (scale : Int → Int → BitVec 32) (now : BitVec 64) (p₀ : Player) (c₀ : ConditionAttributes) :
    (startCondition scale now p₀ c₀).2.attributes.experienceRate = c₀.attributes.experienceRate ∧
    (startCondition scale now p₀ c₀).2.attributes.disableDefense = c₀.attributes.disableDefense ∧
    (startCondition scale now p₀ c₀).1.useDefense = !c₀.attributes.disableDefense ∧
    (startCondition scale now p₀ c₀).1.experienceRate = Vector.ofFn fun i =>
      if isRate i && nonzero c₀.attributes.experienceRate i then c₀.attributes.experienceRate[i]
      else p₀.experienceRate[i] := by
  have h := startBase_attributes now c₀
  refine ⟨?_, ?_, ?_, ?_⟩
  · show (startBase now c₀).attributes.experienceRate = _
    rw [h]
  · show (startBase now c₀).attributes.disableDefense = _
    rw [h]
  · show (!(startBase now c₀).attributes.disableDefense) = _
    rw [h]
  · rw [← h]
    rfl

/-- A rate is set to what should have been added to it. -/
theorem rate_set_iff (q : Bool) (e r : BitVec 32) :
    (if q && e != 0 then e else r) = r + (if q then e else 0) ↔ (q = true → e = 0 ∨ r = 0) := by
  cases q with
  | false => simp
  | true =>
    by_cases he : e = 0
    · simp [he]
    · simp only [Bool.true_and, bne_iff_ne, ne_eq, he, not_false_eq_true, if_true, false_or, forall_const]
      constructor
      · exact fun h => add_eq_right.mp h.symm
      · rintro rfl
        simp

/-- A start gives exactly the bonuses of the condition where it sets no rate of a player that has one, and leaves the
defense of a player that does not use it only if it disables it. -/
theorem startCondition_exact_iff (scale : Int → Int → BitVec 32) (now : BitVec 64) (p₀ : Player)
    (c₀ : ConditionAttributes) :
    Exact p₀ (startCondition scale now p₀ c₀).1 (startCondition scale now p₀ c₀).2.attributes ↔
      (p₀.useDefense = true ∨ c₀.attributes.disableDefense = true) ∧
      ∀ i : Fin experienceRateCount, isRate i →
        c₀.attributes.experienceRate[i] = 0 ∨ p₀.experienceRate[i] = 0 := by
  obtain ⟨hrate, hdisable, huse, hrates⟩ := startCondition_rates scale now p₀ c₀
  obtain ⟨hskills, hspecial, hstats⟩ := applySkillsAndStats_spec scale
    { p₀ with useDefense := !(startBase now c₀).attributes.disableDefense } (startBase now c₀)
  have hvalue : ∀ i : Fin experienceRateCount, (startCondition scale now p₀ c₀).1.experienceRate[i] =
      if isRate i && c₀.attributes.experienceRate[i] != 0 then c₀.attributes.experienceRate[i]
      else p₀.experienceRate[i] := by
    intro i
    rw [hrates]
    simp [nonzero]
  constructor
  · intro h
    refine ⟨?_, fun i => ?_⟩
    · have hdefense := h.useDefense
      rw [huse, hdisable] at hdefense
      cases hb : p₀.useDefense <;> cases hd : c₀.attributes.disableDefense <;> simp_all
    · have hi := h.experienceRate i
      rw [hvalue, hrate] at hi
      exact (rate_set_iff _ _ _).mp hi
  · rintro ⟨hdefense, hzero⟩
    refine ⟨hskills, hspecial, hstats, fun i => ?_, ?_⟩
    · rw [hvalue, hrate]
      exact (rate_set_iff _ _ _).mpr (hzero i)
    · rw [huse, hdisable]
      obtain hb | hd := hdefense
      · rw [hb, Bool.true_and]
      · rw [hd]
        simp

/-- Where the bonuses are exact and the player uses the defense, a refresh keeps them exact only if it is harmless:
what it gives beside the skills and stats is not applied. -/
theorem refresh_exact_iff (scale : Int → Int → BitVec 32) (hp₀ : p₀.useDefense = true) {s : Player × ConditionAttributes}
    (hs : Exact p₀ s.1 s.2.attributes) (e : Refresh) :
    Exact p₀ (refresh scale s e).1 (refresh scale s e).2.attributes ↔ Harmless s e := by
  cases hupdate : updateCondition e.1 s.2 e.2 with
  | false =>
    have hsame : refresh scale s e = s := by simp [refresh, addCondition, hupdate]
    rw [hsame]
    exact ⟨fun _ h => Bool.noConfusion (hupdate.symm.trans h), fun _ => hs⟩
  | true =>
    let c := s.2.setTicks e.1 e.2.condition.ticks
    let p := endCondition s.1 c
    let c' := c.setAttributes (copyFrom c.attributes e.2.attributes)
    have hrefresh : refresh scale s e = applySkillsAndStats scale p c' := by
      simp [refresh, addCondition, hupdate, p, c, c']
    have hs' : Exact p₀ s.1 c.attributes := hs
    obtain ⟨hskills, hspecial, hstats, hrates⟩ := endCondition_same hs'
    have huse : p.useDefense = true := by
      apply endCondition_useDefense
      have hdefense := hs'.useDefense
      rw [hp₀, Bool.true_and] at hdefense
      cases hd : c.attributes.disableDefense with
      | true => exact .inr rfl
      | false => exact .inl (by rw [hdefense, hd]; rfl)
    obtain ⟨hskills', hspecial', hstats'⟩ := applySkillsAndStats_spec scale p c'
    have hrate : ∀ i : Fin experienceRateCount, (applySkillsAndStats scale p c').1.experienceRate[i] =
        p₀.experienceRate[i] := by
      intro i
      show p.experienceRate[i] = _
      rw [show p.experienceRate = p₀.experienceRate from hrates]
    rw [hrefresh]
    constructor
    · intro h _
      refine ⟨fun i hi => ?_, ?_⟩
      · have hgiven := h.experienceRate i
        rw [hrate, if_pos hi] at hgiven
        exact add_eq_left.mp hgiven.symm
      · have hdefense := h.useDefense
        rw [hp₀, Bool.true_and] at hdefense
        have hdefense' : p.useDefense = !e.2.attributes.disableDefense := hdefense
        rw [huse] at hdefense'
        simpa using hdefense'.symm
    · intro h
      obtain ⟨hzero, hdisable⟩ := h hupdate
      refine ⟨fun i => ?_, fun i => ?_, fun i => ?_, fun i => ?_, ?_⟩
      · rw [hskills', show p.varSkills = p₀.varSkills from hskills]
      · rw [hspecial', show p.varSpecialSkills = p₀.varSpecialSkills from hspecial]
      · rw [hstats', show p.varStats = p₀.varStats from hstats]
      · rw [hrate]
        show _ = _ + if isRate i then e.2.attributes.experienceRate[i] else 0
        split
        · rename_i hi
          rw [hzero i hi]
          simp
        · simp
      · show p.useDefense = (p₀.useDefense && !e.2.attributes.disableDefense)
        rw [huse, hp₀, hdisable]
        rfl

/-- After its start a condition that does not disable the defense has it used. -/
def Used (s : Player × ConditionAttributes) : Prop :=
  s.1.useDefense = true ∨ s.2.attributes.disableDefense = true

theorem used_startCondition (scale : Int → Int → BitVec 32) (now : BitVec 64) (p₀ : Player) (c₀ : ConditionAttributes) :
    Used (startCondition scale now p₀ c₀) := by
  obtain ⟨-, hdisable, huse, -⟩ := startCondition_rates scale now p₀ c₀
  unfold Used
  rw [huse, hdisable]
  cases c₀.attributes.disableDefense with
  | true => exact .inr rfl
  | false => exact .inl rfl

theorem Used.refresh {s : Player × ConditionAttributes} (h : Used s) (e : Refresh) : Used (refresh scale s e) := by
  cases hupdate : updateCondition e.1 s.2 e.2 with
  | false =>
    have hsame : Condition.refresh scale s e = s := by simp [Condition.refresh, addCondition, hupdate]
    rwa [hsame]
  | true =>
    refine .inl ?_
    simp only [Condition.refresh, addCondition, hupdate, if_true]
    exact endCondition_useDefense (c := s.2.setTicks e.1 e.2.condition.ticks) h

theorem used_run (scale : Int → Int → BitVec 32) (es : List Refresh) : ∀ s, Used s →
    Used (es.foldl (refresh scale) s) := by
  induction es with
  | nil => exact fun _ h => h
  | cons e es ih => exact fun s h => ih _ (h.refresh e)

theorem along_exact_iff (scale : Int → Int → BitVec 32) (hp₀ : p₀.useDefense = true) {s : Player × ConditionAttributes}
    (hs : Exact p₀ s.1 s.2.attributes) (es : List Refresh) :
    Runs.Along (refresh scale) Harmless s es ↔
      Runs.Along (refresh scale) (fun s e => Exact p₀ (refresh scale s e).1 (refresh scale s e).2.attributes) s es :=
  Runs.Along.iff_of_invariant (fun s => Exact p₀ s.1 s.2.attributes)
    (fun _ e hs he => (refresh_exact_iff scale hp₀ hs e).mpr he)
    (fun _ e hs => (refresh_exact_iff scale hp₀ hs e).symm) es s hs

/-- A run leaves no residue exactly for a player that uses its defense, when the start sets no rate of a player that
has one and every refresh that takes effect is harmless. -/
theorem leavesNoResidue_iff (scale : Int → Int → BitVec 32) (now : BitVec 64) (p₀ : Player) (c₀ : ConditionAttributes)
    (refreshes : List Refresh) :
    LeavesNoResidue scale now p₀ c₀ refreshes ↔
      p₀.useDefense = true ∧
      (∀ i : Fin experienceRateCount, isRate i → c₀.attributes.experienceRate[i] = 0 ∨ p₀.experienceRate[i] = 0) ∧
      Runs.Along (refresh scale) Harmless (startCondition scale now p₀ c₀) refreshes := by
  have hused := used_run scale refreshes _ (used_startCondition scale now p₀ c₀)
  have hend := endCondition_useDefense hused
  constructor
  · rintro ⟨hstart, halong, hsame⟩
    have hp₀ : p₀.useDefense = true := by rw [← hsame.useDefense]; exact hend
    exact ⟨hp₀, ((startCondition_exact_iff scale now p₀ c₀).mp hstart).2,
      (along_exact_iff scale hp₀ hstart refreshes).mpr halong⟩
  · rintro ⟨hp₀, hrates, halong⟩
    have hstart := (startCondition_exact_iff scale now p₀ c₀).mpr ⟨.inl hp₀, hrates⟩
    obtain ⟨-, hlast⟩ := Runs.Along.of_invariant (P := fun _ _ => True) (fun s => Exact p₀ s.1 s.2.attributes)
      (fun s e hs he => ⟨(refresh_exact_iff scale hp₀ hs e).mpr he, trivial⟩) refreshes _ hstart halong
    obtain ⟨hskills, hspecial, hstats, hrates'⟩ := endCondition_same hlast
    exact ⟨hstart, (along_exact_iff scale hp₀ hstart refreshes).mp halong, hskills, hspecial,
      hstats, hrates', hend.trans hp₀.symm⟩

/-- A player of level one, and a condition that lets it gain twice the experience. -/
def novice : Player where
  skills := .replicate _ 10
  magLevel := 0
  healthMax := 150
  manaMax := 55
  capacity := 40000

def experienceBoost : ConditionAttributes where
  condition :=
    { conditionType := ConditionType.attributes.value, id := CONDITIONID_COMBAT, ticks := 10000, subId := 0, endTime := 0
      isBuff := true, aggressive := false, kind := .attributes { experienceRate := (.replicate _ 0 : Vector _ _).set 1 100 } }
  attributes := { experienceRate := (.replicate _ 0 : Vector _ _).set 1 100 }
  kind := rfl

/-- The rate that was set at the start is taken off at the end, and nothing is left of the 100 percent of the player. -/
theorem experienceBoost_leavesResidue : ¬ LeavesNoResidue (fun _ _ => 0) 0 novice experienceBoost [] := by
  rintro ⟨-, -, hsame⟩
  have hrate := congrArg (fun v => v[1]) hsame.experienceRate
  revert hrate
  decide

end ForgottenServer.Condition
