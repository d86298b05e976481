import ForgottenServer.Lib.Levels

/-! # Skill tries

`addSkillAdvance` spends the tries of a gain on one level after another, `removeSkillTries` takes them back.
`reqSkillTries` is `getReqSkillTries` of the vocation for the skill, and `basisPointLevel` the quotient of
`getBasisPointLevel`, which the source takes in floats. Tries have 64 bits, levels 16 and percents 8. -/

namespace ForgottenServer.Skills

structure Skill where
  tries : Nat
  level : Nat
  percent : Nat
  deriving DecidableEq, Repr

def MINIMUM_SKILL_LEVEL : Nat := 10

/-- A difference in 64 bits. -/
def sub64 (a b : Nat) : Nat := (a + 2 ^ 64 - b % 2 ^ 64) % 2 ^ 64

/-- The level after this one, in 16 bits. -/
def nextLevel (level : Nat) : Nat := (level + 1) % 2 ^ 16

section Calls

variable (reqSkillTries : Nat → Nat) (basisPointLevel : Nat → Nat → Nat)

/-- `getBasisPointLevel(tries, req) / 100`, in 8 bits. -/
def percentOf (tries req : Nat) : Nat := basisPointLevel tries req / 100 % 2 ^ 8

/-- The loop of `addSkillAdvance`: the skill, what is left of the count, and the requirements of the level and of the
next. -/
def addLoop : Nat → Skill → Nat → Nat → Nat → Option (Skill × Nat × Nat × Nat)
  | 0, _, _, _, _ => none
  | turns + 1, skill, count, currReqTries, nextReqTries =>
    if (skill.tries + count) % 2 ^ 64 ≥ nextReqTries then
      let count := sub64 count (sub64 nextReqTries skill.tries)
      let skill := { tries := 0, level := nextLevel skill.level, percent := 0 }
      let currReqTries := nextReqTries
      let nextReqTries := reqSkillTries (nextLevel skill.level)
      if currReqTries ≥ nextReqTries then some (skill, 0, currReqTries, nextReqTries)
      else addLoop turns skill count currReqTries nextReqTries
    else some (skill, count, currReqTries, nextReqTries)

/-- No requirement grows with every one of the levels and then again, so that there are not more turns than levels. -/
def addSkillAdvance (skill : Skill) (count : Nat) : Option Skill :=
  let currReqTries := reqSkillTries skill.level
  let nextReqTries := reqSkillTries (nextLevel skill.level)
  if currReqTries ≥ nextReqTries then some skill
  else if count = 0 then some skill
  else do
    let (skill, count, currReqTries, nextReqTries) ← addLoop reqSkillTries (2 ^ 16) skill count currReqTries nextReqTries
    let tries := (skill.tries + count) % 2 ^ 64
    return { skill with
      tries
      percent := if nextReqTries > currReqTries then percentOf basisPointLevel tries nextReqTries else 0 }

/-- The loop of `removeSkillTries`: the level, the tries, and what is left of the count. -/
def removeLoop : Nat → Nat → Nat → Nat × Nat × Nat
  | 0, tries, count => if count > tries then (MINIMUM_SKILL_LEVEL, 0, 0) else (0, tries, count)
  | level + 1, tries, count =>
    if count > tries then
      let count := count - tries
      if level + 1 ≤ MINIMUM_SKILL_LEVEL then (MINIMUM_SKILL_LEVEL, 0, 0)
      else removeLoop level (reqSkillTries (level + 1)) count
    else (level + 1, tries, count)

/-- `std::max<int32_t>(0, tries - count)`. -/
def clampTries (tries count : Nat) : Nat := (max 0 (((tries : Int) - count).bmod (2 ^ 32))).toNat

def removeSkillTries (skill : Skill) (count : Nat) : Skill :=
  let (level, tries, count) := removeLoop reqSkillTries skill.level skill.tries count
  let tries := clampTries tries count
  { tries, level, percent := percentOf basisPointLevel tries (reqSkillTries level) }

end Calls

/-! ## What is asked of them -/

/-- The tries are below the requirement of the next level, and the percent is relative to it. -/
structure Fits (reqSkillTries : Nat → Nat) (basisPointLevel : Nat → Nat → Nat) (skill : Skill) : Prop where
  tries : skill.tries < reqSkillTries (skill.level + 1)
  percent : skill.percent = percentOf basisPointLevel skill.tries (reqSkillTries (skill.level + 1))

/-- A gain leaves a skill that fits, and a loss of the same count brings it back and has it fit again. -/
def Inverse (reqSkillTries : Nat → Nat) (basisPointLevel : Nat → Nat → Nat) (skill : Skill) (count : Nat) : Prop :=
  ∃ gained, addSkillAdvance reqSkillTries basisPointLevel skill count = some gained ∧
    Fits reqSkillTries basisPointLevel gained ∧
    (removeSkillTries reqSkillTries basisPointLevel gained count).level = skill.level ∧
    (removeSkillTries reqSkillTries basisPointLevel gained count).tries = skill.tries ∧
    Fits reqSkillTries basisPointLevel (removeSkillTries reqSkillTries basisPointLevel gained count)

/-- A gain of 64 bits from a skill that fits, which does not reach the highest level. -/
structure Gain (reqSkillTries : Nat → Nat) (skill : Skill) (count : Nat) : Prop where
  increasing : ∀ level, level + 1 < 2 ^ 16 → reqSkillTries level < reqSkillTries (level + 1)
  tries : skill.tries < reqSkillTries (skill.level + 1)
  sum : skill.tries + count < 2 ^ 64
  noMaximum : skill.tries + count < Levels.reached reqSkillTries skill.level (2 ^ 16 - 1)

/-! ## Gains -/

open Levels

theorem sub64_eq {a b : Nat} (hb : b ≤ a) (ha : a < 2 ^ 64) : sub64 a b = a - b := by
  unfold sub64
  omega

variable {reqSkillTries : Nat → Nat} {basisPointLevel : Nat → Nat → Nat}

namespace Gain

variable {skill : Skill} {count : Nat}

theorem level_lt (h : Gain reqSkillTries skill count) : skill.level + 1 < 2 ^ 16 := by
  by_contra hle
  have hsum := h.noMaximum
  rw [reached_eq_zero (by omega)] at hsum
  omega

theorem nextLevel_eq (h : Gain reqSkillTries skill count) : nextLevel skill.level = skill.level + 1 :=
  Nat.mod_eq_of_lt h.level_lt

theorem requires_more (h : Gain reqSkillTries skill count) :
    reqSkillTries skill.level < reqSkillTries (skill.level + 1) := h.increasing _ h.level_lt

/-- A gain that reaches the next level leaves a gain from there. -/
theorem next (h : Gain reqSkillTries skill count) (hmore : reqSkillTries (skill.level + 1) ≤ skill.tries + count) :
    Gain reqSkillTries { tries := 0, level := skill.level + 1, percent := 0 }
      (count - (reqSkillTries (skill.level + 1) - skill.tries)) := by
  have htries := h.tries
  have hsum := h.sum
  have hmax := h.noMaximum
  have hlevel := h.level_lt
  have hsplit := reached_split reqSkillTries (Nat.le_succ skill.level) (Nat.le_sub_one_of_lt hlevel)
  rw [Nat.succ_eq_add_one, reached_succ le_rfl, reached_self] at hsplit
  have hnext : skill.level + 1 + 1 < 2 ^ 16 := by
    by_contra htop
    have htop' : skill.level + 1 = 2 ^ 16 - 1 := by omega
    rw [hsplit, htop', reached_self] at hmax
    rw [htop'] at hmore
    omega
  refine ⟨h.increasing, ?_, ?_, ?_⟩
  · have hgrows := h.increasing _ hnext
    dsimp only
    omega
  · dsimp only
    omega
  · dsimp only
    omega

end Gain

/-- The loop spends the count: the tries and the levels reached by its end add up to what there was. -/
theorem addLoop_spec (turns : Nat) : ∀ {skill : Skill} {count : Nat}, Gain reqSkillTries skill count →
    2 ^ 16 - skill.level ≤ turns → ∃ skill' count', addLoop reqSkillTries turns skill count (reqSkillTries skill.level)
        (reqSkillTries (skill.level + 1)) =
      some (skill', count', reqSkillTries skill'.level, reqSkillTries (skill'.level + 1)) ∧
      Gain reqSkillTries skill' count' ∧ skill'.tries + count' < reqSkillTries (skill'.level + 1) ∧
      skill.level ≤ skill'.level ∧
      reached reqSkillTries skill.level skill'.level + (skill'.tries + count') = skill.tries + count := by
  induction turns with
  | zero =>
    intro skill count h hturns
    have hlevel := h.level_lt
    omega
  | succ turns ih =>
    intro skill count h hturns
    have hlevel := h.level_lt
    have hsum := h.sum
    have htries := h.tries
    unfold addLoop
    rw [Nat.mod_eq_of_lt hsum]
    by_cases hmore : skill.tries + count ≥ reqSkillTries (skill.level + 1)
    · have hnext := h.next hmore
      have hspent : sub64 count (sub64 (reqSkillTries (skill.level + 1)) skill.tries) =
          count - (reqSkillTries (skill.level + 1) - skill.tries) := by
        rw [sub64_eq htries.le (by omega), sub64_eq (by omega) (by omega)]
      have hstep : nextLevel (skill.level + 1) = skill.level + 1 + 1 := hnext.nextLevel_eq
      have hgrows : reqSkillTries (skill.level + 1) < reqSkillTries (skill.level + 1 + 1) := hnext.requires_more
      obtain ⟨skill', count', hrun, hgain, hlt, hle, htotal⟩ := ih hnext (by dsimp only; omega)
      refine ⟨skill', count', ?_, hgain, hlt, (Nat.le_succ _).trans hle, ?_⟩
      · rw [if_pos hmore]
        simp only [hspent, h.nextLevel_eq, hstep]
        rw [if_neg (Nat.not_le.mpr hgrows)]
        exact hrun
      · have hsplit := reached_split reqSkillTries (Nat.le_succ skill.level) hle
        rw [Nat.succ_eq_add_one, reached_succ le_rfl, reached_self] at hsplit
        dsimp only at htotal
        rw [hsplit]
        omega
    · rw [if_neg hmore]
      exact ⟨skill, count, rfl, h, Nat.not_le.mp hmore, le_rfl, by rw [reached_self, Nat.zero_add]⟩

/-- What a gain leaves: the levels behind the old one and the tries add up to the old tries and the count. -/
structure Gained (reqSkillTries : Nat → Nat) (skill : Skill) (count : Nat) (gained : Skill) : Prop where
  tries : gained.tries < reqSkillTries (gained.level + 1)
  level : skill.level ≤ gained.level
  total : reached reqSkillTries skill.level gained.level + gained.tries = skill.tries + count

theorem addSkillAdvance_spec (basisPointLevel : Nat → Nat → Nat) {skill : Skill} {count : Nat}
    (h : Gain reqSkillTries skill count) :
    ∃ gained, addSkillAdvance reqSkillTries basisPointLevel skill count = some gained ∧
      Gained reqSkillTries skill count gained ∧ (count = 0 → gained = skill) ∧
      (count ≠ 0 → gained.percent = percentOf basisPointLevel gained.tries (reqSkillTries (gained.level + 1))) := by
  have hgrows := h.requires_more
  unfold addSkillAdvance
  simp only [h.nextLevel_eq]
  rw [if_neg (Nat.not_le.mpr hgrows)]
  by_cases hzero : count = 0
  · subst hzero
    exact ⟨skill, rfl, ⟨h.tries, le_rfl, by rw [reached_self, Nat.zero_add, Nat.add_zero]⟩, fun _ => rfl,
      fun hne => absurd rfl hne⟩
  · obtain ⟨skill', count', hrun, hgain, hlt, hle, htotal⟩ := addLoop_spec (2 ^ 16) h (Nat.sub_le _ _)
    rw [if_neg hzero, hrun]
    have htries : (skill'.tries + count') % 2 ^ 64 = skill'.tries + count' := Nat.mod_eq_of_lt hgain.sum
    refine ⟨_, rfl, ⟨?_, hle, ?_⟩, fun h => absurd h hzero, fun _ => ?_⟩
    · rw [htries]
      exact hlt
    · rw [htries]
      exact htotal
    · simp only [hgain.requires_more, if_true]

/-! ## Losses -/

/-- Losing what was gained leads back through the levels to the one it was gained at. -/
theorem removeLoop_back {skill : Skill} (htries : skill.tries < reqSkillTries (skill.level + 1))
    (hlevel : MINIMUM_SKILL_LEVEL ≤ skill.level) (level : Nat) : ∀ {tries count : Nat}, skill.level ≤ level →
    reached reqSkillTries skill.level level + tries = skill.tries + count →
      ∃ tries' count', removeLoop reqSkillTries level tries count = (skill.level, tries', count') ∧
        tries' = skill.tries + count' := by
  induction level with
  | zero =>
    intro tries count hle htotal
    have hzero : skill.level = 0 := by omega
    rw [hzero, reached_self] at htotal
    refine ⟨tries, count, ?_, by omega⟩
    rw [removeLoop, if_neg (by omega), hzero]
  | succ level ih =>
    intro tries count hle htotal
    by_cases hsame : skill.level = level + 1
    · rw [← hsame, reached_self] at htotal
      refine ⟨tries, count, ?_, by omega⟩
      rw [removeLoop, if_neg (by omega), hsame]
    · have hlow : skill.level ≤ level := by omega
      have hreq := req_le_reached reqSkillTries (Nat.lt_succ_of_le hlow)
      rw [Nat.succ_eq_add_one] at hreq
      rw [removeLoop, if_pos (by omega)]
      dsimp only
      rw [if_neg (by omega)]
      refine ih hlow ?_
      rw [reached_succ hlow] at htotal hreq
      omega

/-- A loss that takes more than the tries of its level does not end below the lowest level. -/
theorem removeLoop_ge (reqSkillTries : Nat → Nat) (level : Nat) : ∀ {tries count : Nat},
    MINIMUM_SKILL_LEVEL ≤ level ∨ tries < count →
    MINIMUM_SKILL_LEVEL ≤ (removeLoop reqSkillTries level tries count).1 := by
  induction level with
  | zero =>
    intro tries count h
    have hmore : tries < count := h.resolve_left (by decide)
    rw [removeLoop, if_pos hmore]
  | succ level ih =>
    intro tries count h
    rw [removeLoop]
    split
    · dsimp only
      split
      · exact le_rfl
      · exact ih (.inl (by omega))
    · rename_i hstop
      exact h.resolve_right hstop

/-- A loss that does not pass the lowest level ends where the gain began, with the old tries and what is left of the
count. -/
theorem removeLoop_restores {skill gained : Skill} {count : Nat} (htries : skill.tries < reqSkillTries (skill.level + 1))
    (h : Gained reqSkillTries skill count gained)
    (hback : MINIMUM_SKILL_LEVEL ≤ skill.level ∨ skill.tries + count < reqSkillTries (skill.level + 1)) :
    ∃ tries' count', removeLoop reqSkillTries gained.level gained.tries count = (skill.level, tries', count') ∧
      tries' = skill.tries + count' := by
  have htotal := h.total
  obtain hmin | hstay := hback
  · exact removeLoop_back htries hmin gained.level h.level htotal
  · have hsame : gained.level = skill.level := by
      by_contra hne
      have hle := req_le_reached reqSkillTries (lt_of_le_of_ne h.level (Ne.symm hne))
      omega
    rw [hsame, reached_self] at htotal
    refine ⟨gained.tries, count, ?_, by omega⟩
    rw [hsame]
    cases skill.level <;> rw [removeLoop, if_neg (by omega)]

theorem removeLoop_level_iff {skill gained : Skill} {count : Nat}
    (htries : skill.tries < reqSkillTries (skill.level + 1)) (h : Gained reqSkillTries skill count gained) :
    (removeLoop reqSkillTries gained.level gained.tries count).1 = skill.level ↔
      MINIMUM_SKILL_LEVEL ≤ skill.level ∨ skill.tries + count < reqSkillTries (skill.level + 1) := by
  have htotal := h.total
  have hbelow := h.tries
  constructor
  · intro hback
    by_contra hnot
    rw [not_or, Nat.not_le, Nat.not_lt] at hnot
    have hlevel : skill.level ≠ gained.level := by
      intro hsame
      rw [hsame, reached_self] at htotal
      rw [← hsame] at hbelow
      omega
    by_cases hmore : gained.tries < count
    · have hge := removeLoop_ge reqSkillTries gained.level (.inr hmore)
      omega
    · have hstop : removeLoop reqSkillTries gained.level gained.tries count = (gained.level, gained.tries, count) := by
        cases gained.level <;> rw [removeLoop, if_neg hmore]
      rw [hstop] at hback
      exact hlevel hback.symm
  · intro hback
    obtain ⟨tries', count', hrun, -⟩ := removeLoop_restores htries h hback
    rw [hrun]

/-- The difference goes through 32 bits. -/
theorem clampTries_iff (tries count : Nat) : clampTries (tries + count) count = tries ↔ tries < 2 ^ 31 := by
  have hdiff : (((tries + count : Nat) : Int) - count) = tries := by omega
  unfold clampTries
  rw [hdiff]
  constructor
  · intro hsame
    have hlt := Int.bmod_lt (x := (tries : Int)) (m := 2 ^ 32) (by decide)
    omega
  · intro hlt
    rw [Int.bmod_eq_of_le (by omega) (by omega)]
    omega

/-- A gain and a loss of the same count are inverse exactly when the loss does not pass the lowest level, the old tries
have 31 bits, the old percent was right where nothing is gained, and the percent of the old tries is the same relative
to the requirement of the level and to that of the next. -/
theorem gain_loss_inverse_iff {reqSkillTries : Nat → Nat} {basisPointLevel : Nat → Nat → Nat} {skill : Skill} {count : Nat}
    (h : Gain reqSkillTries skill count) :
    Inverse reqSkillTries basisPointLevel skill count ↔
      (count = 0 → skill.percent = percentOf basisPointLevel skill.tries (reqSkillTries (skill.level + 1))) ∧
      (MINIMUM_SKILL_LEVEL ≤ skill.level ∨ skill.tries + count < reqSkillTries (skill.level + 1)) ∧
      skill.tries < 2 ^ 31 ∧
      percentOf basisPointLevel skill.tries (reqSkillTries skill.level) =
        percentOf basisPointLevel skill.tries (reqSkillTries (skill.level + 1)) := by
  obtain ⟨gained, hadd, hgained, hsame, hpercent⟩ := addSkillAdvance_spec basisPointLevel h
  constructor
  · rintro ⟨gained', hadd', hfits, hlevel, htries, hfits'⟩
    obtain rfl : gained = gained' := Option.some.inj (hadd.symm.trans hadd')
    have hback := (removeLoop_level_iff h.tries hgained).mp hlevel
    obtain ⟨tries', count', hrun, rfl⟩ := removeLoop_restores h.tries hgained hback
    have hpercent' := hfits'.percent
    rw [htries, hlevel] at hpercent'
    simp only [removeSkillTries, hrun] at htries hpercent'
    refine ⟨fun hzero => ?_, hback, (clampTries_iff _ _).mp htries, ?_⟩
    · have hfit := hfits.percent
      rwa [hsame hzero] at hfit
    · rwa [htries] at hpercent'
  · rintro ⟨hzero, hback, hsmall, hindex⟩
    obtain ⟨tries', count', hrun, rfl⟩ := removeLoop_restores h.tries hgained hback
    have hclamp := (clampTries_iff skill.tries count').mpr hsmall
    have hremove : removeSkillTries reqSkillTries basisPointLevel gained count =
        { tries := skill.tries, level := skill.level,
          percent := percentOf basisPointLevel skill.tries (reqSkillTries skill.level) } := by
      simp only [removeSkillTries, hrun, hclamp]
    refine ⟨gained, hadd, ⟨hgained.tries, ?_⟩, ?_, ?_, ?_⟩
    · by_cases hcount : count = 0
      · rw [hsame hcount]
        exact hzero hcount
      · exact hpercent hcount
    · rw [hremove]
    · rw [hremove]
    · rw [hremove]
      exact ⟨h.tries, hindex⟩

/-! ## A skill of level 10 -/

/-- Requirements of 50 tries more for every level. -/
def linearReq (level : Nat) : Nat := 50 * (level + 1)

/-- `getBasisPointLevel` in integers. -/
def getBasisPointLevel (count nextLevelCount : Nat) : Nat :=
  if nextLevelCount = 0 then 0
  else if count * 10000 / nextLevelCount > 10000 then 0
  else count * 10000 / nextLevelCount

theorem linearReq_gain {skill : Skill} {count : Nat} (hlevel : skill.level = 10) (htries : skill.tries + count < 600) :
    Gain linearReq skill count := by
  refine ⟨fun level _ => ?_, ?_, by omega, ?_⟩
  · unfold linearReq
    omega
  · rw [hlevel, linearReq]
    omega
  · have hle := req_le_reached linearReq (show 10 < 2 ^ 16 - 1 by decide)
    rw [hlevel]
    rw [linearReq] at hle
    omega

theorem inverse_iff_new :
    Inverse linearReq getBasisPointLevel { tries := 0, level := 10, percent := 0 } 1 ↔
      ((1 : Nat) = 0 → (0 : Nat) = percentOf getBasisPointLevel 0 (linearReq (10 + 1))) ∧
      (MINIMUM_SKILL_LEVEL ≤ 10 ∨ 0 + 1 < linearReq (10 + 1)) ∧ 0 < 2 ^ 31 ∧
      percentOf getBasisPointLevel 0 (linearReq 10) = percentOf getBasisPointLevel 0 (linearReq (10 + 1)) :=
  gain_loss_inverse_iff (linearReq_gain rfl (by decide))

/-- Half of the 600 tries of level 11 are 54 percent of the 550 of level 10, which is what a loss stores. -/
theorem halfway_not_inverse :
    Gain linearReq { tries := 300, level := 10, percent := 50 } 1 ∧
      ¬ Inverse linearReq getBasisPointLevel { tries := 300, level := 10, percent := 50 } 1 := by
  refine ⟨linearReq_gain rfl (by decide), ?_⟩
  rintro ⟨gained, hadd, -, -, -, hfits⟩
  have hpercent := hfits.percent
  obtain rfl := Option.some.inj hadd
  revert hpercent
  decide

end ForgottenServer.Skills
