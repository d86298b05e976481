import Mathlib
import ForgottenServer.Lib.Runs
import ForgottenServer.Player.Skills

/-! # Experience and levels

`addExperience` raises the level as long as the experience reaches the next, `removeExperience` lowers it as long as
the experience is below its own. `basisPointLevel` is the quotient of `getBasisPointLevel`, which the source takes in
floats, `maxHealth` and `maxMana` are `getMaxHealth` and `getMaxMana` over `healthMax` and `manaMax`. -/

namespace ForgottenServer.Experience

open Skills (sub64 percentOf)

structure Vocation where
  gainHP : BitVec 32
  gainMana : BitVec 32
  gainCap : BitVec 32

/-- What a level adds to. `clamped` is no field of the source: a subtraction has been clamped at zero. -/
structure Stats where
  healthMax : BitVec 32
  health : BitVec 32
  manaMax : BitVec 32
  mana : BitVec 32
  capacity : BitVec 32
  clamped : Bool
  deriving DecidableEq, Repr

structure Player where
  level : Nat
  experience : Nat
  levelPercent : Nat
  stats : Stats
  deriving DecidableEq, Repr

/-- `getExpForLevel`, in words of 64 bits. -/
def expForLevel (lv : BitVec 64) : BitVec 64 := (((lv - 6) * lv + 17) * lv - 12) / 6 * 100

def getExpForLevel (level : Nat) : Nat := (expForLevel (BitVec.ofNat 64 level)).toNat

/-- The level after this one, in 32 bits. -/
def nextLevel (level : Nat) : Nat := (level + 1) % 2 ^ 32

namespace Stats

variable (vocation : Vocation) (maxHealth maxMana : BitVec 32 → BitVec 32)

def gain (s : Stats) : Stats :=
  { s with
    healthMax := s.healthMax + vocation.gainHP
    health := s.health + vocation.gainHP
    manaMax := s.manaMax + vocation.gainMana
    mana := s.mana + vocation.gainMana
    capacity := s.capacity + vocation.gainCap }

/-- `std::max<int32_t>(0, value - gain)` takes the zero. -/
def clamps (value gain : BitVec 32) : Bool := (value - gain).toInt < 0

/-- `std::max<int32_t>(0, value - gain)`. -/
def less (value gain : BitVec 32) : BitVec 32 := if clamps value gain then 0 else value - gain

def lose (s : Stats) : Stats :=
  { s with
    healthMax := less s.healthMax vocation.gainHP
    manaMax := less s.manaMax vocation.gainMana
    capacity := less s.capacity vocation.gainCap
    clamped := s.clamped || clamps s.healthMax vocation.gainHP || clamps s.manaMax vocation.gainMana ||
      clamps s.capacity vocation.gainCap }

def refill (s : Stats) : Stats := { s with health := maxHealth s.healthMax, mana := maxMana s.manaMax }

end Stats

section Calls

variable (vocation : Vocation) (basisPointLevel : Nat → Nat → Nat) (maxHealth maxMana : BitVec 32 → BitVec 32)

/-- What both calls end with, where the level has come from `prevLevel`. -/
def settle (prevLevel level experience : Nat) (stats : Stats) (currLevelExp nextLevelExp : Nat) : Player :=
  { level
    experience
    levelPercent :=
      if nextLevelExp > currLevelExp then
        percentOf basisPointLevel (sub64 experience currLevelExp) (sub64 nextLevelExp currLevelExp)
      else 0
    stats := if prevLevel ≠ level then stats.refill maxHealth maxMana else stats }

/-- The loop of `addExperience`: the level, what it adds to, and the experience of the level and of the next. -/
def addLoop (experience : Nat) : Nat → Nat → Stats → Nat → Nat → Option (Nat × Stats × Nat × Nat)
  | 0, _, _, _, _ => none
  | turns + 1, level, stats, currLevelExp, nextLevelExp =>
    if experience ≥ nextLevelExp then
      let level := nextLevel level
      let stats := stats.gain vocation
      let currLevelExp := nextLevelExp
      let nextLevelExp := getExpForLevel (nextLevel level)
      if currLevelExp ≥ nextLevelExp then some (level, stats, currLevelExp, nextLevelExp)
      else addLoop experience turns level stats currLevelExp nextLevelExp
    else some (level, stats, currLevelExp, nextLevelExp)

/-- The experience of a level does not grow with every one of the levels and then again, so that there are not more
turns than levels. -/
def addExperience (p : Player) (exp : Nat) : Option Player :=
  let currLevelExp := getExpForLevel p.level
  let nextLevelExp := getExpForLevel (nextLevel p.level)
  if currLevelExp ≥ nextLevelExp then some { p with levelPercent := 0 }
  else if exp = 0 then some p
  else do
    let experience := (p.experience + exp) % 2 ^ 64
    let (level, stats, currLevelExp, nextLevelExp) ←
      addLoop vocation experience (2 ^ 32) p.level p.stats currLevelExp nextLevelExp
    return settle basisPointLevel maxHealth maxMana p.level level experience stats currLevelExp nextLevelExp

/-- The loop of `removeExperience`: the level, what it adds to, and the experience of the level. -/
def removeLoop (experience : Nat) : Nat → Stats → Nat → Nat × Stats × Nat
  | 0, stats, currLevelExp => (0, stats, currLevelExp)
  | level + 1, stats, currLevelExp =>
    if level + 1 > 1 ∧ experience < currLevelExp then
      removeLoop experience level (stats.lose vocation) (getExpForLevel level)
    else (level + 1, stats, currLevelExp)

/-- `std::max<int64_t>(0, experience - exp)`. -/
def clampExperience (experience exp : Nat) : Nat := (max 0 (((experience : Int) - exp).bmod (2 ^ 64))).toNat

def removeExperience (p : Player) (exp : Nat) : Player :=
  if p.experience = 0 ∨ exp = 0 then p
  else
    let experience := clampExperience p.experience exp
    let (level, stats, currLevelExp) := removeLoop vocation experience p.level p.stats (getExpForLevel p.level)
    settle basisPointLevel maxHealth maxMana p.level level experience stats currLevelExp
      (getExpForLevel (nextLevel level))

inductive Event where
  | add (exp : Nat)
  | remove (exp : Nat)
  deriving DecidableEq, Repr

def step (p : Player) : Event → Option Player
  | .add exp => addExperience vocation basisPointLevel maxHealth maxMana p exp
  | .remove exp => some (removeExperience vocation basisPointLevel maxHealth maxMana p exp)

/-- The calls one after another. -/
def run (p : Player) (es : List Event) : Option Player :=
  es.foldlM (step vocation basisPointLevel maxHealth maxMana) p

end Calls

/-! ## What is asked of them -/

def Event.amount : Event → Nat
  | .add exp => exp
  | .remove exp => exp

/-- The running total, floored at zero. -/
def floored (total : Nat) : Event → Nat
  | .add exp => total + exp
  | .remove exp => total - exp

/-- The amount of a call and the total after it are below 2^62. -/
def Fits (total : Nat) (e : Event) : Prop := e.amount < 2 ^ 62 ∧ floored total e < 2 ^ 62

/-- A player who has not gained anything. -/
structure Fresh (p : Player) : Prop where
  level : p.level = 1
  experience : p.experience = 0
  clamped : p.stats.clamped = false

/-- `getExpForLevel` over the integers. -/
def cubic (lv : Int) : Int := (((lv - 6) * lv + 17) * lv - 12) / 6 * 100

/-- The level that the experience makes. -/
structure Made (level experience : Nat) : Prop where
  positive : 1 ≤ level
  reached : cubic level ≤ experience
  below : (experience : Int) < cubic (level + 1)

/-- The statistics of the level, where those of level one are given. -/
structure Agrees (vocation : Vocation) (first : Stats) (level : Nat) (s : Stats) : Prop where
  healthMax : s.healthMax = first.healthMax + BitVec.ofNat 32 (level - 1) * vocation.gainHP
  manaMax : s.manaMax = first.manaMax + BitVec.ofNat 32 (level - 1) * vocation.gainMana
  capacity : s.capacity = first.capacity + BitVec.ofNat 32 (level - 1) * vocation.gainCap

/-- The level is the one that the experience makes, by the cubic and by its evaluation in words as far as it does not
wrap, and the statistics are those of the level. -/
structure Matches (vocation : Vocation) (first : Stats) (total : Nat) (p : Player) : Prop where
  experience : p.experience = total
  positive : 1 ≤ p.level
  level : ∀ other : Nat, 1 ≤ other →
    (cubic other ≤ p.experience ∧ (p.experience : Int) < cubic (other + 1) ↔ other = p.level)
  word : ∀ other : Nat, 1 ≤ other → cubic (other + 1) < 2 ^ 64 →
    (getExpForLevel other ≤ p.experience ∧ p.experience < getExpForLevel (other + 1) ↔ other = p.level)
  unwrapped : ∀ reached : Nat, 1 ≤ reached → reached ≤ p.level + 1 →
    cubic reached < 2 ^ 64 ∧ (getExpForLevel reached : Int) = cubic reached
  increasing : ∀ reached : Nat, 1 ≤ reached → reached ≤ p.level →
    getExpForLevel reached < getExpForLevel (reached + 1)
  stats : p.stats.clamped = false → Agrees vocation first p.level p.stats

/-! ## The experience of a level -/

theorem six_dvd (l : Int) : (6 : Int) ∣ ((l - 6) * l + 17) * l - 12 := by
  have h : l % 6 = 0 ∨ l % 6 = 1 ∨ l % 6 = 2 ∨ l % 6 = 3 ∨ l % 6 = 4 ∨ l % 6 = 5 := by omega
  apply Int.dvd_of_emod_eq_zero
  obtain h | h | h | h | h | h := h <;> simp [Int.sub_emod, Int.add_emod, Int.mul_emod, h]

theorem cubic_succ (l : Int) : cubic (l + 1) = cubic l + 50 * (l * l - 3 * l + 4) := by
  obtain ⟨c, hc⟩ := six_dvd l
  obtain ⟨d, hd⟩ := six_dvd (l + 1)
  unfold cubic
  rw [hc, hd, Int.mul_ediv_cancel_left _ (by omega), Int.mul_ediv_cancel_left _ (by omega)]
  linarith

theorem cubic_strictMono : StrictMono cubic := by
  refine strictMono_int_of_lt_succ fun l => ?_
  rw [cubic_succ]
  nlinarith [sq_nonneg (2 * l - 3)]

@[simp] theorem cubic_one : cubic 1 = 0 := rfl

theorem cubic_nonneg {l : Int} (h : 1 ≤ l) : 0 ≤ cubic l := cubic_one ▸ cubic_strictMono.monotone h

theorem ofInt_sub (x y : Int) : BitVec.ofInt 64 (x - y) = BitVec.ofInt 64 x - BitVec.ofInt 64 y := by
  rw [eq_sub_iff_add_eq, ← BitVec.ofInt_add, sub_add_cancel]

/-- Where the integers need no more than 64 bits, the words agree with them. -/
theorem getExpForLevel_eq {l : Nat} (h : 1 ≤ l) (hword : cubic l < 2 ^ 64) : (getExpForLevel l : Int) = cubic l := by
  obtain ⟨c, hc⟩ := six_dvd l
  have hcubic : cubic l = c * 100 := by
    unfold cubic
    rw [hc, Int.mul_ediv_cancel_left _ (by omega)]
  have hpos : 0 ≤ cubic l := cubic_nonneg (by omega)
  obtain ⟨n, rfl⟩ := Int.eq_ofNat_of_zero_le (show 0 ≤ c by omega)
  have hnum : (((BitVec.ofNat 64 l - 6) * BitVec.ofNat 64 l + 17) * BitVec.ofNat 64 l - 12 : BitVec 64) =
      BitVec.ofNat 64 (6 * n) := by
    rw [← BitVec.ofInt_natCast 64 (6 * n), Nat.cast_mul, Nat.cast_ofNat, ← hc, ofInt_sub, BitVec.ofInt_mul,
      BitVec.ofInt_add, BitVec.ofInt_mul, ofInt_sub, BitVec.ofInt_natCast]
    rfl
  have hword' : 6 * n < 2 ^ 64 := by omega
  have hmul : 6 * n / 6 * 100 < 2 ^ 64 := by omega
  unfold getExpForLevel expForLevel
  rw [hnum, BitVec.toNat_mul, BitVec.toNat_udiv, BitVec.toNat_ofNat, Nat.mod_eq_of_lt hword']
  change ((6 * n / 6 * 100 % 2 ^ 64 : Nat) : Int) = _
  rw [Nat.mod_eq_of_lt hmul, hcubic]
  omega

namespace Made

variable {level other experience : Nat}

theorem le (h : Made level experience) (h' : Made other experience) : level ≤ other := by
  have hlt : (level : Int) < other + 1 := cubic_strictMono.lt_iff_lt.mp (h.reached.trans_lt h'.below)
  omega

theorem unique (h : Made level experience) (h' : Made other experience) : level = other :=
  le_antisymm (h.le h') (h'.le h)

end Made

/-- No level from a million on is reached. -/
theorem level_lt {level experience : Nat} (he : experience < 2 ^ 62) (hreached : cubic level ≤ experience) :
    level < 1000000 := by
  by_contra hle
  have hmono : cubic 1000000 ≤ cubic level := cubic_strictMono.monotone (by omega)
  have htop : (2 ^ 62 : Int) < cubic 1000000 := by decide
  omega

theorem cubic_lt {l : Nat} (h : l ≤ 1000000) : cubic l < 2 ^ 64 :=
  calc cubic l ≤ cubic 1000000 := cubic_strictMono.monotone (by omega)
    _ < 2 ^ 64 := by decide

theorem getExpForLevel_of_le {l : Nat} (h : 1 ≤ l) (h' : l ≤ 1000000) : (getExpForLevel l : Int) = cubic l :=
  getExpForLevel_eq h (cubic_lt h')

theorem nextLevel_eq {level : Nat} (h : level < 1000000) : nextLevel level = level + 1 := by
  unfold nextLevel
  omega

theorem getExpForLevel_nextLevel {level : Nat} (h : level < 1000000) :
    (getExpForLevel (nextLevel level) : Int) = cubic (level + 1) := by
  rw [nextLevel_eq h, getExpForLevel_of_le (by omega) (by omega), Nat.cast_succ]

/-! ## The statistics -/

/-- The statistics of the level, as long as no subtraction has been clamped. -/
def Unclamped (vocation : Vocation) (first : Stats) (level : Nat) (s : Stats) : Prop :=
  s.clamped = false → Agrees vocation first level s

section Statistics

variable {vocation : Vocation} {first s : Stats} {level : Nat} {maxHealth maxMana : BitVec 32 → BitVec 32}

theorem levels_succ (h : 1 ≤ level) : BitVec.ofNat 32 (level + 1 - 1) = BitVec.ofNat 32 (level - 1) + 1 := by
  rw [show level + 1 - 1 = level - 1 + 1 by omega, BitVec.ofNat_add]
  rfl

theorem add_gain {value start gain : BitVec 32} (hlevel : 1 ≤ level)
    (h : value = start + BitVec.ofNat 32 (level - 1) * gain) :
    value + gain = start + BitVec.ofNat 32 (level + 1 - 1) * gain := by
  rw [h, levels_succ hlevel]
  ring

theorem less_gain {value start gain : BitVec 32} (hlevel : 1 ≤ level)
    (h : value = start + BitVec.ofNat 32 (level + 1 - 1) * gain) (hclamps : Stats.clamps value gain = false) :
    Stats.less value gain = start + BitVec.ofNat 32 (level - 1) * gain := by
  have hless : Stats.less value gain = value - gain := by simp [Stats.less, hclamps]
  rw [hless, h, levels_succ hlevel]
  ring

theorem Unclamped.gain (h : Unclamped vocation first level s) (hlevel : 1 ≤ level) :
    Unclamped vocation first (level + 1) (s.gain vocation) := by
  intro hclamped
  obtain ⟨hhealth, hmana, hcap⟩ := h hclamped
  exact ⟨add_gain hlevel hhealth, add_gain hlevel hmana, add_gain hlevel hcap⟩

theorem Unclamped.lose (h : Unclamped vocation first (level + 1) s) (hlevel : 1 ≤ level) :
    Unclamped vocation first level (s.lose vocation) := by
  intro hclamped
  simp only [Stats.lose, Bool.or_eq_false_iff] at hclamped
  obtain ⟨⟨⟨hbefore, hhealth'⟩, hmana'⟩, hcap'⟩ := hclamped
  obtain ⟨hhealth, hmana, hcap⟩ := h hbefore
  exact ⟨less_gain hlevel hhealth hhealth', less_gain hlevel hmana hmana', less_gain hlevel hcap hcap'⟩

theorem Unclamped.refill (h : Unclamped vocation first level s) :
    Unclamped vocation first level (s.refill maxHealth maxMana) := by
  intro hclamped
  obtain ⟨hhealth, hmana, hcap⟩ := h hclamped
  exact ⟨hhealth, hmana, hcap⟩

end Statistics

/-! ## The loops -/

section Loops

variable (vocation : Vocation) {experience : Nat}

/-- What a loop ends with. -/
structure Ends (first : Stats) (experience level : Nat) (s : Stats) : Prop where
  made : Made level experience
  stats : Unclamped vocation first level s

theorem addLoop_succ (turns level : Nat) (stats : Stats) (currLevelExp nextLevelExp : Nat) :
    addLoop vocation experience (turns + 1) level stats currLevelExp nextLevelExp =
      if experience ≥ nextLevelExp then
        if nextLevelExp ≥ getExpForLevel (nextLevel (nextLevel level)) then
          some (nextLevel level, stats.gain vocation, nextLevelExp, getExpForLevel (nextLevel (nextLevel level)))
        else addLoop vocation experience turns (nextLevel level) (stats.gain vocation) nextLevelExp
          (getExpForLevel (nextLevel (nextLevel level)))
      else some (level, stats, currLevelExp, nextLevelExp) := rfl

theorem addLoop_ends (he : experience < 2 ^ 62) (first : Stats) (turns : Nat) : ∀ level stats,
    1000000 ≤ level + turns → 1 ≤ level →
    cubic level ≤ experience → Unclamped vocation first level stats →
    ∃ level' stats', addLoop vocation experience turns level stats (getExpForLevel level)
        (getExpForLevel (nextLevel level)) =
          some (level', stats', getExpForLevel level', getExpForLevel (nextLevel level')) ∧
      Ends vocation first experience level' stats' := by
  induction turns with
  | zero =>
    intro level stats hturns _ hreached _
    have hlevel := level_lt he hreached
    omega
  | succ turns ih =>
    intro level stats hturns hpos hreached hstats
    have hlevel := level_lt he hreached
    have hnext := getExpForLevel_nextLevel hlevel
    rw [addLoop_succ]
    by_cases hmore : experience ≥ getExpForLevel (nextLevel level)
    · have hreached' : cubic (level + 1 : Nat) ≤ experience := by push_cast; omega
      have hlevel' := level_lt he hreached'
      have hnext' := getExpForLevel_nextLevel hlevel'
      have hgrows : cubic (level + 1) < cubic ((level + 1 : Nat) + 1) := cubic_strictMono (by omega)
      rw [if_pos hmore, nextLevel_eq hlevel]
      rw [nextLevel_eq hlevel] at hnext
      rw [if_neg (by omega)]
      exact ih (level + 1) (stats.gain vocation) (by omega) (by omega) hreached' (hstats.gain hpos)
    · rw [if_neg hmore]
      exact ⟨level, stats, rfl, ⟨hpos, hreached, by omega⟩, hstats⟩

theorem removeLoop_ends (first : Stats) (level : Nat) : ∀ stats, 1 ≤ level → level < 1000000 →
    (experience : Int) < cubic (level + 1) → Unclamped vocation first level stats →
    ∃ level' stats', removeLoop vocation experience level stats (getExpForLevel level) =
        (level', stats', getExpForLevel level') ∧ Ends vocation first experience level' stats' := by
  induction level with
  | zero =>
    intro stats hpos
    omega
  | succ level ih =>
    intro stats hpos hlevel hbelow hstats
    have hexp := getExpForLevel_of_le hpos hlevel.le
    rw [removeLoop]
    by_cases hlower : level + 1 > 1 ∧ experience < getExpForLevel (level + 1)
    · rw [if_pos hlower]
      have hbelow' : (experience : Int) < cubic (level + 1) := by
        rw [Nat.cast_succ] at hexp
        omega
      exact ih (stats.lose vocation) (by omega) (by omega) hbelow' (hstats.lose (by omega))
    · rw [if_neg hlower]
      have hreached : cubic (level + 1 : Nat) ≤ experience := by
        rcases Nat.eq_zero_or_pos level with rfl | hlevel'
        · simp
        · omega
      exact ⟨level + 1, stats, rfl, ⟨hpos, hreached, hbelow⟩, hstats⟩

end Loops

/-! ## The calls -/

theorem clampExperience_eq {experience exp : Nat} (he : experience < 2 ^ 62) (hexp : exp < 2 ^ 62) :
    clampExperience experience exp = experience - exp := by
  unfold clampExperience
  rw [Int.bmod_eq_of_le (by omega) (by omega)]
  omega

section Calls

variable (vocation : Vocation) (basisPointLevel : Nat → Nat → Nat) (maxHealth maxMana : BitVec 32 → BitVec 32)
  (first : Stats)

/-- What every call keeps, where the total is that of the calls so far. -/
structure Kept (total : Nat) (p : Player) : Prop where
  experience : p.experience = total
  fits : total < 2 ^ 62
  ends : Ends vocation first total p.level p.stats

variable {vocation first} {total exp : Nat} {p : Player}

theorem settle_kept {level : Nat} {stats : Stats} (hfits : total < 2 ^ 62) (h : Ends vocation first total level stats)
    (prevLevel currLevelExp nextLevelExp : Nat) :
    Kept vocation first total
      (settle basisPointLevel maxHealth maxMana prevLevel level total stats currLevelExp nextLevelExp) := by
  refine ⟨rfl, hfits, h.made, ?_⟩
  change Unclamped vocation first level (if prevLevel ≠ level then stats.refill maxHealth maxMana else stats)
  split
  · exact h.stats.refill
  · exact h.stats

theorem Kept.addExperience (h : Kept vocation first total p) (hfits : total + exp < 2 ^ 62) :
    ∃ q, addExperience vocation basisPointLevel maxHealth maxMana p exp = some q ∧
      Kept vocation first (total + exp) q := by
  have hlevel := level_lt h.fits h.ends.made.reached
  have hcurr := getExpForLevel_of_le h.ends.made.positive hlevel.le
  have hnext := getExpForLevel_nextLevel hlevel
  have hgrows : cubic p.level < cubic (p.level + 1) := cubic_strictMono (by omega)
  have hreached := h.ends.made.reached
  obtain ⟨level, stats, hloop, hends⟩ := addLoop_ends vocation hfits first (2 ^ 32) p.level p.stats (by omega)
    h.ends.made.positive (by push_cast; omega) h.ends.stats
  unfold Experience.addExperience
  rw [if_neg (by omega)]
  by_cases hzero : exp = 0
  · rw [if_pos hzero, hzero]
    exact ⟨p, rfl, h⟩
  · rw [if_neg hzero, h.experience, Nat.mod_eq_of_lt (by omega)]
    dsimp only
    rw [hloop]
    exact ⟨_, rfl, settle_kept basisPointLevel maxHealth maxMana hfits hends _ _ _⟩

theorem Kept.removeExperience (h : Kept vocation first total p) (hexp : exp < 2 ^ 62) :
    Kept vocation first (total - exp) (removeExperience vocation basisPointLevel maxHealth maxMana p exp) := by
  have hfits := h.fits
  have hbelow := h.ends.made.below
  unfold Experience.removeExperience
  split
  · rename_i hnothing
    rw [h.experience] at hnothing
    rw [show total - exp = total by omega]
    exact h
  · have hbelow' : ((total - exp : Nat) : Int) < cubic (p.level + 1) := by omega
    obtain ⟨level, stats, hloop, hends⟩ := removeLoop_ends vocation first p.level p.stats h.ends.made.positive
      (level_lt hfits h.ends.made.reached) hbelow' h.ends.stats
    rw [h.experience, clampExperience_eq hfits hexp]
    dsimp only
    rw [hloop]
    exact settle_kept basisPointLevel maxHealth maxMana (by omega) hends _ _ _

theorem Kept.step {e : Event} (h : Kept vocation first total p) (hfits : Fits total e) :
    ∃ q, step vocation basisPointLevel maxHealth maxMana p e = some q ∧ Kept vocation first (floored total e) q := by
  cases e with
  | add exp => exact h.addExperience basisPointLevel maxHealth maxMana hfits.2
  | remove exp => exact ⟨_, rfl, h.removeExperience basisPointLevel maxHealth maxMana hfits.1⟩

theorem Kept.run (es : List Event) : ∀ {total p}, Kept vocation first total p → Runs.Along floored Fits total es →
    ∃ q, run vocation basisPointLevel maxHealth maxMana p es = some q ∧
      Kept vocation first (es.foldl floored total) q := by
  induction es with
  | nil => exact fun h _ => ⟨_, rfl, h⟩
  | cons e es ih =>
    intro total p h hrun
    obtain ⟨q, hstep, hq⟩ := h.step basisPointLevel maxHealth maxMana hrun.1
    obtain ⟨r, hrest, hr⟩ := ih hq hrun.2
    refine ⟨r, ?_, hr⟩
    unfold Experience.run
    rw [List.foldlM_cons, hstep]
    exact hrest

end Calls

theorem Fresh.kept {p : Player} (h : Fresh p) (vocation : Vocation) : Kept vocation p.stats 0 p := by
  refine ⟨h.experience, by omega, ?_, ?_⟩
  · rw [h.level]
    exact ⟨le_rfl, le_rfl, by decide⟩
  · intro _
    rw [h.level]
    constructor <;> simp

theorem Kept.matches {vocation : Vocation} {first : Stats} {total : Nat} {p : Player}
    (h : Kept vocation first total p) : Matches vocation first total p := by
  have hmade : Made p.level p.experience := h.experience ▸ h.ends.made
  have hlevel := level_lt h.fits h.ends.made.reached
  have hcubic : ∀ reached : Nat, 1 ≤ reached → reached ≤ p.level + 1 →
      cubic reached < 2 ^ 64 ∧ (getExpForLevel reached : Int) = cubic reached := fun reached hpos hle =>
    ⟨cubic_lt (by omega), getExpForLevel_of_le hpos (by omega)⟩
  have hunique : ∀ other : Nat, 1 ≤ other →
      (cubic other ≤ p.experience ∧ (p.experience : Int) < cubic (other + 1) ↔ other = p.level) := by
    intro other hpos
    constructor
    · intro ⟨hreached, hbelow⟩
      exact Made.unique ⟨hpos, hreached, hbelow⟩ hmade
    · intro hother
      rw [hother]
      exact ⟨hmade.reached, hmade.below⟩
  refine ⟨h.experience, hmade.positive, hunique, ?_, hcubic, ?_, h.ends.stats⟩
  · intro other hpos hword
    have hgrows : cubic other < cubic (other + 1) := cubic_strictMono (by omega)
    have hother := getExpForLevel_eq hpos (by omega)
    have hnext := getExpForLevel_eq (l := other + 1) (by omega) (by push_cast; omega)
    push_cast at hnext
    rw [← hunique other hpos]
    omega
  · intro reached hpos hle
    have hgrows : cubic reached < cubic (reached + 1 : Nat) := cubic_strictMono (by omega)
    have hreached := (hcubic reached hpos (by omega)).2
    have hnext := (hcubic (reached + 1) (by omega) (by omega)).2
    omega

/-- In every run from level one, every call answers, the experience is the running total floored at zero and the level
and the statistics match it. -/
theorem level_matches_experience (vocation : Vocation) (basisPointLevel : Nat → Nat → Nat)
    (maxHealth maxMana : BitVec 32 → BitVec 32) (first : Player) (hfresh : Fresh first) (es : List Event)
    (hfits : Runs.Along floored Fits 0 es) :
    ∃ p, run vocation basisPointLevel maxHealth maxMana first es = some p ∧
      Matches vocation first.stats (es.foldl floored 0) p := by
  obtain ⟨p, hrun, hp⟩ := (hfresh.kept vocation).run basisPointLevel maxHealth maxMana es hfits
  exact ⟨p, hrun, hp.matches⟩

def knight : Vocation := { gainHP := 15, gainMana := 5, gainCap := 2500 }

def novice : Player where
  level := 1
  experience := 0
  levelPercent := 0
  stats := { healthMax := 150, health := 150, manaMax := 50, mana := 50, capacity := 40000, clamped := false }

theorem novice_fresh : Fresh novice := ⟨rfl, rfl, rfl⟩

theorem level_matches_two_calls : ∃ p,
    run knight (fun _ _ => 0) id id novice [.add 1500, .remove 700] = some p ∧ Matches knight novice.stats 800 p :=
  level_matches_experience knight _ id id novice novice_fresh [.add 1500, .remove 700]
    ⟨⟨by decide, by decide⟩, ⟨by decide, by decide⟩, trivial⟩

/-- The evaluation in words wraps above level 1034406, so that it is no more than this experience at a second level. -/
theorem wrapped_level_reached : ∃ p, Fresh novice ∧ Runs.Along floored Fits 0 [.add 36549909650984] ∧
    run knight (fun _ _ => 0) id id novice [.add 36549909650984] = some p ∧ p.level ≠ 1034407 ∧
    getExpForLevel p.level ≤ p.experience ∧ p.experience < getExpForLevel (p.level + 1) ∧
    getExpForLevel 1034407 ≤ p.experience ∧ p.experience < getExpForLevel (1034407 + 1) := by
  have hfits : Runs.Along floored Fits 0 [.add 36549909650984] := ⟨⟨by decide, by decide⟩, trivial⟩
  obtain ⟨p, hrun, hp⟩ := (novice_fresh.kept knight).run (fun _ _ => 0) id id _ hfits
  have hexp : p.experience = 36549909650984 := hp.experience
  have hlevel : p.level = 12994 := hp.ends.made.unique ⟨by decide, by decide, by decide⟩
  refine ⟨p, novice_fresh, hfits, hrun, ?_, ?_⟩
  · rw [hlevel]
    decide
  · rw [hlevel, hexp]
    decide

end ForgottenServer.Experience
