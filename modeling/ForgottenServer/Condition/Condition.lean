import ForgottenServer.Lib.StreamReader

/-! # Conditions

The conditions of a creature and their bytes in the column `conditions` of a player
(`condition.cpp`). Every class writes its own tags behind those of `Condition` and reads
them back in its `unserializeProp`. Numbers are kept as their bits; a member that no code
here reads or writes is left out. -/

open Reader LittleEndian

namespace ForgottenServer.Condition

structure IntervalInfo where
  timeLeft : BitVec 32
  value : BitVec 32
  interval : BitVec 32
  deriving DecidableEq

structure Outfit where
  lookType : BitVec 16 := 0
  lookTypeEx : BitVec 16 := 0
  lookMount : BitVec 16 := 0
  lookFamiliar : BitVec 16 := 0
  lookHead : BitVec 8 := 0
  lookBody : BitVec 8 := 0
  lookLegs : BitVec 8 := 0
  lookFeet : BitVec 8 := 0
  lookAddons : BitVec 8 := 0
  deriving DecidableEq

structure Damage where
  delayed : Bool := false
  periodDamage : BitVec 32 := 0
  damageList : List IntervalInfo := []
  deriving DecidableEq

/-- The four variables of the formula are floats. -/
structure Speed where
  speedDelta : BitVec 32
  mina : BitVec 32 := 0
  minb : BitVec 32 := 0
  maxa : BitVec 32 := 0
  maxb : BitVec 32 := 0
  deriving DecidableEq

structure Light where
  level : BitVec 8
  color : BitVec 8
  internalLightTicks : BitVec 32 := 0
  lightChangeInterval : BitVec 32 := 0
  deriving DecidableEq

structure Regeneration where
  healthTicks : BitVec 32 := 1000
  healthGain : BitVec 32 := 0
  healthGainPercent : BitVec 32 := 0
  manaTicks : BitVec 32 := 1000
  manaGain : BitVec 32 := 0
  manaGainPercent : BitVec 32 := 0
  deriving DecidableEq

structure Soul where
  soulGain : BitVec 32 := 0
  soulTicks : BitVec 32 := 0
  deriving DecidableEq

def skillCount : Nat := 7
def specialSkillCount : Nat := 6
def statCount : Nat := 5
def experienceRateCount : Nat := 5

/-- The arrays of `ConditionAttributes`, and the places where the reader is in them. -/
structure Attributes where
  skills : Vector (BitVec 32) skillCount := .replicate _ 0
  skillsPercent : Vector (BitVec 32) skillCount := .replicate _ 0
  specialSkills : Vector (BitVec 32) specialSkillCount := .replicate _ 0
  stats : Vector (BitVec 32) statCount := .replicate _ 0
  statsPercent : Vector (BitVec 32) statCount := .replicate _ 0
  experienceRate : Vector (BitVec 32) experienceRateCount := .replicate _ 0
  disableDefense : Bool := false
  currentSkill : Nat := 0
  currentSpecialSkill : Nat := 0
  currentStat : Nat := 0
  currentExperienceRate : Nat := 0
  deriving DecidableEq

/-- The classes derived from `Condition`. -/
inductive Class where
  | generic | invisible | rooted | feared | spellCooldown | spellGroupCooldown | drunk | damage
  | speed | outfit | light | regeneration | soul | attributes
  deriving DecidableEq

/-- An object of a class, with the members of the class. -/
inductive Kind where
  | generic
  | invisible
  | rooted
  | feared
  | spellCooldown
  | spellGroupCooldown
  | drunk (drunkenness : BitVec 8)
  | damage (d : Damage)
  | speed (s : Speed)
  | outfit (o : Outfit)
  | light (l : Light)
  | regeneration (r : Regeneration)
  | soul (s : Soul)
  | attributes (a : Attributes)
  deriving DecidableEq

def Kind.cls : Kind → Class
  | generic => .generic
  | invisible => .invisible
  | rooted => .rooted
  | feared => .feared
  | spellCooldown => .spellCooldown
  | spellGroupCooldown => .spellGroupCooldown
  | drunk _ => .drunk
  | damage _ => .damage
  | speed _ => .speed
  | outfit _ => .outfit
  | light _ => .light
  | regeneration _ => .regeneration
  | soul _ => .soul
  | attributes _ => .attributes

/-- What the constructor of a class makes of the parameter of `createCondition`. -/
def Class.construct (param : BitVec 32) : Class → Kind
  | generic => .generic
  | invisible => .invisible
  | rooted => .rooted
  | feared => .feared
  | spellCooldown => .spellCooldown
  | spellGroupCooldown => .spellGroupCooldown
  | drunk => .drunk (if param.setWidth 8 = 0#8 then 25 else param.setWidth 8)
  | damage => .damage {}
  | speed => .speed { speedDelta := param }
  | outfit => .outfit {}
  | light => .light { level := param.setWidth 8, color := (param >>> 8).setWidth 8 }
  | regeneration => .regeneration {}
  | soul => .soul {}
  | attributes => .attributes {}

/-- `ConditionType_t`, in the order of its bits. -/
inductive ConditionType where
  | poison | fire | energy | bleeding | haste | paralyze | outfit | invisible | light | manashield
  | infight | drunk | exhaustWeapon | regeneration | soul | drown | muted | channelMutedTicks
  | yellTicks | attributes | freezing | dazzled | cursed | exhaustCombat | exhaustHeal | pacified
  | cliport | spellCooldown | spellGroupCooldown | rooted | feared | agony | lesserHex | intenseHex
  | greaterHex | powerless
  deriving DecidableEq

namespace ConditionType

def all : List ConditionType :=
  [poison, fire, energy, bleeding, haste, paralyze, outfit, invisible, light, manashield, infight,
    drunk, exhaustWeapon, regeneration, soul, drown, muted, channelMutedTicks, yellTicks, attributes,
    freezing, dazzled, cursed, exhaustCombat, exhaustHeal, pacified, cliport, spellCooldown,
    spellGroupCooldown, rooted, feared, agony, lesserHex, intenseHex, greaterHex, powerless]

def value (t : ConditionType) : BitVec 64 := 1 <<< t.ctorIdx

/-- The switch of `createCondition`. -/
def cls : ConditionType → Class
  | poison | fire | energy | drown | freezing | dazzled | cursed | agony | bleeding => .damage
  | haste | paralyze => .speed
  | rooted => .rooted
  | feared => .feared
  | invisible => .invisible
  | outfit => .outfit
  | light => .light
  | regeneration => .regeneration
  | soul => .soul
  | attributes => .attributes
  | spellCooldown => .spellCooldown
  | spellGroupCooldown => .spellGroupCooldown
  | drunk => .drunk
  | infight | exhaustWeapon | exhaustCombat | exhaustHeal | muted | channelMutedTicks | yellTicks
  | pacified | manashield | cliport | lesserHex | intenseHex | greaterHex | powerless => .generic

end ConditionType

end ForgottenServer.Condition

namespace ForgottenServer

/-- The members of the base class, and the object of the derived one. -/
structure Condition where
  conditionType : BitVec 64
  id : BitVec 8
  ticks : BitVec 32
  subId : BitVec 32
  endTime : BitVec 64
  isBuff : Bool
  aggressive : Bool
  constant : Bool := false
  kind : Condition.Kind
  deriving DecidableEq

end ForgottenServer

namespace ForgottenServer.Condition

def CONDITIONID_COMBAT : BitVec 8 := 0

/-- `OTSYS_TIME()` is `now`. -/
def setTicks (now : BitVec 64) (newTicks : BitVec 32) (c : Condition) : Condition :=
  { c with ticks := newTicks, endTime := newTicks.signExtend 64 + now }

def CONDITIONATTR_TYPE : UInt8 := 1
def CONDITIONATTR_ID : UInt8 := 2
def CONDITIONATTR_TICKS : UInt8 := 3
def CONDITIONATTR_HEALTHTICKS : UInt8 := 4
def CONDITIONATTR_HEALTHGAIN : UInt8 := 5
def CONDITIONATTR_MANATICKS : UInt8 := 6
def CONDITIONATTR_MANAGAIN : UInt8 := 7
def CONDITIONATTR_DELAYED : UInt8 := 8
def CONDITIONATTR_OWNER : UInt8 := 9
def CONDITIONATTR_INTERVALDATA : UInt8 := 10
def CONDITIONATTR_SPEEDDELTA : UInt8 := 11
def CONDITIONATTR_FORMULA_MINA : UInt8 := 12
def CONDITIONATTR_FORMULA_MINB : UInt8 := 13
def CONDITIONATTR_FORMULA_MAXA : UInt8 := 14
def CONDITIONATTR_FORMULA_MAXB : UInt8 := 15
def CONDITIONATTR_LIGHTCOLOR : UInt8 := 16
def CONDITIONATTR_LIGHTLEVEL : UInt8 := 17
def CONDITIONATTR_LIGHTTICKS : UInt8 := 18
def CONDITIONATTR_LIGHTINTERVAL : UInt8 := 19
def CONDITIONATTR_SOULTICKS : UInt8 := 20
def CONDITIONATTR_SOULGAIN : UInt8 := 21
def CONDITIONATTR_SKILLS : UInt8 := 22
def CONDITIONATTR_STATS : UInt8 := 23
def CONDITIONATTR_OUTFIT : UInt8 := 24
def CONDITIONATTR_PERIODDAMAGE : UInt8 := 25
def CONDITIONATTR_ISBUFF : UInt8 := 26
def CONDITIONATTR_SUBID : UInt8 := 27
def CONDITIONATTR_ISAGGRESSIVE : UInt8 := 28
def CONDITIONATTR_DISABLEDEFENSE : UInt8 := 29
def CONDITIONATTR_SPECIALSKILLS : UInt8 := 30
def CONDITIONATTR_EXPERIENCERATE : UInt8 := 31
def CONDITIONATTR_HEALTHGAINPERCENT : UInt8 := 32
def CONDITIONATTR_MANAGAINPERCENT : UInt8 := 33
def CONDITIONATTR_CONSTANT : UInt8 := 34
def CONDITIONATTR_ENDTIME : UInt8 := 35
def CONDITIONATTR_TYPE64 : UInt8 := 36
def CONDITIONATTR_END : UInt8 := 254

/-! ## Writing -/

def writeBool (b : Bool) : List UInt8 := [if b then 1 else 0]

/-- A tag and its value. -/
def field {w : Nat} (tag : UInt8) (v : BitVec w) : List UInt8 := tag :: writeBits v

def flag (tag : UInt8) (b : Bool) : List UInt8 := tag :: writeBool b

def IntervalInfo.write (i : IntervalInfo) : List UInt8 :=
  writeBits i.timeLeft ++ writeBits i.value ++ writeBits i.interval

/-- `Condition::serialize`. -/
def serializeBase (c : Condition) : List UInt8 :=
  (if c.conditionType.toNat > 2 ^ 32 - 1 then field CONDITIONATTR_TYPE64 c.conditionType
    else field CONDITIONATTR_TYPE (c.conditionType.setWidth 32)) ++
  field CONDITIONATTR_ID (c.id.signExtend 32) ++
  field CONDITIONATTR_TICKS c.ticks ++
  flag CONDITIONATTR_ISBUFF c.isBuff ++
  field CONDITIONATTR_SUBID c.subId ++
  flag CONDITIONATTR_ISAGGRESSIVE c.aggressive ++
  flag CONDITIONATTR_CONSTANT c.constant ++
  (if c.constant then field CONDITIONATTR_ENDTIME c.endTime else [])

/-- What the class writes behind the base. -/
def Kind.serialize : Kind → List UInt8
  | generic | invisible | rooted | feared | spellCooldown | spellGroupCooldown | drunk _ => []
  | damage d =>
    flag CONDITIONATTR_DELAYED d.delayed ++
    field CONDITIONATTR_PERIODDAMAGE d.periodDamage ++
    d.damageList.flatMap fun i => CONDITIONATTR_INTERVALDATA :: i.write
  | speed s =>
    field CONDITIONATTR_SPEEDDELTA s.speedDelta ++
    field CONDITIONATTR_FORMULA_MINA s.mina ++
    field CONDITIONATTR_FORMULA_MINB s.minb ++
    field CONDITIONATTR_FORMULA_MAXA s.maxa ++
    field CONDITIONATTR_FORMULA_MAXB s.maxb
  | outfit o =>
    CONDITIONATTR_OUTFIT :: (writeBits o.lookType ++ writeBits o.lookTypeEx ++ writeBits o.lookMount ++
      writeBits o.lookHead ++ writeBits o.lookBody ++ writeBits o.lookLegs ++ writeBits o.lookFeet ++
      writeBits o.lookAddons)
  | light l =>
    field CONDITIONATTR_LIGHTCOLOR (l.color.setWidth 32) ++
    field CONDITIONATTR_LIGHTLEVEL (l.level.setWidth 32) ++
    field CONDITIONATTR_LIGHTTICKS l.internalLightTicks ++
    field CONDITIONATTR_LIGHTINTERVAL l.lightChangeInterval
  | regeneration r =>
    field CONDITIONATTR_HEALTHTICKS r.healthTicks ++
    field CONDITIONATTR_HEALTHGAIN r.healthGain ++
    field CONDITIONATTR_HEALTHGAINPERCENT r.healthGainPercent ++
    field CONDITIONATTR_MANATICKS r.manaTicks ++
    field CONDITIONATTR_MANAGAIN r.manaGain ++
    field CONDITIONATTR_MANAGAINPERCENT r.manaGainPercent
  | soul s =>
    field CONDITIONATTR_SOULGAIN s.soulGain ++
    field CONDITIONATTR_SOULTICKS s.soulTicks
  | attributes a =>
    a.skills.toList.flatMap (field CONDITIONATTR_SKILLS) ++
    a.stats.toList.flatMap (field CONDITIONATTR_STATS) ++
    flag CONDITIONATTR_DISABLEDEFENSE a.disableDefense ++
    a.specialSkills.toList.flatMap (field CONDITIONATTR_SPECIALSKILLS) ++
    -- the rates of `BASE` to `STAMINA`, under the tag of the special skills
    (a.experienceRate.toList.drop 1).flatMap (field CONDITIONATTR_SPECIALSKILLS)

def serialize (c : Condition) : List UInt8 := c.serializeBase ++ c.kind.serialize

/-! ## Reading -/

section Reading

variable {σ : Type}

def readFlag : Reader σ Bool := do
  let v ← readBits 8
  pure (v != 0)

/-- A value of a class whose object is in a condition. -/
def store {w : Nat} (set : BitVec w → Kind) : Reader Condition Unit := do
  let v ← readBits w
  modify fun c => { c with kind := set v }

/-- The `IntervalInfo` of 12 bytes is there as a whole or not at all. -/
def readInterval : Reader σ IntervalInfo := do
  let bytes ← take 12
  pure ⟨.ofNat 32 (leNat (bytes.take 4)), .ofNat 32 (leNat ((bytes.drop 4).take 4)),
    .ofNat 32 (leNat (bytes.drop 8))⟩

/-- `sizeof(Outfit_t)` is 14: the last byte is padding. -/
def readOutfit : Reader σ Outfit := do
  let bytes ← take 14
  let word k := BitVec.ofNat 16 (leNat ((bytes.drop k).take 2))
  let byte k := BitVec.ofNat 8 (leNat ((bytes.drop k).take 1))
  pure { lookType := word 0, lookTypeEx := word 2, lookMount := word 4, lookFamiliar := word 6
         lookHead := byte 8, lookBody := byte 9, lookLegs := byte 10, lookFeet := byte 11
         lookAddons := byte 12 }

/-- The next element of an array. A write past the end of it is not defined; the reader
fails. -/
def storeNext {n : Nat} (array : Vector (BitVec 32) n) (current : Nat) (set : Vector (BitVec 32) n → Kind) :
    Reader Condition Unit := do
  let v ← readBits 32
  if h : current < n then modify fun c => { c with kind := set (array.set current v h) } else fail

/-- The next special skill. The array of the stats lies behind that of the special skills,
and a write past the end goes there. -/
def storeSpecialSkill (a : Attributes) : Reader Condition Unit :=
  let next := { a with currentSpecialSkill := a.currentSpecialSkill + 1 }
  if a.currentSpecialSkill < specialSkillCount then
    storeNext a.specialSkills a.currentSpecialSkill fun v => .attributes { next with specialSkills := v }
  else
    storeNext a.stats (a.currentSpecialSkill - specialSkillCount) fun v => .attributes { next with stats := v }

/-- `Condition::unserializeProp`. -/
def unserializeBaseProp (attr : UInt8) : Reader Condition Unit :=
  if attr = CONDITIONATTR_TYPE then do
    let v ← readBits 32
    modify fun c => { c with conditionType := v.setWidth 64 }
  else if attr = CONDITIONATTR_TYPE64 then do
    let v ← readBits 64
    modify fun c => { c with conditionType := v }
  else if attr = CONDITIONATTR_ID then do
    let v ← readBits 32
    modify fun c => { c with id := v.setWidth 8 }
  else if attr = CONDITIONATTR_TICKS then do
    let v ← readBits 32
    modify fun c => { c with ticks := v }
  else if attr = CONDITIONATTR_ISBUFF then do
    let v ← readFlag
    modify fun c => { c with isBuff := v }
  else if attr = CONDITIONATTR_SUBID then do
    let v ← readBits 32
    modify fun c => { c with subId := v }
  else if attr = CONDITIONATTR_ISAGGRESSIVE then do
    let v ← readFlag
    modify fun c => { c with aggressive := v }
  else if attr = CONDITIONATTR_CONSTANT then do
    let v ← readFlag
    modify fun c => { c with constant := v }
  else if attr = CONDITIONATTR_ENDTIME then do
    let v ← readBits 64
    modify fun c => { c with endTime := v }
  else if attr = CONDITIONATTR_END then pure ()
  else fail

/-- An interval is added to the damage list, and its time to the ticks. -/
def addInterval (now : BitVec 64) (c : Condition) (d : Damage) (i : IntervalInfo) : Condition :=
  let c := { c with kind := .damage { d with damageList := d.damageList ++ [i] } }
  if c.ticks = -1 then c else c.setTicks now (c.ticks + i.interval)

def unserializeProp (now : BitVec 64) (attr : UInt8) : Reader Condition Unit :=
  inspect fun c => match c.kind with
    | .damage d =>
      if attr = CONDITIONATTR_DELAYED then do
        let v ← readFlag
        modify fun c => { c with kind := .damage { d with delayed := v } }
      else if attr = CONDITIONATTR_PERIODDAMAGE then store fun v => .damage { d with periodDamage := v }
      else if attr = CONDITIONATTR_OWNER then do
        let _ ← take 4
        pure ()
      else if attr = CONDITIONATTR_INTERVALDATA then do
        let i ← readInterval
        modify fun c => addInterval now c d i
      else unserializeBaseProp attr
    | .speed s =>
      if attr = CONDITIONATTR_SPEEDDELTA then store fun v => .speed { s with speedDelta := v }
      else if attr = CONDITIONATTR_FORMULA_MINA then store fun v => .speed { s with mina := v }
      else if attr = CONDITIONATTR_FORMULA_MINB then store fun v => .speed { s with minb := v }
      else if attr = CONDITIONATTR_FORMULA_MAXA then store fun v => .speed { s with maxa := v }
      else if attr = CONDITIONATTR_FORMULA_MAXB then store fun v => .speed { s with maxb := v }
      else unserializeBaseProp attr
    | .outfit _ =>
      if attr = CONDITIONATTR_OUTFIT then do
        let o ← readOutfit
        modify fun c => { c with kind := .outfit o }
      else unserializeBaseProp attr
    | .light l =>
      if attr = CONDITIONATTR_LIGHTCOLOR then store fun v => .light { l with color := v }
      else if attr = CONDITIONATTR_LIGHTLEVEL then store fun v => .light { l with level := v }
      else if attr = CONDITIONATTR_LIGHTTICKS then store fun v => .light { l with internalLightTicks := v }
      else if attr = CONDITIONATTR_LIGHTINTERVAL then store fun v => .light { l with lightChangeInterval := v }
      else unserializeBaseProp attr
    | .regeneration r =>
      if attr = CONDITIONATTR_HEALTHTICKS then store fun v => .regeneration { r with healthTicks := v }
      else if attr = CONDITIONATTR_HEALTHGAIN then store fun v => .regeneration { r with healthGain := v }
      else if attr = CONDITIONATTR_HEALTHGAINPERCENT then
        store fun v => .regeneration { r with healthGainPercent := v }
      else if attr = CONDITIONATTR_MANATICKS then store fun v => .regeneration { r with manaTicks := v }
      else if attr = CONDITIONATTR_MANAGAIN then store fun v => .regeneration { r with manaGain := v }
      else if attr = CONDITIONATTR_MANAGAINPERCENT then
        store fun v => .regeneration { r with manaGainPercent := v }
      else unserializeBaseProp attr
    | .soul s =>
      if attr = CONDITIONATTR_SOULGAIN then store fun v => .soul { s with soulGain := v }
      else if attr = CONDITIONATTR_SOULTICKS then store fun v => .soul { s with soulTicks := v }
      else unserializeBaseProp attr
    | .attributes a =>
      if attr = CONDITIONATTR_SKILLS then
        storeNext a.skills a.currentSkill fun v =>
          .attributes { a with skills := v, currentSkill := a.currentSkill + 1 }
      else if attr = CONDITIONATTR_SPECIALSKILLS then storeSpecialSkill a
      else if attr = CONDITIONATTR_STATS then
        storeNext a.stats a.currentStat fun v => .attributes { a with stats := v, currentStat := a.currentStat + 1 }
      else if attr = CONDITIONATTR_EXPERIENCERATE then
        storeNext a.experienceRate a.currentExperienceRate fun v =>
          .attributes { a with experienceRate := v, currentExperienceRate := a.currentExperienceRate + 1 }
      else if attr = CONDITIONATTR_DISABLEDEFENSE then do
        let v ← readFlag
        modify fun c => { c with kind := .attributes { a with disableDefense := v } }
      else unserializeBaseProp attr
    | _ => unserializeBaseProp attr

def unserialize (now : BitVec 64) : Reader Condition Unit := tagged CONDITIONATTR_END (unserializeProp now)

end Reading

/-! ## The column of a player -/

end ForgottenServer.Condition
