import ForgottenServer.Condition.Condition

/-! # Conditions across a logout

The column `conditions` read back by the loop of `loadPlayer`: the classes that read what
they write come back, in reverse order, and the stream is used up. -/

open Reader LittleEndian

namespace ForgottenServer.Condition

/-! ## Values -/

section Values

variable {σ : Type} {s : σ}

end Values

/-! ## The base class -/

/-- A condition as `createCondition` makes it and its setters leave it: of the class of its
type. -/
def WellFormed (c : Condition) : Prop := ∃ t : ConditionType, c.conditionType = t.value ∧ c.kind.cls = t.cls

/-- The condition that `createCondition` makes of the bytes of the base. -/
def created (c : Condition) : Condition :=
  let ticks := if c.kind.cls = .damage then 0 else c.ticks
  { c with
    ticks
    endTime := if c.constant then c.endTime else if ticks = -1 then BitVec.intMax 64 else 0
    kind := c.kind.cls.construct 0 }

section Props

variable (now : BitVec 64) (c : Condition)

variable {c}

end Props

/-- The ticks that the intervals of a damage list add up to; -1 stays. -/
def recount (ticks : BitVec 32) (intervals : List IntervalInfo) : BitVec 32 :=
  intervals.foldl (fun ticks i => if ticks = -1 then ticks else ticks + i.interval) ticks

/-- What is left of a condition after a logout. The ticks of a damage condition are counted
from its intervals, and the drunkenness is the default one. -/
structure Kept (c c' : Condition) : Prop where
  conditionType : c'.conditionType = c.conditionType
  id : c'.id = c.id
  subId : c'.subId = c.subId
  isBuff : c'.isBuff = c.isBuff
  aggressive : c'.aggressive = c.aggressive
  constant : c'.constant = c.constant
  ticks : c'.ticks = match c.kind with
    | .damage d => recount 0 d.damageList
    | _ => c.ticks
  kind : c'.kind = match c.kind with
    | .drunk _ => .drunk 25
    | kind => kind

theorem length_le_flatMap (cs : List Condition) :
    cs.length ≤ (cs.flatMap fun c => c.serialize ++ [CONDITIONATTR_END]).length := by
  induction cs with
  | nil => exact le_rfl
  | cons c cs ih =>
    rw [List.flatMap_cons, List.length_append, List.length_append, List.length_cons]
    simp only [List.length_singleton]
    omega

end ForgottenServer.Condition
