import Mathlib

/-! # The schedule of `ConditionDamage`

`addDamage` appends rounds of damage and adds their times to the ticks of the condition. Once it is started,
`executeCondition` counts down the time of the first entry by the interval of its calls, while the clock decides when
the condition ends. The damage that is applied is kept with the number of entries that were left, which tells one entry
from another. -/

namespace ForgottenServer.Condition

/-- `IntervalInfo`, in integers. -/
structure Interval where
  timeLeft : Int
  value : Int
  interval : Int
  deriving DecidableEq, Repr

structure DamageCondition where
  ticks : Int := 0
  endTime : Int := 0
  periodDamage : Int := 0
  periodDamageTick : Int := 0
  tickInterval : Int := 2000
  damageList : List Interval := []
  deriving DecidableEq, Repr

/-- A sum in 32 bits. -/
def int32 (x : Int) : Int := x.bmod (2 ^ 32)

def EVENT_CREATURE_THINK_INTERVAL : Int := 1000

/-- What `onTickCondition` finds on the tile: no field that matters, the field of the condition's type, another. -/
inductive Field where
  | none
  | own
  | other
  deriving DecidableEq, Repr

def Field.onTickCondition (field : Field) (bRemove : Bool) : Bool :=
  match field with
  | none => bRemove
  | own => false
  | other => true

namespace DamageCondition

/-! ## Building -/

def setTicks (now newTicks : Int) (c : DamageCondition) : DamageCondition :=
  { c with ticks := newTicks, endTime := newTicks + now }

/-- The loop over the rounds. -/
def addRounds (now : Int) (damageInfo : Interval) : Nat → DamageCondition → DamageCondition
  | 0, c => c
  | rounds + 1, c =>
    let c := { c with damageList := c.damageList ++ [damageInfo] }
    addRounds now damageInfo rounds (if c.ticks ≠ -1 then c.setTicks now (int32 (c.ticks + damageInfo.interval)) else c)

def addDamage (now rounds time value : Int) (c : DamageCondition) : Bool × DamageCondition :=
  let time := max time EVENT_CREATURE_THINK_INTERVAL
  if rounds = -1 then (true, { c with periodDamage := value, tickInterval := |time|, ticks := -1 })
  else if 0 < c.periodDamage then (false, c)
  else (true, addRounds now ⟨time, value, time⟩ rounds.toNat c)

/-- The copy constructor of `Condition` forgets the end time. -/
def clone (c : DamageCondition) : DamageCondition := { c with endTime := if c.ticks = -1 then 2 ^ 63 - 1 else 0 }

/-- `generated` are the values of `generateDamageList`, none where the random amount is zero. -/
def init (now : Int) (generated : List Int) (c : DamageCondition) : Bool × DamageCondition :=
  if c.periodDamage ≠ 0 then (true, c)
  else if !c.damageList.isEmpty then (true, c)
  else
    let c := c.setTicks now 0
    let c := generated.foldl (fun c value => (c.addDamage now 1 c.tickInterval (-value)).2) c
    (!c.damageList.isEmpty, c)

/-- `damaged` is the result of `doDamage` for the initial damage. -/
def startCondition (now : Int) (delayed damaged : Bool) (generated : List Int) (c : DamageCondition) :
    Option DamageCondition :=
  let c := if 0 < c.ticks ∧ c.endTime = 0 then { c with endTime := c.ticks + now } else c
  if !delayed && !damaged then none
  else
    let (ok, c) := c.init now generated
    if ok then some c else none

/-! ## Executing -/

/-- `Condition::executeCondition`. -/
def executeBase (now interval : Int) (c : DamageCondition) : Bool × DamageCondition :=
  if c.ticks = -1 then (true, c)
  else (now ≤ c.endTime, { c with ticks := max 0 (int32 (c.ticks - interval)) })

/-- The answer, the condition, and the damage that is applied with the number of entries that were left. -/
def executeCondition (now interval : Int) (field : Field) (c : DamageCondition) :
    (Bool × DamageCondition) × List (Int × Nat) :=
  if c.periodDamage ≠ 0 then
    let periodDamageTick := int32 (c.periodDamageTick + interval)
    if c.tickInterval ≤ periodDamageTick then
      (executeBase now interval { c with periodDamageTick := 0 }, [(c.periodDamage, c.damageList.length)])
    else (executeBase now interval { c with periodDamageTick := periodDamageTick }, [])
  else match c.damageList with
    | [] => (executeBase now interval c, [])
    | damageInfo :: rest =>
      let bRemove := field.onTickCondition (c.ticks ≠ -1)
      let timeLeft := damageInfo.timeLeft - interval
      let damageList :=
        if timeLeft ≤ 0 then
          if bRemove then rest else { damageInfo with timeLeft := damageInfo.interval } :: rest
        else { damageInfo with timeLeft := timeLeft } :: rest
      let applied := if timeLeft ≤ 0 then [(damageInfo.value, rest.length + 1)] else []
      let c := { c with damageList := damageList }
      let c := if !bRemove ∧ 0 < c.ticks then { c with endTime := c.endTime + interval } else c
      (executeBase now (if bRemove then interval else 0) c, applied)

end DamageCondition

/-! ## Runs -/

/-- A condition that runs, the time of its last call and the damage applied so far. -/
structure Running where
  condition : DamageCondition
  now : Int
  applied : List (Int × Nat) := []
  ended : Bool := false

namespace Running

/-- A call after `interval`, unless the condition has ended. -/
def call (interval : Int) (field : Field) (r : Running) : Running :=
  if r.ended then r
  else
    let now := r.now + interval
    let ((ok, condition), applied) := r.condition.executeCondition now interval field
    { condition, now, applied := r.applied ++ applied, ended := !ok }

/-- Calls one after another. `fields k` is what call `k` finds. -/
def calls (interval : Int) : (Nat → Field) → Nat → Running → Running
  | _, 0, r => r
  | fields, k + 1, r => calls interval (fun j => fields (j + 1)) k (r.call interval (fields 0))

end Running

/-- Every entry, and the number of entries that are left with it. -/
def schedule : List Interval → List (Int × Nat)
  | [] => []
  | damageInfo :: rest => (damageInfo.value, rest.length + 1) :: schedule rest

/-- The condition ends, and until then has applied every entry of the list once and in order. -/
def Delivers (interval : Int) (fields : Nat → Field) (r : Running) (expected : List (Int × Nat)) : Prop :=
  ∃ k, (r.calls interval fields k).ended = true ∧ (r.calls interval fields k).applied = r.applied ++ expected

/-! ## When it does

`margin k` is how much the end is ahead of the clock after `k` calls. A call in the field of the condition's own type
leaves it as it is, any other takes the interval off it. -/

def nextMargin (interval : Int) (field : Field) (margin : Int) : Int :=
  if field = .own ∧ 0 < margin then margin else margin - interval

def marginAfter (interval : Int) : (Nat → Field) → Int → Nat → Int
  | _, margin, 0 => margin
  | fields, margin, k + 1 =>
    marginAfter interval (fun j => fields (j + 1)) (nextMargin interval (fields 0) margin) k

/-- The calls that an entry of this time waits for. -/
def turns (interval time : Int) : Nat := ((time + interval - 1) / interval).toNat

/-- Every entry falls due before the condition has ended, and none but the last while the creature stands in the field
of the condition's own type; the last may, where the condition ends before the entry is due again. -/
def Met (interval : Int) : List Int → Int → (Nat → Field) → Prop
  | [], _, _ => True
  | time :: times, margin, fields =>
    0 ≤ marginAfter interval fields margin (turns interval time - 1) ∧
    if fields (turns interval time - 1) = .own then
      times = [] ∧ marginAfter interval fields margin (2 * turns interval time - 1) < 0
    else
      Met interval times (marginAfter interval fields margin (turns interval time)) fun j =>
        fields (j + turns interval time)

/-! ## Margins -/

theorem nextMargin_le {interval : Int} (hinterval : 0 < interval) (field : Field) (margin : Int) :
    nextMargin interval field margin ≤ margin := by
  unfold nextMargin
  split <;> omega

theorem marginAfter_add (interval : Int) (j : Nat) : ∀ (fields : Nat → Field) (margin : Int) (k : Nat),
    marginAfter interval fields margin (j + k) =
      marginAfter interval (fun i => fields (i + j)) (marginAfter interval fields margin j) k := by
  induction j with
  | zero => intro fields margin k; rw [Nat.zero_add]; rfl
  | succ j ih =>
    intro fields margin k
    rw [Nat.add_right_comm]
    exact ih (fun i => fields (i + 1)) _ k

theorem marginAfter_le {interval : Int} (hinterval : 0 < interval) (k : Nat) : ∀ (fields : Nat → Field) (margin : Int),
    marginAfter interval fields margin k ≤ margin := by
  induction k with
  | zero => exact fun _ _ => le_rfl
  | succ k ih => exact fun fields margin => (ih _ _).trans (nextMargin_le hinterval _ _)

theorem turns_spec {interval time : Int} (hinterval : 0 < interval) (htime : 0 < time) :
    0 < turns interval time ∧ ((turns interval time - 1 : Nat) : Int) * interval < time ∧
      time ≤ (turns interval time : Int) * interval := by
  have hdiv := Int.mul_ediv_add_emod (time + interval - 1) interval
  have hmod := Int.emod_nonneg (time + interval - 1) hinterval.ne'
  have hlt := Int.emod_lt_of_pos (time + interval - 1) hinterval
  have hpos : 1 ≤ (time + interval - 1) / interval := (Int.le_ediv_iff_mul_le hinterval).mpr (by omega)
  have hturns : (turns interval time : Int) = (time + interval - 1) / interval := Int.toNat_of_nonneg (by omega)
  have hone : 0 < turns interval time := by omega
  have hsub : ((turns interval time - 1 : Nat) : Int) = (time + interval - 1) / interval - 1 := by omega
  rw [hsub, hturns, Int.sub_mul, Int.mul_comm _ interval]
  omega

/-! ## One call -/

theorem int32_eq {x : Int} (hlow : -2 ^ 31 ≤ x) (hhigh : x < 2 ^ 31) : int32 x = x := by
  unfold int32
  apply Int.bmod_eq_of_le
  all_goals omega

/-- The clock is `margin` before the end of the condition, which has ended when it is past it. -/
structure At (r : Running) (margin : Int) : Prop where
  period : r.condition.periodDamage = 0
  ended : r.ended = decide (margin < 0)
  endTime : r.condition.endTime - r.now = margin
  ticks : 0 ≤ margin → r.condition.ticks = margin
  bound : margin < 2 ^ 31

theorem executeBase_eq (now : Int) {interval : Int} (c : DamageCondition) (hticks : 0 ≤ c.ticks) (hb : c.ticks < 2 ^ 31)
    (hinterval : 0 ≤ interval) (hbound : interval < 2 ^ 31) :
    c.executeBase now interval = (decide (now ≤ c.endTime), { c with ticks := max 0 (c.ticks - interval) }) := by
  unfold DamageCondition.executeBase
  rw [if_neg (by omega), int32_eq (by omega) (by omega)]

theorem executeCondition_entry (now : Int) {interval : Int} (field : Field) {c : DamageCondition}
    (hperiod : c.periodDamage = 0)
    {e : Interval} {es : List Interval} (hlist : c.damageList = e :: es) (hticks : 0 ≤ c.ticks) (hb : c.ticks < 2 ^ 31)
    (hinterval : 0 < interval) (hbound : interval < 2 ^ 31) :
    let endTime := if field = .own ∧ 0 < c.ticks then c.endTime + interval else c.endTime
    c.executeCondition now interval field =
      ((decide (now ≤ endTime), { c with
        endTime
        ticks := if field = .own then c.ticks else max 0 (c.ticks - interval)
        damageList :=
          if e.timeLeft ≤ interval then (if field = .own then { e with timeLeft := e.interval } :: es else es)
          else { e with timeLeft := e.timeLeft - interval } :: es }),
        if e.timeLeft ≤ interval then [(e.value, es.length + 1)] else []) := by
  have hticks' : decide (c.ticks ≠ -1) = true := decide_eq_true (by omega)
  have hdue : e.timeLeft - interval ≤ 0 ↔ e.timeLeft ≤ interval := by omega
  unfold DamageCondition.executeCondition
  simp only [hperiod, ne_eq, not_true_eq_false, if_false, hlist, hticks', hdue]
  by_cases hown : field = .own
  · subst hown
    simp only [Field.onTickCondition, Bool.not_false, true_and, Bool.false_eq_true, if_false, if_true]
    rw [executeBase_eq _ _ (by split <;> exact hticks) (by split <;> exact hb) le_rfl (by decide)]
    split
    · simp [hticks]
    · simp [hticks]
  · have hkeep : field.onTickCondition true = true := by
      cases field
      · rfl
      · exact absurd rfl hown
      · rfl
    simp only [hkeep, Bool.not_true, Bool.false_eq_true, false_and, if_false, hown, if_true]
    rw [executeBase_eq _ _ (by exact hticks) (by exact hb) hinterval.le hbound]

section Calls

variable {interval : Int} (hinterval : 0 < interval) (hbound : interval < 2 ^ 31)

include hinterval hbound in
/-- A call counts the first entry down, and applies it when its time is over. -/
theorem At.call {r : Running} {margin : Int} (h : At r margin) (hmargin : 0 ≤ margin) {e : Interval} {es : List Interval}
    (hlist : r.condition.damageList = e :: es) (field : Field) :
    At (r.call interval field) (nextMargin interval field margin) ∧
    (r.call interval field).condition.damageList =
      (if e.timeLeft ≤ interval then (if field = .own then { e with timeLeft := e.interval } :: es else es)
        else { e with timeLeft := e.timeLeft - interval } :: es) ∧
    (r.call interval field).applied = r.applied ++ if e.timeLeft ≤ interval then [(e.value, es.length + 1)] else [] := by
  have hended : r.ended = false := by rw [h.ended, decide_eq_false (by omega)]
  have hticks := h.ticks hmargin
  have hendTime := h.endTime
  have hb := h.bound
  have hrun := executeCondition_entry (r.now + interval) field h.period hlist (by omega)
    (by omega : r.condition.ticks < 2 ^ 31) hinterval hbound
  unfold Running.call
  rw [hended]
  simp only [Bool.false_eq_true, if_false, hrun, and_true]
  refine ⟨h.period, ?_, ?_, ?_, ?_⟩
  · simp only [nextMargin, hticks]
    split <;> (rw [← decide_not, decide_eq_decide]; omega)
  · simp only [nextMargin, hticks]
    split <;> omega
  · intro hnext
    simp only [nextMargin, hticks] at hnext ⊢
    by_cases hown : field = .own
    · have hpos : 0 < margin := by
        by_contra hzero
        rw [if_neg fun h => hzero h.2] at hnext
        omega
      rw [if_pos hown, if_pos ⟨hown, hpos⟩]
    · rw [if_neg fun h => hown h.1] at hnext
      rw [if_neg hown, if_neg fun h => hown h.1, max_eq_right hnext]
  · have hle := nextMargin_le hinterval field margin
    omega

include hinterval hbound in
/-- Without an entry the clock runs on. -/
theorem At.call_nil {r : Running} {margin : Int} (h : At r margin) (hmargin : 0 ≤ margin)
    (hlist : r.condition.damageList = []) (field : Field) :
    At (r.call interval field) (margin - interval) ∧ (r.call interval field).condition.damageList = [] ∧
      (r.call interval field).applied = r.applied := by
  have hended : r.ended = false := by rw [h.ended, decide_eq_false (by omega)]
  have hticks := h.ticks hmargin
  have hendTime := h.endTime
  have hb := h.bound
  have hbase := executeBase_eq (r.now + interval) r.condition (by omega) (by omega) hinterval.le hbound
  unfold Running.call
  rw [hended]
  simp only [Bool.false_eq_true, if_false, DamageCondition.executeCondition, h.period, ne_eq, not_true_eq_false, hlist,
    hbase, List.append_nil, and_true]
  refine ⟨rfl, ?_, ?_, fun hnext => ?_, ?_⟩
  · rw [← decide_not, decide_eq_decide]
    omega
  · show r.condition.endTime - (r.now + interval) = margin - interval
    omega
  · rw [hticks, max_eq_right hnext]
  · omega

end Calls

/-! ## Several calls -/

theorem call_of_ended (interval : Int) (field : Field) {r : Running} (h : r.ended = true) :
    r.call interval field = r := by
  rw [Running.call, h, if_pos rfl]

theorem calls_of_ended (interval : Int) (k : Nat) : ∀ (fields : Nat → Field) {r : Running}, r.ended = true →
    r.calls interval fields k = r := by
  induction k with
  | zero => exact fun _ _ _ => rfl
  | succ k ih =>
    intro fields r h
    rw [Running.calls, call_of_ended interval _ h]
    exact ih _ h

theorem calls_add (interval : Int) (j : Nat) : ∀ (fields : Nat → Field) (r : Running) (k : Nat),
    r.calls interval fields (j + k) = (r.calls interval fields j).calls interval (fun i => fields (i + j)) k := by
  induction j with
  | zero => intro fields r k; rw [Nat.zero_add]; rfl
  | succ j ih =>
    intro fields r k
    rw [Nat.add_right_comm]
    exact ih (fun i => fields (i + 1)) _ k

/-- Once the condition has ended, what it has applied does not change. -/
theorem delivers_of_ended {interval : Int} {fields : Nat → Field} {r : Running} {k : Nat}
    (h : (r.calls interval fields k).ended = true) (expected : List (Int × Nat)) :
    Delivers interval fields r expected ↔ (r.calls interval fields k).applied = r.applied ++ expected := by
  constructor
  · rintro ⟨k', hended, happlied⟩
    rw [← happlied]
    obtain hle | hle := Nat.le_total k k'
    · obtain ⟨d, rfl⟩ := Nat.exists_eq_add_of_le hle
      rw [calls_add, calls_of_ended interval d _ h]
    · obtain ⟨d, rfl⟩ := Nat.exists_eq_add_of_le hle
      rw [calls_add, calls_of_ended interval d _ hended]
  · exact fun happlied => ⟨k, h, happlied⟩

/-- What was applied first is the head of what is expected. -/
theorem delivers_after {interval : Int} {fields : Nat → Field} {r : Running} {j : Nat} (first : List (Int × Nat))
    (h : (r.calls interval fields j).applied = r.applied ++ first) (rest : List (Int × Nat)) :
    Delivers interval fields r (first ++ rest) ↔
      Delivers interval (fun i => fields (i + j)) (r.calls interval fields j) rest := by
  unfold Delivers
  simp only [← calls_add, h, List.append_assoc]
  constructor
  · rintro ⟨k, hended, happlied⟩
    refine ⟨k, ?_⟩
    have hsame : r.calls interval fields (j + k) = r.calls interval fields k := by
      rw [Nat.add_comm, calls_add, calls_of_ended interval j _ hended]
    rw [hsame]
    exact ⟨hended, happlied⟩
  · rintro ⟨k, hended, happlied⟩
    exact ⟨j + k, hended, happlied⟩


section Waiting

variable {interval : Int} (hinterval : 0 < interval) (hbound : interval < 2 ^ 31)

include hinterval hbound in
/-- While the first entry is not due, calls only count it down, and the condition may end. -/
theorem At.wait (k : Nat) : ∀ (fields : Nat → Field) {r : Running} {margin : Int} {e : Interval} {es : List Interval},
    At r margin → r.condition.damageList = e :: es → k * interval < e.timeLeft →
    (r.calls interval fields k).applied = r.applied ∧
    (0 ≤ marginAfter interval fields margin k → At (r.calls interval fields k) (marginAfter interval fields margin k) ∧
      (r.calls interval fields k).condition.damageList = { e with timeLeft := e.timeLeft - k * interval } :: es) ∧
    (marginAfter interval fields margin k < 0 → (r.calls interval fields k).ended = true) := by
  induction k with
  | zero =>
    intro fields r margin e es h hlist _
    refine ⟨rfl, fun _ => ⟨h, by simp [Running.calls, hlist]⟩, fun hneg => ?_⟩
    exact h.ended.trans (decide_eq_true hneg)
  | succ k ih =>
    intro fields r margin e es h hlist hdue
    by_cases hmargin : 0 ≤ margin
    · obtain ⟨hat, hlist', happlied⟩ := h.call hinterval hbound hmargin hlist (fields 0)
      have hfirst : ¬ e.timeLeft ≤ interval := by
        have hk : (0 : Int) ≤ k * interval := by positivity
        rw [Nat.cast_succ, Int.add_mul, Int.one_mul] at hdue
        omega
      rw [if_neg hfirst] at hlist' happlied
      obtain ⟨hsame, hgoes, hends⟩ := ih (fun i => fields (i + 1)) hat hlist' (by
        rw [Nat.cast_succ, Int.add_mul, Int.one_mul] at hdue
        dsimp only
        omega)
      refine ⟨hsame.trans (happlied.trans (List.append_nil _)), fun hnext => ?_, hends⟩
      obtain ⟨hat', hlist''⟩ := hgoes hnext
      refine ⟨hat', hlist''.trans ?_⟩
      rw [Nat.cast_succ, Int.add_mul, Int.one_mul]
      simp only [Int.sub_sub, Int.add_comm]
    · have hended : r.ended = true := h.ended.trans (decide_eq_true (by omega))
      rw [calls_of_ended interval _ _ hended]
      exact ⟨rfl, fun hnext => absurd ((marginAfter_le hinterval _ fields margin).trans' hnext) hmargin, fun _ => hended⟩

include hinterval hbound in
/-- When every entry has been applied, the condition ends. -/
theorem At.delivers_nil (n : Nat) : ∀ (fields : Nat → Field) {r : Running} {margin : Int}, At r margin → margin < n →
    r.condition.damageList = [] → Delivers interval fields r [] := by
  induction n with
  | zero =>
    intro fields r margin h hmargin _
    exact ⟨0, h.ended.trans (decide_eq_true hmargin), (List.append_nil _).symm⟩
  | succ n ih =>
    intro fields r margin h hmargin hlist
    by_cases hneg : margin < 0
    · exact ⟨0, h.ended.trans (decide_eq_true hneg), (List.append_nil _).symm⟩
    · obtain ⟨hat, hlist', happlied⟩ := h.call_nil hinterval hbound (by omega) hlist (fields 0)
      have hrest := ih (fun i => fields (i + 1)) hat (by omega) hlist'
      exact (delivers_after (j := 1) [] (happlied.trans (List.append_nil _).symm) []).mpr hrest

theorem schedule_eq_nil {es : List Interval} : schedule es = [] ↔ es = [] := by
  cases es <;> simp [schedule]

include hinterval hbound in
/-- The first entry is due at its turn; what has been applied by then is that entry. -/
theorem At.due {fields : Nat → Field} {r : Running} {margin : Int} {e : Interval} {es : List Interval} (h : At r margin)
    (hlist : r.condition.damageList = e :: es) (htime : 0 < e.timeLeft)
    (hmet : 0 ≤ marginAfter interval fields margin (turns interval e.timeLeft - 1)) :
    let c := turns interval e.timeLeft
    At (r.calls interval fields c) (marginAfter interval fields margin c) ∧
    (r.calls interval fields c).condition.damageList =
      (if fields (c - 1) = .own then { e with timeLeft := e.interval } :: es else es) ∧
    (r.calls interval fields c).applied = r.applied ++ [(e.value, es.length + 1)] := by
  obtain ⟨hpos, hlow, hhigh⟩ := turns_spec hinterval htime
  obtain ⟨hsame, hgoes, -⟩ := h.wait hinterval hbound (turns interval e.timeLeft - 1) fields hlist hlow
  obtain ⟨hat, hlist'⟩ := hgoes hmet
  have hc : turns interval e.timeLeft = turns interval e.timeLeft - 1 + 1 := by omega
  obtain ⟨hat', hlist'', happlied⟩ := hat.call hinterval hbound hmet hlist' (fields (turns interval e.timeLeft - 1))
  have hlast : e.timeLeft - ((turns interval e.timeLeft - 1 : Nat) : Int) * interval ≤ interval := by
    have hcast : ((turns interval e.timeLeft - 1 : Nat) : Int) = turns interval e.timeLeft - 1 := by omega
    rw [hcast, Int.sub_mul, Int.one_mul]
    omega
  rw [if_pos hlast] at hlist'' happlied
  have hrun : r.calls interval fields (turns interval e.timeLeft) =
      (r.calls interval fields (turns interval e.timeLeft - 1)).call interval
        (fields (turns interval e.timeLeft - 1)) := by
    conv_lhs => rw [hc, calls_add]
    simp [Running.calls]
  have hmargin : marginAfter interval fields margin (turns interval e.timeLeft) =
      nextMargin interval (fields (turns interval e.timeLeft - 1))
        (marginAfter interval fields margin (turns interval e.timeLeft - 1)) := by
    conv_lhs => rw [hc, marginAfter_add]
    simp [marginAfter]
  dsimp only
  rw [hrun, hmargin]
  exact ⟨hat', hlist'', by rw [happlied, hsame]⟩

theorem applied_calls (interval : Int) (k : Nat) : ∀ (fields : Nat → Field) (r : Running),
    r.applied <+: (r.calls interval fields k).applied := by
  induction k with
  | zero => exact fun _ r => List.prefix_refl _
  | succ k ih =>
    intro fields r
    refine List.IsPrefix.trans ?_ (ih (fun i => fields (i + 1)) _)
    unfold Running.call
    split
    · exact List.prefix_refl _
    · exact List.prefix_append _ _

theorem schedule_snd_le (es : List Interval) : ∀ x ∈ schedule es, x.2 ≤ es.length := by
  induction es with
  | nil => exact fun x hx => absurd hx (List.not_mem_nil)
  | cons e es ih =>
    intro x hx
    obtain rfl | hx := List.mem_cons.mp hx
    · exact le_rfl
    · exact (ih x hx).trans (Nat.le_succ _)

/-- An entry that was applied and is applied again is not what comes next. -/
theorem not_delivers_again {fields : Nat → Field} {r : Running} {c : Nat} {value : Int} {es : List Interval}
    (h : (r.calls interval fields c).applied = r.applied ++ [(value, es.length + 1)]) :
    ¬ Delivers interval fields r (schedule es) := by
  rintro ⟨k, hended, happlied⟩
  have hsame : r.calls interval fields (c + k) = r.calls interval fields k := by
    rw [Nat.add_comm, calls_add, calls_of_ended interval c _ hended]
  have hhead := applied_calls interval k (fun i => fields (i + c)) (r.calls interval fields c)
  rw [← calls_add, hsame, h, happlied, List.prefix_append_right_inj] at hhead
  have hle := schedule_snd_le es _ (hhead.subset (List.mem_singleton_self _))
  exact Nat.not_succ_le_self _ hle

include hinterval hbound in
/-- An entry that stays after it was applied is the last one, and must not be due again. -/
theorem At.delivers_rest_iff {fields : Nat → Field} {r : Running} {margin : Int} {e : Interval} {es : List Interval}
    (h : At r margin) (hlist : r.condition.damageList = e :: es) (htime : 0 < e.timeLeft) :
    Delivers interval fields r (schedule es) ↔
      es = [] ∧ marginAfter interval fields margin (turns interval e.timeLeft - 1) < 0 := by
  by_cases hmet : 0 ≤ marginAfter interval fields margin (turns interval e.timeLeft - 1)
  · obtain ⟨-, -, happlied⟩ := h.due hinterval hbound hlist htime hmet
    exact ⟨fun hdelivers => absurd hdelivers (not_delivers_again happlied), fun hrest => absurd hrest.2 (by omega)⟩
  · obtain ⟨-, hlow, -⟩ := turns_spec hinterval htime
    obtain ⟨hsame, -, hends⟩ := h.wait hinterval hbound (turns interval e.timeLeft - 1) fields hlist hlow
    rw [delivers_of_ended (hends (by omega)), hsame, List.self_eq_append_right, schedule_eq_nil]
    exact ⟨fun hes => ⟨hes, by omega⟩, fun hrest => hrest.1⟩

include hinterval hbound in
theorem At.delivers_iff (es : List Interval) : ∀ (fields : Nat → Field) {r : Running} {margin : Int}, At r margin →
    r.condition.damageList = es → (∀ e ∈ es, e.timeLeft = e.interval ∧ 0 < e.interval) →
    (Delivers interval fields r (schedule es) ↔ Met interval (es.map (·.interval)) margin fields) := by
  induction es with
  | nil =>
    intro fields r margin h hlist _
    have hend := h.delivers_nil hinterval hbound (margin + 1).toNat fields (by omega) hlist
    exact ⟨fun _ => trivial, fun _ => hend⟩
  | cons e es ih =>
    intro fields r margin h hlist hes
    obtain ⟨htime, hpos⟩ := hes e List.mem_cons_self
    have hes' : ∀ e ∈ es, e.timeLeft = e.interval ∧ 0 < e.interval := fun d hd => hes d (List.mem_cons_of_mem _ hd)
    obtain ⟨hturns, hlow, -⟩ := turns_spec hinterval hpos
    simp only [List.map_cons, Met]
    by_cases hmet : 0 ≤ marginAfter interval fields margin (turns interval e.interval - 1)
    · rw [← htime] at hmet
      obtain ⟨hat, hlist', happlied⟩ := h.due hinterval hbound hlist (by omega) hmet
      rw [htime] at hmet hat hlist' happlied
      rw [show schedule (e :: es) = [(e.value, es.length + 1)] ++ schedule es from rfl, delivers_after _ happlied]
      simp only [hmet, true_and]
      by_cases hown : fields (turns interval e.interval - 1) = .own
      · rw [if_pos hown] at hlist' ⊢
        rw [hat.delivers_rest_iff hinterval hbound hlist' (by exact hpos), List.map_eq_nil_iff, ← marginAfter_add]
        rw [show turns interval e.interval + (turns interval e.interval - 1) = 2 * turns interval e.interval - 1 by omega]
      · rw [if_neg hown] at hlist' ⊢
        exact ih (fun i => fields (i + turns interval e.interval)) hat hlist' hes'
    · obtain ⟨hsame, -, hends⟩ := h.wait hinterval hbound (turns interval e.interval - 1) fields hlist (by rwa [htime])
      rw [delivers_of_ended (hends (by omega)), hsame]
      simp [hmet, schedule]

end Waiting

/-! ## Building and starting -/

theorem int32_range (x : Int) : -2 ^ 31 ≤ int32 x ∧ int32 x < 2 ^ 31 := by
  have hlow := Int.le_bmod (x := x) (m := 2 ^ 32) (by decide)
  have hhigh := Int.bmod_lt (x := x) (m := 2 ^ 32) (by decide)
  unfold int32
  omega

/-- A call of `addDamage`, at a time. -/
structure AddCall where
  now : Int
  rounds : BitVec 32
  time : BitVec 32
  value : BitVec 32

def AddCall.run (c : DamageCondition) (a : AddCall) : DamageCondition :=
  (c.addDamage a.now a.rounds.toInt a.time.toInt a.value.toInt).2

def build (adds : List AddCall) : DamageCondition := adds.foldl AddCall.run {}

/-- What calls of `addDamage` without periodic damage make. A single entry leaves the ticks positive; more may make them
wrap around. -/
structure Built (c : DamageCondition) : Prop where
  period : c.periodDamage = 0
  tickInterval : c.tickInterval = 2000
  entries : ∀ e ∈ c.damageList, e.timeLeft = e.interval ∧ 0 < e.interval
  low : -2 ^ 31 ≤ c.ticks
  high : c.ticks < 2 ^ 31
  none : c.damageList = [] → c.ticks = 0
  one : c.damageList.length = 1 → 0 < c.ticks

theorem Built.addRounds (now : Int) {damageInfo : Interval} (hleft : damageInfo.timeLeft = damageInfo.interval)
    (hpos : 0 < damageInfo.interval) (hbound : damageInfo.interval < 2 ^ 31) (rounds : Nat) :
    ∀ {c : DamageCondition}, Built c → Built (c.addRounds now damageInfo rounds) := by
  induction rounds with
  | zero => exact fun h => h
  | succ rounds ih =>
    intro c h
    apply ih
    have hentries : ∀ e ∈ c.damageList ++ [damageInfo], e.timeLeft = e.interval ∧ 0 < e.interval := by
      intro e he
      obtain he | he := List.mem_append.mp he
      · exact h.entries e he
      · rw [List.mem_singleton.mp he]
        exact ⟨hleft, hpos⟩
    dsimp only
    split
    · obtain ⟨hlow, hhigh⟩ := int32_range (c.ticks + damageInfo.interval)
      refine ⟨h.period, h.tickInterval, hentries, hlow, hhigh, ?_, ?_⟩
      · simp [DamageCondition.setTicks]
      · intro hone
        have hnil : c.damageList = [] := by simpa [DamageCondition.setTicks] using hone
        show 0 < int32 (c.ticks + damageInfo.interval)
        rw [h.none hnil, Int.zero_add, int32_eq (by omega) hbound]
        exact hpos
    · rename_i hforever
      refine ⟨h.period, h.tickInterval, hentries, h.low, h.high, by simp, ?_⟩
      intro hone
      have hnil : c.damageList = [] := by simpa using hone
      have hzero := h.none hnil
      omega

theorem Built.addDamage (now : Int) {rounds time : Int} (value : Int) (hrounds : 0 < rounds) (htime : time < 2 ^ 31)
    {c : DamageCondition} (h : Built c) : Built (c.addDamage now rounds time value).2 := by
  have hperiod := h.period
  have hmax : 0 < max time EVENT_CREATURE_THINK_INTERVAL ∧ max time EVENT_CREATURE_THINK_INTERVAL < 2 ^ 31 := by
    unfold EVENT_CREATURE_THINK_INTERVAL
    omega
  unfold DamageCondition.addDamage
  dsimp only
  rw [if_neg (by omega), if_neg (by omega)]
  exact h.addRounds now rfl hmax.1 hmax.2 _

theorem built_build {adds : List AddCall} (hadds : ∀ a ∈ adds, 0 < a.rounds.toInt) : Built (build adds) := by
  have hfold : ∀ (adds : List AddCall) (c : DamageCondition), (∀ a ∈ adds, 0 < a.rounds.toInt) → Built c →
      Built (adds.foldl AddCall.run c) := by
    intro adds
    induction adds with
    | nil => exact fun c _ h => h
    | cons a adds ih =>
      intro c hadds h
      have ha := h.addDamage a.now a.value.toInt (hadds a List.mem_cons_self) (BitVec.toInt_lt (x := a.time))
      exact ih _ (fun b hb => hadds b (List.mem_cons_of_mem _ hb)) ha
  exact hfold adds {} hadds ⟨rfl, rfl, by simp, by decide, by decide, fun _ => rfl, by simp⟩

/-- The rounds move the end with the ticks. -/
theorem endTime_addRounds (now : Int) (damageInfo : Interval) (rounds : Nat) : ∀ {c : DamageCondition},
    c.endTime = c.ticks + now → (c.addRounds now damageInfo rounds).endTime =
      (c.addRounds now damageInfo rounds).ticks + now := by
  induction rounds with
  | zero => exact fun h => h
  | succ rounds ih =>
    intro c h
    apply ih
    dsimp only
    split
    · rfl
    · exact h

/-- A condition that has started: its end is its ticks ahead of the clock, or behind the clock where they wrapped. -/
structure Started (now : Nat) (c : DamageCondition) : Prop extends Built c where
  some : c.damageList ≠ []
  ahead : 0 < c.ticks → c.endTime = c.ticks + now
  behind : c.ticks ≤ 0 → c.ticks ≠ -1 → c.endTime ≤ now

/-- The condition before its list is looked at. -/
def begun (now : Int) (c : DamageCondition) : DamageCondition :=
  if 0 < c.clone.ticks ∧ c.clone.endTime = 0 then { c.clone with endTime := c.clone.ticks + now } else c.clone

theorem Built.begun (now : Int) {c : DamageCondition} (h : Built c) : Built (begun now c) := by
  unfold Condition.begun
  split <;> exact ⟨h.period, h.tickInterval, h.entries, h.low, h.high, h.none, h.one⟩

theorem begun_endTime (now : Nat) (c : DamageCondition) :
    (0 < (begun now c).ticks → (begun now c).endTime = (begun now c).ticks + now) ∧
    ((begun now c).ticks ≤ 0 → (begun now c).ticks ≠ -1 → (begun now c).endTime ≤ now) := by
  unfold begun
  by_cases hpos : 0 < c.ticks
  · have hzero : c.clone.endTime = 0 := if_neg (by omega)
    rw [if_pos ⟨hpos, hzero⟩]
    exact ⟨fun _ => rfl, fun hneg => absurd hpos (by exact Int.not_lt.mpr hneg)⟩
  · rw [if_neg fun h => hpos h.1]
    refine ⟨fun h => absurd h hpos, fun _ hforever => ?_⟩
    rw [show c.clone.endTime = 0 from if_neg hforever]
    exact Int.natCast_nonneg now

/-- The generated list is built in the same way, at the time of the start. -/
theorem built_generated (now : Int) (generated : List Int) : ∀ {c : DamageCondition}, Built c →
    c.endTime = c.ticks + now →
    let c' := generated.foldl (fun c value => (c.addDamage now 1 c.tickInterval (-value)).2) c
    Built c' ∧ c'.endTime = c'.ticks + now := by
  induction generated with
  | nil => exact fun h hend => ⟨h, hend⟩
  | cons value generated ih =>
    intro c h hend
    have htime : c.tickInterval < 2 ^ 31 := by rw [h.tickInterval]; decide
    refine ih (h.addDamage now (-value) (by decide) htime) ?_
    have hperiod := h.period
    unfold DamageCondition.addDamage
    dsimp only
    rw [if_neg (by decide), if_neg (by omega)]
    exact endTime_addRounds now _ _ hend

theorem started_startCondition {now : Nat} {delayed damaged : Bool} {generated : List Int} {c c' : DamageCondition}
    (hc : Built c) (hstart : c.clone.startCondition now delayed damaged generated = some c') : Started now c' := by
  have hbegun := hc.begun now
  obtain ⟨hahead, hbehind⟩ := begun_endTime now c
  have hinit : (begun now c).init now generated = (true, c') := by
    unfold DamageCondition.startCondition at hstart
    change (if (!delayed && !damaged) = true then none
      else if ((begun now c).init now generated).1 = true then some ((begun now c).init now generated).2 else none) =
        some c' at hstart
    split at hstart
    · cases hstart
    · split at hstart
      · rename_i hok
        exact Prod.ext hok (Option.some.inj hstart)
      · cases hstart
  unfold DamageCondition.init at hinit
  rw [if_neg (not_not.mpr hbegun.period)] at hinit
  split at hinit
  · rename_i hsome
    obtain rfl := (Prod.mk.inj hinit).2
    exact ⟨hbegun, by simpa using hsome, hahead, hbehind⟩
  · rename_i hnone
    have hempty : (begun now c).damageList = [] := by simpa using hnone
    have hzero : Built ((begun now c).setTicks now 0) :=
      ⟨hbegun.period, hbegun.tickInterval, hbegun.entries, (by show (-2 ^ 31 : Int) ≤ 0; decide),
        (by show (0 : Int) < 2 ^ 31; decide), fun _ => rfl,
        fun hone => absurd hone (by simp [DamageCondition.setTicks, hempty])⟩
    obtain ⟨hbuilt, hend⟩ := built_generated now generated hzero rfl
    obtain ⟨hok, rfl⟩ := Prod.mk.inj hinit
    refine ⟨hbuilt, by simpa using hok, fun _ => hend, fun hneg _ => ?_⟩
    rw [hend]
    omega

/-! ## Conditions whose ticks wrapped around -/

/-- At -1 the ticks say that the condition never ends. -/
theorem never_ends (interval : Int) (k : Nat) : ∀ (fields : Nat → Field) {r : Running}, r.condition.periodDamage = 0 →
    r.condition.ticks = -1 → r.ended = false → (r.calls interval fields k).ended = false := by
  induction k with
  | zero => exact fun _ _ _ _ hended => hended
  | succ k ih =>
    intro fields r hperiod hticks hended
    have hcall : (r.call interval (fields 0)).condition.periodDamage = 0 ∧
        (r.call interval (fields 0)).condition.ticks = -1 ∧ (r.call interval (fields 0)).ended = false := by
      unfold Running.call
      rw [hended]
      simp only [Bool.false_eq_true, if_false, DamageCondition.executeCondition, hperiod, ne_eq, not_true_eq_false]
      cases hlist : r.condition.damageList with
      | nil => simp [DamageCondition.executeBase, hticks, hperiod]
      | cons e es =>
        have hforever : ¬ (0 < r.condition.ticks) := by omega
        simp [DamageCondition.executeBase, hticks]
    exact ih _ hcall.1 hcall.2.1 hcall.2.2

/-- Behind the clock the condition ends with its first call, which applies one entry at most. -/
theorem ends_at_once {now : Nat} {interval : Int} (hinterval : 0 < interval) {c : DamageCondition} (h : Started now c)
    (hneg : c.ticks ≤ 0) (hforever : c.ticks ≠ -1) (field : Field) :
    let r : Running := { condition := c, now := now }
    (r.call interval field).ended = true ∧ (r.call interval field).applied.length ≤ 1 := by
  have hbehind := h.behind hneg hforever
  have hlate : ¬ ((now : Int) + interval ≤ c.endTime) := by omega
  have hstays : ¬ (0 < c.ticks) := by omega
  dsimp only [Running.call]
  simp only [Bool.false_eq_true, if_false, DamageCondition.executeCondition, h.period, ne_eq, not_true_eq_false]
  cases hlist : c.damageList with
  | nil => exact absurd hlist h.some
  | cons e es =>
    simp only [hstays, and_false, if_false, DamageCondition.executeBase, hforever, hlate, decide_false, Bool.not_false,
      true_and]
    split <;> simp

theorem length_schedule (es : List Interval) : (schedule es).length = es.length := by
  induction es with
  | nil => rfl
  | cons e es ih => rw [schedule, List.length_cons, List.length_cons, ih]

/-! ## Away from the field -/

theorem marginAfter_of_no_field (interval : Int) (k : Nat) : ∀ {fields : Nat → Field} (margin : Int),
    (∀ j, fields j ≠ .own) → marginAfter interval fields margin k = margin - k * interval := by
  induction k with
  | zero => intro fields margin _; simp [marginAfter]
  | succ k ih =>
    intro fields margin hfields
    rw [marginAfter, ih _ fun j => hfields (j + 1), nextMargin, if_neg fun h => hfields 0 h.1, Nat.cast_succ, Int.add_mul]
    omega

theorem turns_sum_pos {interval : Int} (hinterval : 0 < interval) {times : List Int} (htimes : ∀ t ∈ times, 0 < t)
    (hsome : times ≠ []) : 0 < (times.map (turns interval)).sum := by
  cases times with
  | nil => exact absurd rfl hsome
  | cons time times =>
    have hpos := (turns_spec hinterval (htimes time List.mem_cons_self)).1
    rw [List.map_cons, List.sum_cons]
    omega

/-- Where no call finds the field of the condition's own type, the calls that the entries wait for have to fit. -/
theorem met_iff_of_no_field {interval : Int} (hinterval : 0 < interval) {times : List Int} :
    ∀ {fields : Nat → Field} (margin : Int), (∀ k, fields k ≠ .own) → (∀ t ∈ times, 0 < t) → times ≠ [] →
      (Met interval times margin fields ↔ (((times.map (turns interval)).sum : Int) - 1) * interval ≤ margin) := by
  induction times with
  | nil => exact fun _ _ _ hsome => absurd rfl hsome
  | cons time times ih =>
    intro fields margin hfields htimes _
    have hpos := (turns_spec hinterval (htimes time List.mem_cons_self)).1
    have htimes' : ∀ t ∈ times, 0 < t := fun t ht => htimes t (List.mem_cons_of_mem _ ht)
    rw [Met, if_neg (hfields _), marginAfter_of_no_field interval _ margin hfields,
      marginAfter_of_no_field interval _ margin hfields, Nat.cast_sub hpos, List.map_cons, List.sum_cons, Nat.cast_add]
    by_cases hnil : times = []
    · subst hnil
      simp [Met]
    · have hsum := turns_sum_pos hinterval htimes' hnil
      rw [ih _ (fun k => hfields (k + turns interval time)) htimes' hnil]
      have hmul : (0 : Int) ≤ (((times.map (turns interval)).sum : Nat) - 1 : Int) * interval :=
        Int.mul_nonneg (by omega) hinterval.le
      simp only [Int.sub_mul, Int.add_mul, Nat.cast_one, Int.one_mul] at hmul ⊢
      omega

/-! ## The result -/

/-- A condition that was built by calls of `addDamage`, copied and started delivers its entries exactly when its ticks
did not wrap around and the entries fall due in time. -/
theorem damage_delivered_iff {interval : Int} (hinterval : 0 < interval) (hbound : interval < 2 ^ 31)
    {adds : List AddCall} (hadds : ∀ a ∈ adds, 0 < a.rounds.toInt) {now : Nat} {delayed damaged : Bool}
    {generated : List Int} {c : DamageCondition}
    (hstart : (build adds).clone.startCondition now delayed damaged generated = some c) (fields : Nat → Field) :
    Delivers interval fields { condition := c, now := now } (schedule c.damageList) ↔
      0 < c.ticks ∧ Met interval (c.damageList.map (·.interval)) c.ticks fields := by
  have h := started_startCondition (built_build hadds) hstart
  by_cases hpos : 0 < c.ticks
  · have hat : At { condition := c, now := now } c.ticks := by
      refine ⟨h.period, (decide_eq_false (by omega)).symm, ?_, fun _ => rfl, h.high⟩
      show c.endTime - now = c.ticks
      rw [h.ahead hpos]
      omega
    rw [hat.delivers_iff hinterval hbound c.damageList fields rfl h.entries]
    exact ⟨fun hmet => ⟨hpos, hmet⟩, fun hmet => hmet.2⟩
  · refine ⟨fun hdelivers => ?_, fun hmet => absurd hmet.1 hpos⟩
    by_cases hforever : c.ticks = -1
    · obtain ⟨k, hended, -⟩ := hdelivers
      rw [never_ends interval k fields h.period hforever rfl] at hended
      cases hended
    · obtain ⟨hended, happlied⟩ := ends_at_once hinterval h (Int.not_lt.mp hpos) hforever (fields 0)
      have hended' : (Running.calls interval fields 1 { condition := c, now := now }).ended = true := hended
      have hone := (delivers_of_ended hended' _).mp hdelivers
      have hlen := congrArg List.length hone
      have htwo : 1 < c.damageList.length := by
        have hsome := List.length_pos_iff.mpr h.some
        by_contra hle
        exact hpos (h.one (by omega))
      rw [List.length_append, length_schedule] at hlen
      change ((Running.call interval (fields 0) { condition := c, now := now }).applied.length) = _ at hlen
      dsimp only at hlen happlied
      simp only [List.length_nil, Nat.zero_add] at hlen
      omega

/-- One round of 1.5 seconds. -/
def oneRound : List AddCall := [{ now := 0, rounds := 1, time := 1500, value := -10 }]

theorem oneRound_delivered_iff :
    Delivers 1000 (fun _ => .none)
        { condition := { ticks := 1500, endTime := 1500, damageList := [⟨1500, -10, 1500⟩] }, now := (0 : Nat) }
        (schedule [⟨1500, -10, 1500⟩]) ↔
      (0 : Int) < 1500 ∧ Met 1000 [1500] 1500 fun _ => .none :=
  damage_delivered_iff (by decide) (by decide) (show ∀ a ∈ oneRound, 0 < a.rounds.toInt by decide)
    (show (build oneRound).clone.startCondition (0 : Nat) true true [] =
      some { ticks := 1500, endTime := 1500, damageList := [⟨1500, -10, 1500⟩] } by decide) fun _ => .none

/-- Three rounds of 1.5 seconds, executed once a second: the last is due after 6 seconds, and the condition has ended
after 5. -/
def threeRounds : List AddCall := [{ now := 0, rounds := 3, time := 1500, value := -10 }]

theorem threeRounds_not_delivered :
    ∃ c, (build threeRounds).clone.startCondition 0 true true [] = some c ∧
      ¬ Delivers 1000 (fun _ => .none) { condition := c, now := 0 } (schedule c.damageList) := by
  refine ⟨_, rfl, fun hdelivers => ?_⟩
  have happlied := (delivers_of_ended (k := 5) (by decide) _).mp hdelivers
  revert happlied
  decide

end ForgottenServer.Condition
