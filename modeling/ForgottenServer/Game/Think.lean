import ForgottenServer.Lib.Runs
import ForgottenServer.Lib.Sweep

/-! # The thinking of the creatures

The creatures that think stand in ten lists. Ten times in a second one of the lists is gone through, one after the other.
While that happens, a creature that thinks can put others on the lists or have them taken off, and what is taken off leaves
its place in the list to the last one. -/

namespace ForgottenServer.Think
open Sweep

abbrev EVENT_CREATURECOUNT : Nat := 10

/-- `dead`: the health is used up. -/
structure Creature where
  creatureCheck : Bool := false
  inCheckCreaturesVector : Bool := false
  isDead : Bool := false
  isRemoved : Bool := false
  deriving DecidableEq, Repr

/-- An entry of a list is a pointer, which can be null. `scheduled` is the call of `checkCreatures` in the scheduler, `pass`
the one that is under way and its `i`. The last two fields only tell what happened: the calls that began, and how often
each creature thought. -/
structure Game where
  shutdown : Bool := false
  creatures : Nat → Creature := fun _ => {}
  checkCreatureLists : Fin EVENT_CREATURECOUNT → List (Option Nat) := fun _ => []
  scheduled : Option (Fin EVENT_CREATURECOUNT) := some 0
  pass : Option (Fin EVENT_CREATURECOUNT × Nat) := none
  calls : Nat := 0
  thinks : Nat → Nat := fun _ => 0

inductive Event where
  /-- `index` is the random number; `registered`: the game has a reference of the creature. -/
  | addCreatureCheck (c : Nat) (index : Fin EVENT_CREATURECOUNT) (registered : Bool)
  | removeCreatureCheck (c : Nat)
  /-- A creature loses its health or gets it back. -/
  | setDead (c : Nat) (dead : Bool)
  | setRemoved (c : Nat)
  | setShutdown
  /-- The scheduler calls `checkCreatures`. -/
  | checkCreatures
  /-- `checkCreatures` goes on: one turn of its loop, or its end. -/
  | turn
  deriving DecidableEq, Repr

namespace Game

variable (s : Game)

def setCreature (c : Nat) (creature : Creature) : Game :=
  { s with creatures := Function.update s.creatures c creature }

def setList (index : Fin EVENT_CREATURECOUNT) (list : List (Option Nat)) : Game :=
  { s with checkCreatureLists := Function.update s.checkCreatureLists index list }

def addCreatureCheck (c : Nat) (index : Fin EVENT_CREATURECOUNT) (registered : Bool) : Game :=
  if (s.creatures c).isRemoved || s.shutdown then s
  else
    let checked := s.setCreature c { s.creatures c with creatureCheck := true }
    if (s.creatures c).inCheckCreaturesVector then checked
    else
      (checked.setCreature c { checked.creatures c with inCheckCreaturesVector := true }).setList index
        (s.checkCreatureLists index ++ [if registered then some c else none])

def removeCreatureCheck (c : Nat) : Game :=
  if (s.creatures c).inCheckCreaturesVector then s.setCreature c { s.creatures c with creatureCheck := false } else s

/-- What a creature does when it thinks comes as events of its own before the next turn. -/
def turn (index : Fin EVENT_CREATURECOUNT) (i : Nat) : Game :=
  let list := s.checkCreatureLists index
  match list[i]? with
  | none => { s with pass := none, scheduled := some (index + 1) }
  | some none => s.setList index (swapPop list i)
  | some (some c) =>
    let creature := s.creatures c
    if creature.creatureCheck then
      let next := { s with pass := some (index, i + 1) }
      if !creature.isDead && !creature.isRemoved then { next with thinks := Function.update s.thinks c (s.thinks c + 1) }
      else next.setCreature c { creature with creatureCheck := false }
    else (s.setCreature c { creature with inCheckCreaturesVector := false }).setList index (swapPop list i)

def step : Event → Game
  | .addCreatureCheck c index registered => s.addCreatureCheck c index registered
  | .removeCreatureCheck c => s.removeCreatureCheck c
  | .setDead c dead => s.setCreature c { s.creatures c with isDead := dead }
  | .setRemoved c => s.setCreature c { s.creatures c with isRemoved := true }
  | .setShutdown => { s with shutdown := true }
  | .checkCreatures =>
    match s.pass, s.scheduled with
    | none, some index => { s with pass := some (index, 0), scheduled := none, calls := s.calls + 1 }
    | _, _ => s
  | .turn => s.pass.elim s fun (index, i) => s.turn index i

def run (events : List Event) : Game := events.foldl step s

end Game

/-- How many of the first calls of `checkCreatures` were about a list. -/
def turns (index : Fin EVENT_CREATURECOUNT) (calls : Nat) : Nat :=
  ((List.range calls).filter fun call => call % EVENT_CREATURECOUNT = index).length

theorem turns_succ (index : Fin EVENT_CREATURECOUNT) (calls : Nat) :
    turns index (calls + 1) = turns index calls + if calls % EVENT_CREATURECOUNT = index then 1 else 0 := by
  unfold turns
  rw [List.range_succ, List.filter_append, List.length_append]
  congr 1
  by_cases h : calls % EVENT_CREATURECOUNT = index
  · rw [if_pos h, List.filter_cons_of_pos (by simpa using h)]
    rfl
  · rw [if_neg h, List.filter_cons_of_neg (by simpa using h)]
    rfl

theorem turns_eq (index : Fin EVENT_CREATURECOUNT) (calls : Nat) :
    turns index calls = (calls + (EVENT_CREATURECOUNT - 1 - index)) / EVENT_CREATURECOUNT := by
  have hindex := index.isLt
  induction calls with
  | zero =>
    rw [Nat.zero_add, Nat.div_eq_of_lt (by omega)]
    rfl
  | succ calls ih =>
    rw [turns_succ, ih]
    simp only [EVENT_CREATURECOUNT] at *
    split_ifs <;> omega

/-- Every list has one turn in ten calls. -/
theorem turns_rounds (index : Fin EVENT_CREATURECOUNT) (calls rounds : Nat) :
    turns index (calls + EVENT_CREATURECOUNT * rounds) = turns index calls + rounds := by
  rw [turns_eq, turns_eq]
  simp only [EVENT_CREATURECOUNT]
  omega

namespace Game

variable {s : Game} {c : Nat} {index : Fin EVENT_CREATURECOUNT}

/-- The creature stands once in this list, and in no other one. -/
def Stands (s : Game) (c : Nat) (index : Fin EVENT_CREATURECOUNT) : Prop :=
  ∀ index', (s.checkCreatureLists index').count (some c) = if index' = index then 1 else 0

/-- The creature thinks when it is looked at. -/
def Active (s : Game) (c : Nat) : Prop :=
  (s.creatures c).creatureCheck = true ∧ (s.creatures c).isDead = false ∧ (s.creatures c).isRemoved = false

/-- Every creature stands where it is marked to be, and the lists have their turns in order. -/
structure Kept (s : Game) : Prop where
  stands : ∀ c, (s.creatures c).inCheckCreaturesVector = true → ∃ index, s.Stands c index
  absent : ∀ c, (s.creatures c).inCheckCreaturesVector = false → ∀ index, (s.checkCreatureLists index).count (some c) = 0
  checked : ∀ c, (s.creatures c).creatureCheck = true → (s.creatures c).inCheckCreaturesVector = true
  scheduled : ∀ index, s.scheduled = some index → s.calls % EVENT_CREATURECOUNT = index
  pass : ∀ index i, s.pass = some (index, i) → s.calls % EVENT_CREATURECOUNT = (index + 1 : Fin EVENT_CREATURECOUNT)

/-- Is the creature still to be looked at by the call that is under way? -/
def due (s : Game) (c : Nat) : Nat :=
  s.pass.elim 0 fun (index, i) => ((s.checkCreatureLists index).drop i).count (some c)

/-- What a turn does. -/
theorem turn_cases (s : Game) (index : Fin EVENT_CREATURECOUNT) (i : Nat) :
    (s.checkCreatureLists index).drop i = [] ∧ s.turn index i = { s with pass := none, scheduled := some (index + 1) } ∨
    (s.checkCreatureLists index)[i]? = some none ∧
      s.turn index i = s.setList index (swapPop (s.checkCreatureLists index) i) ∨
    ∃ c, (s.checkCreatureLists index)[i]? = some (some c) ∧
      (s.Active c ∧ s.turn index i =
          { s with pass := some (index, i + 1), thinks := Function.update s.thinks c (s.thinks c + 1) } ∨
        (s.creatures c).creatureCheck = true ∧ ¬ s.Active c ∧ s.turn index i =
          { s with pass := some (index, i + 1) }.setCreature c { s.creatures c with creatureCheck := false } ∨
        (s.creatures c).creatureCheck = false ∧ s.turn index i =
          (s.setCreature c { s.creatures c with inCheckCreaturesVector := false }).setList index
            (swapPop (s.checkCreatureLists index) i)) := by
  unfold turn
  simp only
  cases hentry : (s.checkCreatureLists index)[i]? with
  | none => exact .inl ⟨List.drop_eq_nil_of_le (List.getElem?_eq_none_iff.mp hentry), rfl⟩
  | some entry =>
    cases entry with
    | none => exact .inr (.inl ⟨rfl, rfl⟩)
    | some c =>
      refine .inr (.inr ⟨c, rfl, ?_⟩)
      by_cases hcheck : (s.creatures c).creatureCheck = true
      · by_cases hlives : (!(s.creatures c).isDead && !(s.creatures c).isRemoved) = true
        · have hactive := hlives
          rw [Bool.and_eq_true, Bool.not_eq_true', Bool.not_eq_true'] at hactive
          exact .inl ⟨⟨hcheck, hactive⟩, (if_pos hcheck).trans (if_pos hlives)⟩
        · refine .inr (.inl ⟨hcheck, fun hactive => hlives ?_, (if_pos hcheck).trans (if_neg hlives)⟩)
          rw [hactive.2.1, hactive.2.2]
          rfl
      · exact .inr (.inr ⟨Bool.eq_false_iff.mpr hcheck, if_neg hcheck⟩)

theorem creatures_setCreature_self (s : Game) (c : Nat) (creature : Creature) :
    (s.setCreature c creature).creatures c = creature := Function.update_self _ _ _

theorem creatures_setCreature_of_ne (s : Game) {c c' : Nat} (h : c' ≠ c) (creature : Creature) :
    (s.setCreature c creature).creatures c' = s.creatures c' := Function.update_of_ne h _ _

theorem lists_setList (s : Game) (index : Fin EVENT_CREATURECOUNT) (list : List (Option Nat))
    (index' : Fin EVENT_CREATURECOUNT) (entry : Option Nat) :
    ((s.setList index list).checkCreatureLists index').count entry =
      if index' = index then list.count entry else (s.checkCreatureLists index').count entry := by
  by_cases h : index' = index
  · subst h
    rw [if_pos rfl]
    exact congrArg _ (Function.update_self _ _ _)
  · rw [if_neg h]
    exact congrArg _ (Function.update_of_ne h _ _)

/-! ### The lists -/

/-- Marks that have nothing to do with the lists. -/
theorem Kept.setCreature (h : s.Kept) {creature : Creature}
    (hsame : creature.inCheckCreaturesVector = (s.creatures c).inCheckCreaturesVector)
    (hchecked : creature.creatureCheck = true → creature.inCheckCreaturesVector = true) :
    (s.setCreature c creature).Kept := by
  have hmark (c' : Nat) : ((s.setCreature c creature).creatures c').inCheckCreaturesVector =
      (s.creatures c').inCheckCreaturesVector := by
    by_cases hc : c' = c
    · subst hc
      rw [creatures_setCreature_self, hsame]
    · rw [creatures_setCreature_of_ne s hc]
  refine ⟨fun c' hin => h.stands c' (hmark c' ▸ hin), fun c' hout => h.absent c' (hmark c' ▸ hout), fun c' => ?_,
    h.scheduled, h.pass⟩
  by_cases hc : c' = c
  · subst hc
    rw [creatures_setCreature_self]
    exact hchecked
  · rw [creatures_setCreature_of_ne s hc]
    exact h.checked c'

theorem Kept.push (h : s.Kept) (creature : Creature) (hout : (s.creatures c).inCheckCreaturesVector = false)
    (hin : creature.inCheckCreaturesVector = true) (index : Fin EVENT_CREATURECOUNT) :
    ((s.setCreature c creature).setList index (s.checkCreatureLists index ++ [some c])).Kept := by
  have hcount (c' : Nat) (index' : Fin EVENT_CREATURECOUNT) :
      (((s.setCreature c creature).setList index (s.checkCreatureLists index ++ [some c])).checkCreatureLists
        index').count (some c') =
          (s.checkCreatureLists index').count (some c') + if c' = c ∧ index' = index then 1 else 0 := by
    rw [lists_setList]
    by_cases hindex : index' = index
    · subst hindex
      rw [if_pos rfl, List.count_append, List.count_singleton]
      simp only [beq_iff_eq, Option.some.injEq, and_true, @eq_comm _ c c']
    · rw [if_neg hindex, if_neg fun hboth => hindex hboth.2]
      rfl
  refine ⟨fun c' hin' => ?_, fun c' hout' => ?_, fun c' hcheck => ?_, h.scheduled, h.pass⟩
  · by_cases hc : c' = c
    · subst hc
      refine ⟨index, fun index' => ?_⟩
      rw [hcount, h.absent c' hout, Nat.zero_add]
      simp only [true_and]
    · have hold : (s.creatures c').inCheckCreaturesVector = true := by
        rw [← creatures_setCreature_of_ne s hc creature]
        exact hin'
      obtain ⟨home, hstands⟩ := h.stands c' hold
      refine ⟨home, fun index' => ?_⟩
      rw [hcount, if_neg fun hboth => hc hboth.1]
      exact hstands index'
  · have hc : c' ≠ c := by
      intro hc
      subst hc
      have hmark : creature.inCheckCreaturesVector = false := by
        rw [← creatures_setCreature_self s c' creature]
        exact hout'
      rw [hin] at hmark
      cases hmark
    intro index'
    rw [hcount, if_neg fun hboth => hc hboth.1]
    exact h.absent c' (by rw [← creatures_setCreature_of_ne s hc creature]; exact hout') index'
  · by_cases hc : c' = c
    · subst hc
      exact (creatures_setCreature_self s c' creature).symm ▸ hin
    · have hold := creatures_setCreature_of_ne s hc creature
      exact hold ▸ h.checked c' (hold ▸ hcheck)

/-- The lists lose one entry, and the creature of it its mark. -/
theorem Kept.pop (h : s.Kept) {creature : Creature} {i : Nat}
    (hentry : (s.checkCreatureLists index)[i]? = some (some c)) (hcheck : creature.creatureCheck = false)
    (hout : creature.inCheckCreaturesVector = false) :
    ((s.setCreature c creature).setList index (swapPop (s.checkCreatureLists index) i)).Kept := by
  have hmem : 0 < (s.checkCreatureLists index).count (some c) :=
    List.count_pos_iff.mpr (List.mem_of_getElem? hentry)
  have hin : (s.creatures c).inCheckCreaturesVector = true := by
    by_contra hout
    rw [h.absent c (Bool.eq_false_iff.mpr hout)] at hmem
    cases hmem
  obtain ⟨home, hstands⟩ := h.stands c hin
  have hhome : index = home := by
    by_contra hne
    rw [hstands, if_neg hne] at hmem
    cases hmem
  have hcount (c' : Nat) (index' : Fin EVENT_CREATURECOUNT) :
      (((s.setCreature c creature).setList index (swapPop (s.checkCreatureLists index) i)).checkCreatureLists
        index').count (some c') =
          (s.checkCreatureLists index').count (some c') - if c' = c ∧ index' = index then 1 else 0 := by
    rw [lists_setList]
    by_cases hindex : index' = index
    · subst hindex
      rw [if_pos rfl, count_swapPop hentry]
      simp only [beq_iff_eq, Option.some.injEq, and_true, @eq_comm _ c c']
    · rw [if_neg hindex, if_neg fun hboth => hindex hboth.2]
      rfl
  refine ⟨fun c' hin' => ?_, fun c' hout' index' => ?_, fun c' hcheck' => ?_, h.scheduled, h.pass⟩
  · have hc : c' ≠ c := by
      intro hc
      subst hc
      have hmark : creature.inCheckCreaturesVector = true := by
        rw [← creatures_setCreature_self s c' creature]
        exact hin'
      rw [hout] at hmark
      cases hmark
    obtain ⟨home', hstands'⟩ := h.stands c' (by rw [← creatures_setCreature_of_ne s hc creature]; exact hin')
    refine ⟨home', fun index' => ?_⟩
    rw [hcount, if_neg fun hboth => hc hboth.1]
    exact hstands' index'
  · by_cases hc : c' = c
    · subst hc
      rw [hcount, hstands, hhome]
      simp only [true_and]
      exact Nat.sub_self _
    · rw [hcount, if_neg fun hboth => hc hboth.1]
      exact h.absent c' (by rw [← creatures_setCreature_of_ne s hc creature]; exact hout') index'
  · by_cases hc : c' = c
    · subst hc
      have hmark : creature.creatureCheck = true := by
        rw [← creatures_setCreature_self s c' creature]
        exact hcheck'
      rw [hcheck] at hmark
      cases hmark
    · have hold := creatures_setCreature_of_ne s hc creature
      exact hold ▸ h.checked c' (hold ▸ hcheck')

theorem Kept.popNull (h : s.Kept) {i : Nat} (hentry : (s.checkCreatureLists index)[i]? = some none) :
    (s.setList index (swapPop (s.checkCreatureLists index) i)).Kept := by
  have hcount (c : Nat) (index' : Fin EVENT_CREATURECOUNT) :
      ((s.setList index (swapPop (s.checkCreatureLists index) i)).checkCreatureLists index').count (some c) =
        (s.checkCreatureLists index').count (some c) := by
    rw [lists_setList, count_swapPop hentry]
    by_cases hindex : index' = index
    · rw [if_pos hindex, hindex]
      rfl
    · rw [if_neg hindex]
  refine ⟨fun c hin => ?_, fun c hout index' => ?_, h.checked, h.scheduled, h.pass⟩
  · obtain ⟨home, hstands⟩ := h.stands c hin
    exact ⟨home, fun index' => (hcount c index').trans (hstands index')⟩
  · exact (hcount c index').trans (h.absent c hout index')

theorem Kept.turn (h : s.Kept) {i : Nat} (hpass : s.pass = some (index, i)) : (s.turn index i).Kept := by
  have hcalls := h.pass index i hpass
  obtain ⟨_, heq⟩ | ⟨hentry, heq⟩ | ⟨c, hentry, hturn⟩ := s.turn_cases index i
  · rw [heq]
    refine ⟨h.stands, h.absent, h.checked, fun next hnext => ?_, fun _ _ hnone => (by cases hnone)⟩
    obtain rfl := Option.some.inj hnext
    exact hcalls
  · rw [heq]
    exact h.popNull hentry
  · have hnext (thinks : Nat → Nat) : Kept { s with pass := some (index, i + 1), thinks := thinks } := by
      refine ⟨h.stands, h.absent, h.checked, h.scheduled, fun index' i' hpass' => ?_⟩
      obtain ⟨rfl, rfl⟩ := Prod.mk.inj (Option.some.inj hpass')
      exact hcalls
    obtain ⟨_, heq⟩ | ⟨_, _, heq⟩ | ⟨hcheck, heq⟩ := hturn <;> rw [heq]
    · exact hnext _
    · exact (hnext s.thinks).setCreature rfl fun hcheck => by cases hcheck
    · exact h.pop hentry hcheck rfl

end Game

/-- The game has a reference of each creature that is added. -/
def Event.Registered : Event → Prop
  | .addCreatureCheck _ _ registered => registered = true
  | _ => True

namespace Game

variable {s : Game} {c : Nat} {index : Fin EVENT_CREATURECOUNT}

theorem Kept.step (h : s.Kept) {event : Event} (hregistered : event.Registered) : (s.step event).Kept := by
  cases event with
  | addCreatureCheck c index registered =>
    obtain rfl : registered = true := hregistered
    rw [Game.step, Game.addCreatureCheck, if_pos rfl]
    split_ifs with hrefused hlisted
    · exact h
    · exact h.setCreature rfl fun _ => hlisted
    · have hpush := h.push { s.creatures c with creatureCheck := true, inCheckCreaturesVector := true }
        (Bool.eq_false_iff.mpr hlisted) rfl index
      simpa only [Game.setCreature, Function.update_self, Function.update_idem] using hpush
  | removeCreatureCheck c =>
    rw [Game.step, Game.removeCreatureCheck]
    split_ifs
    · exact h.setCreature rfl fun hcheck => by cases hcheck
    · exact h
  | setDead c dead => exact h.setCreature rfl (h.checked c)
  | setRemoved c => exact h.setCreature rfl (h.checked c)
  | setShutdown => exact ⟨h.stands, h.absent, h.checked, h.scheduled, h.pass⟩
  | checkCreatures =>
    rw [Game.step]
    split
    · rename_i index hpass hscheduled
      refine ⟨h.stands, h.absent, h.checked, fun _ hnone => (by cases hnone), fun index' i hpass' => ?_⟩
      obtain ⟨rfl, rfl⟩ := Prod.mk.inj (Option.some.inj hpass')
      have hcalls := h.scheduled index hscheduled
      rw [Fin.val_add, ← hcalls]
      exact Nat.add_mod _ _ _
    · exact h
  | turn =>
    rw [Game.step]
    cases hpass : s.pass with
    | none => exact h
    | some pass => exact h.turn hpass

theorem kept_run (events : List Event) (hregistered : ∀ event ∈ events, event.Registered) : (run {} events).Kept := by
  unfold run
  induction events using List.reverseRecOn with
  | nil =>
    refine ⟨fun _ hin => (by cases hin), fun _ _ _ => rfl, fun _ hcheck => (by cases hcheck), fun index hindex => ?_,
      fun _ _ hnone => (by cases hnone)⟩
    obtain rfl := Option.some.inj hindex
    rfl
  | append_singleton events event ih =>
    rw [List.foldl_append]
    exact (ih fun event hevent => hregistered event (List.mem_append_left _ hevent)).step
      (hregistered event (List.mem_append_right _ (List.mem_singleton_self event)))

/-! ### The turns of one creature -/

theorem due_setList {list : List (Option Nat)} (hsame : ∀ i, s.pass = some (index, i) →
    (list.drop i).count (some c) = ((s.checkCreatureLists index).drop i).count (some c)) :
    (s.setList index list).due c = s.due c := by
  unfold due setList
  cases hpass : s.pass with
  | none => rfl
  | some pass =>
    obtain ⟨index', i⟩ := pass
    simp only [Option.elim_some]
    by_cases hindex : index' = index
    · subst hindex
      rw [Function.update_self]
      exact hsame i hpass
    · rw [Function.update_of_ne hindex]

theorem Stands.setList (h : s.Stands c index) {index' : Fin EVENT_CREATURECOUNT} {list : List (Option Nat)}
    (hsame : list.count (some c) = (s.checkCreatureLists index').count (some c)) :
    (s.setList index' list).Stands c index := by
  intro home
  rw [lists_setList, hsame, ← h home]
  split_ifs with hhome
  · rw [hhome]
  · rfl

theorem count_push {entry : Option Nat} (hne : entry ≠ some c) (list : List (Option Nat)) (i : Nat) :
    ((list ++ [entry]).drop i).count (some c) = (list.drop i).count (some c) := by
  have hnone : ([entry].drop (i - list.length)).count (some c) = 0 :=
    List.count_eq_zero.mpr fun hmem => hne (List.mem_singleton.mp (List.mem_of_mem_drop hmem)).symm
  rw [List.drop_append, List.count_append, hnone, Nat.add_zero]

theorem Kept.marked (h : s.Kept) (hstands : s.Stands c index) : (s.creatures c).inCheckCreaturesVector = true := by
  by_contra hout
  have hcount := hstands index
  rw [h.absent c (Bool.eq_false_iff.mpr hout), if_pos rfl] at hcount
  cases hcount

/-- What was said of a creature is still true, up to the calls that began. -/
def Counts (s s' : Game) (c : Nat) (index : Fin EVENT_CREATURECOUNT) : Prop :=
  s'.Stands c index ∧ s'.thinks c + s'.due c + turns index s.calls = s.thinks c + s.due c + turns index s'.calls

theorem counts_push (hstands : s.Stands c index) {entry : Option Nat} (hne : entry ≠ some c)
    (creatures : Nat → Creature) (index' : Fin EVENT_CREATURECOUNT) :
    s.Counts ({ s with creatures := creatures }.setList index' (s.checkCreatureLists index' ++ [entry])) c index := by
  refine ⟨Stands.setList hstands (count_push hne _ 0), ?_⟩
  rw [due_setList fun i _ => count_push hne _ i]
  rfl

theorem counts_turn (hactive : s.Active c) (hstands : s.Stands c index) {index' : Fin EVENT_CREATURECOUNT} {i : Nat}
    (hpass : s.pass = some (index', i)) : s.Counts (s.turn index' i) c index := by
  have hdue : s.due c = ((s.checkCreatureLists index').drop i).count (some c) := by
    unfold due
    rw [hpass]
    rfl
  have hpop {entry : Option Nat} (hentry : (s.checkCreatureLists index')[i]? = some entry) (hne : entry ≠ some c)
      (creatures : Nat → Creature) :
      s.Counts ({ s with creatures := creatures }.setList index' (swapPop (s.checkCreatureLists index') i)) c index := by
    have hfalse : (entry == some c) = false := beq_eq_false_iff_ne.mpr hne
    refine ⟨Stands.setList hstands ?_, ?_⟩
    · rw [count_swapPop hentry, hfalse]
      rfl
    · rw [due_setList]
      · rfl
      · intro i' hpass'
        obtain ⟨_, rfl⟩ := Prod.mk.inj (Option.some.inj (hpass'.symm.trans hpass))
        rw [count_drop_swapPop hentry, hfalse]
        rfl
  obtain ⟨hend, heq⟩ | ⟨hentry, heq⟩ | ⟨c', hentry, hturn⟩ := s.turn_cases index' i
  · rw [heq]
    refine ⟨hstands, ?_⟩
    rw [hdue, hend]
    rfl
  · rw [heq]
    exact hpop hentry (fun hnone => by cases hnone) s.creatures
  · have hcount := count_drop hentry (some c)
    obtain ⟨_, heq⟩ | ⟨_, hidle, heq⟩ | ⟨hcheck, heq⟩ := hturn <;> rw [heq]
    · refine ⟨hstands, ?_⟩
      by_cases hc : c' = c
      · subst hc
        rw [if_pos (beq_self_eq_true _)] at hcount
        rw [hdue, hcount]
        simp only [Function.update_self]
        unfold due
        simp only [Option.elim_some]
        omega
      · rw [if_neg (by simpa using hc)] at hcount
        rw [hdue, hcount]
        simp only [Function.update_of_ne (Ne.symm hc)]
        rfl
    · have hc : c' ≠ c := fun hc => hidle (hc ▸ hactive)
      rw [if_neg (by simpa using hc)] at hcount
      refine ⟨hstands, ?_⟩
      rw [hdue, hcount]
      rfl
    · refine hpop hentry (fun hc => ?_) _
      rw [Option.some.inj hc, hactive.1] at hcheck
      cases hcheck

/-- Whatever happens, a creature that would think keeps its place. What it thought, and what it still will in the call
that is under way, are as many times as its list had its turn. -/
theorem counts_step (h : s.Kept) (hactive : s.Active c) (hstands : s.Stands c index) (event : Event) :
    s.Counts (s.step event) c index := by
  cases event with
  | addCreatureCheck c' index' registered =>
    rw [Game.step, Game.addCreatureCheck]
    by_cases hrefused : ((s.creatures c').isRemoved || s.shutdown) = true
    · rw [if_pos hrefused]
      exact ⟨hstands, rfl⟩
    rw [if_neg hrefused]
    by_cases hlisted : (s.creatures c').inCheckCreaturesVector = true
    · simp only [hlisted, if_true]
      exact ⟨hstands, rfl⟩
    · simp only [hlisted, Bool.false_eq_true, if_false]
      have hne : (if registered then some c' else none) ≠ some c := by
        split_ifs
        · intro hc
          exact hlisted (Option.some.inj hc ▸ h.marked hstands)
        · exact Option.some_ne_none c |>.symm
      exact counts_push hstands hne _ index'
  | removeCreatureCheck c' =>
    rw [Game.step, Game.removeCreatureCheck]
    split_ifs <;> exact ⟨hstands, rfl⟩
  | setDead c' dead => exact ⟨hstands, rfl⟩
  | setRemoved c' => exact ⟨hstands, rfl⟩
  | setShutdown => exact ⟨hstands, rfl⟩
  | checkCreatures =>
    rw [Game.step]
    split
    · rename_i index' hpass hscheduled
      refine ⟨hstands, ?_⟩
      have hdue : s.due c = 0 := by
        unfold due
        rw [hpass]
        rfl
      have hnext : due { s with pass := some (index', 0), scheduled := none, calls := s.calls + 1 } c =
          if index' = index then 1 else 0 := hstands index'
      rw [hdue, hnext, turns_succ, h.scheduled index' hscheduled]
      simp only [Fin.val_inj]
      omega
    · exact ⟨hstands, rfl⟩
  | turn =>
    rw [Game.step]
    cases hpass : s.pass with
    | none => exact ⟨hstands, rfl⟩
    | some pass => exact counts_turn hactive hstands hpass

theorem run_counts (events : List Event) : ∀ {s : Game}, s.Kept → (∀ event ∈ events, event.Registered) →
    s.Stands c index → Runs.Along step (fun s _ => s.Active c) s events → s.Counts (s.run events) c index := by
  induction events with
  | nil => exact fun _ _ hstands _ => ⟨hstands, rfl⟩
  | cons event events ih =>
    intro s h hregistered hstands hactive
    obtain ⟨hnext, hfirst⟩ := counts_step h hactive.1 hstands event
    obtain ⟨hend, hrest⟩ := ih (h.step (hregistered event List.mem_cons_self))
      (fun event hevent => hregistered event (List.mem_cons_of_mem _ hevent)) hnext hactive.2
    refine ⟨hend, ?_⟩
    have hrun : s.run (event :: events) = (s.step event).run events := rfl
    rw [hrun]
    omega

/-- However creatures come, go and die while others think, one that is to think stands in exactly one list. If it stays so,
it thinks exactly once in every ten calls of `checkCreatures`, and at every turn of its list in between. -/
theorem thinks_once_a_round (before after : List Event) {c : Nat}
    (hregistered : ∀ event ∈ before ++ after, event.Registered) (hstart : (run {} before).Active c)
    (hrest : (run {} before).pass = none) (hend : (run {} (before ++ after)).pass = none)
    (hactive : Runs.Along step (fun s _ => s.Active c) (run {} before) after) :
    ∃ index, (run {} (before ++ after)).Stands c index ∧
      (run {} (before ++ after)).thinks c + turns index (run {} before).calls =
        (run {} before).thinks c + turns index (run {} (before ++ after)).calls ∧
      ∀ rounds, (run {} (before ++ after)).calls = (run {} before).calls + EVENT_CREATURECOUNT * rounds →
        (run {} (before ++ after)).thinks c = (run {} before).thinks c + rounds := by
  have hkept := kept_run before fun event hevent => hregistered event (List.mem_append_left _ hevent)
  have hrun : run {} (before ++ after) = (run {} before).run after := List.foldl_append
  obtain ⟨index, hstands⟩ := hkept.stands c (hkept.checked c hstart.1)
  obtain ⟨hstays, hcounts⟩ := run_counts after hkept
    (fun event hevent => hregistered event (List.mem_append_right _ hevent)) hstands hactive
  rw [← hrun] at hstays hcounts
  have hidle {s : Game} (hnone : s.pass = none) : s.due c = 0 := by
    unfold due
    rw [hnone]
    rfl
  rw [hidle hrest, hidle hend] at hcounts
  refine ⟨index, hstays, hcounts, fun rounds hrounds => ?_⟩
  rw [hrounds, turns_rounds] at hcounts
  omega

/-- A rat that is awake meets a snake when it thinks. -/
def ratTurn : List Event := [.checkCreatures, .turn, .addCreatureCheck 2 0 true, .turn, .turn]

theorem thinks_once_a_round_rat : ∃ index,
    (run {} ([.addCreatureCheck 1 0 true] ++ ratTurn)).Stands 1 index ∧
      (run {} ([.addCreatureCheck 1 0 true] ++ ratTurn)).thinks 1 +
          turns index (run {} [.addCreatureCheck 1 0 true]).calls =
        (run {} [.addCreatureCheck 1 0 true]).thinks 1 +
          turns index (run {} ([.addCreatureCheck 1 0 true] ++ ratTurn)).calls ∧
      ∀ rounds, (run {} ([.addCreatureCheck 1 0 true] ++ ratTurn)).calls =
          (run {} [.addCreatureCheck 1 0 true]).calls + EVENT_CREATURECOUNT * rounds →
        (run {} ([.addCreatureCheck 1 0 true] ++ ratTurn)).thinks 1 =
          (run {} [.addCreatureCheck 1 0 true]).thinks 1 + rounds := by
  refine thinks_once_a_round [.addCreatureCheck 1 0 true] ratTurn (fun event hevent => ?_) ⟨rfl, rfl, rfl⟩ rfl rfl
    ⟨⟨rfl, rfl, rfl⟩, ⟨rfl, rfl, rfl⟩, ⟨rfl, rfl, rfl⟩, ⟨rfl, rfl, rfl⟩, ⟨rfl, rfl, rfl⟩, trivial⟩
  simp only [ratTurn, List.cons_append, List.nil_append, List.mem_cons, List.not_mem_nil, or_false] at hevent
  obtain rfl | rfl | rfl | rfl | rfl | rfl := hevent
  all_goals first | rfl | trivial

end Game

end ForgottenServer.Think
