import ForgottenServer.View.TileDescription

/-! # The creatures that the client knows

A creature is told in full once, and by its number from then on. The server keeps the numbers that the client knows, at
most 250, and tells it which one to forget for a new one. -/

namespace ForgottenServer.View

/-- The order in which an unordered set is run through: any. -/
structure Iteration where
  order : List Nat → List Nat
  perm : ∀ set, (order set).Perm set

/-- What `AddCreature` writes first. -/
inductive CreatureMessage where
  /-- 0x62 -/
  | known (id : Nat)
  /-- 0x61 -/
  | unknown (remove id : Nat)
  deriving DecidableEq, Repr

/-- Whether the creature is known, the one to forget, and the set afterwards. -/
def isKnownCreature (iteration : Iteration) (canSee : Nat → Bool) (knownCreatureSet : List Nat) (id : Nat) :
    (Bool × Nat) × List Nat :=
  if id ∈ knownCreatureSet then ((true, 0), knownCreatureSet)
  else
    let set := iteration.order (id :: knownCreatureSet)
    if set.length > 250 then
      match set.find? fun creatureId => !canSee creatureId with
      | some removedCreatureId => ((false, removedCreatureId), set.erase removedCreatureId)
      | none =>
        let removedId := if set.head? = some id then set.tail.headD 0 else set.headD 0
        ((false, removedId), set.erase removedId)
    else ((false, 0), set)

def AddCreature (id : Nat) (known : Bool) (remove : Nat) : CreatureMessage :=
  if known then .known id else .unknown remove id

/-- What happens to the set. -/
inductive KnownEvent where
  /-- A description with creatures. -/
  | describe (things : List Shown) (iteration : Iteration) (canSee : Nat → Bool)
  /-- The client starts over: `refreshWorldView`, or a spectator with another player. -/
  | clear

/-- The creatures of a description, one after the other. -/
def describeKnown (iteration : Iteration) (canSee : Nat → Bool) : List Shown → List Nat →
    List CreatureMessage × List Nat
  | [], set => ([], set)
  | .item _ :: things, set => describeKnown iteration canSee things set
  | .creature id :: things, set =>
    let found := isKnownCreature iteration canSee set id
    let rest := describeKnown iteration canSee things found.2
    (AddCreature id found.1.1 found.1.2 :: rest.1, rest.2)

def knownStep (set : List Nat) : KnownEvent → List CreatureMessage × List Nat
  | .describe things iteration canSee => describeKnown iteration canSee things set
  | .clear => ([], [])

def knownRun : List Nat → List KnownEvent → List CreatureMessage × List Nat
  | set, [] => ([], set)
  | set, event :: events =>
    let step := knownStep set event
    let rest := knownRun step.2 events
    (step.1 ++ rest.1, rest.2)

/-! ## The client -/

/-- The client forgets a creature and gets another. `none`: it is told by its number of a creature that it has not. -/
def readCreature (creatures : Finset Nat) : CreatureMessage → Option (Finset Nat)
  | .known id => if id ∈ creatures then some creatures else none
  | .unknown remove id => some (insert id (creatures.erase remove))

def readCreatures : Finset Nat → List CreatureMessage → Option (Finset Nat)
  | creatures, [] => some creatures
  | creatures, message :: messages => (readCreature creatures message).bind fun creatures => readCreatures creatures messages

theorem readCreatures_append (messages messages' : List CreatureMessage) : ∀ creatures : Finset Nat,
    readCreatures creatures (messages ++ messages') =
      (readCreatures creatures messages).bind fun creatures => readCreatures creatures messages' := by
  induction messages with
  | nil => exact fun creatures => rfl
  | cons message messages ih =>
    intro creatures
    rw [List.cons_append, readCreatures, readCreatures, Option.bind_assoc]
    exact congrArg _ (funext ih)

/-- Creatures have numbers, which are not 0. -/
def KnownEvent.Numbered : KnownEvent → Prop
  | .describe things _ _ => ∀ id, Shown.creature id ∈ things → id ≠ 0
  | .clear => True

/-- The player sees the creatures that he is told about. -/
def KnownEvent.Seen : KnownEvent → Prop
  | .describe things _ canSee => ∀ id, Shown.creature id ∈ things → canSee id = true
  | .clear => False

/-- The set of the server, and what the client has: the same, if only creatures that were seen were told. -/
structure Agrees (seen : Prop) (set : List Nat) (creatures : Finset Nat) : Prop where
  once : set.Nodup
  few : set.length ≤ 250
  numbered : ∀ id ∈ set, id ≠ 0
  had : ∀ id ∈ set, id ∈ creatures
  kept : seen → ∀ id ∈ creatures, id ∈ set

theorem agrees_nil {seen : Prop} {creatures : Finset Nat} (hkept : seen → ∀ id ∈ creatures, id ∈ ([] : List Nat)) :
    Agrees seen [] creatures := by
  refine ⟨List.nodup_nil, Nat.zero_le _, ?_, ?_, hkept⟩
  · intro id hid
    cases hid
  · intro id hid
    cases hid

/-! ## One creature -/

/-- A new creature gets a place that is free, or the place of one that is forgotten; that is the new one only if the
player does not see it. -/
theorem isKnownCreature_new (iteration : Iteration) (canSee : Nat → Bool) {set : List Nat} (hone : set.Nodup)
    (hfew : set.length ≤ 250) {id : Nat} (hnew : id ∉ set) : ∃ removed after,
      isKnownCreature iteration canSee set id = ((false, removed), after) ∧
        (removed = 0 ∧ after.Perm (id :: set) ∧ set.length < 250 ∨
          after.Perm ((id :: set).erase removed) ∧ removed ∈ id :: set ∧ (canSee removed = true → removed ≠ id)) := by
  have hperm := iteration.perm (id :: set)
  have hnodup : (iteration.order (id :: set)).Nodup := hperm.nodup_iff.mpr (List.nodup_cons.mpr ⟨hnew, hone⟩)
  unfold isKnownCreature
  rw [if_neg hnew]
  simp only
  generalize iteration.order (id :: set) = order at hperm hnodup
  by_cases hmany : order.length > 250
  · rw [if_pos hmany]
    cases hfind : order.find? fun creatureId => !canSee creatureId with
    | some removed =>
      have hmem : removed ∈ id :: set := hperm.mem_iff.mp (List.mem_of_find?_eq_some hfind)
      have hunseen : (!canSee removed) = true := List.find?_some (p := fun creatureId => !canSee creatureId) hfind
      refine ⟨removed, order.erase removed, rfl, .inr ⟨hperm.erase removed, hmem, fun hsees => ?_⟩⟩
      rw [hsees] at hunseen
      cases hunseen
    | none =>
      refine ⟨_, _, rfl, .inr ⟨hperm.erase _, ?_, fun _ => ?_⟩⟩
      · refine hperm.mem_iff.mp ?_
        match order, hmany with
        | first :: second :: rest, _ =>
          split
          · exact List.mem_cons_of_mem _ List.mem_cons_self
          · exact List.mem_cons_self
      · match order, hmany, hnodup with
        | first :: second :: rest, _, hnodup =>
          split
          next hfirst =>
            obtain rfl : first = id := Option.some.inj hfirst
            intro heq
            have hsecond : second = first := heq
            exact (List.nodup_cons.mp hnodup).1 (hsecond ▸ List.mem_cons_self)
          next hfirst => exact fun heq => hfirst (congrArg some heq)
  · rw [if_neg hmany]
    have hlength := hperm.length_eq
    rw [List.length_cons] at hlength
    exact ⟨0, order, rfl, .inl ⟨rfl, hperm, by omega⟩⟩

/-- Telling about a creature keeps the client and the server in agreement. -/
theorem Agrees.creature {seen : Prop} {set : List Nat} {creatures : Finset Nat} (h : Agrees seen set creatures)
    (iteration : Iteration) (canSee : Nat → Bool) {id : Nat} (hid : id ≠ 0) (hseen : seen → canSee id = true) :
    ∃ creatures', readCreature creatures (AddCreature id (isKnownCreature iteration canSee set id).1.1
        (isKnownCreature iteration canSee set id).1.2) = some creatures' ∧
      Agrees seen (isKnownCreature iteration canSee set id).2 creatures' := by
  by_cases hknown : id ∈ set
  · have hfound : isKnownCreature iteration canSee set id = ((true, 0), set) := if_pos hknown
    rw [hfound]
    exact ⟨creatures, if_pos (h.had id hknown), h⟩
  obtain ⟨removed, after, hfound, hcase⟩ := isKnownCreature_new iteration canSee h.once h.few hknown
  have hnodup : (id :: set).Nodup := List.nodup_cons.mpr ⟨hknown, h.once⟩
  have hnumbered : ∀ c ∈ id :: set, c ≠ 0 := by
    intro c hc
    obtain rfl | hold := List.mem_cons.mp hc
    · exact hid
    · exact h.numbered c hold
  -- either way, what is known then is what was and the new one, less the one that is forgotten
  have hmem : ∀ c, c ∈ after ↔ c ∈ id :: set ∧ c ≠ removed := by
    intro c
    obtain ⟨hzero, hperm, -⟩ | ⟨hperm, -, -⟩ := hcase
    · rw [hperm.mem_iff, hzero]
      exact (and_iff_left_of_imp (hnumbered c)).symm
    · rw [hperm.mem_iff, hnodup.mem_erase_iff, and_comm]
  have hafter : after.Nodup ∧ after.length ≤ 250 := by
    obtain ⟨-, hperm, hfree⟩ | ⟨hperm, hremoved, -⟩ := hcase
    · exact ⟨hperm.nodup_iff.mpr hnodup, by rw [hperm.length_eq, List.length_cons]; omega⟩
    · refine ⟨hperm.nodup_iff.mpr (hnodup.erase removed), ?_⟩
      rw [hperm.length_eq, List.length_erase_of_mem hremoved, List.length_cons]
      exact h.few
  have hother : seen → removed ≠ id := by
    intro hs heq
    obtain ⟨hzero, -, -⟩ | ⟨-, -, hsees⟩ := hcase
    · exact hid (heq.symm.trans hzero)
    · exact hsees (heq ▸ hseen hs) heq
  rw [hfound]
  refine ⟨insert id (creatures.erase removed), rfl, hafter.1, hafter.2, fun c hc => hnumbered c ((hmem c).mp hc).1,
    fun c hc => ?_, fun hs c hc => ?_⟩
  · obtain ⟨hthere, hnot⟩ := (hmem c).mp hc
    obtain rfl | hold := List.mem_cons.mp hthere
    · exact Finset.mem_insert_self _ _
    · exact Finset.mem_insert_of_mem (Finset.mem_erase.mpr ⟨hnot, h.had c hold⟩)
  · refine (hmem c).mpr ?_
    obtain rfl | hrest := Finset.mem_insert.mp hc
    · exact ⟨List.mem_cons_self, (hother hs).symm⟩
    · obtain ⟨hnot, hold⟩ := Finset.mem_erase.mp hrest
      exact ⟨List.mem_cons_of_mem _ (h.kept hs c hold), hnot⟩

/-! ## Runs -/

theorem Agrees.describe {seen : Prop} (iteration : Iteration) (canSee : Nat → Bool) (things : List Shown) :
    ∀ {set : List Nat} {creatures : Finset Nat}, Agrees seen set creatures →
      (∀ id, Shown.creature id ∈ things → id ≠ 0) → (seen → ∀ id, Shown.creature id ∈ things → canSee id = true) →
        ∃ creatures', readCreatures creatures (describeKnown iteration canSee things set).1 = some creatures' ∧
          Agrees seen (describeKnown iteration canSee things set).2 creatures' := by
  induction things with
  | nil => exact fun h _ _ => ⟨_, rfl, h⟩
  | cons thing things ih =>
    intro set creatures h hnumbered hseen
    have hnumbered' : ∀ id, Shown.creature id ∈ things → id ≠ 0 :=
      fun id hid => hnumbered id (List.mem_cons_of_mem _ hid)
    have hseen' : seen → ∀ id, Shown.creature id ∈ things → canSee id = true :=
      fun hs id hid => hseen hs id (List.mem_cons_of_mem _ hid)
    cases thing with
    | item ref => exact ih h hnumbered' hseen'
    | creature id =>
      obtain ⟨middle, hread, hmiddle⟩ := h.creature iteration canSee (hnumbered id List.mem_cons_self)
        fun hs => hseen hs id List.mem_cons_self
      obtain ⟨creatures', hrest, hafter⟩ := ih hmiddle hnumbered' hseen'
      refine ⟨creatures', ?_, hafter⟩
      rw [describeKnown, readCreatures, hread]
      exact hrest

theorem Agrees.run {seen : Prop} (events : List KnownEvent) : ∀ {set : List Nat} {creatures : Finset Nat},
    Agrees seen set creatures → (∀ event ∈ events, event.Numbered) → (seen → ∀ event ∈ events, event.Seen) →
      ∃ creatures', readCreatures creatures (knownRun set events).1 = some creatures' ∧
        Agrees seen (knownRun set events).2 creatures' := by
  induction events with
  | nil => exact fun h _ _ => ⟨_, rfl, h⟩
  | cons event events ih =>
    intro set creatures h hnumbered hseen
    obtain ⟨middle, hread, hmiddle⟩ : ∃ middle, readCreatures creatures (knownStep set event).1 = some middle ∧
        Agrees seen (knownStep set event).2 middle := by
      cases event with
      | describe things iteration canSee =>
        exact h.describe iteration canSee things (hnumbered _ List.mem_cons_self)
          fun hs => hseen hs _ List.mem_cons_self
      | clear =>
        have hnone : ¬ seen := fun hs => hseen hs _ List.mem_cons_self
        exact ⟨creatures, rfl, agrees_nil fun hs => absurd hs hnone⟩
    obtain ⟨creatures', hrest, hafter⟩ := ih hmiddle (fun e he => hnumbered e (List.mem_cons_of_mem _ he))
      fun hs e he => hseen hs e (List.mem_cons_of_mem _ he)
    refine ⟨creatures', ?_, hafter⟩
    rw [knownRun, readCreatures_append, hread]
    exact hrest

/-- Whatever is described, and however the set is run through, the client is never told by its number of a creature that
it has not: it reads all, and has every creature that the server takes for known, at most 250. It has no others, if the
player saw each creature he was told about and the set was never cleared. -/
theorem knownRun_agrees (events : List KnownEvent) (hnumbered : ∀ event ∈ events, event.Numbered) :
    ∃ creatures, readCreatures ∅ (knownRun [] events).1 = some creatures ∧
      (knownRun [] events).2.length ≤ 250 ∧ (∀ id ∈ (knownRun [] events).2, id ∈ creatures) ∧
      ((∀ event ∈ events, event.Seen) → creatures = (knownRun [] events).2.toFinset) := by
  have hstart : Agrees (∀ event ∈ events, event.Seen) [] ∅ :=
    agrees_nil fun _ id hid => absurd hid (Finset.notMem_empty id)
  obtain ⟨creatures, hread, hagrees⟩ := hstart.run events hnumbered id
  refine ⟨creatures, hread, hagrees.few, hagrees.had, fun hs => ?_⟩
  ext id
  rw [List.mem_toFinset]
  exact ⟨hagrees.kept hs id, hagrees.had id⟩

/-- Two creatures, and one of them again after the client started over. -/
def startingOver : List KnownEvent :=
  [.describe [.creature 7, .item 1, .creature 8] ⟨List.reverse, List.reverse_perm⟩ fun _ => true, .clear,
    .describe [.creature 8] ⟨id, List.Perm.refl⟩ fun _ => false]

theorem knownRun_startingOver : ∃ creatures, readCreatures ∅ (knownRun [] startingOver).1 = some creatures ∧
    (knownRun [] startingOver).2.length ≤ 250 ∧ (∀ id ∈ (knownRun [] startingOver).2, id ∈ creatures) ∧
      ((∀ event ∈ startingOver, event.Seen) → creatures = (knownRun [] startingOver).2.toFinset) :=
  knownRun_agrees startingOver (by simp [startingOver, KnownEvent.Numbered])

end ForgottenServer.View
