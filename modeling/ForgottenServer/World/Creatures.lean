import ForgottenServer.World.Contents

/-! # Creatures on the map

A creature that is placed on the map stands in the lists of the leaf that covers its position, it moves to another leaf
with its position, and it leaves the lists when it is removed. -/

namespace ForgottenServer.World

inductive CreatureType where
  | player
  | monster
  | npc
  deriving DecidableEq, Repr

structure Creature where
  position : Position
  isRemoved : Bool := false
  type : CreatureType
  deriving DecidableEq, Repr

/-- The map and the creatures, by their addresses. A creature is on the map when it has a parent. -/
structure Town (T : Type) where
  map : Map T := {}
  creatures : Nat → Creature := fun _ => { position := ⟨0, 0, 0⟩, type := .monster }
  onMap : Nat → Bool := fun _ => false

/-- `*iter = list.back(); list.pop_back()`. -/
def swapRemove (list : List Nat) (c : Nat) : List Nat :=
  if c ∈ list then (list.set (list.idxOf c) (list.getLast?.getD c)).dropLast else list

namespace Leaf

variable {T : Type}

def addCreature (c : Nat) (isPlayer : Bool) (leaf : Leaf T) : Leaf T :=
  { leaf with
    creatureList := leaf.creatureList ++ [c]
    playerList := if isPlayer then leaf.playerList ++ [c] else leaf.playerList }

def removeCreature (c : Nat) (isPlayer : Bool) (leaf : Leaf T) : Leaf T :=
  { leaf with
    creatureList := swapRemove leaf.creatureList c
    playerList := if isPlayer then swapRemove leaf.playerList c else leaf.playerList }

end Leaf

namespace Town

variable {T : Type}

def isPlayer (town : Town T) (c : Nat) : Bool := (town.creatures c).type == .player

/-- `getQTNode` at the position of a creature. -/
def leafOf (town : Town T) (c : Nat) : Option LeafRef :=
  town.map.leafAt ((town.creatures c).position.x.toNat, (town.creatures c).position.y.toNat)

def setPosition (town : Town T) (c : Nat) (pos : Position) : Town T :=
  { town with creatures := Function.update town.creatures c { town.creatures c with position := pos } }

def setRemoved (town : Town T) (c : Nat) : Town T :=
  { town with creatures := Function.update town.creatures c { town.creatures c with isRemoved := true } }

/-- A leaf gets a creature, which stands on a tile of it. -/
def enter (town : Town T) (c : Nat) (pos : Position) (leaf : LeafRef) : Town T :=
  { town.setPosition c pos with
    map := town.map.modifyLeaf leaf (Leaf.addCreature c (town.isPlayer c))
    onMap := Function.update town.onMap c true }

/-- A creature leaves its leaf. -/
def leave (town : Town T) (c : Nat) (leaf : LeafRef) : Town T :=
  { town with
    map := town.map.modifyLeaf leaf (Leaf.removeCreature c (town.isPlayer c))
    onMap := Function.update town.onMap c false }

/-- `internalPlaceCreature`, with the position that `placeCreature` found. A creature with a parent, also one that was
removed, is not placed again. -/
def placeCreature (town : Town T) (c : Nat) (pos : Position) : Option (Town T) :=
  if town.onMap c || (town.creatures c).isRemoved then none
  else (town.map.leafAt (pos.x.toNat, pos.y.toNat)).map fun leaf => town.enter c pos leaf

/-- `moveCreature`, which skips creatures that are not on their tile. -/
def moveCreature (town : Town T) (c : Nat) (newPos : Position) : Option (Town T) :=
  if town.onMap c then
    (town.leafOf c).bind fun leaf => (town.map.leafAt (newPos.x.toNat, newPos.y.toNat)).map fun newLeaf =>
      if leaf ≠ newLeaf then (town.leave c leaf).enter c newPos newLeaf else town.setPosition c newPos
  else none

def removeCreature (town : Town T) (c : Nat) : Option (Town T) :=
  if (town.creatures c).isRemoved || !town.onMap c then none
  else (town.leafOf c).map fun leaf => (town.leave c leaf).setRemoved c

/-! ## Creatures in their leaves -/

/-- Every creature on the map is in the lists of the leaf that covers its position, once, and in no other. -/
structure Registered (town : Town T) : Prop where
  covered : ∀ c, town.onMap c → ∃ leaf, town.leafOf c = some leaf
  mem : ∀ leaf c, c ∈ (town.map.leaves leaf).creatureList ↔ town.onMap c ∧ town.leafOf c = some leaf
  once : ∀ leaf, (town.map.leaves leaf).creatureList.Nodup
  players : ∀ leaf, (town.map.leaves leaf).playerList.Perm ((town.map.leaves leaf).creatureList.filter town.isPlayer)

theorem registered_empty : Registered ({} : Town T) := by
  refine ⟨fun c hc => ?_, fun leaf c => ?_, fun leaf => List.nodup_nil, fun leaf => List.Perm.refl _⟩
  · cases hc
  · exact ⟨fun h => (by cases h), fun h => (by cases h.1)⟩

end Town

/-! ## Lists without a creature -/

theorem set_idxOf_perm {c b : Nat} {list : List Nat} (h : c ∈ list) :
    (list.set (list.idxOf c) b).Perm (b :: list.erase c) := by
  induction list with
  | nil => cases h
  | cons a list ih =>
    by_cases hac : a = c
    · subst hac
      rw [List.idxOf_cons_self, List.set_cons_zero, List.erase_cons_head]
    · have hmem : c ∈ list := (List.mem_cons.mp h).resolve_left fun heq => hac heq.symm
      rw [List.idxOf_cons_ne list hac, List.set_cons_succ, List.erase_cons_tail (by simpa using hac)]
      exact ((ih hmem).cons a).trans (List.Perm.swap b a _)

/-- Taking the last element in the place of another one takes that one out. -/
theorem swapRemove_perm {c : Nat} {list : List Nat} (hnodup : list.Nodup) (h : c ∈ list) :
    (swapRemove list c).Perm (list.erase c) := by
  obtain ⟨front, b, rfl⟩ := list.eq_nil_or_concat'.resolve_left (List.ne_nil_of_mem h)
  unfold swapRemove
  rw [if_pos h, List.getLast?_concat, Option.getD_some]
  by_cases hc : c ∈ front
  · rw [List.idxOf_append_of_mem hc, List.set_append_left _ _ (List.idxOf_lt_length_of_mem hc),
      List.dropLast_concat, List.erase_append_left _ hc]
    exact (set_idxOf_perm hc).trans (List.perm_append_singleton b _).symm
  · obtain rfl : c = b := by
      rcases List.mem_append.mp h with hfront | hlast
      · exact absurd hfront hc
      · exact List.mem_singleton.mp hlast
    rw [List.idxOf_append_of_notMem hc, List.idxOf_cons_self, Nat.add_zero,
      List.set_append_right _ _ (Nat.le_refl _), Nat.sub_self, List.set_cons_zero, List.dropLast_concat,
      List.erase_append_right _ hc, List.erase_cons_head, List.append_nil]

/-- The players among the creatures, when one of the creatures leaves. -/
theorem players_perm_erase {creatures players : List Nat} {isPlayer : Nat → Bool} {c : Nat} (hnodup : creatures.Nodup)
    (hplayers : players.Perm (creatures.filter isPlayer)) (hc : c ∈ creatures) :
    (if isPlayer c then swapRemove players c else players).Perm ((creatures.erase c).filter isPlayer) := by
  rw [hnodup.erase_eq_filter, List.filter_filter]
  split
  · rename_i hp
    have hfilter := hnodup.filter isPlayer
    have hmem : c ∈ players := hplayers.mem_iff.mpr (List.mem_filter.mpr ⟨hc, hp⟩)
    refine (swapRemove_perm (hplayers.nodup_iff.mpr hfilter) hmem).trans ((hplayers.erase c).trans ?_)
    rw [hfilter.erase_eq_filter, List.filter_filter]
    refine List.Perm.of_eq (List.filter_congr fun a _ => Bool.and_comm _ _)
  · rename_i hp
    refine hplayers.trans (List.Perm.of_eq (List.filter_congr fun a _ => ?_))
    by_cases hac : a = c
    · subst hac
      simpa using hp
    · simp [hac]

namespace Town

variable {T : Type} {town : Town T}

/-! ## Every step keeps the creatures in their leaves -/

@[simp] theorem isPlayer_setPosition (c : Nat) (pos : Position) : (town.setPosition c pos).isPlayer = town.isPlayer := by
  funext c'
  unfold isPlayer setPosition
  simp only [Function.update_apply]
  split
  · rw [‹c' = c›]
  · rfl

@[simp] theorem leafOf_setPosition (c c' : Nat) (pos : Position) : (town.setPosition c pos).leafOf c' =
    if c' = c then town.map.leafAt (pos.x.toNat, pos.y.toNat) else town.leafOf c' := by
  unfold leafOf setPosition
  simp only [Function.update_apply]
  split
  · rfl
  · rfl

theorem Registered.setPosition (h : town.Registered) {c : Nat} {pos : Position} {leaf : LeafRef}
    (hleaf : town.leafOf c = some leaf) (hpos : town.map.leafAt (pos.x.toNat, pos.y.toNat) = some leaf) :
    (town.setPosition c pos).Registered := by
  have hof (c') : (town.setPosition c pos).leafOf c' = town.leafOf c' := by
    rw [leafOf_setPosition]
    split
    · rw [hpos, ‹c' = c›, hleaf]
    · rfl
  refine ⟨fun c' hc' => ?_, fun leaf' c' => ?_, h.once, fun leaf' => ?_⟩
  · rw [hof]
    exact h.covered c' hc'
  · rw [hof]
    exact h.mem leaf' c'
  · rw [isPlayer_setPosition]
    exact h.players leaf'

theorem Registered.enter (h : town.Registered) {c : Nat} {pos : Position} {leaf : LeafRef} (hc : town.onMap c = false)
    (hpos : town.map.leafAt (pos.x.toNat, pos.y.toNat) = some leaf) : (town.enter c pos leaf).Registered := by
  have hof (c') : (town.enter c pos leaf).leafOf c' = if c' = c then some leaf else town.leafOf c' :=
    (leafOf_setPosition c c' pos).trans (by rw [hpos])
  have hon (c') : (town.enter c pos leaf).onMap c' = if c' = c then true else town.onMap c' :=
    Function.update_apply ..
  have hplayer : (town.enter c pos leaf).isPlayer = town.isPlayer := isPlayer_setPosition c pos
  have hout (leaf') : c ∉ (town.map.leaves leaf').creatureList := fun hmem => by
    rw [h.mem, hc] at hmem
    cases hmem.1
  have hleaves (leaf') : (town.enter c pos leaf).map.leaves leaf' = if leaf' = leaf then
      (town.map.leaves leaf).addCreature c (town.isPlayer c) else town.map.leaves leaf' := Map.leaves_modifyLeaf ..
  refine ⟨fun c' hc' => ?_, fun leaf' c' => ?_, fun leaf' => ?_, fun leaf' => ?_⟩
  · rw [hof]
    rw [hon] at hc'
    split at hc'
    · exact ⟨leaf, if_pos ‹_›⟩
    · rw [if_neg ‹_›]
      exact h.covered c' hc'
  · rw [hof, hon, hleaves]
    by_cases hcc : c' = c
    · subst hcc
      rw [if_pos rfl, if_pos rfl]
      by_cases hll : leaf' = leaf
      · subst hll
        simp [Leaf.addCreature]
      · have hne : leaf ≠ leaf' := fun heq => hll heq.symm
        simp [hll, hne, hout leaf']
    · rw [if_neg hcc, if_neg hcc, ← h.mem]
      by_cases hll : leaf' = leaf
      · subst hll
        simp [Leaf.addCreature, hcc]
      · rw [if_neg hll]
  · rw [hleaves]
    by_cases hll : leaf' = leaf
    · rw [if_pos hll]
      refine List.nodup_append'.mpr ⟨h.once leaf, List.nodup_singleton c, ?_⟩
      rw [List.disjoint_singleton]
      exact hout leaf
    · rw [if_neg hll]
      exact h.once leaf'
  · rw [hleaves, hplayer]
    by_cases hll : leaf' = leaf
    · rw [if_pos hll]
      unfold Leaf.addCreature
      rw [List.filter_append, List.filter_singleton]
      cases town.isPlayer c with
      | true => exact (h.players leaf).append_right _
      | false =>
        rw [cond_false, List.append_nil]
        exact h.players leaf
    · rw [if_neg hll]
      exact h.players leaf'

theorem Registered.leave (h : town.Registered) {c : Nat} {leaf : LeafRef} (hc : town.onMap c = true)
    (hleaf : town.leafOf c = some leaf) : (town.leave c leaf).Registered := by
  have hof (c') : (town.leave c leaf).leafOf c' = town.leafOf c' := rfl
  have hon (c') : (town.leave c leaf).onMap c' = if c' = c then false else town.onMap c' := Function.update_apply ..
  have hmem : c ∈ (town.map.leaves leaf).creatureList := (h.mem leaf c).mpr ⟨hc, hleaf⟩
  have hlist := swapRemove_perm (h.once leaf) hmem
  have hleaves (leaf') : (town.leave c leaf).map.leaves leaf' = if leaf' = leaf then
      (town.map.leaves leaf).removeCreature c (town.isPlayer c) else town.map.leaves leaf' := Map.leaves_modifyLeaf ..
  refine ⟨fun c' hc' => ?_, fun leaf' c' => ?_, fun leaf' => ?_, fun leaf' => ?_⟩
  · rw [hon] at hc'
    split at hc'
    · cases hc'
    · exact h.covered c' hc'
  · rw [hof, hon, hleaves]
    by_cases hll : leaf' = leaf
    · subst hll
      rw [if_pos rfl]
      refine hlist.mem_iff.trans ?_
      rw [(h.once leaf').mem_erase_iff, h.mem]
      by_cases hcc : c' = c
      · simp [hcc]
      · simp [hcc]
    · rw [if_neg hll, h.mem]
      by_cases hcc : c' = c
      · subst hcc
        have hne : leaf ≠ leaf' := fun heq => hll heq.symm
        simp [hleaf, hne]
      · rw [if_neg hcc]
  · rw [hleaves]
    by_cases hll : leaf' = leaf
    · rw [if_pos hll]
      exact hlist.nodup_iff.mpr ((h.once leaf).erase c)
    · rw [if_neg hll]
      exact h.once leaf'
  · rw [hleaves]
    by_cases hll : leaf' = leaf
    · rw [if_pos hll]
      exact (players_perm_erase (h.once leaf) (h.players leaf) hmem).trans (hlist.filter town.isPlayer).symm
    · rw [if_neg hll]
      exact h.players leaf'

/-- A map that keeps the leaves and what is on them keeps the creatures registered. -/
theorem Registered.setMap (h : town.Registered) {map : Map T} (hkeeps : Map.Keeps town.map map) :
    ({ town with map } : Town T).Registered := by
  have hof {c leaf} (hc : town.leafOf c = some leaf) : ({ town with map } : Town T).leafOf c = some leaf :=
    hkeeps.leafAt hc
  refine ⟨fun c hc => ?_, fun leaf c => ?_, fun leaf => ?_, fun leaf => ?_⟩
  · obtain ⟨leaf, hleaf⟩ := h.covered c hc
    exact ⟨leaf, hof hleaf⟩
  · rw [hkeeps.creatureList, h.mem]
    refine and_congr_right fun hon => ⟨hof, fun hleaf => ?_⟩
    obtain ⟨leaf', hleaf'⟩ := h.covered c hon
    obtain rfl := Option.some.inj ((hof hleaf').symm.trans hleaf)
    exact hleaf'
  · rw [hkeeps.creatureList]
    exact h.once leaf
  · rw [hkeeps.creatureList, hkeeps.playerList]
    exact h.players leaf

end Town

/-! ## Runs -/

inductive CreatureEvent where
  | placeCreature (c : Nat) (pos : Position)
  | moveCreature (c : Nat) (newPos : Position)
  | removeCreature (c : Nat)

inductive Event (T : Type) where
  | tileCall (op : Op T)
  | creature (event : CreatureEvent)

namespace Town

variable {T : Type} {town : Town T}

/-- The town afterwards, if something was done. -/
def creatureStep (town : Town T) : CreatureEvent → Option (Town T)
  | .placeCreature c pos => town.placeCreature c pos
  | .moveCreature c newPos => town.moveCreature c newPos
  | .removeCreature c => town.removeCreature c

def step (tiles : Tiles T) (town : Town T) : Event T → Town T
  | .tileCall op => { town with map := town.map.step tiles op }
  | .creature event => (town.creatureStep event).getD town

/-- The links of the map and the lists of the creatures. -/
structure Kept (town : Town T) : Prop where
  valid : town.map.Valid
  registered : town.Registered

theorem kept_empty : Kept ({} : Town T) := ⟨Map.valid_empty, registered_empty⟩

theorem Kept.enter (h : town.Kept) {c : Nat} {pos : Position} {leaf : LeafRef} (hc : town.onMap c = false)
    (hpos : town.map.leafAt (pos.x.toNat, pos.y.toNat) = some leaf) : (town.enter c pos leaf).Kept :=
  ⟨h.valid.modifyLeaf (h.valid.fresh hpos) (fun _ => rfl) fun _ => rfl, h.registered.enter hc hpos⟩

theorem Kept.leave (h : town.Kept) {c : Nat} {leaf : LeafRef} (hc : town.onMap c = true)
    (hleaf : town.leafOf c = some leaf) : (town.leave c leaf).Kept :=
  ⟨h.valid.modifyLeaf (h.valid.fresh hleaf) (fun _ => rfl) fun _ => rfl, h.registered.leave hc hleaf⟩

/-- The lists do not depend on who was removed. -/
theorem Kept.setRemoved (h : town.Kept) (c : Nat) : (town.setRemoved c).Kept := by
  have hplayer : (town.setRemoved c).isPlayer = town.isPlayer := by
    funext c'
    unfold isPlayer Town.setRemoved
    simp only [Function.update_apply]
    split
    · rw [‹c' = c›]
    · rfl
  have hof (c') : (town.setRemoved c).leafOf c' = town.leafOf c' := by
    unfold leafOf Town.setRemoved
    simp only [Function.update_apply]
    split
    · rw [‹c' = c›]
    · rfl
  refine ⟨h.valid, fun c' hc' => ?_, fun leaf c' => ?_, h.registered.once, fun leaf => ?_⟩
  · rw [hof]
    exact h.registered.covered c' hc'
  · rw [hof]
    exact h.registered.mem leaf c'
  · rw [hplayer]
    exact h.registered.players leaf

theorem Kept.placeCreature (h : town.Kept) {c : Nat} {pos : Position} {town' : Town T}
    (hplace : town.placeCreature c pos = some town') : town'.Kept := by
  unfold Town.placeCreature at hplace
  split at hplace
  · cases hplace
  · rename_i hc
    have hfree : town.onMap c = false ∧ (town.creatures c).isRemoved = false := by simpa using hc
    obtain ⟨leaf, hleaf, rfl⟩ := Option.map_eq_some_iff.mp hplace
    exact h.enter hfree.1 hleaf

theorem Kept.moveCreature (h : town.Kept) {c : Nat} {newPos : Position} {town' : Town T}
    (hmove : town.moveCreature c newPos = some town') : town'.Kept := by
  unfold Town.moveCreature at hmove
  split at hmove
  · rename_i hc
    obtain ⟨leaf, hleaf, hmove⟩ := Option.bind_eq_some_iff.mp hmove
    obtain ⟨newLeaf, hnew, rfl⟩ := Option.map_eq_some_iff.mp hmove
    split
    · exact (h.leave hc hleaf).enter (Function.update_self ..) hnew
    · rename_i heq
      obtain rfl : leaf = newLeaf := Classical.not_not.mp heq
      exact ⟨h.valid, h.registered.setPosition hleaf hnew⟩
  · cases hmove

theorem Kept.removeCreature (h : town.Kept) {c : Nat} {town' : Town T} (hremove : town.removeCreature c = some town') :
    town'.Kept := by
  unfold Town.removeCreature at hremove
  split at hremove
  · cases hremove
  · rename_i hc
    have hthere : (town.creatures c).isRemoved = false ∧ town.onMap c = true := by simpa using hc
    obtain ⟨leaf, hleaf, rfl⟩ := Option.map_eq_some_iff.mp hremove
    exact (h.leave hthere.2 hleaf).setRemoved c

theorem Kept.creatureStep (h : town.Kept) {event : CreatureEvent} {town' : Town T}
    (hstep : town.creatureStep event = some town') : town'.Kept := by
  cases event with
  | placeCreature c pos => exact h.placeCreature hstep
  | moveCreature c newPos => exact h.moveCreature hstep
  | removeCreature c => exact h.removeCreature hstep

theorem Kept.tileCall (h : town.Kept) (tiles : Tiles T) (op : Op T) :
    ({ town with map := town.map.step tiles op } : Town T).Kept := by
  have hsim : Map.Simulates tiles town.map op := Map.simulates_step h.valid op
  exact ⟨hsim.valid, h.registered.setMap hsim.keeps⟩

theorem Kept.step (h : town.Kept) (tiles : Tiles T) (event : Event T) : (town.step tiles event).Kept := by
  cases event with
  | tileCall op => exact h.tileCall tiles op
  | creature event =>
    show ((town.creatureStep event).getD town).Kept
    cases hstep : town.creatureStep event with
    | none => exact h
    | some after => exact h.creatureStep hstep

/-- Whatever happens to tiles and creatures, each creature is in the lists of its leaf. -/
theorem kept_run (tiles : Tiles T) (events : List (Event T)) : (events.foldl (step tiles) {}).Kept := by
  suffices ∀ town : Town T, town.Kept → (events.foldl (step tiles) town).Kept from this {} kept_empty
  induction events with
  | nil => exact fun town h => h
  | cons event events ih => exact fun town h => ih _ (h.step tiles event)

end Town

end ForgottenServer.World
