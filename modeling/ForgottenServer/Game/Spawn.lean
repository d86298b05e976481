import Mathlib

/-! # Spawns

A spawn has a block for each of its monsters. When a monster is gone, a check comes that puts another in its place,
after some time, and with effects before it if the configuration says so. Until the game shuts down, the events of the
scheduler come at any time after they were added. -/

namespace ForgottenServer.Spawns

def MINSPAWN_INTERVAL : Nat := 10 * 1000

/-- `ids`: the blocks, in the order of the map. The configuration is not loaded again. -/
structure Config where
  ids : List Nat
  interval : Nat → Nat
  startEffect : Bool

structure SpawnBlock where
  lastSpawn : Nat := 0
  effectInitialInterval : Nat := 0

structure Monster where
  spawnId : Nat
  created : Nat
  removed : Option Nat := none
  deriving DecidableEq, Repr

/-- An event of `scheduleSpawn`: more effects for some time, or the monster. -/
structure Pending where
  spawnId : Nat
  left : Option Nat
  deriving DecidableEq, Repr

/-- `monsters`: all that the spawn has made, and `spawnedMap` has their places in it. -/
structure Spawn where
  now : Nat := 0
  spawnMap : Nat → SpawnBlock := fun _ => {}
  spawnedMap : Nat → Option Nat := fun _ => none
  monsters : List Monster := []
  checkSpawnEvent : Bool := false
  pendingSpawnEvents : List Pending := []

/-- What the world says during a check. `placed`: some monster of the block finds a place. -/
structure World where
  placed : Nat → Bool
  currentRate : Nat → Nat
  rate : Nat
  startInterval : Nat
  nextWait : Nat → Nat

inductive Event where
  | wait (ms : Nat)
  | removeCreature (monster : Nat)
  | checkSpawn (world : World)
  /-- One of the pending events of `scheduleSpawn`. -/
  | pending (k : Nat) (world : World)

namespace Spawn

variable (cfg : Config) (world : World) (s : Spawn)

def setBlock (id : Nat) (block : SpawnBlock) : Spawn := { s with spawnMap := Function.update s.spawnMap id block }

def setLastSpawn (id time : Nat) : Spawn := s.setBlock id { s.spawnMap id with lastSpawn := time }

def setEffect (id interval : Nat) : Spawn := s.setBlock id { s.spawnMap id with effectInitialInterval := interval }

def place (id : Nat) : Spawn :=
  let s' : Spawn :=
    { s with
      monsters := s.monsters ++ [⟨id, s.now, none⟩]
      spawnedMap := Function.update s.spawnedMap id (some s.monsters.length) }
  s'.setLastSpawn id s.now

/-- A monster whose block is taken is removed again. -/
def spawnMonster (id : Nat) : Spawn × Bool :=
  if world.placed id && (s.spawnedMap id).isNone then (s.place id, true) else (s, false)

def addEvent (id : Nat) (left : Option Nat) : Spawn :=
  { s with pendingSpawnEvents := s.pendingSpawnEvents ++ [⟨id, left⟩] }

def scheduleSpawn (id interval : Nat) : Spawn :=
  if 0 < interval then
    let nextWait := max 200 (world.nextWait interval)
    s.addEvent id (if nextWait < interval then some (interval - nextWait) else none)
  else (s.spawnMonster world id).1.setEffect id 0

/-- When the monster of a block was removed, if it was. -/
def removedTime (id : Nat) : Option Nat := (s.spawnedMap id).bind fun i => s.monsters[i]?.bind Monster.removed

def cleanup : Spawn :=
  { s with
    spawnMap := fun id =>
      match s.removedTime id with
      | some time => { s.spawnMap id with lastSpawn := time }
      | none => s.spawnMap id
    spawnedMap := fun id => if (s.removedTime id).isSome then none else s.spawnedMap id }

/-- The block may have a new monster. -/
def due (id : Nat) : Bool :=
  (s.spawnedMap id).isNone &&
    decide ((s.spawnMap id).lastSpawn + max MINSPAWN_INTERVAL (cfg.interval id / world.currentRate id) ≤ s.now)

/-- What a check does for a block, and whether that counts. -/
def visit (id : Nat) : Spawn × Bool :=
  if s.due cfg world id then
    if cfg.startEffect then
      if (s.spawnMap id).effectInitialInterval = 0 then
        (((s.setEffect id world.startInterval).scheduleSpawn world id world.startInterval).setLastSpawn id s.now, true)
      else (s, true)
    else
      match s.spawnMonster world id with
      | (s', true) => (s', true)
      | (s', false) => (s'.setLastSpawn id s.now, false)
  else (s, false)

def checkBlocks (s : Spawn) (spawnCount : Nat) : List Nat → Spawn
  | [] => s
  | id :: ids =>
    match s.visit cfg world id with
    | (s', true) => if world.rate ≤ spawnCount + 1 then s' else checkBlocks s' (spawnCount + 1) ids
    | (s', false) => checkBlocks s' spawnCount ids

def checkSpawn : Spawn :=
  let s' := { s with checkSpawnEvent := false }.cleanup.checkBlocks cfg world 0 cfg.ids
  { s' with checkSpawnEvent := cfg.ids.any fun id => (s'.spawnedMap id).isNone }

/-- `onRemoveCreature` of a monster that was there. -/
def removeCreature (i : Nat) : Spawn :=
  match s.monsters[i]? with
  | some ⟨id, created, none⟩ =>
    { s with monsters := s.monsters.set i ⟨id, created, some s.now⟩, checkSpawnEvent := true }
  | _ => s

def dropEvent (k : Nat) : Spawn := { s with pendingSpawnEvents := s.pendingSpawnEvents.eraseIdx k }

def firePending (k : Nat) : Spawn :=
  match s.pendingSpawnEvents[k]? with
  | none => s
  | some ⟨id, left⟩ =>
    match left with
    | some interval => (s.dropEvent k).scheduleSpawn world id interval
    | none => ((s.dropEvent k).spawnMonster world id).1.setEffect id 0

def step (s : Spawn) : Event → Spawn
  | .wait ms => { s with now := s.now + ms }
  | .removeCreature i => s.removeCreature i
  | .checkSpawn world => if s.checkSpawnEvent then s.checkSpawn cfg world else s
  | .pending k world => s.firePending world k

def startup (now : Nat) : Spawn := cfg.ids.foldl (fun s id => (s.spawnMonster world id).1) { now := now }

def run (now : Nat) (events : List Event) : Spawn := events.foldl (step cfg) (startup cfg world now)

/-! ## The blocks and their monsters -/

/-- The block is empty, and long enough. -/
structure Ready (s : Spawn) (id : Nat) : Prop where
  empty : s.spawnedMap id = none
  gone : ∀ m ∈ s.monsters, m.spawnId = id → ∃ t, m.removed = some t ∧ t + MINSPAWN_INTERVAL ≤ s.now

/-- Between two monsters of a block. -/
def Gap (m m' : Monster) : Prop :=
  m.spawnId = m'.spawnId → ∃ t, m.removed = some t ∧ t + MINSPAWN_INTERVAL ≤ m'.created

def waiting (s : Spawn) : List Nat := s.pendingSpawnEvents.map Pending.spawnId

/-- The block had its last spawn before its monster was removed. -/
def Since (s : Spawn) (id : Nat) (m : Monster) : Prop :=
  (s.spawnMap id).lastSpawn ≤ s.now ∧ ∀ t, m.removed = some t → (s.spawnMap id).lastSpawn ≤ t

structure Core (s : Spawn) : Prop where
  occupied : ∀ id i, s.spawnedMap id = some i → ∃ m, s.monsters[i]? = some m ∧ m.spawnId = id ∧ s.Since id m
  alive : ∀ i m, s.monsters[i]? = some m → m.removed = none → s.spawnedMap m.spawnId = some i
  seen : ∀ i m t, s.monsters[i]? = some m → m.removed = some t →
    s.spawnedMap m.spawnId = some i ∨ t ≤ (s.spawnMap m.spawnId).lastSpawn
  gap : s.monsters.Pairwise Gap
  ready : ∀ id ∈ s.waiting, s.Ready id
  once : s.waiting.Nodup

/-- The effects of a block go on exactly while an event of it is pending. -/
def Effects (s : Spawn) : Prop := ∀ id, (s.spawnMap id).effectInitialInterval ≠ 0 ↔ id ∈ s.waiting

variable {cfg world s} {id : Nat}

theorem setBlock_apply (block : SpawnBlock) (id' : Nat) :
    (s.setBlock id block).spawnMap id' = if id' = id then block else s.spawnMap id' := Function.update_apply ..

theorem setEffect_lastSpawn (interval id' : Nat) :
    ((s.setEffect id interval).spawnMap id').lastSpawn = (s.spawnMap id').lastSpawn := by
  unfold setEffect
  rw [setBlock_apply]
  split
  · next heq => rw [heq]
  · rfl

theorem place_spawnedMap (id' : Nat) :
    (s.place id).spawnedMap id' = if id' = id then some s.monsters.length else s.spawnedMap id' :=
  Function.update_apply ..

theorem place_lastSpawn (id' : Nat) :
    ((s.place id).spawnMap id').lastSpawn = if id' = id then s.now else (s.spawnMap id').lastSpawn := by
  unfold place setLastSpawn
  rw [setBlock_apply]
  split <;> rfl

theorem place_effect (id' : Nat) :
    ((s.place id).spawnMap id').effectInitialInterval = (s.spawnMap id').effectInitialInterval := by
  unfold place setLastSpawn
  rw [setBlock_apply]
  split
  · next heq => rw [heq]
  · rfl

theorem place_getElem? {i : Nat} {m : Monster} (h : (s.place id).monsters[i]? = some m) :
    s.monsters[i]? = some m ∨ i = s.monsters.length ∧ m = ⟨id, s.now, none⟩ := by
  have hmonsters : (s.place id).monsters = s.monsters ++ [⟨id, s.now, none⟩] := rfl
  rw [hmonsters, List.getElem?_append] at h
  split at h
  · exact .inl h
  · next hge =>
    obtain ⟨hlt, rfl⟩ := List.getElem?_eq_some_iff.mp h
    rw [List.length_singleton] at hlt
    exact .inr ⟨by omega, by simp⟩

theorem getElem?_place {i : Nat} {m : Monster} (h : s.monsters[i]? = some m) : (s.place id).monsters[i]? = some m :=
  (List.getElem?_append_left (List.getElem?_eq_some_iff.mp h).1).trans h

theorem spawnMonster_cases (world : World) (s : Spawn) (id : Nat) : s.spawnMonster world id = (s, false) ∨
    s.spawnedMap id = none ∧ s.spawnMonster world id = (s.place id, true) := by
  unfold spawnMonster
  split
  · next h =>
    simp only [Bool.and_eq_true, Option.isNone_iff_eq_none] at h
    exact .inr ⟨h.2, rfl⟩
  · exact .inl rfl

namespace Core

variable (h : s.Core)
include h

/-- An empty block, or one whose monster is there. -/
theorem setLastSpawn {time : Nat} (htime : (s.spawnMap id).lastSpawn ≤ time) (hnow : time ≤ s.now)
    (hthere : ∀ i m, s.spawnedMap id = some i → s.monsters[i]? = some m → m.removed = none) :
    (s.setLastSpawn id time).Core where
  occupied id' i hi := by
    obtain ⟨m, hm, hspawn, hsince⟩ := h.occupied id' i hi
    refine ⟨m, hm, hspawn, ?_⟩
    unfold Since Spawn.setLastSpawn
    rw [setBlock_apply]
    split
    · next heq =>
      refine ⟨hnow, fun t ht => ?_⟩
      rw [hthere i m (heq ▸ hi) hm] at ht
      cases ht
    · exact hsince
  alive := h.alive
  seen i m t hm ht := by
    refine (h.seen i m t hm ht).imp_right fun hle => ?_
    unfold Spawn.setLastSpawn
    rw [setBlock_apply]
    split
    · next heq => exact hle.trans (heq ▸ htime)
    · exact hle
  gap := h.gap
  ready id' hid' := ⟨(h.ready id' hid').empty, (h.ready id' hid').gone⟩
  once := h.once

theorem setEffect (interval : Nat) : (s.setEffect id interval).Core where
  occupied id' i hi := by
    obtain ⟨m, hm, hspawn, hsince⟩ := h.occupied id' i hi
    refine ⟨m, hm, hspawn, ?_⟩
    unfold Since
    rw [setEffect_lastSpawn]
    exact hsince
  alive := h.alive
  seen i m t hm ht := by
    rw [setEffect_lastSpawn]
    exact h.seen i m t hm ht
  gap := h.gap
  ready id' hid' := ⟨(h.ready id' hid').empty, (h.ready id' hid').gone⟩
  once := h.once

theorem place (hready : s.Ready id) (hid : id ∉ s.waiting) : (s.place id).Core where
  occupied id' i hi := by
    rw [place_spawnedMap] at hi
    split at hi
    · next heq =>
      obtain rfl := Option.some.inj hi
      refine ⟨⟨id, s.now, none⟩, List.getElem?_concat_length, heq.symm, ?_, fun t ht => by cases ht⟩
      rw [place_lastSpawn, if_pos heq]
      exact le_rfl
    · next hne =>
      obtain ⟨m, hm, hspawn, hsince⟩ := h.occupied id' i hi
      refine ⟨m, getElem?_place hm, hspawn, ?_⟩
      unfold Since
      rw [place_lastSpawn, if_neg hne]
      exact hsince
  alive i m hm hnone := by
    rw [place_spawnedMap]
    rcases place_getElem? hm with hold | ⟨rfl, rfl⟩
    · have hspawned := h.alive i m hold hnone
      rw [if_neg, hspawned]
      intro heq
      rw [heq, hready.empty] at hspawned
      cases hspawned
    · rw [if_pos rfl]
  seen i m t hm ht := by
    rcases place_getElem? hm with hold | ⟨rfl, rfl⟩
    · rw [place_spawnedMap, place_lastSpawn]
      split
      · next heq =>
        obtain ⟨t', ht', hle⟩ := hready.gone m (List.mem_of_getElem? hold) heq
        obtain rfl := Option.some.inj (ht.symm.trans ht')
        exact .inr (by omega)
      · exact h.seen i m t hold ht
    · cases ht
  gap := by
    refine List.pairwise_append.mpr ⟨h.gap, List.pairwise_singleton _ _, fun m hm m' hm' heq => ?_⟩
    obtain rfl := List.mem_singleton.mp hm'
    exact hready.gone m hm heq
  ready id' hid' := by
    have hne : id' ≠ id := fun heq => hid (heq ▸ hid')
    refine ⟨by rw [place_spawnedMap, if_neg hne]; exact (h.ready id' hid').empty, fun m hm heq => ?_⟩
    rcases List.mem_append.mp hm with hold | hnew
    · exact (h.ready id' hid').gone m hold heq
    · rw [List.mem_singleton.mp hnew] at heq
      exact absurd heq.symm hne
  once := h.once

theorem spawnMonster (world : World) (hready : s.Ready id) (hid : id ∉ s.waiting) :
    (s.spawnMonster world id).1.Core := by
  rcases spawnMonster_cases world s id with heq | ⟨_, heq⟩
  · rwa [heq]
  · rw [heq]
    exact h.place hready hid

theorem ready_of_due (hdue : s.due cfg world id = true) : s.Ready id ∧ (s.spawnMap id).lastSpawn ≤ s.now := by
  simp only [due, Bool.and_eq_true, Option.isNone_iff_eq_none, decide_eq_true_eq] at hdue
  obtain ⟨hempty, htime⟩ := hdue
  refine ⟨⟨hempty, fun m hm heq => ?_⟩, by omega⟩
  obtain ⟨i, hi⟩ := List.getElem?_of_mem hm
  cases hremoved : m.removed with
  | none =>
    have halive := h.alive i m hi hremoved
    rw [heq, hempty] at halive
    cases halive
  | some time =>
    have hseen := h.seen i m time hi hremoved
    rw [heq, hempty] at hseen
    refine ⟨time, rfl, ?_⟩
    have hle := hseen.resolve_left fun habsurd => by cases habsurd
    omega

end Core

/-! ## What one block makes of a check -/

theorem waiting_spawnMonster (world : World) (s : Spawn) (id : Nat) :
    (s.spawnMonster world id).1.waiting = s.waiting := by
  rcases spawnMonster_cases world s id with heq | ⟨_, heq⟩
  · rw [heq]
  · rw [heq]
    rfl

theorem effect_spawnMonster (world : World) (s : Spawn) (id id' : Nat) :
    ((s.spawnMonster world id).1.spawnMap id').effectInitialInterval = (s.spawnMap id').effectInitialInterval := by
  rcases spawnMonster_cases world s id with heq | ⟨_, heq⟩
  · rw [heq]
  · rw [heq]
    exact place_effect id'

theorem lastSpawn_spawnMonster (world : World) (hle : (s.spawnMap id).lastSpawn ≤ s.now) :
    ((s.spawnMonster world id).1.spawnMap id).lastSpawn ≤ s.now := by
  rcases spawnMonster_cases world s id with heq | ⟨_, heq⟩ <;> rw [heq]
  · exact hle
  · rw [place_lastSpawn, if_pos rfl]

theorem effect_setLastSpawn (time id' : Nat) :
    ((s.setLastSpawn id time).spawnMap id').effectInitialInterval = (s.spawnMap id').effectInitialInterval := by
  unfold setLastSpawn
  rw [setBlock_apply]
  split
  · next heq => rw [heq]
  · rfl

theorem setEffect_apply (interval id' : Nat) : ((s.setEffect id interval).spawnMap id').effectInitialInterval =
    if id' = id then interval else (s.spawnMap id').effectInitialInterval := by
  unfold setEffect
  rw [setBlock_apply]
  split <;> rfl

/-- The effects go on, or the monster comes and they are over. -/
theorem Core.scheduleSpawn (h : s.Core) (world : World) (interval : Nat) (hready : s.Ready id) (hid : id ∉ s.waiting)
    (hother : ∀ id' ≠ id, (s.spawnMap id').effectInitialInterval ≠ 0 ↔ id' ∈ s.waiting)
    (hset : 0 < interval → (s.spawnMap id).effectInitialInterval ≠ 0) :
    (s.scheduleSpawn world id interval).Core ∧ (s.scheduleSpawn world id interval).Effects := by
  unfold Spawn.scheduleSpawn
  split
  · next hpos =>
    have hwaiting (left : Option Nat) : (s.addEvent id left).waiting = s.waiting ++ [id] := List.map_append
    refine ⟨⟨h.occupied, h.alive, h.seen, h.gap, fun id' hid' => ?_, ?_⟩, fun id' => ?_⟩
    · rw [hwaiting] at hid'
      rcases List.mem_append.mp hid' with hold | hnew
      · exact ⟨(h.ready id' hold).empty, (h.ready id' hold).gone⟩
      · rw [List.mem_singleton.mp hnew]
        exact ⟨hready.empty, hready.gone⟩
    · rw [hwaiting]
      exact List.nodup_append_comm.mpr (List.nodup_cons.mpr ⟨hid, h.once⟩)
    · rw [hwaiting, List.mem_append, List.mem_singleton]
      by_cases heq : id' = id
      · rw [heq]
        exact iff_of_true (hset hpos) (.inr rfl)
      · have hsame := hother id' heq
        exact ⟨fun hne => .inl (hsame.mp hne), fun hor => hsame.mpr (hor.resolve_right heq)⟩
  · refine ⟨(h.spawnMonster world hready hid).setEffect 0, fun id' => ?_⟩
    have hwaiting : ((s.spawnMonster world id).1.setEffect id 0).waiting = s.waiting := waiting_spawnMonster world s id
    rw [hwaiting, setEffect_apply]
    split
    · next heq =>
      rw [heq]
      exact iff_of_false (fun hne => hne rfl) hid
    · next hne =>
      rw [effect_spawnMonster]
      exact hother id' hne

/-- `mode`: without effects there is nothing to wait for. -/
structure Kept (cfg : Config) (s : Spawn) : Prop where
  core : s.Core
  effects : s.Effects
  mode : cfg.startEffect = false → s.waiting = []

/-- The monsters of the blocks are there. -/
def Fresh (s : Spawn) : Prop :=
  ∀ id i, s.spawnedMap id = some i → ∃ m, s.monsters[i]? = some m ∧ m.removed = none

/-- What a block with its turn leaves as it was. -/
structure Adds (s s' : Spawn) : Prop where
  monsters : s.monsters <+: s'.monsters
  new : ∀ m ∈ s'.monsters, m ∈ s.monsters ∨ m.removed = none
  spawned : ∀ id i, s.spawnedMap id = some i → s'.spawnedMap id = some i
  event : s'.checkSpawnEvent = s.checkSpawnEvent
  fresh : s.Fresh → s'.Fresh

theorem Adds.refl (s : Spawn) : s.Adds s :=
  ⟨List.prefix_rfl, fun _ => .inl, fun _ _ hi => hi, rfl, fun hfresh => hfresh⟩

theorem Adds.trans {s' s'' : Spawn} (h : s.Adds s') (h' : s'.Adds s'') : s.Adds s'' where
  monsters := h.monsters.trans h'.monsters
  new m hm := (h'.new m hm).elim (h.new m) .inr
  spawned id i hi := h'.spawned id i (h.spawned id i hi)
  event := h'.event.trans h.event
  fresh := h'.fresh ∘ h.fresh

theorem adds_place (hempty : s.spawnedMap id = none) : s.Adds (s.place id) where
  monsters := List.prefix_append _ _
  new m hm := by
    rcases List.mem_append.mp hm with hold | hnew
    · exact .inl hold
    · rw [List.mem_singleton.mp hnew]
      exact .inr rfl
  spawned id' i hi := by
    rw [place_spawnedMap, if_neg, hi]
    intro heq
    rw [heq, hempty] at hi
    cases hi
  event := rfl
  fresh hfresh id' i hi := by
    rw [place_spawnedMap] at hi
    split at hi
    · obtain rfl := Option.some.inj hi
      exact ⟨_, List.getElem?_concat_length, rfl⟩
    · obtain ⟨m, hm, hnone⟩ := hfresh id' i hi
      exact ⟨m, getElem?_place hm, hnone⟩

theorem adds_spawnMonster (world : World) (s : Spawn) (id : Nat) : s.Adds (s.spawnMonster world id).1 := by
  rcases spawnMonster_cases world s id with heq | ⟨hempty, heq⟩
  · rw [heq]
    exact .refl s
  · rw [heq]
    exact adds_place hempty

theorem adds_scheduleSpawn (world : World) (s : Spawn) (id interval : Nat) :
    s.Adds (s.scheduleSpawn world id interval) := by
  unfold scheduleSpawn
  split
  · exact ⟨List.prefix_rfl, fun _ => .inl, fun _ _ hi => hi, rfl, fun hfresh => hfresh⟩
  · have hadds := adds_spawnMonster world s id
    exact ⟨hadds.monsters, hadds.new, hadds.spawned, hadds.event, hadds.fresh⟩

theorem lastSpawn_scheduleSpawn (world : World) (interval : Nat) (hle : (s.spawnMap id).lastSpawn ≤ s.now) :
    ((s.scheduleSpawn world id interval).spawnMap id).lastSpawn ≤ s.now := by
  unfold scheduleSpawn
  split
  · exact hle
  · rw [setEffect_lastSpawn]
    exact lastSpawn_spawnMonster world hle

theorem now_scheduleSpawn (world : World) (s : Spawn) (id interval : Nat) :
    (s.scheduleSpawn world id interval).now = s.now := by
  unfold scheduleSpawn
  split
  · rfl
  · rcases spawnMonster_cases world s id with heq | ⟨_, heq⟩
    · rw [heq]
      rfl
    · rw [heq]
      rfl

theorem scheduleSpawn_there (world : World) (interval : Nat) (hempty : s.spawnedMap id = none) (i : Nat) (m : Monster)
    (hi : (s.scheduleSpawn world id interval).spawnedMap id = some i)
    (hm : (s.scheduleSpawn world id interval).monsters[i]? = some m) : m.removed = none := by
  unfold scheduleSpawn at hi hm
  split at hi
  · change s.spawnedMap id = some i at hi
    rw [hempty] at hi
    cases hi
  · next hzero =>
    rw [if_neg hzero] at hm
    rcases spawnMonster_cases world s id with heq | ⟨_, heq⟩
    · rw [heq] at hi
      change s.spawnedMap id = some i at hi
      rw [hempty] at hi
      cases hi
    · rw [heq] at hi hm
      change (s.place id).spawnedMap id = some i at hi
      rw [place_spawnedMap, if_pos rfl] at hi
      obtain rfl := Option.some.inj hi
      rcases place_getElem? hm with hold | ⟨_, rfl⟩
      · rw [List.getElem?_eq_none le_rfl] at hold
        cases hold
      · rfl

theorem Kept.visit (h : s.Kept cfg) (world : World) (id : Nat) :
    (s.visit cfg world id).1.Kept cfg ∧ s.Adds (s.visit cfg world id).1 := by
  unfold Spawn.visit
  split
  case isFalse => exact ⟨h, .refl s⟩
  next hdue =>
  obtain ⟨hready, hlast⟩ := h.core.ready_of_due hdue
  split
  · next hmode =>
    split
    case isFalse => exact ⟨h, .refl s⟩
    next hzero =>
    have hid : id ∉ s.waiting := fun hmem => (h.effects id).mpr hmem hzero
    have hset : (s.setEffect id world.startInterval).Core := h.core.setEffect world.startInterval
    have hother (id' : Nat) (hne : id' ≠ id) :
        ((s.setEffect id world.startInterval).spawnMap id').effectInitialInterval ≠ 0 ↔ id' ∈ s.waiting := by
      rw [setEffect_apply, if_neg hne]
      exact h.effects id'
    have hself (hpos : 0 < world.startInterval) :
        ((s.setEffect id world.startInterval).spawnMap id).effectInitialInterval ≠ 0 := by
      rw [setEffect_apply, if_pos rfl]
      exact hpos.ne'
    obtain ⟨hcore, heffects⟩ :=
      hset.scheduleSpawn world world.startInterval ⟨hready.empty, hready.gone⟩ hid hother hself
    have hadds := adds_scheduleSpawn world (s.setEffect id world.startInterval) id world.startInterval
    have htime : (((s.setEffect id world.startInterval).scheduleSpawn world id world.startInterval).spawnMap
        id).lastSpawn ≤ s.now := by
      refine lastSpawn_scheduleSpawn world _ ?_
      rw [setEffect_lastSpawn]
      exact hlast
    have hthere :=
      scheduleSpawn_there (s := s.setEffect id world.startInterval) world world.startInterval hready.empty
    have hnow := now_scheduleSpawn world (s.setEffect id world.startInterval) id world.startInterval
    refine ⟨⟨hcore.setLastSpawn htime hnow.ge hthere, fun id' => ?_, fun hfalse => ?_⟩,
      ⟨hadds.monsters, hadds.new, hadds.spawned, hadds.event, hadds.fresh⟩⟩
    · rw [effect_setLastSpawn]
      exact heffects id'
    · rw [hmode] at hfalse
      cases hfalse
  · next hmode =>
    have hnone : s.waiting = [] := h.mode (Bool.eq_false_iff.mpr hmode)
    have hid : id ∉ s.waiting := by
      rw [hnone]
      exact List.not_mem_nil
    have hcore := h.core.spawnMonster world hready hid
    have hadds := adds_spawnMonster world s id
    rcases spawnMonster_cases world s id with heq | ⟨_, heq⟩
    · rw [heq]
      have hthere (i : Nat) (m : Monster) (hi : s.spawnedMap id = some i) (_ : s.monsters[i]? = some m) :
          m.removed = none := by
        rw [hready.empty] at hi
        cases hi
      refine ⟨⟨h.core.setLastSpawn hlast le_rfl hthere, fun id' => ?_, h.mode⟩,
        ⟨List.prefix_rfl, fun _ => .inl, fun _ _ hi => hi, rfl, fun hfresh => hfresh⟩⟩
      rw [effect_setLastSpawn]
      exact h.effects id'
    · rw [heq] at hcore hadds ⊢
      refine ⟨⟨hcore, fun id' => ?_, h.mode⟩, hadds⟩
      rw [place_effect]
      exact h.effects id'

theorem Kept.checkBlocks (h : s.Kept cfg) (world : World) (spawnCount : Nat) (ids : List Nat) :
    (s.checkBlocks cfg world spawnCount ids).Kept cfg ∧ s.Adds (s.checkBlocks cfg world spawnCount ids) := by
  induction ids generalizing s spawnCount with
  | nil => exact ⟨h, .refl s⟩
  | cons id ids ih =>
    obtain ⟨hkept, hadds⟩ := h.visit world id
    unfold Spawn.checkBlocks
    generalize s.visit cfg world id = visited at hkept hadds
    obtain ⟨s', counts⟩ := visited
    cases counts with
    | true =>
      simp only
      split
      · exact ⟨hkept, hadds⟩
      · obtain ⟨hrest, hmore⟩ := ih hkept (spawnCount + 1)
        exact ⟨hrest, hadds.trans hmore⟩
    | false =>
      obtain ⟨hrest, hmore⟩ := ih hkept spawnCount
      exact ⟨hrest, hadds.trans hmore⟩

/-! ## Cleaning up -/

theorem removedTime_eq {i : Nat} {m : Monster} (hi : s.spawnedMap id = some i) (hm : s.monsters[i]? = some m) :
    s.removedTime id = m.removed := by
  rw [removedTime, hi, Option.bind_some, hm, Option.bind_some]

theorem removedTime_eq_some {t : Nat} (h : s.removedTime id = some t) :
    ∃ i m, s.spawnedMap id = some i ∧ s.monsters[i]? = some m ∧ m.removed = some t := by
  obtain ⟨i, hi, hbind⟩ := Option.bind_eq_some_iff.mp h
  obtain ⟨m, hm, hremoved⟩ := Option.bind_eq_some_iff.mp hbind
  exact ⟨i, m, hi, hm, hremoved⟩

theorem cleanup_spawnedMap {i : Nat} (h : s.cleanup.spawnedMap id = some i) :
    s.spawnedMap id = some i ∧ s.removedTime id = none := by
  simp only [cleanup] at h
  split at h
  · cases h
  · next hnone => exact ⟨h, Option.not_isSome_iff_eq_none.mp hnone⟩

theorem Kept.cleanup (h : s.Kept cfg) : s.cleanup.Kept cfg ∧ s.cleanup.Fresh := by
  have heffect (id : Nat) :
      (s.cleanup.spawnMap id).effectInitialInterval = (s.spawnMap id).effectInitialInterval := by
    simp only [Spawn.cleanup]
    split <;> rfl
  refine ⟨⟨⟨?_, ?_, ?_, h.core.gap, ?_, h.core.once⟩, ?_, h.mode⟩, ?_⟩
  · intro id i hi
    obtain ⟨hold, hnone⟩ := cleanup_spawnedMap hi
    obtain ⟨m, hm, hspawn, hsince⟩ := h.core.occupied id i hold
    refine ⟨m, hm, hspawn, ?_⟩
    unfold Since at hsince ⊢
    simpa only [Spawn.cleanup, hnone] using hsince
  · intro i m hm hnone
    have hspawned := h.core.alive i m hm hnone
    simp [Spawn.cleanup, removedTime_eq hspawned hm, hnone, hspawned]
  · intro i m t hm ht
    refine .inr ?_
    cases hremoved : s.removedTime m.spawnId with
    | none =>
      rcases h.core.seen i m t hm ht with hspawned | hle
      · rw [removedTime_eq hspawned hm, ht] at hremoved
        cases hremoved
      · simpa only [Spawn.cleanup, hremoved] using hle
    | some time =>
      simp only [Spawn.cleanup, hremoved]
      rcases h.core.seen i m t hm ht with hspawned | hle
      · rw [removedTime_eq hspawned hm, ht] at hremoved
        exact (Option.some.inj hremoved).le
      · obtain ⟨j, m', hj, hm', htime⟩ := removedTime_eq_some hremoved
        obtain ⟨m'', hm'', _, hsince⟩ := h.core.occupied _ j hj
        obtain rfl := Option.some.inj (hm'.symm.trans hm'')
        exact hle.trans (hsince.2 time htime)
  · intro id hid
    obtain ⟨hempty, hgone⟩ := h.core.ready id hid
    refine ⟨?_, hgone⟩
    simp only [Spawn.cleanup, hempty, ite_self]
  · intro id
    rw [heffect]
    exact h.effects id
  · intro id i hi
    obtain ⟨hold, hnone⟩ := cleanup_spawnedMap hi
    obtain ⟨m, hm, _⟩ := h.core.occupied id i hold
    exact ⟨m, hm, (removedTime_eq hold hm).symm.trans hnone⟩

/-! ## Every event -/

def Alive (s : Spawn) (id : Nat) : Prop :=
  ∃ i m, s.spawnedMap id = some i ∧ s.monsters[i]? = some m ∧ m.removed = none

/-- No check is pending before a monster was removed, and then one is while a block has no monster. -/
structure Inv (cfg : Config) (s : Spawn) : Prop where
  kept : s.Kept cfg
  started : s.checkSpawnEvent = true → ∃ m ∈ s.monsters, m.removed ≠ none
  watched : s.checkSpawnEvent = false → (∀ id ∈ cfg.ids, s.Alive id) ∨ ∀ m ∈ s.monsters, m.removed = none

theorem Adds.alive {s' : Spawn} (h : s.Adds s') (halive : s.Alive id) : s'.Alive id := by
  obtain ⟨i, m, hi, hm, hnone⟩ := halive
  obtain ⟨new, hnew⟩ := h.monsters
  refine ⟨i, m, h.spawned id i hi, ?_, hnone⟩
  rw [← hnew, List.getElem?_append_left (List.getElem?_eq_some_iff.mp hm).1, hm]

theorem Inv.adds {s' : Spawn} (h : s.Inv cfg) (hkept : s'.Kept cfg) (hadds : s.Adds s') : s'.Inv cfg where
  kept := hkept
  started hevent := by
    obtain ⟨m, hm, hremoved⟩ := h.started (hadds.event ▸ hevent)
    exact ⟨m, hadds.monsters.subset hm, hremoved⟩
  watched hevent := by
    rcases h.watched (hadds.event ▸ hevent) with hall | hnone
    · exact .inl fun id hid => hadds.alive (hall id hid)
    · exact .inr fun m hm => (hadds.new m hm).elim (hnone m) fun hnew => hnew

theorem Kept.setCheck (h : s.Kept cfg) (event : Bool) : Kept cfg { s with checkSpawnEvent := event } where
  core := ⟨h.core.occupied, h.core.alive, h.core.seen, h.core.gap,
    fun id hid => ⟨(h.core.ready id hid).empty, (h.core.ready id hid).gone⟩, h.core.once⟩
  effects := h.effects
  mode := h.mode

theorem Kept.wait (h : s.Kept cfg) (ms : Nat) : Kept cfg { s with now := s.now + ms } where
  core := by
    refine ⟨fun id i hi => ?_, h.core.alive, h.core.seen, h.core.gap, fun id hid => ?_, h.core.once⟩
    · obtain ⟨m, hm, hspawn, hsince⟩ := h.core.occupied id i hi
      exact ⟨m, hm, hspawn, Nat.le_add_right_of_le hsince.1, hsince.2⟩
    · obtain ⟨hempty, hgone⟩ := h.core.ready id hid
      refine ⟨hempty, fun m hm heq => ?_⟩
      obtain ⟨t, ht, hle⟩ := hgone m hm heq
      exact ⟨t, ht, Nat.le_add_right_of_le hle⟩
  effects := h.effects
  mode := h.mode

theorem Inv.checkSpawn (h : s.Inv cfg) (world : World) (hevent : s.checkSpawnEvent = true) :
    (s.checkSpawn cfg world).Inv cfg := by
  obtain ⟨hclean, hfresh⟩ := (h.kept.setCheck false).cleanup
  obtain ⟨hkept, hadds⟩ := hclean.checkBlocks world 0 cfg.ids
  refine ⟨hkept.setCheck _, fun _ => ?_, fun hnone => .inl fun id hid => ?_⟩
  · obtain ⟨m, hm, hremoved⟩ := h.started hevent
    exact ⟨m, hadds.monsters.subset hm, hremoved⟩
  · have hsome := List.any_eq_false.mp hnone id hid
    simp only [Option.isNone_iff_eq_none] at hsome
    obtain ⟨i, hi⟩ := Option.ne_none_iff_exists'.mp hsome
    obtain ⟨m, hm, halive⟩ := hadds.fresh hfresh id i hi
    exact ⟨i, m, hi, hm, halive⟩

theorem Kept.firePending (h : s.Kept cfg) (world : World) (k : Nat) :
    (s.firePending world k).Kept cfg ∧ s.Adds (s.firePending world k) := by
  unfold Spawn.firePending
  split
  · exact ⟨h, .refl s⟩
  · next id left hk =>
    have hperm : s.waiting.Perm (id :: (s.dropEvent k).waiting) := by
      obtain ⟨hlt, hget⟩ := List.getElem?_eq_some_iff.mp hk
      have herase := (List.getElem_cons_eraseIdx_perm hlt).symm.map Pending.spawnId
      rwa [hget] at herase
    have hnodup := hperm.nodup_iff.mp h.core.once
    obtain ⟨hid, honce⟩ := List.nodup_cons.mp hnodup
    have hready := h.core.ready id (hperm.mem_iff.mpr List.mem_cons_self)
    have hdropped : (s.dropEvent k).Core := by
      refine ⟨h.core.occupied, h.core.alive, h.core.seen, h.core.gap, fun id' hid' => ?_, honce⟩
      have hready' := h.core.ready id' (hperm.mem_iff.mpr (List.mem_cons_of_mem _ hid'))
      exact ⟨hready'.empty, hready'.gone⟩
    have hother (id' : Nat) (hne : id' ≠ id) :
        ((s.dropEvent k).spawnMap id').effectInitialInterval ≠ 0 ↔ id' ∈ (s.dropEvent k).waiting := by
      refine (h.effects id').trans (hperm.mem_iff.trans ?_)
      rw [List.mem_cons, or_iff_right hne]
    have heffect : ((s.dropEvent k).spawnMap id).effectInitialInterval ≠ 0 :=
      (h.effects id).mpr (hperm.mem_iff.mpr List.mem_cons_self)
    have hmode (hfalse : cfg.startEffect = false) : id ∈ ([] : List Nat) :=
      h.mode hfalse ▸ hperm.mem_iff.mpr List.mem_cons_self
    have hscheduled (interval : Nat) : ((s.dropEvent k).scheduleSpawn world id interval).Kept cfg ∧
        s.Adds ((s.dropEvent k).scheduleSpawn world id interval) := by
      obtain ⟨hcore, heffects⟩ := hdropped.scheduleSpawn world interval ⟨hready.empty, hready.gone⟩ hid hother
        fun _ => heffect
      have hadds := adds_scheduleSpawn world (s.dropEvent k) id interval
      exact ⟨⟨hcore, heffects, fun hfalse => absurd (hmode hfalse) List.not_mem_nil⟩,
        ⟨hadds.monsters, hadds.new, hadds.spawned, hadds.event, hadds.fresh⟩⟩
    cases left with
    | some interval => exact hscheduled interval
    | none => exact hscheduled 0

theorem getElem?_removed {i j : Nat} {old new m : Monster} (hi : s.monsters[i]? = some old)
    (hj : (s.monsters.set i new)[j]? = some m) : i = j ∧ m = new ∨ i ≠ j ∧ s.monsters[j]? = some m := by
  rw [List.getElem?_set] at hj
  split at hj
  · next heq =>
    rw [if_pos (heq ▸ (List.getElem?_eq_some_iff.mp hi).1)] at hj
    exact .inl ⟨heq, (Option.some.inj hj).symm⟩
  · next hne => exact .inr ⟨hne, hj⟩

theorem Inv.removeCreature (h : s.Inv cfg) (i : Nat) : (s.removeCreature i).Inv cfg := by
  unfold Spawn.removeCreature
  split
  case h_2 => exact h
  next id created hi =>
  have hspawned : s.spawnedMap id = some i := h.kept.core.alive i _ hi rfl
  have hlt : i < s.monsters.length := (List.getElem?_eq_some_iff.mp hi).1
  have hold := (List.getElem?_eq_some_iff.mp hi).2
  refine ⟨⟨⟨fun id' j hj => ?_, fun j m hm hnone => ?_, fun j m t hm ht => ?_, ?_, fun id' hid' => ?_,
    h.kept.core.once⟩, h.kept.effects, h.kept.mode⟩, fun _ => ?_, fun hfalse => (by cases hfalse)⟩
  · obtain ⟨m, hm, hspawn, hsince⟩ := h.kept.core.occupied id' j hj
    by_cases heq : i = j
    · subst heq
      obtain rfl := Option.some.inj (hi.symm.trans hm)
      refine ⟨_, List.getElem?_set_self hlt, hspawn, hsince.1, fun t ht => ?_⟩
      exact Option.some.inj ht ▸ hsince.1
    · exact ⟨m, (List.getElem?_set_ne heq).trans hm, hspawn, hsince⟩
  · rcases getElem?_removed hi hm with ⟨_, rfl⟩ | ⟨_, hother⟩
    · cases hnone
    · exact h.kept.core.alive j m hother hnone
  · rcases getElem?_removed hi hm with ⟨rfl, rfl⟩ | ⟨_, hother⟩
    · exact .inl hspawned
    · exact h.kept.core.seen j m t hother ht
  · have hgap := List.pairwise_iff_getElem.mp h.kept.core.gap
    refine List.pairwise_iff_getElem.mpr fun a b ha hb hab => ?_
    simp only [List.length_set] at ha hb
    have hpair := hgap a b ha hb hab
    rw [List.getElem_set, List.getElem_set]
    split
    · next heq =>
      subst heq
      rw [if_neg hab.ne]
      intro hsame
      rw [hold] at hpair
      obtain ⟨t, ht, _⟩ := hpair hsame
      cases ht
    · split
      · next heq =>
        subst heq
        rwa [hold] at hpair
      · exact hpair
  · obtain ⟨hempty, hgone⟩ := h.kept.core.ready id' hid'
    refine ⟨hempty, fun m hm heq => ?_⟩
    rcases List.mem_or_eq_of_mem_set hm with hmem | rfl
    · exact hgone m hmem heq
    · obtain rfl : id = id' := heq
      rw [hspawned] at hempty
      cases hempty
  · exact ⟨_, List.mem_set hlt _, Option.some_ne_none _⟩

theorem Inv.step (h : s.Inv cfg) (e : Event) : (s.step cfg e).Inv cfg := by
  cases e with
  | wait ms => exact ⟨h.kept.wait ms, h.started, h.watched⟩
  | removeCreature i => exact h.removeCreature i
  | checkSpawn world =>
    simp only [Spawn.step]
    split
    · next hevent => exact h.checkSpawn world hevent
    · exact h
  | pending k world =>
    obtain ⟨hkept, hadds⟩ := h.kept.firePending world k
    exact h.adds hkept hadds

/-! ## Runs -/

/-- Nothing was removed, and nothing is to come. -/
structure New (s : Spawn) : Prop where
  core : s.Core
  quiet : s.checkSpawnEvent = false ∧ s.waiting = [] ∧ ∀ id, (s.spawnMap id).effectInitialInterval = 0
  there : ∀ m ∈ s.monsters, m.removed = none

theorem New.spawnMonster (h : s.New) (world : World) (id : Nat) : (s.spawnMonster world id).1.New := by
  obtain ⟨hcheck, hwaiting, heffect⟩ := h.quiet
  rcases spawnMonster_cases world s id with heq | ⟨hempty, heq⟩
  · rwa [heq]
  · rw [heq]
    have hready : s.Ready id := by
      refine ⟨hempty, fun m hm hspawn => ?_⟩
      obtain ⟨i, hi⟩ := List.getElem?_of_mem hm
      have hspawned := h.core.alive i m hi (h.there m hm)
      rw [hspawn, hempty] at hspawned
      cases hspawned
    have hid : id ∉ s.waiting := hwaiting ▸ List.not_mem_nil
    refine ⟨h.core.place hready hid, ⟨hcheck, hwaiting, fun id' => ?_⟩, fun m hm => ?_⟩
    · rw [place_effect, heffect]
    · exact ((adds_place hempty).new m hm).elim (h.there m) fun hnew => hnew

theorem new_startup (cfg : Config) (world : World) (now : Nat) : (startup cfg world now).New := by
  have hrun (ids : List Nat) (s : Spawn) (h : s.New) : (ids.foldl (fun s id => (s.spawnMonster world id).1) s).New := by
    induction ids generalizing s with
    | nil => exact h
    | cons id ids ih => exact ih _ (h.spawnMonster world id)
  refine hrun cfg.ids _ ⟨⟨?_, ?_, ?_, List.Pairwise.nil, ?_, List.nodup_nil⟩, ⟨rfl, rfl, fun _ => rfl⟩, ?_⟩
  · intro id i hi
    cases hi
  · intro i m hm
    cases hm
  · intro i m t hm
    cases hm
  · intro id hid
    cases hid
  · intro m hm
    cases hm

theorem New.inv (h : s.New) : s.Inv cfg := by
  obtain ⟨hcheck, hwaiting, heffect⟩ := h.quiet
  refine ⟨⟨h.core, fun id => ?_, fun _ => hwaiting⟩, fun hevent => ?_, fun _ => .inr h.there⟩
  · rw [heffect, hwaiting]
    exact iff_of_false (fun hne => hne rfl) List.not_mem_nil
  · rw [hcheck] at hevent
    cases hevent

theorem run_inv (cfg : Config) (world : World) (now : Nat) (events : List Event) :
    (run cfg world now events).Inv cfg := by
  have hrun (s : Spawn) (h : s.Inv cfg) : (events.foldl (step cfg) s).Inv cfg := by
    induction events generalizing s with
    | nil => exact h
    | cons e events ih => exact ih _ (h.step e)
  exact hrun _ (new_startup cfg world now).inv

/-- A block never has two monsters, and none within ten seconds after the one before. After the first monster of the
spawn was removed, a check is pending while some block has none, and no check comes before that, even if a block got no
monster when the spawn started. Effects always have an event that goes on with them. -/
theorem run_respawns (cfg : Config) (world : World) (now : Nat) (events : List Event) :
    (run cfg world now events).monsters.Pairwise Gap ∧
      ((run cfg world now events).checkSpawnEvent = true →
        ∃ m ∈ (run cfg world now events).monsters, m.removed ≠ none) ∧
      ((∃ m ∈ (run cfg world now events).monsters, m.removed ≠ none) → ∀ id ∈ cfg.ids,
        (∃ m ∈ (run cfg world now events).monsters, m.spawnId = id ∧ m.removed = none) ∨
          (run cfg world now events).checkSpawnEvent = true) ∧
      ∀ id, ((run cfg world now events).spawnMap id).effectInitialInterval ≠ 0 ↔
        id ∈ (run cfg world now events).waiting := by
  have h := run_inv cfg world now events
  refine ⟨h.kept.core.gap, h.started, ?_, h.kept.effects⟩
  rintro ⟨m, hm, hremoved⟩ id hid
  cases hcheck : (run cfg world now events).checkSpawnEvent with
  | true => exact .inr rfl
  | false =>
    rcases h.watched hcheck with hall | hnone
    · obtain ⟨i, m', hi, hm', halive⟩ := hall id hid
      obtain ⟨m'', hm'', hspawn, _⟩ := h.kept.core.occupied id i hi
      obtain rfl := Option.some.inj (hm'.symm.trans hm'')
      exact .inl ⟨m', List.mem_of_getElem? hm', hspawn, halive⟩
    · exact absurd (hnone m hm) hremoved

end Spawn

end ForgottenServer.Spawns
