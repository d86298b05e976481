import ForgottenServer.View.InStep
import ForgottenServer.World.SpectatorCache

/-! # The client and a map that changes

A change of a tile is told to the players that a search of spectators finds. The search looks two floors up and down, and
from a position above ground it does not look below ground, while the window of a client above ground has eight floors. -/

namespace ForgottenServer.View
open ForgottenServer.World GapCoding

variable {T : Type}

/-! ## What is in the window -/

theorem canSee_eq_true {myPos : Position} {x y z : Int} :
    canSee myPos x y z = true ↔ (myPos.getZ ≤ 7 ∧ z ≤ 7 ∨ 7 < myPos.getZ ∧ (myPos.getZ - z).natAbs ≤ 2) ∧
      (myPos.getX - 8 + (myPos.getZ - z) ≤ x ∧ x ≤ myPos.getX + 9 + (myPos.getZ - z)) ∧
        myPos.getY - 6 + (myPos.getZ - z) ≤ y ∧ y ≤ myPos.getY + 7 + (myPos.getZ - z) := by
  unfold canSee
  rw [Bool.and_eq_true, decide_eq_true_iff]
  unfold maxClientViewportX maxClientViewportY
  have hfloor : (if myPos.getZ ≤ 7 then !decide (z > 7) else !decide ((myPos.getZ - z).natAbs > 2)) = true ↔
      (myPos.getZ ≤ 7 ∧ z ≤ 7 ∨ 7 < myPos.getZ ∧ (myPos.getZ - z).natAbs ≤ 2) := by
    split <;> rw [Bool.not_eq_true', decide_eq_false_iff_not] <;> omega
  rw [hfloor]
  exact and_congr_right fun _ => by omega

theorem canSee_iff {myPos pos : Position} (hpos : pos.getZ ≤ 15) :
    canSee myPos pos.getX pos.getY pos.getZ = true ↔ fieldOf pos ∈ windowFields (fieldOf myPos) := by
  have hnonneg : 0 ≤ pos.getZ := Int.natCast_nonneg _
  rw [canSee_eq_true, Client.mem_windowFields, mem_mapFloors]
  simp only [fieldOf]
  constructor
  · intro h
    obtain ⟨hfloor, hx, hy⟩ := h
    exact ⟨by omega, by omega, by omega⟩
  · intro h
    obtain ⟨hfloor, hx, hy⟩ := h
    exact ⟨by omega, by omega, by omega⟩

/-- The search for the players who are told about a change at a position. -/
def playersAround (pos : Position) : Request := { centerPos := pos, multifloor := true, onlyPlayers := true }

/-- A change on a floor is told to a player on another: they are not more than two floors apart, and a change above ground
is not told below. -/
def Told (floor change : Int) : Prop := (floor - change).natAbs ≤ 2 ∧ (change ≤ 7 → floor ≤ 7)

instance (floor change : Int) : Decidable (Told floor change) := inferInstanceAs (Decidable (_ ∧ _))

theorem rangeZ_iff {pos : Position} {floor : Int} (hfloor : 0 ≤ floor ∧ floor ≤ 15) :
    ((playersAround pos).rangeZ.1 ≤ floor ∧ floor ≤ (playersAround pos).rangeZ.2) ↔ Told floor pos.getZ := by
  have hz : pos.z > 7 ↔ pos.getZ > 7 := by
    unfold Position.getZ
    rw [gt_iff_lt, UInt8.lt_iff_toNat_lt, show (7 : UInt8).toNat = 7 from rfl]
    omega
  have hlayers : ((World.MAP_MAX_LAYERS : Nat) : Int) = 16 := rfl
  unfold Request.rangeZ Told playersAround
  simp only [if_true, hz, hlayers]
  split <;> simp only <;> omega

/-- Of the players who see a position, those are found that a change there is told to. -/
theorem wants_iff {pos : Position} (creature : Creature) (hplayer : creature.type = .player)
    (hpresent : creature.isRemoved = false) (hmap : creature.position.getZ ≤ 15)
    (hsees : canSee creature.position pos.getX pos.getY pos.getZ) :
    (playersAround pos).search.Wants pos creature ↔ Told creature.position.getZ pos.getZ := by
  have hfloor : 0 ≤ creature.position.getZ ∧ creature.position.getZ ≤ 15 := ⟨Int.natCast_nonneg _, hmap⟩
  rw [← rangeZ_iff hfloor]
  constructor
  · intro h
    exact h.floor
  · intro h
    obtain ⟨_, ⟨hx, hx'⟩, hy, hy'⟩ := canSee_eq_true.mp hsees
    have hrange : (playersAround pos).search.minRangeX = -11 ∧ (playersAround pos).search.maxRangeX = 11 ∧
        (playersAround pos).search.minRangeY = -11 ∧ (playersAround pos).search.maxRangeY = 11 := ⟨rfl, rfl, rfl, rfl⟩
    refine ⟨hpresent, fun _ => hplayer, fun hm => ?_, fun hn => ?_, h, ?_, ?_⟩
    · cases hm
    · cases hn
    · unfold Position.getOffsetZ
      omega
    · unfold Position.getOffsetZ
      omega

/-- The town after some calls, with creatures of any kind that were not on the map before. -/
def townAfter (tiles : Tiles T) (creatures : Nat → Creature) (events : List (Event T)) : Town T :=
  events.foldl (Town.step tiles) { creatures }

theorem kept_townAfter (tiles : Tiles T) (creatures : Nat → Creature) (events : List (Event T)) :
    (townAfter tiles creatures events).Kept := by
  have hstart : ({ creatures } : Town T).Kept := by
    refine ⟨Map.valid_empty, fun c hc => ?_, fun leaf c => ?_, fun leaf => List.nodup_nil, fun leaf => List.Perm.refl _⟩
    · cases hc
    · exact ⟨fun h => (by cases h), fun h => (by cases h.1)⟩
  unfold townAfter
  generalize ({ creatures } : Town T) = town at hstart
  induction events generalizing town with
  | nil => exact hstart
  | cons event events ih => exact ih _ (hstart.step tiles event)

/-- In every town that is reached, a search for the players around a change finds, of those on the map whose client
shows the position, exactly the ones that a change there is told to: a client above ground is not told of what it shows
three floors up, and a client below ground is not told of what it shows above ground. -/
theorem mem_playersAround_iff (tiles : Tiles T) (creatures : Nat → Creature) (events : List (Event T)) {c : Nat}
    {pos : Position} (hon : (townAfter tiles creatures events).onMap c)
    (hplayer : ((townAfter tiles creatures events).creatures c).type = .player)
    (hpresent : ((townAfter tiles creatures events).creatures c).isRemoved = false)
    (hmap : ((townAfter tiles creatures events).creatures c).position.getZ ≤ 15) (hpos : pos.getZ ≤ 15)
    (hsees : canSee ((townAfter tiles creatures events).creatures c).position pos.getX pos.getY pos.getZ) :
    c ∈ (townAfter tiles creatures events).uncached (playersAround pos) ↔
      Told ((townAfter tiles creatures events).creatures c).position.getZ pos.getZ := by
  have hkept := kept_townAfter tiles creatures events
  have hlayer : ¬ (playersAround pos).centerPos.z.toNat ≥ World.MAP_MAX_LAYERS := by
    have hlayers : World.MAP_MAX_LAYERS = 16 := rfl
    unfold Position.getZ at hpos
    rw [hlayers]
    show ¬ pos.z.toNat ≥ 16
    omega
  unfold Town.uncached
  rw [if_neg hlayer, Town.getSpectatorsInternal_eq hkept.valid.toLinked, List.nil_append,
    Town.mem_found hkept.valid.toLinked hkept.registered, ← wants_iff _ hplayer hpresent hmap hsees]
  exact and_iff_right hon

/-- A player three floors above a change. -/
def towerCalls : List (Event Unit) :=
  [.tileCall (.setTile ⟨100, 100, 4⟩ ()), .creature (.placeCreature 1 ⟨100, 100, 4⟩)]

theorem mem_playersAround_tower :
    1 ∈ (townAfter ⟨fun _ _ => (), fun _ _ => none⟩ (fun _ => { position := ⟨0, 0, 0⟩, type := .player })
        towerCalls).uncached (playersAround ⟨97, 97, 7⟩) ↔
      Told ((townAfter ⟨fun _ _ => (), fun _ _ => none⟩ (fun _ => { position := ⟨0, 0, 0⟩, type := .player })
        towerCalls).creatures 1).position.getZ 7 :=
  mem_playersAround_iff _ _ towerCalls (by decide) (by decide) (by decide) (by decide) (by decide) (by decide)

/-! ## A session -/

/-- The map, where the player is, and the client. -/
structure Session (T : Type) where
  getTile : Position → Option T
  position : Position
  client : Client T

inductive SessionEvent (T : Type) where
  /-- `Map::moveCreature` of the player; `ground` is whether the new tile has one. -/
  | move (newPos : Position) (forceTeleport ground : Bool) (oldStackPos newStackPos : Int)
  /-- A tile of the map changes, and `sendUpdateTile` tells the spectators. -/
  | change (pos : Position) (tile : Option T)

/-- The positions of an event are on the floors of the map. -/
def SessionEvent.OnMap : SessionEvent T → Prop
  | .move newPos .. => newPos.getZ ≤ 15
  | .change pos _ => pos.getZ ≤ 15

/-- `isInRange(newPos, 1, 1, 0)`. -/
def isInRange (oldPos newPos : Position) : Bool :=
  (oldPos.getX - newPos.getX).natAbs ≤ 1 ∧ (oldPos.getY - newPos.getY).natAbs ≤ 1 ∧
    (oldPos.getZ - newPos.getZ).natAbs ≤ 0

namespace Session

/-- The move that is told. -/
def moveTo (session : Session T) (newPos : Position) (forceTeleport ground : Bool) (oldStackPos newStackPos : Int) :
    Move where
  newPos
  newStackPos
  oldPos := session.position
  oldStackPos
  teleport := forceTeleport || !ground || !isInRange session.position newPos

/-- Whether the search around a position finds the player. -/
def told (session : Session T) (pos : Position) : Bool :=
  (playersAround pos).search.accepts pos { position := session.position, type := .player }

/-- The messages of an event, after it. -/
def messages (isOTC : Bool) (session : Session T) : SessionEvent T → List (Message T)
  | .move newPos forceTeleport ground oldStackPos newStackPos =>
    sendMoveCreature session.getTile isOTC (session.moveTo newPos forceTeleport ground oldStackPos newStackPos)
  | .change pos tile => if session.told pos then sendUpdateTile session.position pos tile else []

/-- `none`: the client is lost. -/
def step (isOTC : Bool) (session : Session T) (event : SessionEvent T) : Option (Session T) :=
  (session.client.readAll (session.messages isOTC event)).map fun client =>
    match event with
    | .move newPos .. => { session with position := newPos, client }
    | .change pos tile => { session with getTile := Function.update session.getTile pos tile, client }

def run (isOTC : Bool) : Session T → List (SessionEvent T) → Option (Session T)
  | session, [] => some session
  | session, event :: events => (session.step isOTC event).bind fun session => run isOTC session events

/-- A client that was shown the map at a position. -/
def login (getTile : Position → Option T) (pos : Position) : Option (Session T) :=
  (Client.readAll ⟨⟨0, 0, 0⟩, fun _ => none⟩ (sendMapDescription getTile pos)).map fun client => ⟨getTile, pos, client⟩

/-- The client shows what it is told of: the window around the player, on the floors whose changes come to it. -/
structure Coherent (session : Session T) : Prop where
  onMap : session.position.getZ ≤ 15
  shows : session.client.Shows session.getTile
    (fun field => (∃ pos, fieldOf pos = field) ∧ Told session.position.getZ field.z) (fieldOf session.position)

theorem fieldOf_inj {pos pos' : Position} (h : fieldOf pos = fieldOf pos') : pos = pos' := by
  rw [← position_fieldOf pos, h, position_fieldOf]

/-- A move is told as a teleport unless it stays on its floor, so that no field comes near that was far. -/
theorem Coherent.move {session : Session T} (h : session.Coherent) (isOTC : Bool) {newPos : Position}
    (hpos : newPos.getZ ≤ 15) (forceTeleport ground : Bool) (oldStackPos newStackPos : Int) :
    ∃ after, session.step isOTC (.move newPos forceTeleport ground oldStackPos newStackPos) = some after ∧
      after.Coherent := by
  have hmap : (session.moveTo newPos forceTeleport ground oldStackPos newStackPos).OnMap := ⟨h.onMap, hpos⟩
  by_cases hfloor : newPos.getZ = session.position.getZ
  · have hnear : (session.moveTo newPos forceTeleport ground oldStackPos newStackPos).Near := by
      intro hteleport
      simp only [moveTo, Bool.or_eq_false_iff, Bool.not_eq_false', isInRange, decide_eq_true_iff] at hteleport
      simp only [moveTo]
      omega
    obtain ⟨client, hread, hshows⟩ := Client.Shows.sendMoveCreature isOTC h.shows hnear hmap
    rw [← hfloor] at hshows
    exact ⟨_, congrArg (Option.map _) hread, hpos, hshows⟩
  · have hteleport : (session.moveTo newPos forceTeleport ground oldStackPos newStackPos).teleport = true := by
      simp only [moveTo, Bool.or_eq_true, Bool.not_eq_true', isInRange, decide_eq_false_iff_not]
      omega
    -- the whole window is told again
    obtain ⟨client, hread, hshows⟩ := Client.reaches_teleport session.client session.getTile
      (fun field => (∃ pos, fieldOf pos = field) ∧ Told newPos.getZ field.z) isOTC
      (Bool.or_eq_true_iff.mpr (.inl hteleport))
    exact ⟨_, congrArg (Option.map _) hread, hpos, hshows⟩

theorem Coherent.change {session : Session T} (h : session.Coherent) (isOTC : Bool) {pos : Position}
    (hpos : pos.getZ ≤ 15) (tile : Option T) :
    ∃ after, session.step isOTC (.change pos tile) = some after ∧ after.Coherent := by
  by_cases htells : session.told pos = true ∧ canSee session.position pos.getX pos.getY pos.getZ = true
  · have hmessages : session.messages isOTC (.change pos tile) = [.updateTile pos tile] := by
      rw [messages, if_pos htells.1, sendUpdateTile, if_pos htells.2]
    refine ⟨{ session with
      getTile := Function.update session.getTile pos tile
      client := { session.client with tiles := Function.update session.client.tiles (fieldOf pos) tile } }, ?_,
      h.onMap, h.shows.center, fun field hfield hfresh => ?_⟩
    · rw [step, hmessages]
      rfl
    · obtain ⟨⟨pos', rfl⟩, htold⟩ := hfresh
      rw [position_fieldOf]
      by_cases hsame : pos' = pos
      · subst hsame
        simp only [Function.update_self]
      · have hfields : fieldOf pos' ≠ fieldOf pos := fun heq => hsame (fieldOf_inj heq)
        simp only [Function.update_of_ne hsame, Function.update_of_ne hfields]
        have hshown := h.shows.tiles (fieldOf pos') hfield ⟨⟨pos', rfl⟩, htold⟩
        rwa [position_fieldOf] at hshown
  · have hmessages : session.messages isOTC (.change pos tile) = [] := by
      rw [messages, sendUpdateTile]
      by_cases htold : session.told pos = true
      · rw [if_pos htold, if_neg fun hsees => htells ⟨htold, hsees⟩]
      · rw [if_neg htold]
    refine ⟨{ session with getTile := Function.update session.getTile pos tile }, ?_, h.onMap, h.shows.center,
      fun field hfield hfresh => ?_⟩
    · rw [step, hmessages]
      rfl
    · obtain ⟨⟨pos', rfl⟩, htold⟩ := hfresh
      have hshown := h.shows.tiles (fieldOf pos') hfield ⟨⟨pos', rfl⟩, htold⟩
      rw [position_fieldOf] at hshown ⊢
      -- a field that is told about would have been told
      have hother : pos' ≠ pos := by
        intro hsame
        subst hsame
        have hsees := (canSee_iff hpos).mpr hfield
        have hwants := (wants_iff { position := session.position, type := .player } rfl rfl h.onMap
          hsees).mpr htold
        exact htells ⟨(Search.wants_iff.mp hwants).2, hsees⟩
      exact hshown.trans (Function.update_of_ne hother _ _).symm

theorem Coherent.step {session : Session T} (h : session.Coherent) (isOTC : Bool) {event : SessionEvent T}
    (hmap : event.OnMap) : ∃ after, session.step isOTC event = some after ∧ after.Coherent := by
  cases event with
  | move newPos forceTeleport ground oldStackPos newStackPos =>
    exact h.move isOTC hmap forceTeleport ground oldStackPos newStackPos
  | change pos tile => exact h.change isOTC hmap tile

theorem Coherent.run (isOTC : Bool) (events : List (SessionEvent T)) : ∀ {session : Session T}, session.Coherent →
    (∀ event ∈ events, event.OnMap) → ∃ after, session.run isOTC events = some after ∧ after.Coherent := by
  induction events with
  | nil => exact fun h _ => ⟨_, rfl, h⟩
  | cons event events ih =>
    intro session h hmap
    obtain ⟨next, hstep, hnext⟩ := h.step isOTC (hmap event List.mem_cons_self)
    obtain ⟨after, hrun, hafter⟩ := ih hnext fun event hevent => hmap event (List.mem_cons_of_mem _ hevent)
    exact ⟨after, by rw [Session.run, hstep]; exact hrun, hafter⟩

end Session

end ForgottenServer.View
