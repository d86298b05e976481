import Mathlib
import ForgottenServer.Lib.Runs
import ForgottenServer.World.Spectators

/-! # The cache of spectators

`getSpectators` keeps what a search with the ranges of the viewport found, for each centre in eight slots, until a
creature comes to a tile or leaves one. What is kept is the vector of the caller, with what was in it before. -/

namespace ForgottenServer.World

def maxViewportX : Int := 11
def maxViewportY : Int := 11

structure FloorData where
  hasFloor : Bool := false
  hasMultiFloor : Bool := false
  floor : List Nat := []
  multiFloor : List Nat := []
  deriving DecidableEq, Repr

/-- The ranges of an entry are written and never read, so that they are left out. -/
structure SpectatorsCache where
  creatures : FloorData := {}
  monsters : FloorData := {}
  npcs : FloorData := {}
  players : FloorData := {}
  deriving DecidableEq, Repr

abbrev SpectatorCache := Position → Option SpectatorsCache

/-- The parameters of `getSpectators`. -/
structure Request where
  centerPos : Position
  multifloor : Bool := false
  onlyPlayers : Bool := false
  minRangeX : Int := 0
  maxRangeX : Int := 0
  minRangeY : Int := 0
  maxRangeY : Int := 0
  onlyMonsters : Bool := false
  onlyNpcs : Bool := false
  deriving DecidableEq, Repr

namespace Request

/-- The floors that are searched. -/
def rangeZ (request : Request) : Int × Int :=
  let z := request.centerPos.getZ
  if request.multifloor then
    if request.centerPos.z > 7 then (max (z - 2) 0, min (z + 2) (MAP_MAX_LAYERS - 1))
    else (max (z - 2) 0, min (z + 2) 7)
  else (z, z)

/-- The search, with the ranges that stand for 0. -/
def search (request : Request) : Search where
  minRangeX := if request.minRangeX = 0 then -maxViewportX else -request.minRangeX
  maxRangeX := if request.maxRangeX = 0 then maxViewportX else request.maxRangeX
  minRangeY := if request.minRangeY = 0 then -maxViewportY else -request.minRangeY
  maxRangeY := if request.maxRangeY = 0 then maxViewportY else request.maxRangeY
  minRangeZ := request.rangeZ.1
  maxRangeZ := request.rangeZ.2
  onlyPlayers := request.onlyPlayers
  onlyMonsters := request.onlyMonsters
  onlyNpcs := request.onlyNpcs

def cacheResult (request : Request) : Bool :=
  request.search.minRangeX == -maxViewportX && request.search.maxRangeX == maxViewportX &&
  request.search.minRangeY == -maxViewportY && request.search.maxRangeY == maxViewportY

end Request

/-- The data of an entry that a request is about. -/
inductive Slot where
  | players
  | monsters
  | npcs
  | creatures
  deriving DecidableEq, Repr

def Request.slot (request : Request) : Slot :=
  if request.onlyPlayers then .players
  else if request.onlyMonsters then .monsters
  else if request.onlyNpcs then .npcs
  else .creatures

namespace SpectatorsCache

def data (entry : SpectatorsCache) : Slot → FloorData
  | .players => entry.players
  | .monsters => entry.monsters
  | .npcs => entry.npcs
  | .creatures => entry.creatures

def setData (entry : SpectatorsCache) (slot : Slot) (data : FloorData) : SpectatorsCache :=
  match slot with
  | .players => { entry with players := data }
  | .monsters => { entry with monsters := data }
  | .npcs => { entry with npcs := data }
  | .creatures => { entry with creatures := data }

end SpectatorsCache

namespace FloorData

/-- The vector that is kept, if there is one. -/
def cached (data : FloorData) (multifloor : Bool) : Option (List Nat) :=
  if multifloor then (if data.hasMultiFloor then some data.multiFloor else none)
  else if data.hasFloor then some data.floor else none

def store (data : FloorData) (multifloor : Bool) (spectators : List Nat) : FloorData :=
  if multifloor then { data with hasMultiFloor := true, multiFloor := spectators }
  else { data with hasFloor := true, floor := spectators }

end FloorData

/-- `addSpectators`, where addresses are numbers. -/
def addSpectators (vec spectators : List Nat) : List Nat :=
  if spectators.isEmpty then vec else ((vec ++ spectators).mergeSort).dedup

namespace Town

variable {T : Type}

/-- The order that `std::partition` leaves within a kind is not looked at. -/
def partitionByType (town : Town T) (vec : List Nat) : List Nat :=
  let players := vec.partition fun c => (town.creatures c).type == .player
  let monsters := players.2.partition fun c => (town.creatures c).type == .monster
  players.1 ++ monsters.1 ++ monsters.2

/-- The vector that is kept for a request. -/
def lookup (cache : SpectatorCache) (request : Request) : Option (List Nat) :=
  if request.cacheResult then
    (cache request.centerPos).bind fun entry => (entry.data request.slot).cached request.multifloor
  else none

def keep (cache : SpectatorCache) (request : Request) (spectators : List Nat) : SpectatorCache :=
  if request.cacheResult then
    let entry := (cache request.centerPos).getD {}
    let data := (entry.data request.slot).store request.multifloor spectators
    Function.update cache request.centerPos (some (entry.setData request.slot data))
  else cache

def getSpectators (town : Town T) (cache : SpectatorCache) (request : Request) (spectators : List Nat) :
    List Nat × SpectatorCache :=
  if request.centerPos.z.toNat ≥ MAP_MAX_LAYERS then (spectators, cache)
  else
    match lookup cache request with
    | some found =>
      if spectators.isEmpty then (found, cache)
      else (town.partitionByType (addSpectators spectators found), cache)
    | none =>
      let spectators := town.partitionByType (town.getSpectatorsInternal spectators request.centerPos request.search)
      (spectators, keep cache request spectators)

/-- What a search adds that does not know of the cache. -/
def uncached (town : Town T) (request : Request) : List Nat :=
  if request.centerPos.z.toNat ≥ MAP_MAX_LAYERS then []
  else town.getSpectatorsInternal [] request.centerPos request.search

end Town

/-! ## Calls -/

/-- The town with the cache of its map. -/
structure Watched (T : Type) where
  town : Town T := {}
  cache : SpectatorCache := fun _ => none

inductive Call (T : Type) where
  | tileCall (op : Op T)
  | creature (event : CreatureEvent)
  | getSpectators (request : Request) (spectators : List Nat)

namespace Watched

variable {T : Type}

/-- Tiles call `clearSpectatorCache` for every creature that they get or lose. -/
def step (tiles : Tiles T) (state : Watched T) : Call T → Watched T
  | .tileCall op => { state with town := state.town.step tiles (.tileCall op) }
  | .creature event => ((state.town.creatureStep event).map fun town => { town }).getD state
  | .getSpectators request spectators =>
    { state with cache := (state.town.getSpectators state.cache request spectators).2 }

/-- A call of `getSpectators` adds what a search would add that does not know of the cache. -/
def Sound (state : Watched T) : Call T → Prop
  | .getSpectators request spectators => ∀ c,
    c ∈ (state.town.getSpectators state.cache request spectators).1 ↔ c ∈ spectators ∨ c ∈ state.town.uncached request
  | _ => True

end Watched

/-! ## What a vector has -/

theorem mem_addSpectators {vec spectators : List Nat} {c : Nat} :
    c ∈ addSpectators vec spectators ↔ c ∈ vec ∨ c ∈ spectators := by
  unfold addSpectators
  split
  · rename_i hempty
    rw [List.isEmpty_iff.mp hempty]
    simp
  · rw [List.mem_dedup, List.mem_mergeSort, List.mem_append]

namespace Town

variable {T : Type} {town : Town T}

theorem mem_partitionByType {vec : List Nat} {c : Nat} : c ∈ town.partitionByType vec ↔ c ∈ vec := by
  unfold partitionByType
  simp only [List.partition_eq_filter_filter, List.mem_append, List.mem_filter]
  cases hplayer : (town.creatures c).type == .player <;> cases hmonster : (town.creatures c).type == .monster <;>
    simp [hplayer, hmonster]

theorem mem_uncached (h : town.Kept) {request : Request} (hz : request.centerPos.z.toNat < MAP_MAX_LAYERS) {c : Nat} :
    c ∈ town.uncached request ↔ town.onMap c ∧ request.search.Wants request.centerPos (town.creatures c) := by
  unfold uncached
  rw [if_neg (Nat.not_le.mpr hz), getSpectatorsInternal_eq h.valid.toLinked, List.nil_append,
    mem_found h.valid.toLinked h.registered]

/-! ## Slots -/

/-- The vector of a slot. -/
def cachedAt (cache : SpectatorCache) (centerPos : Position) (slot : Slot) (multifloor : Bool) : Option (List Nat) :=
  (cache centerPos).bind fun entry => (entry.data slot).cached multifloor

theorem data_setData (entry : SpectatorsCache) (slot slot' : Slot) (data : FloorData) :
    (entry.setData slot data).data slot' = if slot' = slot then data else entry.data slot' := by
  cases slot <;> cases slot' <;> rfl

theorem cached_store (data : FloorData) (multifloor multifloor' : Bool) (spectators : List Nat) :
    (data.store multifloor spectators).cached multifloor' =
      if multifloor' = multifloor then some spectators else data.cached multifloor' := by
  cases multifloor <;> cases multifloor' <;> rfl

/-- An entry that is not there keeps nothing. -/
theorem cachedAt_getD (cache : SpectatorCache) (centerPos : Position) (slot : Slot) (multifloor : Bool) :
    (((cache centerPos).getD {}).data slot).cached multifloor = cachedAt cache centerPos slot multifloor := by
  unfold cachedAt
  cases cache centerPos with
  | none => cases slot <;> cases multifloor <;> rfl
  | some entry => rfl

/-- Only the slot of the request is written. -/
theorem cachedAt_keep {cache : SpectatorCache} {request : Request} (hcache : request.cacheResult = true)
    (spectators : List Nat) (centerPos : Position) (slot : Slot) (multifloor : Bool) :
    cachedAt (keep cache request spectators) centerPos slot multifloor =
      if centerPos = request.centerPos ∧ slot = request.slot ∧ multifloor = request.multifloor then some spectators
      else cachedAt cache centerPos slot multifloor := by
  unfold keep
  rw [if_pos hcache]
  by_cases hpos : centerPos = request.centerPos
  · subst hpos
    rw [← cachedAt_getD, Function.update_self, Option.getD_some, data_setData]
    by_cases hslot : slot = request.slot
    · subst hslot
      simp only [if_true, cached_store, true_and, cachedAt_getD]
    · simp only [hslot, false_and, and_false, if_false, cachedAt_getD]
  · simp only [cachedAt, Function.update_of_ne hpos, hpos, false_and, if_false]

theorem keep_of_not_cacheResult {cache : SpectatorCache} {request : Request} (hcache : ¬ request.cacheResult = true)
    (spectators : List Nat) : keep cache request spectators = cache := if_neg hcache

theorem lookup_eq_some {cache : SpectatorCache} {request : Request} {found : List Nat} :
    lookup cache request = some found ↔
      request.cacheResult = true ∧ cachedAt cache request.centerPos request.slot request.multifloor = some found := by
  unfold lookup cachedAt
  split
  · rename_i hcache
    exact ⟨fun h => ⟨hcache, h⟩, fun h => h.2⟩
  · rename_i hcache
    exact ⟨fun h => (by cases h), fun h => absurd h.1 hcache⟩

/-- What is kept is what the next call with an empty vector gets. -/
theorem getSpectators_again {cache : SpectatorCache} {request : Request} (hz : request.centerPos.z.toNat < MAP_MAX_LAYERS)
    (hcache : request.cacheResult = true) (hmiss : lookup cache request = none) (spectators : List Nat) :
    (town.getSpectators (town.getSpectators cache request spectators).2 request []).1 =
      (town.getSpectators cache request spectators).1 := by
  have hfirst : town.getSpectators cache request spectators =
      (town.partitionByType (town.getSpectatorsInternal spectators request.centerPos request.search),
        keep cache request (town.partitionByType (town.getSpectatorsInternal spectators request.centerPos
          request.search))) := by
    unfold getSpectators
    rw [if_neg (Nat.not_le.mpr hz), hmiss]
  have hhit (v) : lookup (keep cache request v) request = some v :=
    lookup_eq_some.mpr ⟨hcache, (cachedAt_keep hcache v _ _ _).trans (if_pos ⟨rfl, rfl, rfl⟩)⟩
  rw [hfirst]
  unfold getSpectators
  rw [if_neg (Nat.not_le.mpr hz), hhit]
  rfl

end Town

/-- The request that a slot is for. -/
def slotRequest (centerPos : Position) (slot : Slot) (multifloor : Bool) : Request where
  centerPos := centerPos
  multifloor := multifloor
  onlyPlayers := slot = .players
  onlyMonsters := slot = .monsters
  onlyNpcs := slot = .npcs

namespace Request

/-- A request for one kind of creatures, or for all. -/
def OneKind (request : Request) : Prop :=
  (request.onlyPlayers → request.onlyMonsters = false ∧ request.onlyNpcs = false) ∧
  (request.onlyMonsters → request.onlyNpcs = false)

instance (request : Request) : Decidable request.OneKind := inferInstanceAs (Decidable (_ ∧ _))

/-- With the ranges of the viewport, the request of its slot searches the same. -/
theorem search_slotRequest {request : Request} (hcache : request.cacheResult = true) (hkind : request.OneKind) :
    (slotRequest request.centerPos request.slot request.multifloor).search = request.search := by
  obtain ⟨⟨⟨hminX, hmaxX⟩, hminY⟩, hmaxY⟩ :
      ((request.search.minRangeX = -maxViewportX ∧ request.search.maxRangeX = maxViewportX) ∧
        request.search.minRangeY = -maxViewportY) ∧ request.search.maxRangeY = maxViewportY := by
    simpa [cacheResult] using hcache
  have hkinds : (slotRequest request.centerPos request.slot request.multifloor).onlyPlayers = request.onlyPlayers ∧
      (slotRequest request.centerPos request.slot request.multifloor).onlyMonsters = request.onlyMonsters ∧
      (slotRequest request.centerPos request.slot request.multifloor).onlyNpcs = request.onlyNpcs := by
    obtain ⟨centerPos, multifloor, onlyPlayers, _, _, _, _, onlyMonsters, onlyNpcs⟩ := request
    revert hkind
    cases onlyPlayers <;> cases onlyMonsters <;> cases onlyNpcs <;> simp [OneKind, slotRequest, slot]
  unfold search
  rw [Search.mk.injEq]
  exact ⟨hminX.symm, hmaxX.symm, hminY.symm, hmaxY.symm, rfl, rfl, hkinds⟩

end Request

/-! ## Coherence -/

namespace Watched

variable {T : Type} {state : Watched T}

/-- Every vector that is kept has what a search would find now. -/
structure Coherent (state : Watched T) : Prop where
  kept : state.town.Kept
  cached : ∀ {centerPos slot multifloor spectators},
    Town.cachedAt state.cache centerPos slot multifloor = some spectators →
    ∀ c, c ∈ spectators ↔ c ∈ state.town.uncached (slotRequest centerPos slot multifloor)

theorem coherent_empty : Coherent ({} : Watched T) := ⟨Town.kept_empty, fun h => (by cases h)⟩

/-- A request that may use the cache is for one kind of creatures, and where the cache has no answer, its vector has
only creatures that the search adds. -/
def Clean (state : Watched T) : Call T → Prop
  | .getSpectators request spectators =>
    request.centerPos.z.toNat < MAP_MAX_LAYERS → request.cacheResult = true → request.OneKind ∧
      (Town.lookup state.cache request = none → ∀ c ∈ spectators,
        state.town.onMap c ∧ request.search.Wants request.centerPos (state.town.creatures c))
  | _ => True

theorem uncached_slotRequest (town : Town T) {request : Request} (hcache : request.cacheResult = true)
    (hkind : request.OneKind) :
    town.uncached (slotRequest request.centerPos request.slot request.multifloor) = town.uncached request := by
  unfold Town.uncached
  rw [Request.search_slotRequest hcache hkind]
  rfl

/-- A vector that was not answered from the cache. -/
theorem mem_searched (h : state.town.Kept) {request : Request} (hz : request.centerPos.z.toNat < MAP_MAX_LAYERS)
    {spectators : List Nat} {c : Nat} :
    c ∈ state.town.partitionByType (state.town.getSpectatorsInternal spectators request.centerPos request.search) ↔
      c ∈ spectators ∨ c ∈ state.town.uncached request := by
  unfold Town.uncached
  rw [Town.mem_partitionByType, if_neg (Nat.not_le.mpr hz), Town.getSpectatorsInternal_eq h.valid.toLinked,
    Town.getSpectatorsInternal_eq h.valid.toLinked, List.nil_append, List.mem_append]

theorem Coherent.getSpectators (h : state.Coherent) {request : Request} {spectators : List Nat}
    (hclean : state.Clean (.getSpectators request spectators)) (tiles : Tiles T) :
    (state.step tiles (.getSpectators request spectators)).Coherent ∧
      state.Sound (.getSpectators request spectators) := by
  unfold step Sound Town.getSpectators
  dsimp only
  by_cases hz : request.centerPos.z.toNat ≥ MAP_MAX_LAYERS
  · simp only [if_pos hz]
    refine ⟨h, fun c => ?_⟩
    unfold Town.uncached
    rw [if_pos hz]
    simp
  · simp only [if_neg hz]
    cases hlookup : Town.lookup state.cache request with
    | some found =>
      dsimp only
      obtain ⟨hcache, hslot⟩ := Town.lookup_eq_some.mp hlookup
      have hkind := (hclean (Nat.lt_of_not_le hz) hcache).1
      have hfound (c) : c ∈ found ↔ c ∈ state.town.uncached request := by
        rw [h.cached hslot c, uncached_slotRequest _ hcache hkind]
      split
      · rename_i hempty
        refine ⟨h, fun c => ?_⟩
        rw [List.isEmpty_iff.mp hempty, hfound]
        simp
      · refine ⟨h, fun c => ?_⟩
        rw [Town.mem_partitionByType, mem_addSpectators, hfound]
    | none =>
      dsimp only
      have hmem (c) : c ∈ state.town.partitionByType (state.town.getSpectatorsInternal spectators request.centerPos
          request.search) ↔ c ∈ spectators ∨ c ∈ state.town.uncached request :=
        mem_searched h.kept (Nat.lt_of_not_le hz)
      refine ⟨⟨h.kept, fun {centerPos slot multifloor kept} hkept c => ?_⟩, hmem⟩
      by_cases hcache : request.cacheResult = true
      · obtain ⟨hkind, hinitial⟩ := hclean (Nat.lt_of_not_le hz) hcache
        rw [Town.cachedAt_keep hcache] at hkept
        split at hkept
        · rename_i hsame
          obtain ⟨rfl, rfl, rfl⟩ := hsame
          obtain rfl := Option.some.inj hkept
          rw [hmem, uncached_slotRequest _ hcache hkind]
          refine or_iff_right_of_imp fun hc => ?_
          exact (Town.mem_uncached h.kept (Nat.lt_of_not_le hz)).mpr (hinitial hlookup c hc)
        · exact h.cached hkept c
      · rw [Town.keep_of_not_cacheResult hcache] at hkept
        exact h.cached hkept c

/-- Calls about tiles change neither the creatures nor what a search finds. -/
theorem Coherent.tileCall (h : state.Coherent) (tiles : Tiles T) (op : Op T) :
    (state.step tiles (.tileCall op)).Coherent := by
  have hkept := h.kept.tileCall tiles op
  refine ⟨hkept, fun {centerPos slot multifloor spectators} hcached c => ?_⟩
  rw [h.cached hcached c]
  by_cases hz : centerPos.z.toNat < MAP_MAX_LAYERS
  · exact (Town.mem_uncached h.kept hz).trans (Town.mem_uncached hkept hz).symm
  · have hnothing (town : Town T) : town.uncached (slotRequest centerPos slot multifloor) = [] :=
      if_pos (Nat.le_of_not_lt hz)
    rw [hnothing, hnothing]

theorem Coherent.creature (h : state.Coherent) (tiles : Tiles T) (event : CreatureEvent) :
    (state.step tiles (.creature event)).Coherent := by
  show (((state.town.creatureStep event).map fun town => ({ town } : Watched T)).getD state).Coherent
  cases hstep : state.town.creatureStep event with
  | none => exact h
  | some town => exact ⟨h.kept.creatureStep hstep, fun hcached => (by cases hcached)⟩

theorem Coherent.step (h : state.Coherent) (tiles : Tiles T) (call : Call T) (hclean : state.Clean call) :
    (state.step tiles call).Coherent ∧ state.Sound call := by
  cases call with
  | tileCall op => exact ⟨h.tileCall tiles op, trivial⟩
  | creature event => exact ⟨h.creature tiles event, trivial⟩
  | getSpectators request spectators => exact h.getSpectators hclean tiles

/-- In a run of clean calls every call adds what a search would add that does not know of the cache. -/
theorem sound_of_clean (tiles : Tiles T) (calls : List (Call T))
    (hclean : Runs.Along (step tiles) Clean {} calls) : Runs.Along (step tiles) Sound {} calls :=
  (Runs.Along.of_invariant Coherent (fun _ call h hcall => h.step tiles call hcall) calls {} coherent_empty hclean).1

/-- A monster in the west of the map, and a search in the east of it. -/
def monsterCalls : List (Call Unit) :=
  [.tileCall (.setTile ⟨100, 100, 7⟩ ()), .creature (.placeCreature 1 ⟨100, 100, 7⟩)]

def unitTiles : Tiles Unit := ⟨fun _ _ => (), fun _ _ => none⟩

def monsterState : Watched Unit := monsterCalls.foldl (step unitTiles) {}

def eastRequest : Request := { centerPos := ⟨900, 100, 7⟩, multifloor := true }

/-- The same search twice, from empty vectors. -/
theorem sound_of_clean_eastRequest : Runs.Along (step unitTiles) Clean {}
      (monsterCalls ++ [.getSpectators eastRequest [], .getSpectators eastRequest []]) ∧
    Runs.Along (step unitTiles) Sound {}
      (monsterCalls ++ [.getSpectators eastRequest [], .getSpectators eastRequest []]) := by
  have hclean : Runs.Along (step unitTiles) Clean {}
      (monsterCalls ++ [.getSpectators eastRequest [], .getSpectators eastRequest []]) := by
    refine ⟨trivial, trivial, fun _ _ => ⟨by decide, fun _ c hc => ?_⟩, fun _ _ => ⟨by decide, fun _ c hc => ?_⟩, trivial⟩
    all_goals cases hc
  exact ⟨hclean, sound_of_clean unitTiles _ hclean⟩

/-- With the monster in the vector, the second search finds it in the cache. -/
theorem not_sound_pollutedCalls : ¬ ∀ (tiles : Tiles Unit) (calls : List (Call Unit)),
    Runs.Along (step tiles) Sound {} calls := by
  intro h
  obtain ⟨_, _, _, hsound, _⟩ :=
    h unitTiles (monsterCalls ++ [.getSpectators eastRequest [1], .getSpectators eastRequest []])
  have hkept : monsterState.town.Kept := ((coherent_empty.tileCall unitTiles (.setTile ⟨100, 100, 7⟩ ())).creature unitTiles
    (.placeCreature 1 ⟨100, 100, 7⟩)).kept
  have hfirst : 1 ∈ (monsterState.town.getSpectators monsterState.cache eastRequest [1]).1 :=
    (mem_searched hkept (by decide)).mpr (.inl (List.mem_singleton_self 1))
  rw [← Town.getSpectators_again (by decide) (by decide) rfl [1]] at hfirst
  have hagain := (hsound 1).mp hfirst
  have hwants := ((Town.mem_uncached hkept (by decide)).mp (hagain.resolve_left List.not_mem_nil)).2
  exact absurd hwants.rangeX.1 (by decide)

end Watched

end ForgottenServer.World
