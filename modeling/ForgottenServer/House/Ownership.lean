import Mathlib

/-! # Who may enter a house

The owner of a house, its access lists and its protection, in memory and in the database. Moving items to a depot,
kicking players and the descriptions of the doors are left out. -/

namespace ForgottenServer.Houses

inductive HouseType where
  | normal
  | guildhall
deriving DecidableEq

/-- The rank of a guild member, by its id. -/
structure Guild where
  id : Nat
  ownerGUID : Nat
  /-- The rank of level 2. -/
  viceLeader : Option Nat

structure Player where
  guid : Nat
  account : Nat
  canEditHouses : Bool := false
  guild : Option Guild := none
  guildRank : Option Nat := none

structure AccessList where
  list : String := ""
  playerList : List Nat := []
  guildRankList : List Nat := []
  allowEveryone : Bool := false
deriving DecidableEq

def AccessList.isInList (l : AccessList) (player : Player) : Bool :=
  l.allowEveryone || player.guid ∈ l.playerList || player.guildRank.any (· ∈ l.guildRankList)

/-- `parseList` of the empty text. -/
def AccessList.parseEmpty (_ : AccessList) : AccessList := {}

structure Door where
  doorId : Nat
  accessList : AccessList := {}

structure House where
  type : HouseType := .normal
  owner : Nat := 0
  ownerAccountId : Nat := 0
  ownerName : String := ""
  paidUntil : Nat := 0
  rentWarnings : Nat := 0
  isLoaded : Bool := true
  isProtected : Bool := false
  guestList : AccessList := {}
  subOwnerList : AccessList := {}
  doorSet : List Door := []
  protectionGuests : List Nat := []

/-- What the database has of the house: its row, and its rows in `house_lists` and in `house_guests`. -/
structure HouseRows where
  owner : Nat := 0
  bid : Nat := 0
  bidEnd : Nat := 0
  lastBid : Nat := 0
  highestBidder : Nat := 0
  paid : Nat := 0
  warnings : Nat := 0
  isProtected : Bool := false
  lists : List (Nat × String) := []
  guests : List Nat := []

/-! ## A new owner -/

structure OwnerData where
  sqlPlayerGuid : Nat
  sqlAccountId : Nat
  sqlPlayerName : String
  sqlGuildId : Nat
  sqlGuildName : String

/-- What a call meets: the rows of the owner that the database finds, the outcome of its update, the configured rent
period and the time. -/
structure Env where
  findOwner : Nat → HouseType → Option OwnerData
  updated : Bool
  rentPeriod : String
  currentTime : Nat

/-- The first rent is paid until then. -/
def Env.paidUntil (env : Env) : Nat :=
  let strRentPeriod := env.rentPeriod.toLower
  if strRentPeriod = "yearly" ∨ strRentPeriod = "annual" then env.currentTime + 24 * 60 * 60 * 365
  else if strRentPeriod = "monthly" then env.currentTime + 24 * 60 * 60 * 30
  else if strRentPeriod = "weekly" then env.currentTime + 24 * 60 * 60 * 7
  else if strRentPeriod = "daily" then env.currentTime + 24 * 60 * 60
  else if strRentPeriod = "dev" then env.currentTime + 5 * 60
  else 0

/-- `initializeOwnerDataFromDatabase`, which throws where there is no such player or guild. -/
def Env.initializeOwnerData (env : Env) (guidGuild : Nat) (type : HouseType) : Option OwnerData :=
  if guidGuild = 0 then some ⟨0, 0, "", 0, ""⟩ else env.findOwner guidGuild type

variable (env : Env)

/-- The rows after the update that `setOwner` begins with. -/
def HouseRows.setOwner (rows : HouseRows) (house : House) (guidGuild : Nat) : HouseRows :=
  if !env.updated then rows
  else
    let rows := { rows with owner := guidGuild, bid := 0, bidEnd := 0, lastBid := 0, highestBidder := 0 }
    if guidGuild = 0 ∨ house.owner = 0 then { rows with isProtected := false } else rows

/-- The part of `setOwner` that gives the house away or takes it from nobody. -/
def House.release (house : House) (updateDatabase : Bool) : House :=
  if house.owner ≠ 0 ∧ updateDatabase then
    { house with
      owner := 0, ownerAccountId := 0, ownerName := "", isProtected := false
      subOwnerList := house.subOwnerList.parseEmpty
      guestList := house.guestList.parseEmpty
      doorSet := house.doorSet.map fun door => { door with accessList := door.accessList.parseEmpty } }
  else { house with paidUntil := env.paidUntil }

def House.acquire (house : House) (guidGuild : Nat) : House :=
  if guidGuild = 0 then house
  else match env.initializeOwnerData guidGuild house.type with
    | none => house
    | some data =>
      { house with
        owner := guidGuild
        ownerAccountId := data.sqlAccountId
        ownerName := if house.type = .guildhall then "The " ++ data.sqlGuildName else data.sqlPlayerName }

def setOwner (house : House) (rows : HouseRows) (guidGuild : Nat) (updateDatabase : Bool) : House × HouseRows :=
  let changes := updateDatabase && decide (house.owner ≠ guidGuild)
  let rows := if changes then rows.setOwner env house guidGuild else rows
  let house := if changes && decide (guidGuild = 0 ∨ house.owner = 0) then { house with isProtected := false } else house
  if house.isLoaded ∧ house.owner = guidGuild then (house, rows)
  else
    let house := { house with isLoaded := true }.release env updateDatabase
    ({ house with rentWarnings := 0 }.acquire env guidGuild, rows)

def GUEST_LIST : Nat := 0x100
def SUBOWNER_LIST : Nat := 0x101

/-- What a successful `saveHouseInfo` leaves of the house in the database. -/
def saveHouseInfo (house : House) (rows : HouseRows) : HouseRows :=
  let lists := [(GUEST_LIST, house.guestList.list), (SUBOWNER_LIST, house.subOwnerList.list)] ++
    house.doorSet.map fun door => (door.doorId, door.accessList.list)
  { rows with
    owner := house.owner, paid := house.paidUntil, warnings := house.rentWarnings, isProtected := house.isProtected
    lists := lists.filter fun row => row.2 ≠ "" }

/-! ## Access -/

inductive AccessHouseLevel where
  | notInvited
  | guest
  | subOwner
  | owner
deriving DecidableEq

def AccessHouseLevel.toNat : AccessHouseLevel → Nat
  | notInvited => 0
  | guest => 1
  | subOwner => 2
  | owner => 3

/-- The level that the lists give. -/
def House.listLevel (house : House) (player : Player) : AccessHouseLevel :=
  if house.subOwnerList.isInList player then .subOwner
  else if house.guestList.isInList player then .guest
  else .notInvited

variable (ownedByAccount : Bool)

def House.getHouseAccessLevel (house : House) (player : Player) : AccessHouseLevel :=
  if player.canEditHouses then .owner
  else match house.type with
    | .normal =>
      if ownedByAccount ∧ house.ownerAccountId = player.account then .owner
      else if player.guid = house.owner then .owner
      else house.listLevel player
    | .guildhall => match player.guild with
      | none => house.listLevel player
      | some guild =>
        if guild.id = house.owner then
          if guild.ownerGUID = player.guid then .owner
          else if player.guildRank = guild.viceLeader then .subOwner
          else .guest
        else house.listLevel player

def House.canModifyItems (house : House) (player : Player) : Bool :=
  !house.isProtected || player.canEditHouses || player.guid = house.owner || player.guid ∈ house.protectionGuests

def House.canUse (house : House) (door : Door) (player : Player) : Bool :=
  let needed := if house.type = .guildhall then AccessHouseLevel.guest else .subOwner
  needed.toNat ≤ (house.getHouseAccessLevel ownedByAccount player).toNat || door.accessList.isInList player

/-- The player has the house, by its own or its account's id or by its guild's. -/
def House.Owns (house : House) (player : Player) : Prop :=
  match house.type with
  | .normal => ownedByAccount ∧ house.ownerAccountId = player.account ∨ player.guid = house.owner
  | .guildhall => ∃ guild, player.guild = some guild ∧ guild.id = house.owner

/-- All access that there was is gone, from the database too. -/
structure Revoked (house : House) (rows : HouseRows) : Prop where
  subOwners : house.subOwnerList = {}
  guests : house.guestList = {}
  doors : ∀ door ∈ house.doorSet, door.accessList = {}
  lists : rows.lists = []
  protectionGuests : house.protectionGuests = [] ∧ rows.guests = []
  unprotected : house.isProtected = false ∧ rows.isProtected = false
  owner : house.owner = rows.owner
  level : ∀ player : Player, player.canEditHouses = false →
    house.getHouseAccessLevel ownedByAccount player ≠ .notInvited → house.Owns ownedByAccount player
  modify : ∀ player : Player, player.canEditHouses = false → house.canModifyItems player = true →
    house.Owns ownedByAccount player

/-! ## What a new owner changes -/

/-- What `setOwner` leaves when it has changed the owner. Protection guests stay as they are, and so does the flag in the
row when the house goes from one owner to another. -/
structure Changed (house : House) (guidGuild : Nat) (house' : House) (rows' : HouseRows) : Prop where
  unprotected : house'.isProtected = false
  modify : ∀ player : Player, house'.canModifyItems player = true
  row : env.updated = true → rows'.owner = guidGuild ∧ rows'.highestBidder = 0 ∧
    (guidGuild = 0 ∨ house.owner = 0 → rows'.isProtected = false)
  owner : (env.initializeOwnerData guidGuild house.type).isSome → house'.owner = guidGuild
  subOwners : house.owner ≠ 0 → house'.subOwnerList = {}
  guests : house.owner ≠ 0 → house'.guestList = {}
  doors : house.owner ≠ 0 → ∀ door ∈ house'.doorSet, door.accessList = {}
  saved : ∀ rows, (saveHouseInfo house' rows).isProtected = false ∧ (saveHouseInfo house' rows).owner = house'.owner ∧
    (house.owner ≠ 0 → (saveHouseInfo house' rows).lists = [])
  level : house.owner ≠ 0 → ∀ player : Player, player.canEditHouses = false →
    house'.getHouseAccessLevel ownedByAccount player ≠ .notInvited → house'.Owns ownedByAccount player
  use : house.owner ≠ 0 → ∀ door ∈ house'.doorSet, ∀ player : Player, player.canEditHouses = false →
    house'.canUse ownedByAccount door player = true → house'.Owns ownedByAccount player

section Lists

variable {env} {ownedByAccount} {house : House} {guidGuild : Nat}

@[simp] theorem isInList_empty (player : Player) : ({} : AccessList).isInList player = false := by
  cases hrank : player.guildRank <;> simp [AccessList.isInList, hrank]

/-- Where the lists are empty, only the owner's side has access. -/
theorem owns_of_level {player : Player} (hsub : house.subOwnerList = {}) (hguest : house.guestList = {})
    (hedit : player.canEditHouses = false)
    (hlevel : house.getHouseAccessLevel ownedByAccount player ≠ .notInvited) : house.Owns ownedByAccount player := by
  have hlist : house.listLevel player = .notInvited := by
    rw [House.listLevel, hsub, hguest]
    simp
  rw [House.getHouseAccessLevel, hedit, hlist] at hlevel
  rw [House.Owns]
  cases htype : house.type with
  | normal =>
    simp only [htype, Bool.false_eq_true, if_false] at hlevel ⊢
    by_cases haccount : ownedByAccount = true ∧ house.ownerAccountId = player.account
    · exact .inl haccount
    · rw [if_neg haccount] at hlevel
      by_cases hguid : player.guid = house.owner
      · exact .inr hguid
      · rw [if_neg hguid] at hlevel
        exact absurd rfl hlevel
  | guildhall =>
    simp only [htype, Bool.false_eq_true, if_false] at hlevel ⊢
    cases hguild : player.guild with
    | none =>
      rw [hguild] at hlevel
      exact absurd rfl hlevel
    | some guild =>
      rw [hguild] at hlevel
      by_cases hid : guild.id = house.owner
      · exact ⟨guild, rfl, hid⟩
      · dsimp only at hlevel
        rw [if_neg hid] at hlevel
        exact absurd rfl hlevel

theorem owns_of_canUse {door : Door} {player : Player} (hsub : house.subOwnerList = {}) (hguest : house.guestList = {})
    (hdoor : door.accessList = {}) (hedit : player.canEditHouses = false)
    (huse : house.canUse ownedByAccount door player = true) : house.Owns ownedByAccount player := by
  refine owns_of_level hsub hguest hedit fun hnone => ?_
  rw [House.canUse, hdoor, isInList_empty, hnone] at huse
  split at huse <;> simp [AccessHouseLevel.toNat] at huse

/-- `setOwner` gives the house away first, and then to the new owner. -/
theorem setOwner_fst (hchanged : house.owner ≠ guidGuild) (rows : HouseRows) :
    ∃ isProtected isLoaded, (setOwner env house rows guidGuild true).1 =
      House.acquire env { ({ house with isProtected, isLoaded } : House).release env true with rentWarnings := 0 }
        guidGuild ∧ (house.owner = 0 → isProtected = false) := by
  rw [setOwner]
  by_cases hreset : guidGuild = 0 ∨ house.owner = 0
  · refine ⟨false, true, ?_, fun _ => rfl⟩
    simp [hchanged, hreset]
  · refine ⟨house.isProtected, true, ?_, fun hnone => absurd (.inr hnone) hreset⟩
    simp [hchanged, hreset]

theorem setOwner_snd (hchanged : house.owner ≠ guidGuild) (rows : HouseRows) :
    (setOwner env house rows guidGuild true).2 = rows.setOwner env house guidGuild := by
  rw [setOwner]
  by_cases hreset : guidGuild = 0 ∨ house.owner = 0
  · simp [hchanged, hreset]
  · simp [hchanged, hreset]

theorem acquire_eq (env : Env) (house : House) (guidGuild : Nat) : ∃ owner ownerAccountId ownerName,
    house.acquire env guidGuild = { house with owner, ownerAccountId, ownerName } := by
  rw [House.acquire]
  split
  · exact ⟨house.owner, house.ownerAccountId, house.ownerName, rfl⟩
  · split
    · exact ⟨house.owner, house.ownerAccountId, house.ownerName, rfl⟩
    · exact ⟨_, _, _, rfl⟩

theorem owner_acquire (hfound : (env.initializeOwnerData guidGuild house.type).isSome)
    (hnone : guidGuild = 0 → house.owner = 0) : (house.acquire env guidGuild).owner = guidGuild := by
  rw [House.acquire]
  split
  · rename_i hguid
    rw [hguid]
    exact hnone hguid
  · split
    · rename_i heq
      rw [heq] at hfound
      cases hfound
    · rfl

end Lists

theorem isProtected_setOwner {house : House} {guidGuild : Nat} (hchanged : house.owner ≠ guidGuild) (rows : HouseRows) :
    (setOwner env house rows guidGuild true).1.isProtected = false := by
  obtain ⟨isProtected, isLoaded, hhouse, hnone⟩ := @setOwner_fst env _ _ hchanged rows
  obtain ⟨_, _, _, hacquire⟩ := acquire_eq env
    { ({ house with isProtected, isLoaded } : House).release env true with rentWarnings := 0 } guidGuild
  rw [hhouse, hacquire]
  by_cases howner : house.owner = 0
  · simp [House.release, howner, hnone howner]
  · simp [House.release, howner]

/-- A house that had an owner has nobody on its lists. -/
theorem lists_setOwner {house : House} {guidGuild : Nat} (hchanged : house.owner ≠ guidGuild) (rows : HouseRows)
    (howner : house.owner ≠ 0) :
    (setOwner env house rows guidGuild true).1.subOwnerList = {} ∧
      (setOwner env house rows guidGuild true).1.guestList = {} ∧
      ∀ door ∈ (setOwner env house rows guidGuild true).1.doorSet, door.accessList = {} := by
  obtain ⟨isProtected, isLoaded, hhouse, -⟩ := @setOwner_fst env _ _ hchanged rows
  obtain ⟨_, _, _, hacquire⟩ := acquire_eq env
    { ({ house with isProtected, isLoaded } : House).release env true with rentWarnings := 0 } guidGuild
  rw [hhouse, hacquire]
  simp [House.release, howner, AccessList.parseEmpty]

/-- Whoever the house had on its lists, a new owner makes them as they should be. -/
theorem setOwner_changed (house : House) (rows : HouseRows) {guidGuild : Nat} (hchanged : house.owner ≠ guidGuild) :
    Changed env ownedByAccount house guidGuild (setOwner env house rows guidGuild true).1
      (setOwner env house rows guidGuild true).2 := by
  have hunprotected := isProtected_setOwner env hchanged rows
  have hlists := lists_setOwner env hchanged rows
  refine ⟨hunprotected, fun player => ?_, fun hupdated => ?_, fun hfound => ?_, fun howner => (hlists howner).1,
    fun howner => (hlists howner).2.1, fun howner => (hlists howner).2.2, fun rows' => ⟨hunprotected, rfl, fun howner => ?_⟩,
    fun howner player hedit hlevel => owns_of_level (hlists howner).1 (hlists howner).2.1 hedit hlevel,
    fun howner door hdoor player hedit huse =>
      owns_of_canUse (hlists howner).1 (hlists howner).2.1 ((hlists howner).2.2 door hdoor) hedit huse⟩
  · rw [House.canModifyItems, hunprotected]
    rfl
  · rw [setOwner_snd hchanged, HouseRows.setOwner, hupdated]
    by_cases hreset : guidGuild = 0 ∨ house.owner = 0
    · simp [hreset]
    · simp [hreset]
  · obtain ⟨isProtected, isLoaded, hhouse, -⟩ := @setOwner_fst env _ _ hchanged rows
    rw [hhouse]
    by_cases howner : house.owner = 0
    · exact owner_acquire (by simpa [House.release, howner] using hfound) fun _ => by simp [House.release, howner]
    · exact owner_acquire (by simpa [House.release, howner] using hfound) fun _ => by simp [House.release, howner]
  · obtain ⟨hsub, hguest, hdoors⟩ := hlists howner
    rw [saveHouseInfo]
    refine List.filter_eq_nil_iff.mpr fun row hrow => ?_
    rw [hsub, hguest] at hrow
    rcases List.mem_append.mp hrow with hrow | hrow
    · simp only [List.mem_cons, List.not_mem_nil, or_false] at hrow
      rcases hrow with rfl | rfl <;> simp
    · obtain ⟨door, hdoor, rfl⟩ := List.mem_map.mp hrow
      simp [hdoors door hdoor]

/-- Player 2 buys the house of player 1. -/
def sale : Env := ⟨fun guid _ => some ⟨guid, guid, "", 0, ""⟩, true, "never", 0⟩

theorem setOwner_changed_sale :
    (1 ≠ 2) ∧ Changed sale false { owner := 1, guestList := ⟨"Eve", [3], [], false⟩ } 2
      (setOwner sale { owner := 1, guestList := ⟨"Eve", [3], [], false⟩ } {} 2 true).1
      (setOwner sale { owner := 1, guestList := ⟨"Eve", [3], [], false⟩ } {} 2 true).2 :=
  ⟨by decide, setOwner_changed sale false { owner := 1, guestList := ⟨"Eve", [3], [], false⟩ } {} (by decide)⟩

/-- The rows of the lists stay until the houses are saved, and without protection everybody may modify items. The lists
of a house without an owner stay too. -/
theorem not_revoked_setOwner :
    (¬ Revoked false (setOwner sale { owner := 1 } { owner := 1, lists := [(GUEST_LIST, "Eve")] } 2 true).1
      (setOwner sale { owner := 1 } { owner := 1, lists := [(GUEST_LIST, "Eve")] } 2 true).2) ∧
    (¬ ∀ player : Player, player.canEditHouses = false →
      (setOwner sale { owner := 1 } { owner := 1 } 2 true).1.canModifyItems player = true →
        (setOwner sale { owner := 1 } { owner := 1 } 2 true).1.Owns false player) ∧
    ¬ Revoked false (setOwner sale { guestList := ⟨"Eve", [3], [], false⟩ } {} 2 true).1
      (setOwner sale { guestList := ⟨"Eve", [3], [], false⟩ } {} 2 true).2 := by
  refine ⟨fun h => ?_, fun h => ?_, fun h => ?_⟩
  · exact absurd h.lists (by decide)
  · rcases h ⟨3, 3, false, none, none⟩ rfl (by decide) with ⟨haccount, -⟩ | hguid
    · cases haccount
    · exact absurd hguid (by decide)
  · exact absurd h.guests (by decide)

end ForgottenServer.Houses
