import ForgottenServer.House.Ownership
import ForgottenServer.Lib.Runs

/-! # The rent of the houses

`Houses::payHouses` goes through the houses and takes the rent of those that are due from the bank balance of the owner,
or of the guild. Who cannot pay gets a letter, and after seven letters loses the house. -/

namespace ForgottenServer.HouseRent

inductive RentPeriod where
  | daily
  | weekly
  | monthly
  | yearly
  | dev
  | never
  deriving DecidableEq

def increasePaidUntil (rentPeriod : RentPeriod) (paidUntil : Nat) : Nat :=
  match rentPeriod with
  | .daily => paidUntil + 24 * 60 * 60
  | .weekly => paidUntil + 7 * 24 * 60 * 60
  | .monthly => paidUntil + 30 * 24 * 60 * 60
  | .yearly => paidUntil + 365 * 24 * 60 * 60
  | .dev => paidUntil + 5 * 60
  | .never => paidUntil

/-- The numbers in a letter. -/
structure Letter where
  rentPeriod : RentPeriod
  rent : Nat
  daysLeft : Nat
  deriving DecidableEq

/-- What `payHouses` changes of a player: the balance, and the letters in the inbox and in the depot lockers. -/
structure Player where
  bankBalance : Nat
  letters : List Letter := []

structure Guild where
  bankBalance : Nat
  ownerGUID : Nat := 0

/-- A house with its rows in the database. -/
structure House where
  house : Houses.House
  rows : Houses.HouseRows := {}
  rent : Nat
  townId : Nat

/-- A row of `guild_transactions`. -/
structure Withdrawal where
  guildId : Nat
  rent : Nat
  time : Nat
  deriving DecidableEq

/-- `players` and `guildBalances` are stored, `guilds` are the guilds in the memory of the server. -/
structure World where
  houses : Nat → House
  players : Nat → Option Player
  guildBalances : Nat → Option Nat
  guilds : Nat → Option Guild := fun _ => none
  towns : Nat → Bool
  guildTransactions : List Withdrawal := []

/-- What the visit of a house meets: the outcomes of its statements, and what `setOwner` meets. -/
structure Visit where
  playerLoads : Bool := true
  guildLoads : Bool := true
  saved : Bool := true
  balanceUpdated : Bool := true
  transactionInserted : Bool := true
  env : Houses.Env

namespace World

variable (w : World) (visit : Visit)

def loadPlayerById (guid : Nat) : Option Player := if visit.playerLoads then w.players guid else none

/-- Nothing sets the `ownerGUID` of a guild that is loaded. -/
def loadGuild (id : Nat) : Option Guild :=
  if visit.guildLoads then (w.guildBalances id).map fun balance => { bankBalance := balance } else none

def getGuild (id : Nat) : Option Guild := (w.guilds id).or (w.loadGuild visit id)

def setHouse (id : Nat) (house : House) : World := { w with houses := Function.update w.houses id house }

def savePlayerSync (guid : Nat) (player : Player) : World :=
  if visit.saved then { w with players := Function.update w.players guid (some player) } else w

/-- The balance in memory, if the guild is there, and the stored one. -/
def setGuildBalance (id balance : Nat) : World :=
  { w with
    guilds := Function.update w.guilds id ((w.guilds id).map fun guild => { guild with bankBalance := balance })
    guildBalances :=
      if visit.balanceUpdated then Function.update w.guildBalances id ((w.guildBalances id).map fun _ => balance)
      else w.guildBalances }

def addTransaction (withdrawal : Withdrawal) : World :=
  if visit.transactionInserted then { w with guildTransactions := w.guildTransactions ++ [withdrawal] } else w

end World

namespace House

variable (h : House)

/-- `setOwner(0)` -/
def dropOwner (visit : Visit) : House :=
  let dropped := Houses.setOwner visit.env h.house h.rows 0 true
  { h with house := dropped.1, rows := dropped.2 }

def setPaidUntil (paidUntil : Nat) : House := { h with house := { h.house with paidUntil } }

def setPayRentWarnings (rentWarnings : Nat) : House := { h with house := { h.house with rentWarnings } }

/-- One that cannot pay: the letter to the player, or the end. -/
def warn (rentPeriod : RentPeriod) (visit : Visit) (player : Player) : House × Player :=
  if h.house.rentWarnings < 7 then
    (h.setPayRentWarnings (h.house.rentWarnings + 1),
      { player with letters := player.letters ++ [⟨rentPeriod, h.rent, 7 - h.house.rentWarnings⟩] })
  else (h.dropOwner visit, player)

end House

section

variable (rentPeriod : RentPeriod) (currentTime : Nat) (w : World) (id : Nat) (visit : Visit)

/-- The branch of a normal house. -/
def payNormal (h : House) : World :=
  match w.loadPlayerById visit h.house.owner with
  | none => w.setHouse id (h.dropOwner visit)
  | some player =>
    let (h', player') :=
      if h.rent ≤ player.bankBalance then
        ((h.setPaidUntil (increasePaidUntil rentPeriod currentTime)).setPayRentWarnings 0,
          { player with bankBalance := player.bankBalance - h.rent })
      else h.warn rentPeriod visit player
    (w.setHouse id h').savePlayerSync visit h.house.owner player'

/-- The branch of a guildhall. -/
def payGuildhall (h : House) : World :=
  match w.getGuild visit h.house.owner with
  | none => w.setHouse id (h.dropOwner visit)
  | some guild =>
    if h.rent ≤ guild.bankBalance then
      (((w.setGuildBalance visit h.house.owner (guild.bankBalance - h.rent)).addTransaction visit
        ⟨h.house.owner, h.rent, currentTime⟩).setHouse id
          (h.setPaidUntil (increasePaidUntil rentPeriod currentTime)))
    else match w.loadPlayerById visit guild.ownerGUID with
      | none => w.setHouse id (h.dropOwner visit)
      | some player =>
        let (h', player') := h.warn rentPeriod visit player
        (w.setHouse id h').savePlayerSync visit guild.ownerGUID player'

/-- The turn of one house. -/
def visitHouse : World :=
  let h := w.houses id
  if h.house.owner = 0 then w
  else if h.rent = 0 ∨ currentTime < h.house.paidUntil then w
  else if !w.towns h.townId then w
  else match h.house.type with
    | .normal => payNormal rentPeriod currentTime w id visit h
    | .guildhall => payGuildhall rentPeriod currentTime w id visit h

end

/-- A call, with what the visits of the houses meet. -/
structure Run where
  rentPeriod : RentPeriod
  currentTime : Nat
  visits : Nat → Visit

/-- `ids` are the keys of `houseMap`. -/
def payHouses (ids : List Nat) (w : World) (run : Run) : World :=
  if run.rentPeriod = .never then w
  else ids.foldl (fun w id => visitHouse run.rentPeriod run.currentTime w id (run.visits id)) w

/-! ## Accounts over many calls -/

/-- The sale of a house to a player or a guild, or a call of `payHouses`. -/
inductive Call where
  | payHouses (run : Run)
  | setOwner (id guid : Nat) (env : Houses.Env)

/-- A part of a call: one house. -/
inductive Event where
  | visit (id : Nat) (run : Run)
  | setOwner (id guid : Nat) (env : Houses.Env)

def Call.events (ids : List Nat) : Call → List Event
  | .payHouses run => ids.map fun id => .visit id run
  | .setOwner id guid env => [.setOwner id guid env]

def World.setOwner (w : World) (id guid : Nat) (env : Houses.Env) : World :=
  let bought := Houses.setOwner env (w.houses id).house (w.houses id).rows guid true
  w.setHouse id { w.houses id with house := bought.1, rows := bought.2 }

def World.call (ids : List Nat) (w : World) : Call → World
  | .payHouses run => payHouses ids w run
  | .setOwner id guid env => w.setOwner id guid env

/-- The rent of a house is due in a call. -/
def House.Due (h : House) (run : Run) : Prop :=
  run.rentPeriod ≠ .never ∧ h.house.owner ≠ 0 ∧ h.rent ≠ 0 ∧ h.house.paidUntil ≤ run.currentTime

instance (h : House) (run : Run) : Decidable (h.Due run) := inferInstanceAs (Decidable (_ ∧ _))

/-- What the owner of a house has in the database. -/
def World.storedBalance (w : World) (house : Houses.House) : Nat :=
  match house.type with
  | .normal => ((w.players house.owner).map (·.bankBalance)).getD 0
  | .guildhall => (w.guildBalances house.owner).getD 0

/-- The number of unpaid due visits of each house since it paid or was bought is not data of the program. -/
structure State where
  world : World
  unpaid : Nat → Nat := fun _ => 0

def step (s : State) : Event → State
  | .visit id run =>
    let h := s.world.houses id
    { world := payHouses [id] s.world run
      unpaid :=
        if h.Due run then
          Function.update s.unpaid id (if h.rent ≤ s.world.storedBalance h.house then 0 else s.unpaid id + 1)
        else s.unpaid }
  | .setOwner id guid env =>
    { world := s.world.setOwner id guid env, unpaid := Function.update s.unpaid id 0 }

/-- Where a normal house is due, its town is there and its owner loads, and is saved after the payment. -/
def AllowedNormal (w : World) (h : House) (visit : Visit) : Prop :=
  ∃ player, w.loadPlayerById visit h.house.owner = some player ∧ (h.rent ≤ player.bankBalance → visit.saved = true)

/-- Where a guildhall is due, its guild is there with the stored balance. If the guild can pay, there were no warnings
before and the new balance is stored, and if it cannot, its `ownerGUID` is a player. -/
def AllowedGuildhall (w : World) (h : House) (visit : Visit) : Prop :=
  ∃ guild, w.getGuild visit h.house.owner = some guild ∧ w.guildBalances h.house.owner = some guild.bankBalance ∧
    (h.rent ≤ guild.bankBalance → h.house.rentWarnings = 0 ∧ visit.balanceUpdated = true) ∧
    (guild.bankBalance < h.rent → (w.loadPlayerById visit guild.ownerGUID).isSome)

def Allowed (s : State) : Event → Prop
  | .visit id run =>
    let h := s.world.houses id
    h.Due run → s.world.towns h.townId = true ∧
      match h.house.type with
      | .normal => AllowedNormal s.world h (run.visits id)
      | .guildhall => AllowedGuildhall s.world h (run.visits id)
  | .setOwner id _ _ => (s.world.houses id).house.owner = 0

/-- The counter of an owned house is the number of unpaid visits. -/
def Counted (s : State) : Prop :=
  ∀ id, (s.world.houses id).house.owner ≠ 0 → (s.world.houses id).house.rentWarnings = s.unpaid id

/-- The owner loses the house if and only if the counter is 7 when the balance does not cover the rent, and the stored
balance drops by the rent if and only if `paidUntil` moves. -/
structure Fair (w w' : World) (id : Nat) (run : Run) : Prop where
  lost : (w.houses id).house.owner ≠ 0 ∧ (w'.houses id).house.owner = 0 ↔
    (w.houses id).Due run ∧ (w.houses id).house.rentWarnings = 7 ∧
      w.storedBalance (w.houses id).house < (w.houses id).rent
  paid : ((w.houses id).house.paidUntil < (w'.houses id).house.paidUntil ∧ 0 < (w.houses id).rent ∧
      w'.storedBalance (w.houses id).house + (w.houses id).rent = w.storedBalance (w.houses id).house) ∨
    ((w'.houses id).house.paidUntil = (w.houses id).house.paidUntil ∧
      w'.storedBalance (w.houses id).house = w.storedBalance (w.houses id).house)

def Good (s : State) (e : Event) : Prop :=
  Counted (step s e) ∧
  match e with
  | .visit id run => Fair s.world (step s e).world id run
  | .setOwner _ _ _ => True

/-! ## What a visit does -/

theorem dropOwner_spec (h : House) (visit : Visit) (howner : h.house.owner ≠ 0) :
    (h.dropOwner visit).house.owner = 0 ∧ (h.dropOwner visit).house.paidUntil = h.house.paidUntil := by
  simp [House.dropOwner, Houses.setOwner, Houses.House.release, Houses.House.acquire, howner]

theorem lt_increasePaidUntil {rentPeriod : RentPeriod} (hperiod : rentPeriod ≠ .never) (paidUntil : Nat) :
    paidUntil < increasePaidUntil rentPeriod paidUntil := by
  cases rentPeriod with
  | never => exact absurd rfl hperiod
  | _ => exact Nat.lt_add_of_pos_right (by norm_num)

/-- The outcomes of a visit where everything is found and stored. `stored` is the balance of the owner. -/
inductive Outcome (w w' : World) (id : Nat) (run : Run) : Prop where
  | stay (hdue : ¬ (w.houses id).Due run) (same : w' = w)
  | pay (hdue : (w.houses id).Due run) (covered : (w.houses id).rent ≤ w.storedBalance (w.houses id).house)
      (houses : w'.houses = Function.update w.houses id
        (((w.houses id).setPaidUntil (increasePaidUntil run.rentPeriod run.currentTime)).setPayRentWarnings 0))
      (stored : w'.storedBalance (w.houses id).house + (w.houses id).rent = w.storedBalance (w.houses id).house)
  | warn (hdue : (w.houses id).Due run) (short : w.storedBalance (w.houses id).house < (w.houses id).rent)
      (few : (w.houses id).house.rentWarnings < 7)
      (houses : w'.houses = Function.update w.houses id
        ((w.houses id).setPayRentWarnings ((w.houses id).house.rentWarnings + 1)))
      (stored : w'.storedBalance (w.houses id).house = w.storedBalance (w.houses id).house)
  | lose (hdue : (w.houses id).Due run) (short : w.storedBalance (w.houses id).house < (w.houses id).rent)
      (many : ¬ (w.houses id).house.rentWarnings < 7)
      (houses : w'.houses = Function.update w.houses id ((w.houses id).dropOwner (run.visits id)))
      (stored : w'.storedBalance (w.houses id).house = w.storedBalance (w.houses id).house)

section

variable {w : World} {visit : Visit} {guid : Nat} {player player' : Player}

theorem players_of_loaded (h : w.loadPlayerById visit guid = some player) : w.players guid = some player := by
  rw [World.loadPlayerById] at h
  split at h
  · exact h
  · cases h

@[simp] theorem houses_savePlayerSync : (w.savePlayerSync visit guid player).houses = w.houses := by
  rw [World.savePlayerSync]
  split <;> rfl

@[simp] theorem guildBalances_savePlayerSync : (w.savePlayerSync visit guid player).guildBalances = w.guildBalances := by
  rw [World.savePlayerSync]
  split <;> rfl

/-- A player who is saved with the same balance. -/
theorem balance_savePlayerSync (visit : Visit) (hplayer : w.players guid = some player)
    (hsame : player'.bankBalance = player.bankBalance) (owner : Nat) :
    ((w.savePlayerSync visit guid player').players owner).map (·.bankBalance) =
      (w.players owner).map (·.bankBalance) := by
  rw [World.savePlayerSync]
  split
  · by_cases howner : owner = guid
    · simp [howner, hplayer, hsame]
    · simp [howner]
  · rfl

/-- A letter does not change the stored balance. -/
theorem stored_savePlayerSync (visit : Visit) (house : Houses.House) (hplayer : w.players guid = some player)
    (hsame : player'.bankBalance = player.bankBalance) :
    (w.savePlayerSync visit guid player').storedBalance house = w.storedBalance house := by
  rw [World.storedBalance, World.storedBalance, guildBalances_savePlayerSync,
    balance_savePlayerSync visit hplayer hsame]

theorem addTransaction_spec (w : World) (visit : Visit) (withdrawal : Withdrawal) :
    (w.addTransaction visit withdrawal).houses = w.houses ∧
    (w.addTransaction visit withdrawal).guildBalances = w.guildBalances := by
  rw [World.addTransaction]
  split <;> exact ⟨rfl, rfl⟩

theorem setPayRentWarnings_self (h : House) {n : Nat} (hn : h.house.rentWarnings = n) : h.setPayRentWarnings n = h := by
  rw [House.setPayRentWarnings, ← hn]

theorem warn_cases (h : House) (rentPeriod : RentPeriod) (visit : Visit) (player : Player) :
    ((h.house.rentWarnings < 7 ∧ (h.warn rentPeriod visit player).1 = h.setPayRentWarnings (h.house.rentWarnings + 1)) ∨
      (¬ h.house.rentWarnings < 7 ∧ (h.warn rentPeriod visit player).1 = h.dropOwner visit)) ∧
    (h.warn rentPeriod visit player).2.bankBalance = player.bankBalance := by
  rw [House.warn]
  split
  · next hfew => exact ⟨.inl ⟨hfew, rfl⟩, rfl⟩
  · next hmany => exact ⟨.inr ⟨hmany, rfl⟩, rfl⟩

end

/-- A due house whose owner cannot pay, and the player who is told so. -/
theorem outcome_of_short {w : World} {id : Nat} {run : Run} {guid : Nat} {player : Player}
    (hdue : (w.houses id).Due run) (hshort : w.storedBalance (w.houses id).house < (w.houses id).rent)
    (hplayer : w.players guid = some player) :
    Outcome w ((w.setHouse id ((w.houses id).warn run.rentPeriod (run.visits id) player).1).savePlayerSync
      (run.visits id) guid ((w.houses id).warn run.rentPeriod (run.visits id) player).2) id run := by
  obtain ⟨hcases, hbalance⟩ := warn_cases (w.houses id) run.rentPeriod (run.visits id) player
  have hstored := fun h' : House => stored_savePlayerSync (run.visits id) (w.houses id).house
    (show (w.setHouse id h').players guid = some player from hplayer) hbalance
  obtain ⟨hfew, hwarn⟩ | ⟨hmany, hwarn⟩ := hcases
  · refine .warn hdue hshort hfew ?_ (hstored _)
    rw [houses_savePlayerSync, hwarn]
    rfl
  · refine .lose hdue hshort hmany ?_ (hstored _)
    rw [houses_savePlayerSync, hwarn]
    rfl

theorem payHouses_single (id : Nat) (w : World) (run : Run) (hperiod : run.rentPeriod ≠ .never) :
    payHouses [id] w run = visitHouse run.rentPeriod run.currentTime w id (run.visits id) := if_neg hperiod

theorem visitHouse_of_not_due {w : World} {id : Nat} {run : Run} (hdue : ¬ (w.houses id).Due run) :
    payHouses [id] w run = w := by
  by_cases hperiod : run.rentPeriod = .never
  · exact if_pos hperiod
  · rw [payHouses_single id w run hperiod, visitHouse]
    split
    · rfl
    · next howner =>
      refine if_pos ?_
      by_contra hnot
      push Not at hnot
      exact hdue ⟨hperiod, howner, hnot⟩

/-- The turn of a due house whose town is there. -/
theorem visitHouse_of_due {w : World} {id : Nat} {run : Run} (hdue : (w.houses id).Due run)
    (htown : w.towns (w.houses id).townId = true) :
    payHouses [id] w run =
      match (w.houses id).house.type with
      | .normal => payNormal run.rentPeriod run.currentTime w id (run.visits id) (w.houses id)
      | .guildhall => payGuildhall run.rentPeriod run.currentTime w id (run.visits id) (w.houses id) := by
  obtain ⟨hperiod, howner, hrent, hpaid⟩ := hdue
  rw [payHouses_single id w run hperiod, visitHouse, if_neg howner, if_neg (by omega), htown]
  rfl

theorem outcome_normal {w : World} {id : Nat} {run : Run} (hdue : (w.houses id).Due run)
    (htype : (w.houses id).house.type = .normal) (hallowed : AllowedNormal w (w.houses id) (run.visits id)) :
    Outcome w (payNormal run.rentPeriod run.currentTime w id (run.visits id) (w.houses id)) id run := by
  obtain ⟨player, hload, hsaved⟩ := hallowed
  have hplayer := players_of_loaded hload
  have hstored : w.storedBalance (w.houses id).house = player.bankBalance := by
    rw [World.storedBalance, htype, hplayer]
    rfl
  rw [payNormal, hload]
  dsimp only
  split
  · next hcovered =>
    refine .pay hdue (hstored.symm ▸ hcovered) ?_ ?_
    · rw [houses_savePlayerSync]
      rfl
    · rw [hstored, World.storedBalance, htype, World.savePlayerSync, if_pos (hsaved hcovered)]
      simp only [Function.update_self, Option.map_some, Option.getD_some]
      omega
  · next hshort =>
    exact outcome_of_short hdue (by omega) hplayer

theorem outcome_guildhall {w : World} {id : Nat} {run : Run} (hdue : (w.houses id).Due run)
    (htype : (w.houses id).house.type = .guildhall) (hallowed : AllowedGuildhall w (w.houses id) (run.visits id)) :
    Outcome w (payGuildhall run.rentPeriod run.currentTime w id (run.visits id) (w.houses id)) id run := by
  obtain ⟨guild, hguild, hbalance, hcan, hcannot⟩ := hallowed
  have hstored : w.storedBalance (w.houses id).house = guild.bankBalance := by
    rw [World.storedBalance, htype, hbalance]
    rfl
  rw [payGuildhall, hguild]
  dsimp only
  split
  · next hcovered =>
    obtain ⟨hwarnings, hupdated⟩ := hcan hcovered
    obtain ⟨hhouses, hbalances⟩ := addTransaction_spec
      (w.setGuildBalance (run.visits id) (w.houses id).house.owner (guild.bankBalance - (w.houses id).rent))
      (run.visits id) ⟨(w.houses id).house.owner, (w.houses id).rent, run.currentTime⟩
    refine .pay hdue (hstored.symm ▸ hcovered) ?_ ?_
    · have hsame : ((w.houses id).setPaidUntil (increasePaidUntil run.rentPeriod run.currentTime)).setPayRentWarnings 0 =
          (w.houses id).setPaidUntil (increasePaidUntil run.rentPeriod run.currentTime) :=
        setPayRentWarnings_self _ hwarnings
      rw [hsame]
      exact congrArg (Function.update · id _) hhouses
    · rw [hstored, World.storedBalance, htype]
      show (((World.addTransaction _ _ _).guildBalances) _).getD 0 + _ = _
      rw [hbalances, World.setGuildBalance, if_pos hupdated]
      simp only [Function.update_self, hbalance, Option.map_some, Option.getD_some]
      omega
  · next hshort =>
    obtain ⟨player, hload⟩ := Option.isSome_iff_exists.mp (hcannot (by omega))
    rw [hload]
    exact outcome_of_short hdue (by omega) (players_of_loaded hload)

theorem Allowed.outcome {s : State} {id : Nat} {run : Run} (hallowed : Allowed s (.visit id run)) :
    Outcome s.world (payHouses [id] s.world run) id run := by
  by_cases hdue : (s.world.houses id).Due run
  · obtain ⟨htown, hbranch⟩ := hallowed hdue
    rw [visitHouse_of_due hdue htown]
    cases htype : (s.world.houses id).house.type with
    | normal =>
      rw [htype] at hbranch
      exact outcome_normal hdue htype hbranch
    | guildhall =>
      rw [htype] at hbranch
      exact outcome_guildhall hdue htype hbranch
  · exact .stay hdue (visitHouse_of_not_due hdue)

/-! ## Whole runs -/

/-- The counter of an owned house is the number of unpaid visits, and it is at most 7. -/
def Inv (s : State) : Prop := Counted s ∧ ∀ id, (s.world.houses id).house.owner ≠ 0 → s.unpaid id ≤ 7

theorem unpaid_of_due {s : State} {id : Nat} {run : Run} (hdue : (s.world.houses id).Due run) :
    (step s (.visit id run)).unpaid = Function.update s.unpaid id
      (if (s.world.houses id).rent ≤ s.world.storedBalance (s.world.houses id).house then 0 else s.unpaid id + 1) :=
  if_pos hdue

/-- The accounts of the other houses stay. -/
theorem Inv.update {s s' : State} (h : Inv s) {id n : Nat} {house : House}
    (hhouses : s'.world.houses = Function.update s.world.houses id house)
    (hunpaid : s'.unpaid = Function.update s.unpaid id n)
    (hself : house.house.owner ≠ 0 → house.house.rentWarnings = n ∧ n ≤ 7) : Inv s' := by
  constructor
  · intro other
    rw [hhouses, hunpaid]
    by_cases hother : other = id
    · subst hother
      rw [Function.update_self, Function.update_self]
      exact fun howner => (hself howner).1
    · rw [Function.update_of_ne hother, Function.update_of_ne hother]
      exact h.1 other
  · intro other
    rw [hhouses, hunpaid]
    by_cases hother : other = id
    · subst hother
      rw [Function.update_self, Function.update_self]
      exact fun howner => (hself howner).2
    · rw [Function.update_of_ne hother, Function.update_of_ne hother]
      exact h.2 other

theorem Inv.visit {s : State} {id : Nat} {run : Run} (h : Inv s)
    (hout : Outcome s.world (payHouses [id] s.world run) id run) :
    Inv (step s (.visit id run)) ∧ Fair s.world (payHouses [id] s.world run) id run := by
  cases hout with
  | stay hdue same =>
    rw [same]
    refine ⟨?_, ⟨⟨fun hlost => absurd hlost.2 hlost.1, fun hlost => absurd hlost.1 hdue⟩, .inr ⟨rfl, rfl⟩⟩⟩
    have hstep : step s (.visit id run) = s := by
      rw [step, same]
      exact congrArg (State.mk s.world) (if_neg hdue)
    rw [hstep]
    exact h
  | pay hdue covered houses stored =>
    refine ⟨h.update houses (unpaid_of_due hdue) fun _ => ?_, ⟨?_, .inl ?_⟩⟩
    · rw [if_pos covered]
      exact ⟨rfl, Nat.zero_le 7⟩
    · rw [houses, Function.update_self]
      exact ⟨fun hlost => absurd hlost.2 hlost.1, fun hlost => absurd covered (by omega)⟩
    · rw [houses, Function.update_self]
      have hrent := hdue.2.2.1
      exact ⟨hdue.2.2.2.trans_lt (lt_increasePaidUntil hdue.1 _), by omega, stored⟩
  | warn hdue short few houses stored =>
    have hcount := h.1 id hdue.2.1
    refine ⟨h.update houses (unpaid_of_due hdue) fun _ => ?_, ⟨?_, .inr ?_⟩⟩
    · rw [if_neg (by omega), ← hcount]
      exact ⟨rfl, few⟩
    · rw [houses, Function.update_self]
      exact ⟨fun hlost => absurd hlost.2 hlost.1, fun hlost => by omega⟩
    · rw [houses, Function.update_self]
      exact ⟨rfl, stored⟩
  | lose hdue short many houses stored =>
    have hcount := h.1 id hdue.2.1
    have hle := h.2 id hdue.2.1
    obtain ⟨howner, hpaid⟩ := dropOwner_spec (s.world.houses id) (run.visits id) hdue.2.1
    refine ⟨h.update houses (unpaid_of_due hdue) fun hne => absurd howner hne, ⟨?_, .inr ?_⟩⟩
    · rw [houses, Function.update_self]
      exact ⟨fun _ => ⟨hdue, by omega, short⟩, fun _ => ⟨hdue.2.1, howner⟩⟩
    · rw [houses, Function.update_self]
      exact ⟨hpaid, stored⟩

/-- A house that is sold has no warnings. -/
theorem Inv.setOwner {s : State} {id : Nat} (h : Inv s) (guid : Nat) (env : Houses.Env)
    (hfree : (s.world.houses id).house.owner = 0) : Inv (step s (.setOwner id guid env)) := by
  refine h.update rfl rfl fun howner => ⟨?_, Nat.zero_le 7⟩
  dsimp only at howner ⊢
  by_cases hguid : guid = 0
  · refine absurd ?_ howner
    rw [hguid]
    simp [Houses.setOwner, Houses.House.release, Houses.House.acquire, hfree]
    split <;> simp [hfree]
  · have hchanged : (s.world.houses id).house.owner ≠ guid := by omega
    obtain ⟨isProtected, isLoaded, hsold, -⟩ := @Houses.setOwner_fst env _ _ hchanged (s.world.houses id).rows
    obtain ⟨owner, ownerAccountId, ownerName, hacquired⟩ := Houses.acquire_eq env _ guid
    rw [hsold, hacquired]

/-- After any sales and calls of `payHouses` in which every owner is found and stored: counters count, houses are lost
at 7 warnings only, and balances pay for what `paidUntil` gains. -/
theorem rent_accounted (ids : List Nat) (start : World) (calls : List Call)
    (hnew : ∀ id, (start.houses id).house.rentWarnings = 0)
    (hallowed : Runs.Along step Allowed ⟨start, fun _ => 0⟩ (calls.flatMap (Call.events ids))) :
    Runs.Along step Good ⟨start, fun _ => 0⟩ (calls.flatMap (Call.events ids)) := by
  have hinv : Inv ⟨start, fun _ => 0⟩ := ⟨fun id _ => hnew id, fun _ _ => Nat.zero_le 7⟩
  refine (Runs.Along.of_invariant Inv (fun s e hs he => ?_) _ _ hinv hallowed).1
  cases e with
  | visit id run =>
    obtain ⟨hnext, hfair⟩ := hs.visit he.outcome
    exact ⟨hnext, hnext.1, hfair⟩
  | setOwner id guid env =>
    have hnext := hs.setOwner guid env he
    exact ⟨hnext, hnext.1, trivial⟩

/-- The visits of a call make the world that the call makes. -/
theorem world_visits (ids : List Nat) (s : State) (run : Run) :
    ((ids.map fun id => Event.visit id run).foldl step s).world = payHouses ids s.world run := by
  rw [payHouses]
  split
  · next hnever =>
    induction ids generalizing s with
    | nil => rfl
    | cons id ids ih => exact (ih _).trans (if_pos hnever)
  · next hperiod =>
    induction ids generalizing s with
    | nil => rfl
    | cons id ids ih =>
      rw [List.map_cons, List.foldl_cons, ih, List.foldl_cons, step, payHouses_single id s.world run hperiod]

/-- The visits and sales of calls make the world that the calls make. -/
theorem world_events (ids : List Nat) (s : State) (calls : List Call) :
    ((calls.flatMap (Call.events ids)).foldl step s).world = calls.foldl (World.call ids) s.world := by
  induction calls generalizing s with
  | nil => rfl
  | cons call calls ih =>
    rw [List.flatMap_cons, List.foldl_append, ih, List.foldl_cons]
    congr 1
    cases call with
    | setOwner id guid env => rfl
    | payHouses run => exact world_visits ids s run

/-! ## Two houses -/

/-- House 1 belongs to player 7 and house 2 to guild 5, each for 100. Both have less. -/
def street (balance : Nat) : World where
  houses id :=
    { house := { type := if id = 2 then .guildhall else .normal, owner := if id = 2 then 5 else 7 }, rent := 100, townId := 1 }
  players guid := if guid = 7 then some { bankBalance := balance } else none
  guildBalances id := if id = 5 then some balance else none
  towns _ := true

def quiet : Houses.Env where
  findOwner _ _ := none
  updated := true
  rentPeriod := "weekly"
  currentTime := 0

def weekly (currentTime : Nat) (saved : Bool) : Run where
  rentPeriod := .weekly
  currentTime := currentTime
  visits _ := { saved, env := quiet }

/-- House 1 is paid for once, and gets a letter in the next week. -/
theorem rent_accounted_street :
    Runs.Along step Good ⟨street 150, fun _ => 0⟩
      ([.payHouses (weekly 1000 true), .payHouses (weekly 700000 true)].flatMap (Call.events [1])) := by
  refine rent_accounted [1] (street 150) [.payHouses (weekly 1000 true), .payHouses (weekly 700000 true)] (fun _ => rfl)
    ⟨fun _ => ⟨rfl, { bankBalance := 150 }, rfl, fun _ => rfl⟩, fun _ => ⟨rfl, { bankBalance := 50 }, rfl, fun h => ?_⟩,
      trivial⟩
  rfl

/-- A guild that cannot pay loses its house without a warning, and a house is paid for although the payment is not
stored. -/
theorem rent_not_accounted :
    ((street 50).houses 2).house.owner = 5 ∧ ((street 50).houses 2).house.rentWarnings = 0 ∧
    ((payHouses [1, 2] (street 50) (weekly 1000 true)).houses 2).house.owner = 0 ∧
    ((street 150).houses 1).house.paidUntil = 0 ∧
    ((payHouses [1, 2] (street 150) (weekly 1000 false)).houses 1).house.paidUntil = 605800 ∧
    (payHouses [1, 2] (street 150) (weekly 1000 false)).storedBalance ((street 150).houses 1).house = 150 := by
  refine ⟨rfl, rfl, rfl, rfl, rfl, rfl⟩

end ForgottenServer.HouseRent
