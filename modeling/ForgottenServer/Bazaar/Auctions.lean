import Mathlib
import ForgottenServer.Lib.Runs

/-! # The character bazaar

A character is put up for auction for a fee, and when the auction has ended the character goes to the account that bid
most and the coins, less a commission, to the seller. Every statement of a transaction may fail, and a transaction may
fail as a whole. -/

namespace ForgottenServer.Bazaar

open Runs

def MAX_TIBIA_COINS : Nat := 4294967295
def AUCTION_STATUS_ACTIVE : Nat := 1
def AUCTION_STATUS_FINISHED : Nat := 2
def AUCTION_STATUS_CANCELLED : Nat := 3
def MAX_DESCRIPTION_LENGTH : Nat := 512

/-- A row of `character_auctions`. -/
structure Auction where
  id : Nat
  playerId : Nat
  sellerAccountId : Nat
  currentBidderAccountId : Option Nat := none
  winnerAccountId : Option Nat := none
  startPrice : Nat
  currentBid : UInt32 := 0
  finalPrice : Option Nat := none
  auctionFee : Nat
  commissionPercent : Nat
  status : Nat
  createdAt : Nat
  endAt : Nat
  finishedAt : Option Nat := none
  description : List UInt8 := []
deriving DecidableEq

def Auction.commission (a : Auction) : Nat := a.currentBid.toNat * min 100 a.commissionPercent / 100

def Auction.sellerPayout (a : Auction) : Nat := a.currentBid.toNat - a.commission

structure History where
  auctionId : Nat
  action : String
  accountId : Nat
  playerId : Nat
  amount : Nat
  message : String
  createdAt : Nat
deriving DecidableEq

/-- The coins of the accounts, the accounts of the characters, and the auctions with the next id. -/
structure Database where
  accounts : Nat → Option Nat
  players : Nat → Option Nat
  auctions : List Auction := []
  nextId : Nat := 1
  history : List History := []

/-- The statements of a transaction. -/
inductive Statement where
  | selectAuction
  | movePlayer
  | credit
  | setStatus
  | addHistory
  | lockAccount
  | selectPlayerAuction
  | selectAccountAuction
  | debit
  | insertAuction
  | selectCoins
deriving DecidableEq

/-- What a try of a transaction meets. -/
structure Attempt where
  begins : Bool := true
  fails : Statement → Bool := fun _ => false
  commits : Bool := true
  deadlock : Bool := false

def TRANSACTION_MAX_ATTEMPTS : Nat := 3

/-- The tries that are left, the reason that was given last, and the outcome. -/
def tryTransaction (body : (Statement → Bool) → Database → Except String Database) (db : Database) :
    List Attempt → String → Database × Bool × String
  | [], reason => (db, false, reason)
  | attempt :: attempts, reason =>
    if !attempt.begins then (db, false, reason)
    else match body attempt.fails db with
      | .error reason => if attempt.deadlock then tryTransaction body db attempts reason else (db, false, reason)
      | .ok db' =>
        if attempt.commits then (db', true, reason)
        else if attempt.deadlock then tryTransaction body db attempts reason
        else (db, false, reason)

/-- `DBTransaction::executeWithinTransactionRollbackOnFailure`. -/
def executeWithinTransaction (body : (Statement → Bool) → Database → Except String Database) (db : Database)
    (attempts : List Attempt) (reason : String) : Database × Bool × String :=
  tryTransaction body db (attempts.take TRANSACTION_MAX_ATTEMPTS) reason

namespace Database

variable (fails : Statement → Bool)

def isPlayerOnActiveAuction (db : Database) (playerId : Nat) : Bool :=
  playerId ≠ 0 && !fails .selectPlayerAuction &&
    db.auctions.any fun a => a.playerId = playerId && a.status = AUCTION_STATUS_ACTIVE

def hasActiveAuctionForAccount (db : Database) (accountId : Nat) : Bool :=
  !fails .selectAccountAuction && db.auctions.any fun a => a.sellerAccountId = accountId && a.status = AUCTION_STATUS_ACTIVE

def lockAccountForAuction (db : Database) (accountId : Nat) : Bool :=
  !fails .lockAccount && (db.accounts accountId).isSome

def addHistory (db : Database) (row : History) : Option Database :=
  if fails .addHistory then none else some { db with history := db.history ++ [row] }

def setCoins (db : Database) (accountId coins : Nat) : Database :=
  { db with accounts := Function.update db.accounts accountId (some coins) }

def debitTransferableCoins (db : Database) (accountId amount : Nat) : Option Database :=
  if accountId = 0 then none
  else if amount = 0 then some db
  else if fails .debit then none
  else match db.accounts accountId with
    | none => none
    | some coins => if coins ≥ amount then some (db.setCoins accountId (coins - amount)) else none

def creditTransferableCoins (db : Database) (accountId amount : Nat) : Option Database :=
  if accountId = 0 then none
  else if amount = 0 then some db
  else if amount > MAX_TIBIA_COINS then none
  else if fails .credit then none
  else match db.accounts accountId with
    | none => none
    | some coins =>
      if coins ≤ MAX_TIBIA_COINS - amount then some (db.setCoins accountId (coins + amount)) else none

/-- The character changes its account. A row that is as it was does not count as changed. -/
def movePlayer (db : Database) (playerId sellerAccountId bidderAccountId : Nat) : Option Database :=
  if fails .movePlayer ∨ db.players playerId ≠ some sellerAccountId ∨ bidderAccountId = sellerAccountId then none
  else some { db with players := Function.update db.players playerId (some bidderAccountId) }

/-- An active auction is updated. -/
def updateAuction (db : Database) (auctionId : Nat) (change : Auction → Auction) : Database :=
  { db with auctions := db.auctions.map fun a =>
      if a.id = auctionId ∧ a.status = AUCTION_STATUS_ACTIVE then change a else a }

def setStatus (db : Database) (auctionId : Nat) (change : Auction → Auction) : Option Database :=
  if fails .setStatus then none else some (db.updateAuction auctionId change)

/-! ## The end of an auction -/

/-- What is done with an auction that has ended. -/
def settle (db : Database) (a : Auction) (currentTime : Nat) : Option Database :=
  let bidderAccountId := a.currentBidderAccountId.getD 0
  if bidderAccountId = 0 ∨ a.currentBid = 0 then do
    let db ← db.setStatus fails a.id fun a =>
      { a with status := AUCTION_STATUS_CANCELLED, finishedAt := some currentTime }
    db.addHistory fails ⟨a.id, "expired_no_bid", a.sellerAccountId, a.playerId, 0, "Auction expired without a bid.",
      currentTime⟩
  else do
    let db ← db.movePlayer fails a.playerId a.sellerAccountId bidderAccountId
    let db ← db.creditTransferableCoins fails a.sellerAccountId a.sellerPayout
    let bid := a.currentBid.toNat
    let db ← db.setStatus fails a.id fun a =>
      { a with
        status := AUCTION_STATUS_FINISHED, winnerAccountId := some bidderAccountId, finalPrice := some bid
        finishedAt := some currentTime }
    db.addHistory fails ⟨a.id, "finished", bidderAccountId, a.playerId, a.sellerPayout,
      "Auction finished for " ++ toString bid ++ " coins (commission: " ++ toString a.commission ++ ").",
      currentTime⟩

/-- The auction that the transaction locks. -/
def selectAuction (db : Database) (auctionId currentTime : Nat) : Option Auction :=
  if fails .selectAuction then none
  else db.auctions.find? fun a => a.id = auctionId && a.status = AUCTION_STATUS_ACTIVE && a.endAt ≤ currentTime

def finalizeBody (auctionId currentTime : Nat) (db : Database) : Except String Database :=
  match db.selectAuction fails auctionId currentTime with
  | none => .ok db
  | some a => match db.settle fails a currentTime with
    | none => .error ""
    | some db => .ok db

def finalizeAuction (db : Database) (auctionId currentTime : Nat) (attempts : List Attempt) : Database × Bool :=
  let (db, success, _) := executeWithinTransaction (fun fails => finalizeBody fails auctionId currentTime) db attempts ""
  (db, success)

/-- `finalizeExpiredAuctions`, with the tries for each auction. -/
def finalizeExpiredAuctions (db : Database) (isEnabled fails : Bool) (currentTime : Nat)
    (attempts : Nat → List Attempt) : Database :=
  if !isEnabled || fails then db
  else
    let expired := db.auctions.filter fun a => a.status = AUCTION_STATUS_ACTIVE && a.endAt ≤ currentTime
    expired.foldl (fun db a => (db.finalizeAuction a.id currentTime (attempts a.id)).1) db

end Database

/-! ## A new auction -/

structure Config where
  enabled : Bool := true
  marketEnabled : Bool := true
  minLevel : Int := 50
  minPrice : Int := 100
  auctionFee : Int := 50
  commissionPercent : Int := 10
  minDurationHours : Int := 24
  maxDurationDays : Int := 7

def asUnsignedConfig (value : Int) (fallback maximum : Nat) : Nat :=
  if value < 0 then fallback else min value.toNat maximum

namespace Config

variable (c : Config)

def getMinimumLevel : Nat := max 1 (asUnsignedConfig c.minLevel 50 4294967295)
def getMinimumPrice : Nat := max 1 (asUnsignedConfig c.minPrice 100 4294967295)
def getAuctionFee : Nat := asUnsignedConfig c.auctionFee 50 4294967295
def getCommissionPercent : Nat := min 100 (asUnsignedConfig c.commissionPercent 10 100)

def getMinimumDuration : Nat :=
  max 60 (min (asUnsignedConfig c.minDurationHours 24 4294967295 * 60 * 60) 4294967295)

def getMaximumDuration : Nat := min (asUnsignedConfig c.maxDurationDays 7 4294967295 * 24 * 60 * 60) 4294967295

end Config

/-- The character that is to be sold, and what the database answers on its guild, houses and offers. -/
structure Candidate where
  playerId : Nat
  accountId : Nat
  isRemoved : Bool := false
  isDead : Bool := false
  isStaff : Bool := false
  level : Nat
  inProtectionZone : Bool := true
  isFighting : Bool := false
  inGuild : Bool := false
  hasHouse : Bool := false
  hasOffers : Bool := false

structure Request where
  candidate : Candidate
  startPrice : Nat
  durationSeconds : Nat
  description : List UInt8 := []
  currentTime : Nat

namespace Database

def getTransferableCoins (fails : Statement → Bool) (db : Database) (accountId : Nat) : Nat :=
  if accountId = 0 ∨ fails .selectCoins then 0 else (db.accounts accountId).getD 0

/-- The reason why the character cannot be sold. -/
def canCreateAuction (config : Config) (fails : Statement → Bool) (db : Database) (c : Candidate) : Option String :=
  if !config.enabled then some "Character Bazaar is disabled."
  else if c.isRemoved then some "The character is not available."
  else if c.isDead then some "Dead characters cannot be listed."
  else if c.isStaff then some "Staff characters cannot be listed."
  else if c.level < config.getMinimumLevel then
    some ("Your character must be at least level " ++ toString config.getMinimumLevel ++ ".")
  else if !c.inProtectionZone then some "You must be in a protection zone."
  else if c.isFighting then some "You cannot list a character while in a fight."
  else if db.isPlayerOnActiveAuction fails c.playerId || db.hasActiveAuctionForAccount fails c.accountId then
    some "This account already has an active character auction."
  else if c.inGuild then some "Leave your guild before listing this character."
  else if c.hasHouse then some "Characters involved with houses cannot be listed."
  else if config.marketEnabled && c.hasOffers then some "Cancel your market offers before listing this character."
  else if db.getTransferableCoins fails c.accountId < config.getAuctionFee then
    some "You do not have enough transferable Tibia Coins for the auction fee."
  else none

/-- The reason why the auction is refused. -/
def refusal (config : Config) (fails : Statement → Bool) (db : Database) (r : Request) : Option String :=
  match db.canCreateAuction config fails r.candidate with
  | some reason => some reason
  | none =>
    let maxDuration := max config.getMinimumDuration config.getMaximumDuration
    if r.startPrice < config.getMinimumPrice then
      some ("The starting price must be at least " ++ toString config.getMinimumPrice ++ " coins.")
    else if r.durationSeconds < config.getMinimumDuration ∨ r.durationSeconds > maxDuration then
      some ("The auction duration must be between " ++ toString config.getMinimumDuration ++ " and " ++
        toString maxDuration ++ " seconds.")
    else if r.description.length > MAX_DESCRIPTION_LENGTH then
      some ("The description may contain at most " ++ toString MAX_DESCRIPTION_LENGTH ++ " characters.")
    else none

/-- Control characters become blanks. -/
def sanitizeDescription (description : List UInt8) : List UInt8 :=
  description.map fun character => if character < 32 ∨ character = 127 then 32 else character

def newAuction (config : Config) (r : Request) (id : Nat) : Auction where
  id
  playerId := r.candidate.playerId
  sellerAccountId := r.candidate.accountId
  startPrice := r.startPrice
  auctionFee := config.getAuctionFee
  commissionPercent := config.getCommissionPercent
  status := AUCTION_STATUS_ACTIVE
  createdAt := r.currentTime
  endAt := r.currentTime + r.durationSeconds
  description := sanitizeDescription r.description

def insertAuction (fails : Statement → Bool) (config : Config) (r : Request) (db : Database) : Option Database :=
  if fails .insertAuction then none
  else some { db with auctions := db.auctions ++ [newAuction config r db.nextId], nextId := db.nextId + 1 }

def createBody (config : Config) (r : Request) (fails : Statement → Bool) (db : Database) : Except String Database :=
  let c := r.candidate
  if !db.lockAccountForAuction fails c.accountId then .error "The account is no longer available."
  else if db.isPlayerOnActiveAuction fails c.playerId || db.hasActiveAuctionForAccount fails c.accountId then
    .error "This account already has an active character auction."
  else match db.debitTransferableCoins fails c.accountId config.getAuctionFee with
    | none => .error "You do not have enough transferable Tibia Coins for the auction fee."
    | some db' => match db'.insertAuction fails config r with
      | none => .error "The auction could not be created."
      | some db'' =>
        match db''.addHistory fails ⟨db.nextId, "created", c.accountId, c.playerId, config.getAuctionFee,
          "Character auction created.", r.currentTime⟩ with
        | none => .error "The auction history could not be created."
        | some db'' => .ok db''

/-- `before` is the outcome of the statements before the transaction. -/
def createAuction (config : Config) (db : Database) (r : Request) (before : Statement → Bool)
    (attempts : List Attempt) : Database × Bool × String :=
  match db.refusal config before r with
  | some reason => (db, false, reason)
  | none =>
    match executeWithinTransaction (createBody config r) db attempts "" with
    | (db', true, _) => (db', true, "Auction #" ++ toString db.nextId ++ " created. You will now be logged out.")
    | (db', false, reason) =>
      (db', false, if reason = "" then "The auction could not be created. Please try again." else reason)

end Database

/-! ## Runs -/

/-- Every transaction of the bazaar, whatever was selected before it. -/
inductive Event where
  | create (config : Config) (r : Request) (before : Statement → Bool) (attempts : List Attempt)
  | finalize (auctionId currentTime : Nat) (attempts : List Attempt)

namespace Database

def step (db : Database) : Event → Database
  | .create config r before attempts => (db.createAuction config r before attempts).1
  | .finalize auctionId currentTime attempts => (db.finalizeAuction auctionId currentTime attempts).1

/-- A call answers that it has succeeded. -/
def succeeds (db : Database) : Event → Bool
  | .create config r before attempts => (db.createAuction config r before attempts).2.1
  | .finalize auctionId currentTime attempts => (db.finalizeAuction auctionId currentTime attempts).2

def isActive (db : Database) (auctionId : Nat) : Bool :=
  db.auctions.any fun a => a.id = auctionId && a.status = AUCTION_STATUS_ACTIVE

/-- How often an auction leaves the active status. -/
def leavings (auctionId : Nat) : Database → List Event → Nat
  | _, [] => 0
  | db, e :: es =>
    (if db.isActive auctionId && !(db.step e).isActive auctionId then 1 else 0) + leavings auctionId (db.step e) es

structure Valid (db : Database) : Prop where
  coins : ∀ accountId coins, db.accounts accountId = some coins → coins ≤ MAX_TIBIA_COINS
  ids : (db.auctions.map Auction.id).Nodup
  fresh : ∀ a ∈ db.auctions, a.id < db.nextId
  /-- An account has one active auction at most. -/
  active : ∀ a ∈ db.auctions, ∀ b ∈ db.auctions, a.status = AUCTION_STATUS_ACTIVE → b.status = AUCTION_STATUS_ACTIVE →
    a.sellerAccountId = b.sellerAccountId → a.id = b.id

/-- Coins go to or from one account. -/
def addCoins (accounts : Nat → Option Nat) (accountId : Nat) (change : Nat → Nat) (id : Nat) : Option Nat :=
  if id = accountId then (accounts id).map change else accounts id

/-- An auction without a bid ends. -/
structure Expires (db : Database) (a : Auction) (currentTime : Nat) (db' : Database) : Prop where
  unchanged : db'.accounts = db.accounts ∧ db'.players = db.players ∧ db'.nextId = db.nextId
  auctions : db'.auctions = (db.updateAuction a.id fun a =>
    { a with status := AUCTION_STATUS_CANCELLED, finishedAt := some currentTime }).auctions

/-- The character goes to the bidder and the payout to the seller. -/
structure Settles (db : Database) (a : Auction) (bidderAccountId currentTime : Nat) (db' : Database) : Prop where
  character : db.players a.playerId = some a.sellerAccountId ∧
    db'.players = Function.update db.players a.playerId (some bidderAccountId)
  coins : db'.accounts = addCoins db.accounts a.sellerAccountId (· + a.sellerPayout)
  ids : db'.nextId = db.nextId
  auctions : db'.auctions = (db.updateAuction a.id fun b => { b with
    status := AUCTION_STATUS_FINISHED, winnerAccountId := some bidderAccountId, finalPrice := some a.currentBid.toNat
    finishedAt := some currentTime }).auctions

/-- The fee is paid for a new auction. -/
structure Creates (db : Database) (config : Config) (r : Request) (db' : Database) : Prop where
  paid : ∀ coins, db.accounts r.candidate.accountId = some coins → config.getAuctionFee ≤ coins
  coins : db'.accounts = addCoins db.accounts r.candidate.accountId (· - config.getAuctionFee)
  players : db'.players = db.players
  ids : db'.nextId = db.nextId + 1
  auctions : db'.auctions = db.auctions ++ [newAuction config r db.nextId]

/-- What a transaction may do. -/
def Does (db : Database) (db' : Database) : Event → Prop
  | .create config r _ _ => db' = db ∨ db.Creates config r db'
  | .finalize auctionId currentTime _ => db' = db ∨ ∃ a ∈ db.auctions, a.id = auctionId ∧
      a.status = AUCTION_STATUS_ACTIVE ∧ a.endAt ≤ currentTime ∧
      (((a.currentBidderAccountId.getD 0 = 0 ∨ a.currentBid = 0) ∧ db.Expires a currentTime db') ∨
        ∃ bidderAccountId, a.currentBidderAccountId = some bidderAccountId ∧ a.currentBid ≠ 0 ∧
          db.Settles a bidderAccountId currentTime db')

/-- A transaction does all of what it should or nothing, and leaves the database valid. -/
structure Right (db : Database) (e : Event) : Prop where
  does : db.Does (db.step e) e
  failed : db.succeeds e = false → db.step e = db
  valid : (db.step e).Valid

/-- A new auction is refused in every try if its account has one: the transaction finds it. -/
def Allowed (db : Database) : Event → Prop
  | .create config r before attempts => db.refusal config before r = none →
      db.hasActiveAuctionForAccount (fun _ => false) r.candidate.accountId = true →
        ∀ attempt ∈ attempts, db.isPlayerOnActiveAuction attempt.fails r.candidate.playerId = true ∨
          db.hasActiveAuctionForAccount attempt.fails r.candidate.accountId = true
  | .finalize _ _ _ => True

end Database

end ForgottenServer.Bazaar
