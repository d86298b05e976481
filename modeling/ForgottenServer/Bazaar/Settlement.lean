import Mathlib
import ForgottenServer.Bazaar.Auctions

/-! # Auctions are settled once and as a whole -/

namespace ForgottenServer.Bazaar

open Runs

/-- A transaction leaves what one of its tries makes of the database, or nothing. -/
theorem tryTransaction_spec {body : (Statement → Bool) → Database → Except String Database} {db : Database}
    (attempts : List Attempt) (reason : String) :
    ((tryTransaction body db attempts reason).2.1 = false ∧ (tryTransaction body db attempts reason).1 = db) ∨
      (tryTransaction body db attempts reason).2.1 = true ∧
        ∃ attempt ∈ attempts, body attempt.fails db = .ok (tryTransaction body db attempts reason).1 := by
  induction attempts generalizing reason with
  | nil => exact .inl ⟨rfl, rfl⟩
  | cons attempt attempts ih =>
    rw [tryTransaction]
    split
    · exact .inl ⟨rfl, rfl⟩
    · split
      · rename_i reason' _
        split
        · exact (ih reason').imp id fun ⟨hok, a, ha, hbody⟩ => ⟨hok, a, List.mem_cons_of_mem _ ha, hbody⟩
        · exact .inl ⟨rfl, rfl⟩
      · rename_i db' hbody
        split
        · exact .inr ⟨rfl, attempt, List.mem_cons_self, hbody⟩
        · split
          · exact (ih reason).imp id fun ⟨hok, a, ha, hbody⟩ => ⟨hok, a, List.mem_cons_of_mem _ ha, hbody⟩
          · exact .inl ⟨rfl, rfl⟩

theorem executeWithinTransaction_spec (body : (Statement → Bool) → Database → Except String Database) (db : Database)
    (attempts : List Attempt) (reason : String) :
    ((executeWithinTransaction body db attempts reason).2.1 = false ∧
        (executeWithinTransaction body db attempts reason).1 = db) ∨
      (executeWithinTransaction body db attempts reason).2.1 = true ∧
        ∃ attempt ∈ attempts, body attempt.fails db = .ok (executeWithinTransaction body db attempts reason).1 :=
  (tryTransaction_spec _ _).imp id fun ⟨hok, a, ha, hbody⟩ => ⟨hok, a, List.mem_of_mem_take ha, hbody⟩

namespace Database

variable {fails : Statement → Bool} {db db' : Database}

/-! ## Statements -/

theorem addHistory_spec {row : History} (h : db.addHistory fails row = some db') :
    db' = { db with history := db.history ++ [row] } := by
  rw [addHistory] at h
  split at h
  · cases h
  · cases h
    rfl

theorem setStatus_spec {auctionId : Nat} {change : Auction → Auction}
    (h : db.setStatus fails auctionId change = some db') : db' = db.updateAuction auctionId change := by
  rw [setStatus] at h
  split at h
  · cases h
  · cases h
    rfl

theorem movePlayer_spec {playerId sellerAccountId bidderAccountId : Nat}
    (h : db.movePlayer fails playerId sellerAccountId bidderAccountId = some db') :
    db.players playerId = some sellerAccountId ∧
      db' = { db with players := Function.update db.players playerId (some bidderAccountId) } := by
  rw [movePlayer] at h
  split at h
  · cases h
  · rename_i hmoves
    cases h
    exact ⟨not_not.mp (not_or.mp (not_or.mp hmoves).2).1, rfl⟩

theorem addCoins_of_eq {accounts : Nat → Option Nat} {accountId coins : Nat} {change : Nat → Nat}
    (h : accounts accountId = some coins) :
    addCoins accounts accountId change = Function.update accounts accountId (some (change coins)) := by
  funext id
  rw [addCoins]
  split
  · rename_i hid
    subst hid
    rw [h, Function.update_self]
    rfl
  · rename_i hid
    rw [Function.update_of_ne hid]

theorem addCoins_zero {accounts : Nat → Option Nat} {accountId : Nat} {change : Nat → Nat} (h : ∀ n, change n = n) :
    addCoins accounts accountId change = accounts := by
  funext id
  rw [addCoins]
  split
  · cases accounts id with
    | none => rfl
    | some coins => exact congrArg some (h coins)
  · rfl

theorem creditTransferableCoins_spec {accountId amount : Nat}
    (h : db.creditTransferableCoins fails accountId amount = some db') :
    db' = { db with accounts := addCoins db.accounts accountId (· + amount) } ∧
      (amount = 0 ∨ ∀ coins, db.accounts accountId = some coins → coins + amount ≤ MAX_TIBIA_COINS) := by
  rw [creditTransferableCoins] at h
  split at h
  · cases h
  · split at h
    · rename_i hzero
      cases h
      rw [addCoins_zero fun n => by omega]
      exact ⟨rfl, .inl hzero⟩
    · split at h
      · cases h
      · split at h
        · cases h
        · split at h
          · cases h
          · rename_i coins hcoins
            split at h
            · cases h
              rw [addCoins_of_eq hcoins]
              refine ⟨rfl, .inr fun coins' hcoins' => ?_⟩
              cases hcoins.symm.trans hcoins'
              omega
            · cases h

theorem debitTransferableCoins_spec {accountId amount : Nat}
    (h : db.debitTransferableCoins fails accountId amount = some db') :
    db' = { db with accounts := addCoins db.accounts accountId (· - amount) } ∧
      ∀ coins, db.accounts accountId = some coins → amount ≤ coins := by
  rw [debitTransferableCoins] at h
  split at h
  · cases h
  · split at h
    · cases h
      rw [addCoins_zero fun n => by omega]
      exact ⟨rfl, fun _ _ => by omega⟩
    · split at h
      · cases h
      · split at h
        · cases h
        · rename_i coins hcoins
          split at h
          · cases h
            rw [addCoins_of_eq hcoins]
            refine ⟨rfl, fun coins' hcoins' => ?_⟩
            cases hcoins.symm.trans hcoins'
            omega
          · cases h

/-! ## What a transaction does -/

theorem settle_spec {a : Auction} {currentTime : Nat} (h : db.settle fails a currentTime = some db') :
    ((a.currentBidderAccountId.getD 0 = 0 ∨ a.currentBid = 0) ∧ db.Expires a currentTime db') ∨
      ∃ bidderAccountId, a.currentBidderAccountId = some bidderAccountId ∧ a.currentBid ≠ 0 ∧
        db.Settles a bidderAccountId currentTime db' ∧ (a.sellerPayout = 0 ∨
          ∀ coins, db.accounts a.sellerAccountId = some coins → coins + a.sellerPayout ≤ MAX_TIBIA_COINS) := by
  rw [settle] at h
  dsimp only at h
  split at h
  · rename_i hnone
    obtain ⟨db₁, hstatus, hhistory⟩ := Option.bind_eq_some_iff.mp h
    obtain rfl := setStatus_spec hstatus
    obtain rfl := addHistory_spec hhistory
    exact .inl ⟨hnone, ⟨rfl, rfl, rfl⟩, rfl⟩
  · rename_i hbid
    obtain ⟨hbidder, hbid⟩ := not_or.mp hbid
    obtain ⟨db₁, hmove, h⟩ := Option.bind_eq_some_iff.mp h
    obtain ⟨db₂, hcredit, h⟩ := Option.bind_eq_some_iff.mp h
    obtain ⟨db₃, hstatus, hhistory⟩ := Option.bind_eq_some_iff.mp h
    obtain ⟨hplayer, rfl⟩ := movePlayer_spec hmove
    obtain ⟨rfl, hcoins⟩ := creditTransferableCoins_spec hcredit
    obtain rfl := setStatus_spec hstatus
    obtain rfl := addHistory_spec hhistory
    cases hsome : a.currentBidderAccountId with
    | none => exact absurd (by rw [hsome]; rfl) hbidder
    | some bidderAccountId =>
      simp only [Option.getD_some]
      exact .inr ⟨bidderAccountId, rfl, hbid, ⟨⟨hplayer, rfl⟩, rfl, rfl, rfl⟩, hcoins⟩

theorem createBody_spec {config : Config} {r : Request} (h : createBody config r fails db = .ok db') :
    db.Creates config r db' ∧ db.isPlayerOnActiveAuction fails r.candidate.playerId = false ∧
      db.hasActiveAuctionForAccount fails r.candidate.accountId = false := by
  rw [createBody] at h
  split at h
  · cases h
  · split at h
    · cases h
    · rename_i hfree
      obtain ⟨hplayer, haccount⟩ := Bool.or_eq_false_iff.mp (Bool.eq_false_iff.mpr hfree)
      split at h
      · cases h
      · rename_i db₁ hdebit
        obtain ⟨rfl, hpaid⟩ := debitTransferableCoins_spec hdebit
        split at h
        · cases h
        · rename_i db₂ hinsert
          rw [insertAuction] at hinsert
          split at hinsert
          · cases hinsert
          · cases hinsert
            split at h
            · cases h
            · rename_i db₃ hhistory
              obtain rfl := addHistory_spec hhistory
              cases h
              exact ⟨⟨hpaid, rfl, rfl, rfl, rfl⟩, hplayer, haccount⟩

/-! ## Valid databases -/

theorem addCoins_le {accounts : Nat → Option Nat} {accountId : Nat} {change : Nat → Nat}
    (h : ∀ id coins, accounts id = some coins → coins ≤ MAX_TIBIA_COINS)
    (hchange : ∀ coins, accounts accountId = some coins → change coins ≤ MAX_TIBIA_COINS) (id coins : Nat)
    (hcoins : addCoins accounts accountId change id = some coins) : coins ≤ MAX_TIBIA_COINS := by
  rw [addCoins] at hcoins
  split at hcoins
  · rename_i hid
    subst hid
    obtain ⟨coins', hcoins', rfl⟩ := Option.map_eq_some_iff.mp hcoins
    exact hchange coins' hcoins'
  · exact h id coins hcoins

/-- An auction that ends keeps its id and is no longer active; the others stay as they are. -/
structure Ends (change : Auction → Auction) : Prop where
  id : ∀ a, (change a).id = a.id
  ended : ∀ a, (change a).status ≠ AUCTION_STATUS_ACTIVE

theorem mem_updateAuction {auctionId : Nat} {change : Auction → Auction} (hchange : Ends change) {b : Auction}
    (hb : b ∈ (db.updateAuction auctionId change).auctions) :
    (∃ a ∈ db.auctions, a.id = b.id) ∧ (b.status = AUCTION_STATUS_ACTIVE → b ∈ db.auctions ∧ b.id ≠ auctionId) := by
  obtain ⟨a, ha, rfl⟩ := List.mem_map.mp hb
  split
  · exact ⟨⟨a, ha, (hchange.id a).symm⟩, fun hactive => absurd hactive (hchange.ended a)⟩
  · rename_i hother
    exact ⟨⟨a, ha, rfl⟩, fun hactive => ⟨ha, fun hid => hother ⟨hid, hactive⟩⟩⟩

theorem ids_updateAuction {auctionId : Nat} {change : Auction → Auction} (hchange : Ends change) :
    (db.updateAuction auctionId change).auctions.map Auction.id = db.auctions.map Auction.id := by
  rw [updateAuction, List.map_map]
  refine List.map_congr_left fun a _ => ?_
  rw [Function.comp_apply]
  split
  · exact hchange.id a
  · rfl

theorem Valid.end (h : db.Valid) {auctionId : Nat} {change : Auction → Auction} (hchange : Ends change)
    (hcoins : ∀ accountId coins, db'.accounts accountId = some coins → coins ≤ MAX_TIBIA_COINS)
    (hids : db'.nextId = db.nextId) (hauctions : db'.auctions = (db.updateAuction auctionId change).auctions) :
    db'.Valid := by
  refine ⟨hcoins, ?_, fun b hb => ?_, fun b hb c hc hbactive hcactive => ?_⟩
  · rw [hauctions, ids_updateAuction hchange]
    exact h.ids
  · rw [hauctions] at hb
    obtain ⟨⟨a, ha, hid⟩, -⟩ := mem_updateAuction hchange hb
    rw [hids, ← hid]
    exact h.fresh a ha
  · rw [hauctions] at hb hc
    exact h.active b ((mem_updateAuction hchange hb).2 hbactive).1 c ((mem_updateAuction hchange hc).2 hcactive).1
      hbactive hcactive

theorem ends_expired (currentTime : Nat) : Ends fun a =>
    { a with status := AUCTION_STATUS_CANCELLED, finishedAt := some currentTime } :=
  ⟨fun _ => rfl, fun _ => (by decide : AUCTION_STATUS_CANCELLED ≠ AUCTION_STATUS_ACTIVE)⟩

theorem ends_settled (bidderAccountId bid currentTime : Nat) : Ends fun a => { a with
    status := AUCTION_STATUS_FINISHED, winnerAccountId := some bidderAccountId, finalPrice := some bid
    finishedAt := some currentTime } :=
  ⟨fun _ => rfl, fun _ => (by decide : AUCTION_STATUS_FINISHED ≠ AUCTION_STATUS_ACTIVE)⟩

theorem Valid.creates (h : db.Valid) {config : Config} {r : Request} (hcreates : db.Creates config r db')
    (hnone : db.hasActiveAuctionForAccount (fun _ => false) r.candidate.accountId = false) : db'.Valid := by
  have hseller : ∀ a ∈ db.auctions, a.status = AUCTION_STATUS_ACTIVE → a.sellerAccountId ≠ r.candidate.accountId := by
    intro a ha hactive heq
    rw [hasActiveAuctionForAccount, Bool.not_false, Bool.true_and, List.any_eq_false] at hnone
    exact hnone a ha (by simp [hactive, heq])
  refine ⟨fun accountId coins hcoins => ?_, ?_, fun b hb => ?_, fun b hb c hc hbactive hcactive hsame => ?_⟩
  · rw [hcreates.coins] at hcoins
    exact addCoins_le h.coins (fun coins hcoins => Nat.le_trans (Nat.sub_le _ _) (h.coins _ _ hcoins)) accountId coins hcoins
  · rw [hcreates.auctions, List.map_append]
    refine List.nodup_append.mpr ⟨h.ids, List.nodup_singleton _, fun id hid id' hid' => ?_⟩
    obtain ⟨a, ha, rfl⟩ := List.mem_map.mp hid
    obtain rfl := List.mem_singleton.mp hid'
    exact Nat.ne_of_lt (h.fresh a ha)
  · rw [hcreates.auctions] at hb
    rw [hcreates.ids]
    rcases List.mem_append.mp hb with hb | hb
    · exact Nat.lt_succ_of_lt (h.fresh b hb)
    · obtain rfl := List.mem_singleton.mp hb
      exact Nat.lt_succ_self _
  · rw [hcreates.auctions] at hb hc
    rcases List.mem_append.mp hb with hb | hb
    · rcases List.mem_append.mp hc with hc | hc
      · exact h.active b hb c hc hbactive hcactive hsame
      · obtain rfl := List.mem_singleton.mp hc
        exact absurd hsame (hseller b hb hbactive)
    · obtain rfl := List.mem_singleton.mp hb
      rcases List.mem_append.mp hc with hc | hc
      · exact absurd hsame.symm (hseller c hc hcactive)
      · obtain rfl := List.mem_singleton.mp hc
        rfl

/-! ## One step -/

theorem Right.same (h : db.Valid) {e : Event} (hsame : db.step e = db) : db.Right e := by
  refine ⟨?_, fun _ => hsame, by rw [hsame]; exact h⟩
  rw [hsame]
  cases e with
  | create config r before attempts => exact .inl rfl
  | finalize auctionId currentTime attempts => exact .inl rfl

theorem finalizeAuction_spec (db : Database) (auctionId currentTime : Nat) (attempts : List Attempt) :
    ((db.finalizeAuction auctionId currentTime attempts).2 = false ∧
        (db.finalizeAuction auctionId currentTime attempts).1 = db) ∨
      (db.finalizeAuction auctionId currentTime attempts).2 = true ∧
        ∃ fails, finalizeBody fails auctionId currentTime db = .ok (db.finalizeAuction auctionId currentTime attempts).1 :=
  (executeWithinTransaction_spec _ db attempts "").imp id fun ⟨hok, attempt, _, hbody⟩ => ⟨hok, attempt.fails, hbody⟩

/-- An auction that is selected has ended. -/
theorem selectAuction_spec {auctionId currentTime : Nat} {a : Auction}
    (h : db.selectAuction fails auctionId currentTime = some a) :
    a ∈ db.auctions ∧ a.id = auctionId ∧ a.status = AUCTION_STATUS_ACTIVE ∧ a.endAt ≤ currentTime := by
  rw [selectAuction] at h
  split at h
  · cases h
  · have hcond := List.find?_some h
    simp only [Bool.and_eq_true, decide_eq_true_eq] at hcond
    exact ⟨List.mem_of_find?_eq_some h, hcond.1.1, hcond.1.2, hcond.2⟩

theorem Valid.settle (h : db.Valid) {a : Auction} {currentTime : Nat}
    (hsettle : db.settle fails a currentTime = some db') : db'.Valid := by
  rcases settle_spec hsettle with ⟨-, hexpires⟩ | ⟨bidderAccountId, -, -, hsettles, hcoins⟩
  · refine h.end (ends_expired currentTime) ?_ hexpires.unchanged.2.2 hexpires.auctions
    rw [hexpires.unchanged.1]
    exact h.coins
  · refine h.end (ends_settled bidderAccountId a.currentBid.toNat currentTime) (fun id coins hid => ?_) hsettles.ids
      hsettles.auctions
    rw [hsettles.coins] at hid
    refine addCoins_le h.coins (fun coins hseller => ?_) id coins hid
    rcases hcoins with hzero | hcoins
    · rw [hzero]
      exact h.coins _ _ hseller
    · exact hcoins coins hseller

theorem Valid.finalize (h : db.Valid) (auctionId currentTime : Nat) (attempts : List Attempt) :
    db.Right (.finalize auctionId currentTime attempts) := by
  rcases finalizeAuction_spec db auctionId currentTime attempts with ⟨-, hsame⟩ | ⟨hok, fails, hbody⟩
  · exact Right.same h hsame
  · rw [finalizeBody] at hbody
    split at hbody
    · exact Right.same h (Except.ok.inj hbody).symm
    · rename_i a hselect
      split at hbody
      · cases hbody
      · rename_i db' hsettle
        have hstep : db.step (.finalize auctionId currentTime attempts) = db' := (Except.ok.inj hbody).symm
        obtain ⟨ha, hid, hactive, hended⟩ := selectAuction_spec hselect
        refine ⟨.inr ⟨a, ha, hid, hactive, hended, ?_⟩, fun hfailed => ?_, ?_⟩
        · rw [hstep]
          exact (settle_spec hsettle).imp id fun ⟨bidderAccountId, hbidder, hbid, hsettles, _⟩ =>
            ⟨bidderAccountId, hbidder, hbid, hsettles⟩
        · rw [succeeds, hok] at hfailed
          cases hfailed
        · rw [hstep]
          exact h.settle hsettle

theorem Valid.create (h : db.Valid) {config : Config} {r : Request} {before : Statement → Bool}
    {attempts : List Attempt} (ha : db.Allowed (.create config r before attempts)) :
    db.Right (.create config r before attempts) := by
  cases hrefusal : db.refusal config before r with
  | some reason =>
    refine Right.same h ?_
    rw [step, createAuction, hrefusal]
  | none =>
    have hfst : db.step (.create config r before attempts) =
        (executeWithinTransaction (createBody config r) db attempts "").1 := by
      rw [step, createAuction, hrefusal]
      dsimp only
      split <;> rename_i heq <;> rw [heq]
    rcases executeWithinTransaction_spec (createBody config r) db attempts "" with ⟨-, hsame⟩ | ⟨hok, attempt, hmem, hbody⟩
    · exact Right.same h (hfst.trans hsame)
    · rw [← hfst] at hbody
      obtain ⟨hcreates, hplayer, haccount⟩ := createBody_spec hbody
      refine ⟨.inr hcreates, fun hfailed => ?_, h.creates hcreates ?_⟩
      · have hsucceeds : db.succeeds (.create config r before attempts) =
            (executeWithinTransaction (createBody config r) db attempts "").2.1 := by
          rw [succeeds, createAuction, hrefusal]
          dsimp only
          split <;> rename_i heq <;> rw [heq]
        rw [hsucceeds, hok] at hfailed
        cases hfailed
      · -- an active auction would have been found in the try that was committed
        by_contra hactive
        rcases ha hrefusal (Bool.not_eq_false _ ▸ hactive) attempt hmem with hfound | hfound
        · rw [hplayer] at hfound
          cases hfound
        · rw [haccount] at hfound
          cases hfound

theorem Valid.step (h : db.Valid) {e : Event} (ha : db.Allowed e) : db.Right e := by
  cases e with
  | create config r before attempts => exact h.create ha
  | finalize auctionId currentTime attempts => exact h.finalize auctionId currentTime attempts

/-! ## Runs -/

theorem isActive_iff {auctionId : Nat} :
    db.isActive auctionId = true ↔ ∃ a ∈ db.auctions, a.id = auctionId ∧ a.status = AUCTION_STATUS_ACTIVE := by
  simp [isActive]

theorem Right.nextId_le {e : Event} (h : db.Right e) : db.nextId ≤ (db.step e).nextId := by
  have hdoes := h.does
  cases e with
  | create config r before attempts =>
    rcases hdoes with hsame | hcreates
    · exact Nat.le_of_eq (by rw [hsame])
    · rw [hcreates.ids]
      exact Nat.le_succ _
  | finalize id currentTime attempts =>
    rcases hdoes with hsame | ⟨a, -, -, -, -, ⟨-, hexpires⟩ | ⟨bidderAccountId, -, -, hsettles⟩⟩
    · exact Nat.le_of_eq (by rw [hsame])
    · exact Nat.le_of_eq hexpires.unchanged.2.2.symm
    · exact Nat.le_of_eq hsettles.ids.symm

/-- An auction that is no longer active stays so. -/
theorem Right.isActive_eq_false {e : Event} (h : db.Right e) {auctionId : Nat} (hid : auctionId < db.nextId)
    (hactive : db.isActive auctionId = false) : (db.step e).isActive auctionId = false := by
  have hends {id : Nat} {change : Auction → Auction} (hchange : Ends change)
      (hauctions : (db.step e).auctions = (db.updateAuction id change).auctions) :
      (db.step e).isActive auctionId = false := by
    refine Bool.eq_false_iff.mpr fun hnow => ?_
    obtain ⟨b, hb, hbid, hbactive⟩ := isActive_iff.mp hnow
    rw [hauctions] at hb
    rw [isActive_iff.mpr ⟨b, ((mem_updateAuction hchange hb).2 hbactive).1, hbid, hbactive⟩] at hactive
    cases hactive
  have hdoes := h.does
  cases e with
  | create config r before attempts =>
    rcases hdoes with hsame | hcreates
    · rw [hsame]
      exact hactive
    · refine Bool.eq_false_iff.mpr fun hnow => ?_
      obtain ⟨b, hb, hbid, hbactive⟩ := isActive_iff.mp hnow
      rw [hcreates.auctions] at hb
      rcases List.mem_append.mp hb with hb | hb
      · rw [isActive_iff.mpr ⟨b, hb, hbid, hbactive⟩] at hactive
        cases hactive
      · obtain rfl := List.mem_singleton.mp hb
        exact absurd hbid (Nat.ne_of_gt hid)
  | finalize id currentTime attempts =>
    rcases hdoes with hsame | ⟨a, -, -, -, -, ⟨-, hexpires⟩ | ⟨bidderAccountId, -, -, hsettles⟩⟩
    · rw [hsame]
      exact hactive
    · exact hends (ends_expired currentTime) hexpires.auctions
    · exact hends (ends_settled bidderAccountId a.currentBid.toNat currentTime) hsettles.auctions

theorem leavings_eq_zero {auctionId : Nat} (es : List Event) {db : Database} (hrun : Along step Right db es)
    (hid : auctionId < db.nextId) (hactive : db.isActive auctionId = false) : leavings auctionId db es = 0 := by
  induction es generalizing db with
  | nil => rfl
  | cons e es ih =>
    rw [leavings, hactive, ih hrun.2 (Nat.lt_of_lt_of_le hid hrun.1.nextId_le) (hrun.1.isActive_eq_false hid hactive)]
    rfl

theorem leavings_le_one {auctionId : Nat} (es : List Event) {db : Database} (hvalid : db.Valid)
    (hrun : Along step Right db es) : leavings auctionId db es ≤ 1 := by
  induction es generalizing db with
  | nil => exact Nat.zero_le 1
  | cons e es ih =>
    rw [leavings]
    split
    · rename_i hleaves
      rw [Bool.and_eq_true, Bool.not_eq_true'] at hleaves
      obtain ⟨a, ha, hid, -⟩ := isActive_iff.mp hleaves.1
      have hlt : auctionId < (db.step e).nextId := Nat.lt_of_lt_of_le (hid ▸ hvalid.fresh a ha) hrun.1.nextId_le
      have hnone := leavings_eq_zero es hrun.2 hlt hleaves.2
      omega
    · rw [Nat.zero_add]
      exact ih hrun.1.valid hrun.2

/-- In every run an auction leaves the active status at most once, and every transaction is done as a whole or not at
all. -/
theorem settled_of_allowed (hvalid : db.Valid) {es : List Event} (hrun : Along step Allowed db es) :
    Along step Right db es ∧ ∀ auctionId, leavings auctionId db es ≤ 1 := by
  have hright : Along step Right db es :=
    (Along.of_invariant Valid (fun _ _ h ha => ⟨(h.step ha).valid, h.step ha⟩) es db hvalid hrun).1
  exact ⟨hright, fun _ => leavings_le_one es hvalid hright⟩

/-- All expired auctions are finalized one by one. -/
theorem finalizeExpiredAuctions_eq (isEnabled fails : Bool) (currentTime : Nat) (attempts : Nat → List Attempt) :
    ∃ es, db.finalizeExpiredAuctions isEnabled fails currentTime attempts = es.foldl step db ∧
      ∀ db : Database, Along step Allowed db es := by
  rw [finalizeExpiredAuctions]
  split
  · exact ⟨[], rfl, fun _ => trivial⟩
  · generalize db.auctions.filter _ = expired
    refine ⟨expired.map fun a => .finalize a.id currentTime (attempts a.id), ?_, ?_⟩
    · rw [List.foldl_map]
      rfl
    · induction expired with
      | nil => exact fun _ => trivial
      | cons a expired ih => exact fun _ => ⟨trivial, ih _⟩

/-- Two accounts with a thousand coins, and two characters of the first. -/
def twoAccounts : Database where
  accounts := fun id => if id = 1 ∨ id = 2 then some 1000 else none
  players := fun id => if id = 1 ∨ id = 2 then some 1 else none

theorem valid_twoAccounts : twoAccounts.Valid := by
  refine ⟨fun accountId coins hcoins => ?_, List.nodup_nil, fun a ha => absurd ha List.not_mem_nil,
    fun a ha => absurd ha List.not_mem_nil⟩
  change (if accountId = 1 ∨ accountId = 2 then some 1000 else none) = some coins at hcoins
  split at hcoins
  · cases hcoins
    decide
  · cases hcoins

def offer (playerId : Nat) : Request where
  candidate := { playerId, accountId := 1, level := 100 }
  startPrice := 100
  durationSeconds := 86400
  currentTime := 0

/-- The auction of the first character is finished twice. -/
theorem settled_of_allowed_twice :
    let es : List Event := [.create {} (offer 1) (fun _ => false) [{}], .finalize 1 86400 [{}], .finalize 1 86401 [{}]]
    Along step Right twoAccounts es ∧ ∀ auctionId, leavings auctionId twoAccounts es ≤ 1 := by
  refine settled_of_allowed valid_twoAccounts ⟨fun _ hactive => ?_, trivial, trivial, trivial⟩
  cases hactive

/-- A statement that fails shows no auctions, and the account has two. -/
theorem not_right_create :
    ¬ Along step Right twoAccounts
      [.create {} (offer 1) (fun _ => false) [{}],
        .create {} (offer 2) (· = .selectAccountAuction) [{ fails := (· = .selectAccountAuction) }]] := by
  intro h
  have hactive := h.2.1.valid.active (newAuction {} (offer 1) 1) (by decide) (newAuction {} (offer 2) 2) (by decide)
    rfl rfl rfl
  cases hactive

end Database

end ForgottenServer.Bazaar
