import Mathlib
import ForgottenServer.Lib.Runs

/-! # Trade sessions

The part of `Game` that opens, accepts and closes trades: the trade state, item and partner of every player, and the
registry `tradeItems`. Players and items are numbers. What a call finds out about the rest of the game (positions,
instances, the answers of event callbacks, where the exchanged items end up) comes with the call. -/

namespace ForgottenServer.Trade

inductive TradeState where
  | none
  | initiated
  | accept
  | acknowledge
  | transfer
  deriving DecidableEq, Repr

structure Trader where
  tradeState : TradeState := .none
  tradeItem : Option Nat := none
  tradePartner : Option Nat := none
  deriving DecidableEq, Repr

/-- The items: how many there are, which are containers, and what holds each. -/
structure Items where
  size : Nat
  isContainer : Nat → Bool
  parent : Nat → Option Nat

namespace Items

variable (items : Items)

/-- The containers above an item, the nearest one first. -/
def above : Nat → Nat → List Nat
  | 0, _ => []
  | n + 1, item =>
    match (items.parent item).filter items.isContainer with
    | none => []
    | some container => container :: above n container

def isHoldingItem (container item : Nat) : Bool := (items.above items.size item).contains container

def getItemHoldingCount (container : Nat) : Nat := (List.range items.size).countP (items.isHoldingItem container)

def move (item : Nat) (holder : Option Nat) : Items := { items with parent := Function.update items.parent item holder }

end Items

structure Game where
  traders : Nat → Trader := fun _ => {}
  tradeItems : AList (fun _ : Nat => Nat) := ∅
  items : Items

namespace Game

variable (g : Game)

def setTrader (player : Nat) (trader : Trader) : Game := { g with traders := Function.update g.traders player trader }

def setTradeState (player : Nat) (tradeState : TradeState) : Game :=
  g.setTrader player { g.traders player with tradeState }

def eraseTradeItem (item : Nat) : Game := { g with tradeItems := g.tradeItems.erase item }

/-! ## Closing -/

/-- The half of `internalCloseTrade` for one player. -/
def closeHalf (player : Nat) : Game :=
  let g' := match (g.traders player).tradeItem with
    | none => g
    | some item => g.eraseTradeItem item
  g'.setTrader player {}

def internalCloseTrade (player : Nat) : Game :=
  match (g.traders player).tradePartner with
  | none => if (g.traders player).tradeState = .transfer then g else g.closeHalf player
  | some tradePartner =>
    if (g.traders tradePartner).tradeState = .transfer ∨ (g.traders player).tradeState = .transfer then g
    else (g.closeHalf player).closeHalf tradePartner

/-! ## Starting -/

/-- `shared` tells whether the item still has an owner. -/
def internalStartTrade (player tradePartner tradeItem : Nat) (shared : Bool) : Bool × Game :=
  if (g.traders player).tradeState ≠ .none ∧
      ¬ ((g.traders player).tradeState = .acknowledge ∧ (g.traders player).tradePartner = some tradePartner) then
    (false, g)
  else if (g.traders tradePartner).tradeState ≠ .none ∧ (g.traders tradePartner).tradePartner ≠ some player then
    (false, g)
  else if !shared then (false, g)
  else
    let g := { g.setTrader player ⟨.initiated, some tradeItem, some tradePartner⟩ with
      tradeItems := g.tradeItems.insert tradeItem player }
    if (g.traders tradePartner).tradeState = .none then
      (true, g.setTrader tradePartner
        { g.traders tradePartner with tradeState := .acknowledge, tradePartner := some player })
    else (true, g)

/-- The test of an item against one that is being traded. -/
def isTraded (tradeItem item : Nat) : Bool :=
  if g.items.isContainer tradeItem then
    tradeItem == item || g.items.isHoldingItem tradeItem item || g.items.isHoldingItem item tradeItem
  else tradeItem == item || g.items.isHoldingItem item tradeItem

/-- What `playerRequestTrade` finds out before it looks at the registry: that both players are there, in one instance
and in reach of each other, that the item is there, can be picked up, may be moved and is in reach; and after it, that
the event agrees and that the item still has an owner. -/
structure Request where
  playersReady : Bool
  itemReady : Bool
  onTradeRequest : Bool
  shared : Bool

def playerRequestTrade (player tradePartner tradeItem : Nat) (answers : Request) : Game :=
  if tradePartner = player ∨ !answers.playersReady ∨ !answers.itemReady then g
  else if g.tradeItems.keys.any (g.isTraded tradeItem) then g
  else if g.items.isContainer tradeItem ∧ g.items.getItemHoldingCount tradeItem + 1 > 100 then g
  else if !answers.onTradeRequest then g
  else (g.internalStartTrade player tradePartner tradeItem answers.shared).2

/-- The item is not in a trade, and neither inside an item that is nor around one. -/
def Unrelated (tradeItem : Nat) : Prop :=
  ∀ item ∈ g.tradeItems.keys, item ≠ tradeItem ∧ g.items.isHoldingItem tradeItem item = false ∧
    g.items.isHoldingItem item tradeItem = false

/-! ## Accepting -/

/-- What `playerAcceptTrade` finds out, and where its moves leave the two items, if they move them. -/
structure Accept where
  online : Bool
  sameInstance : Bool
  canThrow : Bool
  onTradeAccept : Bool
  playerItemTo : Option (Option Nat)
  partnerItemTo : Option (Option Nat)

def moveItem (item : Nat) : Option (Option Nat) → Game
  | none => g
  | some holder => { g with items := g.items.move item holder }

/-- The transfer: both items leave the registry, they are moved or not, and the trade is over. -/
def transferItems (player tradePartner playerItem partnerItem : Nat) (answers : Accept) : Game :=
  let g := (g.setTradeState player .transfer).setTradeState tradePartner .transfer
  let g := (g.eraseTradeItem playerItem).eraseTradeItem partnerItem
  let g := (g.moveItem playerItem answers.playerItemTo).moveItem partnerItem answers.partnerItemTo
  (g.setTrader player {}).setTrader tradePartner {}

def playerAcceptTrade (player : Nat) (answers : Accept) : Game :=
  if !answers.online then g
  else if ¬ ((g.traders player).tradeState = .acknowledge ∨ (g.traders player).tradeState = .initiated) then g
  else
    match (g.traders player).tradePartner with
    | none => g
    | some tradePartner =>
      if !answers.sameInstance then g.internalCloseTrade player
      else
        let g := g.setTradeState player .accept
        if (g.traders tradePartner).tradeState = .accept then
          if !answers.canThrow then g.internalCloseTrade player
          else
            match (g.traders player).tradeItem, (g.traders tradePartner).tradeItem with
            | some playerItem, some partnerItem =>
              if !answers.onTradeAccept then g.internalCloseTrade player
              else g.transferItems player tradePartner playerItem partnerItem answers
            | _, _ => g.internalCloseTrade player
        else g

end Game

/-! ## Calls -/

inductive Call where
  | request (player tradePartner tradeItem : Nat) (answers : Game.Request)
  | start (player tradePartner tradeItem : Nat) (shared : Bool)
  | accept (player : Nat) (answers : Game.Accept)
  | close (player : Nat)

def step (g : Game) : Call → Game
  | .request player tradePartner tradeItem answers => g.playerRequestTrade player tradePartner tradeItem answers
  | .start player tradePartner tradeItem shared => (g.internalStartTrade player tradePartner tradeItem shared).2
  | .accept player answers => g.playerAcceptTrade player answers
  | .close player => g.internalCloseTrade player

/-- The other caller of `internalStartTrade` is `house:startTrade`, for another player and with the document of the
house: an item of its own, unless it is in a trade of the player already. -/
def Promised (g : Game) : Call → Prop
  | .start player tradePartner tradeItem _ => tradePartner ≠ player ∧
      (g.tradeItems.lookup tradeItem = some player ∨ g.Unrelated tradeItem)
  | _ => True

/-- What the sessions should be like. -/
structure Consistent (g : Game) : Prop where
  symm : ∀ p q, (g.traders p).tradePartner = some q ↔ (g.traders q).tradePartner = some p
  idle : ∀ p, (g.traders p).tradeState = .none ↔ (g.traders p).tradePartner = none ∧ (g.traders p).tradeItem = none
  irrefl : ∀ p, (g.traders p).tradePartner ≠ some p
  single : ∀ p q r, (g.traders q).tradePartner = some p → (g.traders r).tradePartner = some p → q = r
  registry : ∀ item p, g.tradeItems.lookup item = some p ↔
    (g.traders p).tradeItem = some item ∧ (g.traders p).tradeState ≠ .none
  apart : ∀ a ∈ g.tradeItems.keys, ∀ b ∈ g.tradeItems.keys, a ≠ b → g.items.isHoldingItem a b = false

end ForgottenServer.Trade
