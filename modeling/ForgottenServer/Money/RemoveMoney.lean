import Mathlib
import ForgottenServer.Container.Holdings
import ForgottenServer.Lib.TreeSearch
import ForgottenServer.Money.AddMoney

/-! # Taking money

`Game::removeMoney` (`game.cpp`) lists the coins of a cylinder and of the containers in it, sorts
the stacks by what they are worth and takes them from the cheapest one on. Of the last stack it
takes as many coins as are needed and gives change.

The cylinder is a container or a player, whose list then holds the things in its slots. The
browse fields of tiles are left out. -/

namespace ForgottenServer

/-- The item table with its column of worths. -/
structure MoneyEnv extends GameEnv where
  worth : UInt16 → UInt64

/-- The objects, and what lies on the tile of the cylinder. -/
structure Pocket where
  heap : Heap
  tile : List Item := []

/-- `std::multimap::emplace`: behind the entries with the same key. -/
def emplace (e : UInt64 × Ref) : List (UInt64 × Ref) → List (UInt64 × Ref)
  | [] => [e]
  | x :: entries => if e.1 < x.1 then e :: x :: entries else x :: emplace e entries

namespace Pocket

variable (env : MoneyEnv) (s : Pocket)

/-- `Item::getWorth`. -/
def getWorth (r : Ref) : UInt32 := (env.worth (s.heap.thing r).id * (s.heap.getItemCount r).toUInt64).toUInt32

/-- `internalRemoveItem` of a coin, which any cylinder lets go. -/
def internalRemoveItem (item : Ref) (count : ℕ) : Pocket :=
  match s.heap.parent item with
  | none => s
  | some cylinder =>
    if s.heap.queryRemove env.toGameEnv cylinder item count FLAG_IGNORENOTMOVEABLE = .noError then
      { s with heap := s.heap.removeThing env.toGameEnv cylinder item count }
    else s

variable (purse : Purse Pocket) (currencyItems : CurrencyMap)

end Pocket

/-! ## What a call should do -/

namespace Pocket

variable (env : MoneyEnv) (s : Pocket)

/-- Everything in the cylinder, at any depth. -/
def content (cylinder : Ref) : List Ref := TreeSearch.below s.heap.items s.heap.size cylinder

/-- What one coin is worth. -/
def coinWorth (r : Ref) : ℕ := (env.worth (s.heap.thing r).id).toNat

def worthOf (r : Ref) : ℕ := s.coinWorth env r * s.heap.getItemCount r

/-- The total worth held. -/
def held (cylinder : Ref) : ℕ := ((s.content cylinder).map (s.worthOf env)).sum

def onTile : ℕ := (s.tile.map fun item => (env.worth item.id).toNat * item.count.toNat).sum

/-- Each stack's worth can be counted in 32 bits. -/
def Countable (cylinder : Ref) : Prop := ∀ r ∈ s.content cylinder, s.worthOf env r < 2 ^ 32

/-- The object is in the cylinder as before. -/
structure Keeps (cylinder : Ref) (s s' : Pocket) (r : Ref) : Prop where
  mem : r ∈ s'.content cylinder
  thing : s'.heap.thing r = s.heap.thing r
  box : s'.heap.box r = s.heap.box r

/-- The worth that is held, with the change, drops by the amount, and nothing without worth goes. -/
structure Spends (cylinder : Ref) (amount : ℕ) (s' : Pocket) : Prop where
  total : s'.held env cylinder + s'.onTile env + amount = s.held env cylinder + s.onTile env
  kept : ∀ r ∈ s.content cylinder, s.worthOf env r = 0 → Keeps cylinder s s' r

/-- The answer says whether there is enough money, and then exactly the amount is taken. -/
structure Exact (cylinder : Ref) (amount : ℕ) (answer : Bool) (s' : Pocket) : Prop where
  enough : answer = false ↔ s.held env cylinder < amount
  refused : answer = false → s' = s
  paid : answer = true → Spends env s cylinder amount s'

/-! ## When the change is paid -/

def isCoin (r : Ref) : Bool := !(s.heap.box r).isSome && s.getWorth env r != 0

/-- The entries that a list of things makes. -/
def entries (l : List Ref) : List (UInt64 × Ref) :=
  (l.filter (s.isCoin env)).map fun r => ((s.getWorth env r).toUInt64, r)

/-- Everything in the cylinder, in the order of the search. -/
def found (cylinder : Ref) : List Ref :=
  (TreeSearch.search s.heap.items (fun r => (s.heap.box r).isSome) (s.heap.size + 1) [cylinder]).getD []

/-- The stacks of coins, from the one with the lowest worth on. -/
def sorted (cylinder : Ref) : List (UInt64 × Ref) :=
  (s.entries env (s.found cylinder)).foldl (fun entries e => emplace e entries) []

/-- The worth of one coin of a stack, and how many there are. -/
def coins (r : Ref) : ℕ × ℕ := (s.coinWorth env r, s.heap.getItemCount r)

end Pocket

/-- The coins are the currency items, each with its worth. They are plain stacks. -/
structure Coins (env : MoneyEnv) (currencyItems : CurrencyMap) : Prop where
  sorted : currencyItems.Pairwise fun a b => b.1 < a.1
  pos : ∀ e ∈ currencyItems, 0 < e.1.toNat
  worth : ∀ e ∈ currencyItems, env.worth e.2 = e.1
  only : ∀ id, env.worth id ≠ 0 → (env.worth id, id) ∈ currencyItems
  stackable : ∀ e ∈ currencyItems, (env.items e.2).stackable = true
  stackSize : ∀ e ∈ currencyItems, 100 ≤ (env.items e.2).stackSize.toNat
  ordinary : ∀ e ∈ currencyItems, Ordinary env.toGameEnv e.2

/-! ## Where the change goes -/

namespace Pocket

/-- The cylinder is one of a forest, in a state in which the purse delivers. -/
structure Ready (env : MoneyEnv) (cylinder : Ref) (good : Pocket → Prop) (s : Pocket) : Prop where
  valid : Heap.Valid env.toGameEnv s.heap
  isBox : (s.heap.box cylinder).isSome
  good : good s

/-- Worth goes out of the cylinder and its tile, or comes in, and the objects in `P` stay. -/
structure Moves (env : MoneyEnv) (cylinder : Ref) (good : Pocket → Prop) (P : Ref → Thing → Prop) (s s' : Pocket)
    (out into : ℕ) : Prop where
  ready : Ready env cylinder good s'
  total : s'.held env cylinder + s'.onTile env + out = s.held env cylinder + s.onTile env + into
  kept : ∀ r ∈ s.content cylinder, P r (s.heap.thing r) → Keeps cylinder s s' r

end Pocket

/-- A stack of coins that is accepted is added whole, and only stacks of the same coin change. What
the cylinder refuses lies on its tile. -/
structure Delivers (env : MoneyEnv) (cylinder : Ref) (good : Pocket → Prop) (purse : Purse Pocket) : Prop where
  removed : ∀ {s}, good s → ∀ r n, good (s.internalRemoveItem env r n)
  accepted : ∀ {s}, Pocket.Ready env cylinder good s → ∀ item, env.worth item.id ≠ 0 →
    Heap.StackOk env.toGameEnv { item } → (purse.internalAddItem s item).1 = true →
    Pocket.Moves env cylinder good (fun _ t => t.id ≠ item.id) s (purse.internalAddItem s item).2
      0 ((env.worth item.id).toNat * item.count.toNat)
  refused : ∀ s item, (purse.internalAddItem s item).1 = false → (purse.internalAddItem s item).2 = s
  tile : ∀ s item, purse.addToTile s item = { s with tile := s.tile ++ [item] }
  stays : ∀ {s}, good s → ∀ tile, good { s with tile }

/-! ## Reading -/

namespace Pocket

variable {env : MoneyEnv} {s : Pocket} {cylinder : Ref}

theorem content_listed {r : Ref} (hr : r ∈ s.content cylinder) : ∃ c, r ∈ s.heap.items c :=
  TreeSearch.exists_parent _ hr

section Forest

variable (h : Heap.Forest s.heap) (hbox : (s.heap.box cylinder).isSome)
include h hbox

theorem tree : Subtotals.Tree s.heap.parent s.heap.items s.heap.size :=
  h.tree (Nat.zero_lt_of_lt (h.box_lt hbox))

theorem nodup_content : (s.content cylinder).Nodup := TreeSearch.nodup_below (tree h hbox) _ _

end Forest

/-! ### What is counted -/

/-- Nothing but a stack that can be counted has a worth. -/
def Plain (env : MoneyEnv) (s : Pocket) (r : Ref) : Prop :=
  s.worthOf env r < 2 ^ 32 ∧ ((s.heap.box r).isSome → s.worthOf env r = 0)

theorem emplace_perm (e : UInt64 × Ref) (l : List (UInt64 × Ref)) : (emplace e l).Perm (e :: l) := by
  induction l with
  | nil => rfl
  | cons x l ih =>
    rw [emplace]
    split
    · rfl
    · exact (ih.cons x).trans (List.Perm.swap e x l)

end Pocket

end ForgottenServer
