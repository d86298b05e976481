import ForgottenServer.Container.Transfer
import ForgottenServer.Item.AttrRoundTrip

/-! # Paying out money

`Game::addMoney` splits an amount over the currency items, from the most valuable one down, and
adds stacks of at most 100 coins to a cylinder, or to its tile where the cylinder refuses them. -/

namespace ForgottenServer

/-- `Items::currencyItems`: the worth of a coin and its item id, in the order of the map. -/
abbrev CurrencyMap := List (UInt64 × UInt16)

/-- Where coins are added. `internalAddItem` is the cylinder, which may refuse an item, and
`addToTile` its tile under `FLAG_NOLIMIT`. -/
structure Purse (σ : Type) where
  internalAddItem : σ → Item → Bool × σ
  addToTile : σ → Item → σ

/-- A stack that was created, with the worth of one of its coins. -/
structure CoinStack where
  worth : UInt64
  item : Item

def CoinStack.count (stack : CoinStack) : ℕ := stack.item.count.toNat

namespace Game

variable {σ : Type} (env : GameEnv) (purse : Purse σ)

/-- Nothing is created for an id without an item type. -/
def addStack (worth : UInt64) (id count : UInt16) (s : σ) : List CoinStack × σ :=
  match Thing.createItem env id count.toBitVec with
  | none => ([], s)
  | some (_, item) =>
    let (accepted, s) := purse.internalAddItem s item
    ([⟨worth, item⟩], if accepted then s else purse.addToTile s item)

/-- The loop over the stacks of one coin. -/
def addCoins (worth : UInt64) (id : UInt16) : ℕ → UInt32 → σ → Option (List CoinStack × σ)
  | 0, currencyCoins, s => if 0 < currencyCoins then none else some ([], s)
  | fuel + 1, currencyCoins, s =>
    if 0 < currencyCoins then
      let count : UInt16 := min 100 currencyCoins.toUInt16
      let (created, s) := addStack env purse worth id count s
      (addCoins worth id fuel (currencyCoins - count.toUInt32) s).map fun (rest, s) => (created ++ rest, s)
    else some ([], s)

def addCurrencies (fuel : ℕ) : CurrencyMap → UInt64 → σ → Option (List CoinStack × σ)
  | [], _, s => some ([], s)
  | (worth, id) :: entries, money, s =>
    let currencyCoins : UInt32 := (money / worth).toUInt32
    if currencyCoins = 0 then addCurrencies fuel entries money s
    else do
      let money := money - currencyCoins.toUInt64 * worth
      let (created, s) ← addCoins env purse worth id fuel currencyCoins s
      let (rest, s) ← addCurrencies fuel entries money s
      pure (created ++ rest, s)

/-- `none` when one of the loops has not ended after `fuel` turns. -/
def addMoney (currencyItems : CurrencyMap) (fuel : ℕ) (money : UInt64) (s : σ) : Option (List CoinStack × σ) :=
  if money = 0 then some ([], s) else addCurrencies env purse fuel currencyItems money s

end Game

/-- The worths decrease down to 1, and the items are plain stacks. -/
structure CurrencyMap.Sound (env : GameEnv) (entries : CurrencyMap) : Prop where
  sorted : entries.Pairwise fun a b => b.1 < a.1
  last : ∃ front id, entries = front ++ [(1, id)]
  stackable : ∀ e ∈ entries, (env.items e.2).stackable = true
  ordinary : ∀ e ∈ entries, Ordinary env e.2

/-- The stacks have between 1 and 100 coins and are worth the amount. -/
structure PaysExactly (created : List CoinStack) (money : ℕ) : Prop where
  count : ∀ stack ∈ created, 1 ≤ stack.count ∧ stack.count ≤ 100
  sum : (created.map fun stack => stack.worth.toNat * stack.count).sum = money

/-- Split from the most valuable coin down, the amount takes fewer than `2 ^ 16` coins of each kind. -/
def FewCoins (money : ℕ) : CurrencyMap → Prop
  | [] => True
  | (worth, _) :: entries => money / worth.toNat < 2 ^ 16 ∧ FewCoins (money % worth.toNat) entries

theorem PaysExactly.nil : PaysExactly [] 0 := ⟨fun _ h => (List.not_mem_nil h).elim, rfl⟩

theorem PaysExactly.append {created created' : List CoinStack} {m n : ℕ} (h : PaysExactly created m)
    (h' : PaysExactly created' n) : PaysExactly (created ++ created') (m + n) := by
  refine ⟨fun stack hs => ?_, ?_⟩
  · rcases List.mem_append.mp hs with hs | hs
    · exact h.count stack hs
    · exact h'.count stack hs
  · rw [List.map_append, List.sum_append, h.sum, h'.sum]

theorem PaysExactly.unique {created : List CoinStack} {m n : ℕ} (h : PaysExactly created m)
    (h' : PaysExactly created n) : m = n := h.sum.symm.trans h'.sum

namespace Game

variable {σ : Type} {env : GameEnv} {purse : Purse σ} {worth : UInt64} {id : UInt16}

/-! ## The stacks of one coin -/

theorem createItem_count (hord : Ordinary env id) (hstack : (env.items id).stackable = true)
    {count : UInt16} (hpos : 0 < count.toNat) (hle : count.toNat ≤ 100) :
    ∃ item, Thing.createItem env id count.toBitVec = some (none, item) ∧ item.count.toNat = count.toNat := by
  have hne : (count.toBitVec == 0) = false := by
    refine beq_false_of_ne fun h => ?_
    have := congrArg BitVec.toNat h
    simp only [UInt16.toNat_toBitVec, BitVec.ofNat_eq_ofNat, BitVec.toNat_ofNat] at this
    omega
  have hfluid : ((env.items id).isFluidContainer || (env.items id).isSplash) = false := by
    simp [ItemType.isFluidContainer, ItemType.isSplash, hord.group]
  refine ⟨_, Thing.createItem_eq_create hord _, ?_⟩
  have hcount := (Item.create_frame env.items id count.toBitVec (env.newDuration id)).2.1
  have hset : (Item.initSubType (env.items id) count.toBitVec { id }).count = count.toBitVec.setWidth 8 := by
    rw [Item.initSubType, hfluid, if_neg Bool.false_ne_true, if_pos hstack,
      if_pos (by rw [bne, hne]; rfl)]
    rfl
  rw [hne, Bool.and_false, if_neg Bool.false_ne_true, hcount, hset, BitVec.toNat_setWidth, UInt16.toNat_toBitVec]
  omega

/-- A count between 1 and 100 is one stack of so many coins. -/
theorem addStack_pays (hord : Ordinary env id) (hstack : (env.items id).stackable = true)
    {count : UInt16} (hpos : 0 < count.toNat) (hle : count.toNat ≤ 100) (s : σ) :
    PaysExactly (addStack env purse worth id count s).1 (worth.toNat * count.toNat) := by
  obtain ⟨item, hitem, hcount⟩ := createItem_count hord hstack hpos hle
  simp only [addStack, hitem]
  refine ⟨fun stack hs => ?_, ?_⟩
  · obtain rfl := List.mem_singleton.mp hs
    rw [CoinStack.count, hcount]
    exact ⟨hpos, hle⟩
  · rw [List.map_singleton, List.sum_singleton, CoinStack.count, hcount]

/-- The batch that the narrowed count gives. -/
theorem toNat_batch (coins : UInt32) :
    (min 100 coins.toUInt16 : UInt16).toNat = min 100 (coins.toNat % 2 ^ 16) := by
  have h : (min 100 coins.toUInt16 : UInt16) = if (100 : UInt16) ≤ coins.toUInt16 then 100 else coins.toUInt16 := rfl
  rw [h]
  have h100 : UInt16.toNat 100 = 100 := rfl
  split <;> rename_i hle <;> rw [UInt16.le_iff_toNat_le, UInt32.toNat_toUInt16, h100] at hle
  · rw [min_eq_left hle, h100]
  · rw [UInt32.toNat_toUInt16, min_eq_right (not_le.mp hle).le]

theorem toNat_sub_batch (coins : UInt32) :
    (coins - (min 100 coins.toUInt16).toUInt32).toNat = coins.toNat - min 100 (coins.toNat % 2 ^ 16) := by
  have hle : (min 100 coins.toUInt16).toUInt32 ≤ coins := by
    rw [UInt32.le_iff_toNat_le, UInt16.toNat_toUInt32, toNat_batch]
    omega
  rw [UInt32.toNat_sub_of_le _ _ hle, UInt16.toNat_toUInt32, toNat_batch]

theorem pos_of_toNat {coins : UInt32} (hpos : 0 < coins.toNat) : 0 < coins := by
  rwa [UInt32.lt_iff_toNat_lt, UInt32.toNat_zero]

theorem addCoins_zero {fuel : ℕ} {s : σ} : addCoins env purse worth id fuel 0 s = some ([], s) := by
  cases fuel <;> rfl

theorem addCoins_succ {coins : UInt32} (hpos : 0 < coins.toNat) (fuel : ℕ) (s : σ) :
    addCoins env purse worth id (fuel + 1) coins s =
      (addCoins env purse worth id fuel (coins - (min 100 coins.toUInt16).toUInt32)
        (addStack env purse worth id (min 100 coins.toUInt16) s).2).map fun r =>
          ((addStack env purse worth id (min 100 coins.toUInt16) s).1 ++ r.1, r.2) := by
  rw [addCoins, if_pos (pos_of_toNat hpos)]

/-- The loop only ends for fewer than `2 ^ 16` coins: a multiple of `2 ^ 16` gives an empty batch. -/
theorem addCoins_pays (hord : Ordinary env id) (hstack : (env.items id).stackable = true) {fuel : ℕ}
    {coins : UInt32} {s s' : σ} {created : List CoinStack}
    (h : addCoins env purse worth id fuel coins s = some (created, s')) :
    coins.toNat < 2 ^ 16 ∧ PaysExactly created (worth.toNat * coins.toNat) := by
  have hnone {fuel : ℕ} {coins : UInt32} {s s' : σ} {created : List CoinStack} (hzero : coins.toNat = 0)
      (h : addCoins env purse worth id fuel coins s = some (created, s')) :
      coins.toNat < 2 ^ 16 ∧ PaysExactly created (worth.toNat * coins.toNat) := by
    obtain rfl := UInt32.toNat_inj.mp (hzero.trans UInt32.toNat_zero.symm)
    rw [addCoins_zero] at h
    obtain ⟨rfl, -⟩ := Prod.mk.inj (Option.some.inj h)
    rw [hzero, Nat.mul_zero]
    exact ⟨by omega, PaysExactly.nil⟩
  induction fuel generalizing coins s created with
  | zero =>
    rcases coins.toNat.eq_zero_or_pos with hzero | hpos
    · exact hnone hzero h
    · rw [addCoins, if_pos (pos_of_toNat hpos)] at h
      cases h
  | succ fuel ih =>
    rcases coins.toNat.eq_zero_or_pos with hzero | hpos
    · exact hnone hzero h
    · rw [addCoins_succ hpos] at h
      obtain ⟨⟨rest, s''⟩, hrest, h⟩ := Option.map_eq_some_iff.mp h
      obtain ⟨rfl, rfl⟩ := Prod.mk.inj h
      obtain ⟨hlt, hpays⟩ := ih hrest
      rw [toNat_sub_batch] at hlt hpays
      -- an empty batch leaves the loop where it was
      have hbatch : 0 < min 100 (coins.toNat % 2 ^ 16) := by omega
      have hone : PaysExactly (addStack env purse worth id (min 100 coins.toUInt16) s).1
          (worth.toNat * min 100 (coins.toNat % 2 ^ 16)) := by
        rw [← toNat_batch]
        exact addStack_pays hord hstack (by rw [toNat_batch]; exact hbatch)
          (by rw [toNat_batch]; exact min_le_left _ _) s
      refine ⟨by omega, ?_⟩
      have hsum : worth.toNat * coins.toNat = worth.toNat * min 100 (coins.toNat % 2 ^ 16) +
          worth.toNat * (coins.toNat - min 100 (coins.toNat % 2 ^ 16)) := by
        rw [← Nat.mul_add]
        congr 1
        omega
      rw [hsum]
      exact hone.append hpays

variable (env purse worth id) in
theorem addCoins_ends {fuel : ℕ} {coins : UInt32} (hlt : coins.toNat < 2 ^ 16) (hle : coins.toNat ≤ fuel) (s : σ) :
    ∃ created s', addCoins env purse worth id fuel coins s = some (created, s') := by
  induction fuel generalizing coins s with
  | zero =>
    obtain rfl := UInt32.toNat_inj.mp ((Nat.le_zero.mp hle).trans UInt32.toNat_zero.symm)
    exact ⟨_, _, addCoins_zero⟩
  | succ fuel ih =>
    rcases coins.toNat.eq_zero_or_pos with hzero | hpos
    · obtain rfl := UInt32.toNat_inj.mp (hzero.trans UInt32.toNat_zero.symm)
      exact ⟨_, _, addCoins_zero⟩
    · have hsub := toNat_sub_batch coins
      obtain ⟨rest, s', hrest⟩ := @ih (coins - (min 100 coins.toUInt16).toUInt32) (by omega) (by omega)
        (addStack env purse worth id (min 100 coins.toUInt16) s).2
      exact ⟨_, s', by rw [addCoins_succ hpos, hrest]; rfl⟩

/-! ## The split over the coins -/

/-- The coins of one kind fit in 16 bits, as they are counted in 32. -/
def Ends (money : ℕ) : CurrencyMap → Prop
  | [] => True
  | (worth, _) :: entries =>
    money / worth.toNat % 2 ^ 32 < 2 ^ 16 ∧ Ends (money - money / worth.toNat % 2 ^ 32 * worth.toNat) entries

/-- What no coin pays. -/
def unpaid (money : ℕ) : CurrencyMap → ℕ
  | [] => money
  | (worth, _) :: entries => unpaid (money - money / worth.toNat % 2 ^ 32 * worth.toNat) entries

theorem toNat_coins (money worth : UInt64) : (money / worth).toUInt32.toNat = money.toNat / worth.toNat % 2 ^ 32 := by
  rw [UInt64.toNat_toUInt32, UInt64.toNat_div]

theorem coins_mul_le (money worth : ℕ) : money / worth % 2 ^ 32 * worth ≤ money :=
  (Nat.mul_le_mul_right _ (Nat.mod_le _ _)).trans (Nat.div_mul_le_self _ _)

theorem toNat_sub_coins (money worth : UInt64) :
    (money - (money / worth).toUInt32.toUInt64 * worth).toNat =
      money.toNat - money.toNat / worth.toNat % 2 ^ 32 * worth.toNat := by
  have hle := coins_mul_le money.toNat worth.toNat
  have hmul : ((money / worth).toUInt32.toUInt64 * worth).toNat =
      money.toNat / worth.toNat % 2 ^ 32 * worth.toNat := by
    rw [UInt64.toNat_mul, UInt32.toNat_toUInt64, toNat_coins]
    exact Nat.mod_eq_of_lt (hle.trans_lt money.toNat_lt)
  rw [UInt64.toNat_sub_of_le _ _ (by rwa [UInt64.le_iff_toNat_le, hmul]), hmul]

/-- Without a coin of one kind nothing is done for it. -/
theorem addCurrencies_cons (fuel : ℕ) (entries : CurrencyMap) (money : UInt64) (s : σ) :
    addCurrencies env purse fuel ((worth, id) :: entries) money s =
      (addCoins env purse worth id fuel (money / worth).toUInt32 s).bind fun r =>
        (addCurrencies env purse fuel entries (money - (money / worth).toUInt32.toUInt64 * worth) r.2).map
          fun r' => (r.1 ++ r'.1, r'.2) := by
  rw [addCurrencies]
  split
  · rename_i hzero
    have hmoney : money - UInt32.toUInt64 0 * worth = money := by
      apply UInt64.toNat_inj.mp
      simp
    rw [hzero, addCoins_zero, Option.bind_some, hmoney]
    cases addCurrencies env purse fuel entries money s <;> rfl
  · cases addCoins env purse worth id fuel (money / worth).toUInt32 s with
    | none => rfl
    | some r =>
      simp only [Option.bind_eq_bind, Option.bind_some]
      cases addCurrencies env purse fuel entries (money - (money / worth).toUInt32.toUInt64 * worth) r.2 <;> rfl

theorem addCurrencies_pays {fuel : ℕ} {entries : CurrencyMap}
    (hcoins : ∀ e ∈ entries, (env.items e.2).stackable = true ∧ Ordinary env e.2)
    {money : UInt64} {s s' : σ} {created : List CoinStack}
    (h : addCurrencies env purse fuel entries money s = some (created, s')) :
    Ends money.toNat entries ∧ ∃ paid, PaysExactly created paid ∧ paid + unpaid money.toNat entries = money.toNat := by
  induction entries generalizing money s created with
  | nil =>
    obtain ⟨rfl, -⟩ := Prod.mk.inj (Option.some.inj h)
    exact ⟨trivial, 0, PaysExactly.nil, Nat.zero_add _⟩
  | cons e entries ih =>
    obtain ⟨worth, id⟩ := e
    obtain ⟨hstack, hord⟩ := hcoins _ List.mem_cons_self
    rw [addCurrencies_cons] at h
    obtain ⟨⟨first, s₁⟩, hfirst, h⟩ := Option.bind_eq_some_iff.mp h
    obtain ⟨⟨rest, s₂⟩, hrest, h⟩ := Option.map_eq_some_iff.mp h
    obtain ⟨rfl, rfl⟩ := Prod.mk.inj h
    obtain ⟨hlt, hpays⟩ := addCoins_pays hord hstack hfirst
    obtain ⟨hends, paid, hpaid, hsum⟩ := ih (fun e he => hcoins e (List.mem_cons_of_mem _ he)) hrest
    rw [toNat_coins] at hlt hpays
    rw [toNat_sub_coins] at hends hsum
    refine ⟨⟨hlt, hends⟩, _, hpays.append hpaid, ?_⟩
    have hle := coins_mul_le money.toNat worth.toNat
    rw [Nat.mul_comm worth.toNat, Nat.add_assoc, unpaid, hsum]
    exact Nat.add_sub_cancel' hle

variable (env purse) in
theorem addCurrencies_ends {fuel : ℕ} (hfuel : 2 ^ 16 ≤ fuel) {entries : CurrencyMap} {money : UInt64}
    (h : Ends money.toNat entries) (s : σ) :
    ∃ created s', addCurrencies env purse fuel entries money s = some (created, s') := by
  induction entries generalizing money s with
  | nil => exact ⟨[], s, rfl⟩
  | cons e entries ih =>
    obtain ⟨worth, id⟩ := e
    obtain ⟨hlt, hends⟩ := h
    rw [← toNat_coins] at hlt
    rw [← toNat_sub_coins] at hends
    obtain ⟨first, s₁, hfirst⟩ := addCoins_ends env purse worth id hlt (hlt.le.trans hfuel) s
    obtain ⟨rest, s₂, hrest⟩ := ih hends s₁
    exact ⟨first ++ rest, s₂, by rw [addCurrencies_cons, hfirst, Option.bind_some, hrest]; rfl⟩

/-- One stack is put into the cylinder, or on the tile. -/
def put (purse : Purse σ) (s : σ) (stack : CoinStack) : σ :=
  if (purse.internalAddItem s stack.item).1 then (purse.internalAddItem s stack.item).2
  else purse.addToTile (purse.internalAddItem s stack.item).2 stack.item

/-- An amount that is too large for one coin is too large for the lesser ones. -/
theorem unpaid_pos {entries : CurrencyMap} (hsorted : entries.Pairwise fun a b => b.1 < a.1) {money : ℕ}
    (hpos : 0 < money) (hlarge : ∀ e ∈ entries, 2 ^ 32 * e.1.toNat ≤ money) (hworth : ∀ e ∈ entries, 0 < e.1.toNat) :
    0 < unpaid money entries := by
  induction entries generalizing money with
  | nil => exact hpos
  | cons e entries ih =>
    obtain ⟨worth, id⟩ := e
    obtain ⟨hless, hsorted⟩ := List.pairwise_cons.mp hsorted
    have hw : 0 < worth.toNat := hworth _ List.mem_cons_self
    have hrest : 2 ^ 32 * worth.toNat ≤ money - money / worth.toNat % 2 ^ 32 * worth.toNat := by
      have hdiv : 2 ^ 32 ≤ money / worth.toNat := (Nat.le_div_iff_mul_le hw).mpr (hlarge _ List.mem_cons_self)
      have hkeep : 2 ^ 32 + money / worth.toNat % 2 ^ 32 ≤ money / worth.toNat := by omega
      have := (Nat.mul_le_mul_right worth.toNat hkeep).trans (Nat.div_mul_le_self _ _)
      rw [Nat.add_mul] at this
      omega
    refine ih hsorted ((Nat.mul_pos (by decide) hw).trans_le hrest) (fun e he => ?_)
      fun e he => hworth e (List.mem_cons_of_mem _ he)
    exact (Nat.mul_le_mul_left _ (UInt64.lt_iff_toNat_lt.mp (hless e he)).le).trans hrest

theorem sub_div_mul (money worth : ℕ) : money - money / worth * worth = money % worth := by
  rw [Nat.mul_comm]
  exact (Nat.mod_eq_sub_mul_div).symm

theorem fewCoins_of_ends {entries : CurrencyMap} (hsorted : entries.Pairwise fun a b => b.1 < a.1)
    (hworth : ∀ e ∈ entries, 0 < e.1.toNat) {money : ℕ} (hends : Ends money entries)
    (hzero : unpaid money entries = 0) : FewCoins money entries := by
  induction entries generalizing money with
  | nil => trivial
  | cons e entries ih =>
    obtain ⟨worth, id⟩ := e
    obtain ⟨hlt, hends⟩ := hends
    obtain ⟨hless, hsorted'⟩ := List.pairwise_cons.mp hsorted
    have hw : 0 < worth.toNat := hworth _ List.mem_cons_self
    have hsmall : money / worth.toNat < 2 ^ 32 := by
      by_contra hge
      have hlarge : 2 ^ 32 * worth.toNat ≤ money := (Nat.le_div_iff_mul_le hw).mp (not_lt.mp hge)
      have hpos := unpaid_pos hsorted ((Nat.mul_pos (by decide) hw).trans_le hlarge) (fun e he => ?_) hworth
      · omega
      · rcases List.mem_cons.mp he with rfl | he
        · exact hlarge
        · exact (Nat.mul_le_mul_left _ (UInt64.lt_iff_toNat_lt.mp (hless e he)).le).trans hlarge
    rw [unpaid, Nat.mod_eq_of_lt hsmall, sub_div_mul] at hzero
    rw [Nat.mod_eq_of_lt hsmall, sub_div_mul] at hends
    rw [Nat.mod_eq_of_lt hsmall] at hlt
    exact ⟨hlt, ih hsorted' (fun e he => hworth e (List.mem_cons_of_mem _ he)) hends hzero⟩

theorem ends_of_fewCoins {entries : CurrencyMap} {money : ℕ} (h : FewCoins money entries) : Ends money entries := by
  induction entries generalizing money with
  | nil => trivial
  | cons e entries ih =>
    obtain ⟨worth, id⟩ := e
    obtain ⟨hlt, h⟩ := h
    have hmod := Nat.mod_eq_of_lt (hlt.trans (by decide : 2 ^ 16 < 2 ^ 32))
    refine ⟨hmod.symm ▸ hlt, ?_⟩
    rw [hmod, sub_div_mul]
    exact ih h

theorem fewCoins_zero (entries : CurrencyMap) : FewCoins 0 entries := by
  induction entries with
  | nil => trivial
  | cons e entries ih =>
    refine ⟨by rw [Nat.zero_div]; decide, ?_⟩
    rw [Nat.zero_mod]
    exact ih

/-- What is left over by the split. -/
theorem unpaid_eq {entries : CurrencyMap} {money : ℕ} (h : FewCoins money entries) :
    unpaid money entries = entries.foldl (fun money e => money % e.1.toNat) money := by
  induction entries generalizing money with
  | nil => rfl
  | cons e entries ih =>
    obtain ⟨worth, id⟩ := e
    obtain ⟨hlt, h⟩ := h
    rw [unpaid, Nat.mod_eq_of_lt (hlt.trans (by decide : 2 ^ 16 < 2 ^ 32)), sub_div_mul]
    exact ih h

/-- The last coin is worth 1 and pays what is left. -/
theorem unpaid_of_fewCoins (front : CurrencyMap) (id : UInt16) {money : ℕ}
    (h : FewCoins money (front ++ [(1, id)])) : unpaid money (front ++ [(1, id)]) = 0 := by
  rw [unpaid_eq h, List.foldl_append]
  exact Nat.mod_one _

end Game

theorem CurrencyMap.Sound.pos {env : GameEnv} {entries : CurrencyMap} (h : CurrencyMap.Sound env entries) :
    ∀ e ∈ entries, 0 < e.1.toNat := by
  obtain ⟨front, id, rfl⟩ := h.last
  intro e he
  rcases List.mem_append.mp he with he | he
  · have := UInt64.lt_iff_toNat_lt.mp ((List.pairwise_append.mp h.sorted).2.2 e he _ (List.mem_singleton_self _))
    omega
  · obtain rfl := List.mem_singleton.mp he
    exact Nat.one_pos

theorem CurrencyMap.Sound.coins {env : GameEnv} {entries : CurrencyMap} (h : CurrencyMap.Sound env entries) :
    ∀ e ∈ entries, (env.items e.2).stackable = true ∧ Ordinary env e.2 :=
  fun e he => ⟨h.stackable e he, h.ordinary e he⟩

namespace Game

variable {σ : Type} {env : GameEnv} {purse : Purse σ}

/-- A payment ends with the exact amount in stacks of 1 to 100 coins just where no kind of coin is
needed `2 ^ 16` times. -/
theorem addMoney_pays_iff {currencyItems : CurrencyMap} (hsound : CurrencyMap.Sound env currencyItems)
    (money : UInt64) (s : σ) :
    (∃ fuel created s', addMoney env purse currencyItems fuel money s = some (created, s') ∧
      PaysExactly created money.toNat) ↔ FewCoins money.toNat currencyItems := by
  constructor
  · intro h
    obtain ⟨fuel, created, s', h, hpays⟩ := h
    rw [addMoney] at h
    split at h
    · rename_i hzero
      rw [hzero, UInt64.toNat_zero]
      exact fewCoins_zero currencyItems
    · obtain ⟨hends, paid, hpaid, hsum⟩ := addCurrencies_pays hsound.coins h
      have := hpaid.unique hpays
      exact fewCoins_of_ends hsound.sorted hsound.pos hends (by omega)
  · intro hfew
    by_cases hzero : money = 0
    · rw [hzero, UInt64.toNat_zero]
      exact ⟨0, [], s, by rw [addMoney, if_pos rfl], PaysExactly.nil⟩
    · obtain ⟨created, s', h⟩ := addCurrencies_ends env purse le_rfl (ends_of_fewCoins hfew) s
      obtain ⟨-, paid, hpaid, hsum⟩ := addCurrencies_pays hsound.coins h
      obtain ⟨front, id, rfl⟩ := hsound.last
      rw [unpaid_of_fewCoins front id hfew, Nat.add_zero] at hsum
      exact ⟨2 ^ 16, created, s', by rw [addMoney, if_neg hzero, h], hsum ▸ hpaid⟩

end Game

/-! ## A withdrawal -/

/-- Gold, platinum and crystal coins. -/
def coinEnv : GameEnv where
  items id := { id, stackable := true }

def coinTable : CurrencyMap := [(10000, 3043), (100, 3035), (1, 3031)]

/-- A cylinder that takes everything. -/
def openPurse : Purse Unit where
  internalAddItem _ _ := (true, ())
  addToTile _ _ := ()

theorem ordinary_coins {id : UInt16} (h : id = 3043 ∨ id = 3035 ∨ id = 3031) : Ordinary coinEnv id := by
  rcases h with rfl | rfl | rfl <;>
    exact ⟨rfl, by decide, rfl, by decide, by decide, by decide, by decide⟩

theorem sound_coinTable : CurrencyMap.Sound coinEnv coinTable where
  sorted := by decide
  last := ⟨[(10000, 3043), (100, 3035)], 3031, rfl⟩
  stackable _ _ := rfl
  ordinary e he := by
    simp only [coinTable, List.mem_cons, List.not_mem_nil, or_false] at he
    exact ordinary_coins (by rcases he with rfl | rfl | rfl <;> simp)

namespace Game

/-- The payment of 655359999 ends, one coin below the multiple of `2 ^ 16` crystal coins. -/
theorem addMoney_pays_largest :
    CurrencyMap.Sound coinEnv coinTable ∧ ∃ fuel created s', addMoney coinEnv openPurse coinTable fuel 655359999 () =
      some (created, s') ∧ PaysExactly created 655359999 :=
  ⟨sound_coinTable, (addMoney_pays_iff sound_coinTable 655359999 ()).mpr ⟨by decide, by decide, by decide, trivial⟩⟩

/-- 65536 crystal coins are never paid out: the loop does not end. -/
theorem addMoney_endless :
    CurrencyMap.Sound coinEnv coinTable ∧ ¬ ∃ fuel created s',
      addMoney coinEnv openPurse coinTable fuel 655360000 () = some (created, s') ∧ PaysExactly created 655360000 := by
  refine ⟨sound_coinTable, fun ⟨fuel, created, s', h, _⟩ => ?_⟩
  rw [addMoney, if_neg (by decide)] at h
  obtain ⟨⟨hlt, -⟩, -⟩ := addCurrencies_pays sound_coinTable.coins h
  exact absurd hlt (by decide)

end Game

end ForgottenServer
