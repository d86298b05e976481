import ForgottenServer.Trade.Session

/-! # Trade sessions stay consistent

Every call that changes something pairs two idle players, answers an offer, lets a player accept, or ends the trade of a
pair. Each of these keeps `Sessions`. -/

namespace ForgottenServer.Trade

open Runs

/-- `Consistent`, and what the calls rely on besides. -/
structure Sessions (g : Game) : Prop where
  symm : ∀ p q, (g.traders p).tradePartner = some q → (g.traders q).tradePartner = some p
  idle : ∀ p, (g.traders p).tradeState = .none ↔ (g.traders p).tradePartner = none
  empty : ∀ p, (g.traders p).tradeState = .none → (g.traders p).tradeItem = none
  irrefl : ∀ p, (g.traders p).tradePartner ≠ some p
  registry : ∀ item p, g.tradeItems.lookup item = some p ↔ (g.traders p).tradeItem = some item
  apart : ∀ a ∈ g.tradeItems.keys, ∀ b ∈ g.tradeItems.keys, a ≠ b → g.items.isHoldingItem a b = false
  still : ∀ p, (g.traders p).tradeState ≠ .transfer
  asked : ∀ p, (g.traders p).tradeState = .acknowledge → (g.traders p).tradeItem = none

theorem Sessions.consistent {g : Game} (h : Sessions g) : Consistent g where
  symm p q := ⟨h.symm p q, h.symm q p⟩
  idle p := by
    rw [h.idle p]
    exact ⟨fun hnone => ⟨hnone, h.empty p ((h.idle p).mpr hnone)⟩, fun hboth => hboth.1⟩
  irrefl := h.irrefl
  single p q r hq hr := Option.some.inj ((h.symm q p hq).symm.trans (h.symm r p hr))
  registry item p := by
    rw [h.registry item p]
    refine ⟨fun hitem => ⟨hitem, fun hnone => ?_⟩, fun hboth => hboth.1⟩
    rw [h.empty p hnone] at hitem
    cases hitem
  apart := h.apart

/-- Where a moved item is not met, nothing changes. -/
theorem above_move (items : Items) {moved : Nat} (holder : Option Nat) (n : Nat) :
    ∀ item, item ≠ moved → moved ∉ items.above n item → (items.move moved holder).above n item = items.above n item := by
  induction n with
  | zero => exact fun item _ _ => rfl
  | succ n ih =>
    intro item hne hnot
    have hparent : (items.move moved holder).parent item = items.parent item := Function.update_of_ne hne ..
    have hfilter : ((items.move moved holder).parent item).filter (items.move moved holder).isContainer =
        (items.parent item).filter items.isContainer := by
      rw [hparent]
      rfl
    unfold Items.above at hnot ⊢
    rw [hfilter]
    cases hholder : (items.parent item).filter items.isContainer with
    | none => rfl
    | some container =>
      rw [hholder] at hnot
      obtain ⟨hne', hnot'⟩ := not_or.mp (List.mem_cons.not.mp hnot)
      simp only [ih container (Ne.symm hne') hnot']

theorem isHoldingItem_move {items : Items} {moved item : Nat} (holder : Option Nat) (hne : item ≠ moved)
    (hnot : items.isHoldingItem moved item = false) (container : Nat) :
    (items.move moved holder).isHoldingItem container item = items.isHoldingItem container item := by
  have hmem : moved ∉ items.above items.size item := by
    intro hmem
    rw [Items.isHoldingItem, List.contains_iff_mem.mpr hmem] at hnot
    cases hnot
  rw [Items.isHoldingItem, Items.isHoldingItem]
  show ((items.move moved holder).above items.size item).contains container = _
  rw [above_move items holder _ item hne hmem]

/-! ## The end of a trade -/

/-- `p` and `q` are idle again and their items are not registered any more. -/
structure Ended (g g' : Game) (p q : Nat) : Prop where
  traders : g'.traders = Function.update (Function.update g.traders p {}) q {}
  registry : ∀ item, g'.tradeItems.lookup item =
    if (g.traders p).tradeItem = some item ∨ (g.traders q).tradeItem = some item then none else g.tradeItems.lookup item
  holding : ∀ a b, a ∈ g'.tradeItems.keys → b ∈ g'.tradeItems.keys →
    g'.items.isHoldingItem a b = g.items.isHoldingItem a b

section Ended

variable {g g' : Game} {p q r : Nat}

theorem Ended.trader_left (h : Ended g g' p q) : g'.traders p = {} := by
  rw [h.traders]
  by_cases hpq : p = q
  · rw [hpq, Function.update_self]
  · rw [Function.update_of_ne hpq, Function.update_self]

theorem Ended.trader_right (h : Ended g g' p q) : g'.traders q = {} := by
  rw [h.traders, Function.update_self]

theorem Ended.trader_other (h : Ended g g' p q) (hp : r ≠ p) (hq : r ≠ q) : g'.traders r = g.traders r := by
  rw [h.traders, Function.update_of_ne hq, Function.update_of_ne hp]

/-- A player after the end of a trade: one of the two, or another one as before. -/
theorem Ended.trader_cases (h : Ended g g' p q) (r : Nat) :
    (g'.traders r = {} ∧ (r = p ∨ r = q)) ∨ (g'.traders r = g.traders r ∧ r ≠ p ∧ r ≠ q) := by
  by_cases hp : r = p
  · exact .inl ⟨hp ▸ h.trader_left, .inl hp⟩
  · by_cases hq : r = q
    · exact .inl ⟨hq ▸ h.trader_right, .inr hq⟩
    · exact .inr ⟨h.trader_other hp hq, hp, hq⟩

theorem Ended.mem_keys (h : Ended g g' p q) {item : Nat} (hmem : item ∈ g'.tradeItems.keys) :
    item ∈ g.tradeItems.keys ∧ (g.traders p).tradeItem ≠ some item ∧ (g.traders q).tradeItem ≠ some item := by
  obtain ⟨owner, howner⟩ := Option.isSome_iff_exists.mp (AList.lookup_isSome.mpr hmem)
  rw [h.registry] at howner
  split at howner
  · cases howner
  · rename_i hnot
    exact ⟨AList.lookup_isSome.mp (Option.isSome_iff_exists.mpr ⟨owner, howner⟩), not_or.mp hnot⟩

theorem Sessions.ended (hs : Sessions g) (hpq : (g.traders p).tradePartner = some q) (h : Ended g g' p q) :
    Sessions g' := by
  refine ⟨fun a b hab => ?_, fun a => ?_, fun a hnone => ?_, fun a => ?_, fun item a => ?_, fun a ha b hb hne => ?_,
    fun a => ?_, fun a hasked => ?_⟩
  · rcases h.trader_cases a with ⟨hidle, -⟩ | ⟨hsame, hap, haq⟩
    · rw [hidle] at hab
      cases hab
    · rw [hsame] at hab
      have hba := hs.symm a b hab
      rcases h.trader_cases b with ⟨-, rfl | rfl⟩ | ⟨hsame', -, -⟩
      · exact absurd (Option.some.inj (hpq.symm.trans hba)).symm haq
      · exact absurd (Option.some.inj ((hs.symm p b hpq).symm.trans hba)).symm hap
      · rw [hsame']
        exact hba
  · rcases h.trader_cases a with ⟨hidle, -⟩ | ⟨hsame, -, -⟩
    · rw [hidle]
      exact ⟨fun _ => rfl, fun _ => rfl⟩
    · rw [hsame]
      exact hs.idle a
  · rcases h.trader_cases a with ⟨hidle, -⟩ | ⟨hsame, -, -⟩
    · rw [hidle]
    · rw [hsame] at hnone ⊢
      exact hs.empty a hnone
  · rcases h.trader_cases a with ⟨hidle, -⟩ | ⟨hsame, -, -⟩
    · rw [hidle]
      exact fun hself => by cases hself
    · rw [hsame]
      exact hs.irrefl a
  · rw [h.registry]
    rcases h.trader_cases a with ⟨hidle, hends⟩ | ⟨hsame, hap, haq⟩
    · rw [hidle]
      constructor
      · intro hlookup
        split at hlookup
        · cases hlookup
        · rename_i hnot
          have hitem := (hs.registry item a).mp hlookup
          rcases hends with rfl | rfl
          · exact absurd (.inl hitem) hnot
          · exact absurd (.inr hitem) hnot
      · intro hitem
        cases hitem
    · rw [hsame, ← hs.registry item a]
      constructor
      · intro hlookup
        split at hlookup
        · cases hlookup
        · exact hlookup
      · intro hlookup
        rw [if_neg ?_]
        · exact hlookup
        · -- the item belongs to a third player
          rintro (hitem | hitem)
          · exact hap (Option.some.inj (hlookup.symm.trans ((hs.registry item p).mpr hitem)))
          · exact haq (Option.some.inj (hlookup.symm.trans ((hs.registry item q).mpr hitem)))
  · rw [h.holding a b ha hb]
    exact hs.apart a (h.mem_keys ha).1 b (h.mem_keys hb).1 hne
  · rcases h.trader_cases a with ⟨hidle, -⟩ | ⟨hsame, -, -⟩
    · rw [hidle]
      exact TradeState.noConfusion
    · rw [hsame]
      exact hs.still a
  · rcases h.trader_cases a with ⟨hidle, -⟩ | ⟨hsame, -, -⟩
    · rw [hidle]
    · rw [hsame] at hasked ⊢
      exact hs.asked a hasked

end Ended

/-! ## Closing -/

theorem traders_closeHalf (g : Game) (p : Nat) : (g.closeHalf p).traders = Function.update g.traders p {} := by
  unfold Game.closeHalf
  cases (g.traders p).tradeItem <;> rfl

theorem items_closeHalf (g : Game) (p : Nat) : (g.closeHalf p).items = g.items := by
  unfold Game.closeHalf
  cases (g.traders p).tradeItem <;> rfl

theorem lookup_erase_eq (m : AList (fun _ : Nat => Nat)) (item i : Nat) :
    (m.erase item).lookup i = if item = i then none else m.lookup i := by
  by_cases hi : item = i
  · rw [if_pos hi, ← hi, AList.lookup_erase]
  · rw [if_neg hi, AList.lookup_erase_ne (Ne.symm hi)]

theorem lookup_closeHalf (g : Game) (p i : Nat) : (g.closeHalf p).tradeItems.lookup i =
    if (g.traders p).tradeItem = some i then none else g.tradeItems.lookup i := by
  unfold Game.closeHalf
  cases hitem : (g.traders p).tradeItem with
  | none => rw [if_neg (by simp)]; rfl
  | some item =>
    show (g.tradeItems.erase item).lookup i = _
    rw [lookup_erase_eq]
    simp only [Option.some.injEq]

theorem ended_close {g : Game} {p q : Nat} (hne : q ≠ p) : Ended g ((g.closeHalf p).closeHalf q) p q where
  traders := by rw [traders_closeHalf, traders_closeHalf]
  registry item := by
    rw [lookup_closeHalf, lookup_closeHalf, traders_closeHalf, Function.update_of_ne hne]
    by_cases hq : (g.traders q).tradeItem = some item
    · rw [if_pos hq, if_pos (.inr hq)]
    · rw [if_neg hq]
      by_cases hp : (g.traders p).tradeItem = some item
      · rw [if_pos hp, if_pos (.inl hp)]
      · rw [if_neg hp, if_neg (not_or.mpr ⟨hp, hq⟩)]
  holding a b _ _ := by rw [items_closeHalf, items_closeHalf]

theorem Sessions.close {g : Game} (hs : Sessions g) (p : Nat) : Sessions (g.internalCloseTrade p) := by
  unfold Game.internalCloseTrade
  cases hpartner : (g.traders p).tradePartner with
  | none =>
    -- there is nothing to close
    have hnone := (hs.idle p).mpr hpartner
    have hitem := hs.empty p hnone
    have hsame : g.closeHalf p = g := by
      have htrader : g.traders p = {} := by
        rw [show g.traders p = ⟨(g.traders p).tradeState, (g.traders p).tradeItem, (g.traders p).tradePartner⟩ from rfl,
          hnone, hitem, hpartner]
      unfold Game.closeHalf
      rw [hitem]
      show g.setTrader p {} = g
      rw [Game.setTrader, ← htrader, Function.update_eq_self]
    simp only [hsame, ite_self]
    exact hs
  | some q =>
    simp only
    rw [if_neg (not_or.mpr ⟨hs.still q, hs.still p⟩)]
    refine hs.ended hpartner (ended_close fun hqp => hs.irrefl p (hqp ▸ hpartner))

/-! ## Starting -/

section Start

variable {g : Game} {p q item : Nat}

/-- A player with an offer to answer, or without a trade, offers an item. -/
def offer (g : Game) (p q item : Nat) : Game :=
  { g.setTrader p ⟨.initiated, some item, some q⟩ with tradeItems := g.tradeItems.insert item p }

theorem lookup_insert_eq (m : AList (fun _ : Nat => Nat)) (i : Nat) :
    (m.insert item p).lookup i = if i = item then some p else m.lookup i := by
  by_cases hi : i = item
  · rw [if_pos hi, hi, AList.lookup_insert]
  · rw [if_neg hi, AList.lookup_insert_ne hi]

theorem Game.Unrelated.lookup (h : g.Unrelated item) : g.tradeItems.lookup item = none := by
  rw [AList.lookup_eq_none]
  exact fun hmem => (h item hmem).1 rfl

theorem apart_offer (hs : Sessions g) (hfree : g.Unrelated item) {a b : Nat}
    (ha : a ∈ (g.tradeItems.insert item p).keys) (hb : b ∈ (g.tradeItems.insert item p).keys) (hne : a ≠ b) :
    g.items.isHoldingItem a b = false := by
  rcases AList.mem_insert _ |>.mp ha with hitem | hold
  · rcases AList.mem_insert _ |>.mp hb with hitem' | hold'
    · exact absurd (hitem.trans hitem'.symm) hne
    · exact hitem ▸ (hfree b hold').2.1
  · rcases AList.mem_insert _ |>.mp hb with hitem' | hold'
    · exact hitem' ▸ (hfree a hold).2.2
    · exact hs.apart a hold b hold' hne

/-- The registry when `p` had no item. -/
theorem registry_offer (hs : Sessions g) (hfree : g.Unrelated item) (hitem : (g.traders p).tradeItem = none)
    (traders : Nat → Trader) (hp : (traders p).tradeItem = some item)
    (hothers : ∀ r, r ≠ p → (traders r).tradeItem = (g.traders r).tradeItem) (i r : Nat) :
    (g.tradeItems.insert item p).lookup i = some r ↔ (traders r).tradeItem = some i := by
  rw [lookup_insert_eq]
  by_cases hr : r = p
  · subst hr
    rw [hp]
    by_cases hi : i = item
    · rw [if_pos hi, hi]
      exact ⟨fun _ => rfl, fun _ => rfl⟩
    · rw [if_neg hi, hs.registry i r, hitem]
      exact ⟨fun hnone => (by cases hnone), fun heq => absurd (Option.some.inj heq).symm hi⟩
  · rw [hothers r hr]
    by_cases hi : i = item
    · rw [if_pos hi, hi, ← hs.registry item r, hfree.lookup]
      exact ⟨fun heq => absurd (Option.some.inj heq).symm hr, fun hnone => by cases hnone⟩
    · rw [if_neg hi, hs.registry i r]

/-- Two idle players. -/
theorem Sessions.pair (hs : Sessions g) (hne : q ≠ p) (hfree : g.Unrelated item)
    (hp : (g.traders p).tradeState = .none) (hq : (g.traders q).tradeState = .none) :
    Sessions ((offer g p q item).setTrader q
      { (offer g p q item).traders q with tradeState := .acknowledge, tradePartner := some p }) := by
  have hqtrader : (offer g p q item).traders q = g.traders q := Function.update_of_ne hne ..
  rw [hqtrader]
  let traders := Function.update (Function.update g.traders p ⟨.initiated, some item, some q⟩) q
    { g.traders q with tradeState := .acknowledge, tradePartner := some p }
  have hatp : traders p = ⟨.initiated, some item, some q⟩ :=
    (Function.update_of_ne (Ne.symm hne) ..).trans (Function.update_self ..)
  have hatq : traders q = { g.traders q with tradeState := .acknowledge, tradePartner := some p } :=
    Function.update_self ..
  have hat : ∀ r, r ≠ p → r ≠ q → traders r = g.traders r := fun r hrp hrq =>
    (Function.update_of_ne hrq ..).trans (Function.update_of_ne hrp ..)
  have hpfree := (hs.idle p).mp hp
  have hqfree := (hs.idle q).mp hq
  -- a third player is not the partner of one of them
  have hthird : ∀ r s, r ≠ p → r ≠ q → (g.traders r).tradePartner = some s → s ≠ p ∧ s ≠ q := by
    intro r s _ _ hrs
    have hsr := hs.symm r s hrs
    refine ⟨fun hsp => ?_, fun hsq => ?_⟩
    · rw [hsp, hpfree] at hsr
      cases hsr
    · rw [hsq, hqfree] at hsr
      cases hsr
  have hcases : ∀ r, r = p ∨ r = q ∨ (r ≠ p ∧ r ≠ q) := fun r => by tauto
  refine ⟨fun a b (hab : (traders a).tradePartner = some b) => ?_, fun a => ?_, fun a hnone => ?_, fun a => ?_,
    fun i a => ?_, fun a ha b hb => apart_offer hs hfree ha hb, fun a => ?_, fun a hasked => ?_⟩
  · show (traders b).tradePartner = some a
    rcases hcases a with rfl | rfl | ⟨hap, haq⟩
    · rw [hatp] at hab
      obtain rfl := Option.some.inj hab
      rw [hatq]
    · rw [hatq] at hab
      obtain rfl := Option.some.inj hab
      rw [hatp]
    · rw [hat a hap haq] at hab
      obtain ⟨hbp, hbq⟩ := hthird a b hap haq hab
      rw [hat b hbp hbq]
      exact hs.symm a b hab
  · show (traders a).tradeState = .none ↔ (traders a).tradePartner = none
    rcases hcases a with rfl | rfl | ⟨hap, haq⟩
    · rw [hatp]
      exact ⟨fun hstate => (by cases hstate), fun hpartner => (by cases hpartner)⟩
    · rw [hatq]
      exact ⟨fun hstate => (by cases hstate), fun hpartner => (by cases hpartner)⟩
    · rw [hat a hap haq]
      exact hs.idle a
  · replace hnone : (traders a).tradeState = .none := hnone
    show (traders a).tradeItem = none
    rcases hcases a with rfl | rfl | ⟨hap, haq⟩
    · rw [hatp] at hnone
      cases hnone
    · rw [hatq] at hnone
      cases hnone
    · rw [hat a hap haq] at hnone ⊢
      exact hs.empty a hnone
  · show (traders a).tradePartner ≠ some a
    rcases hcases a with rfl | rfl | ⟨hap, haq⟩
    · rw [hatp]
      exact fun hself => hne (Option.some.inj hself)
    · rw [hatq]
      exact fun hself => hne (Option.some.inj hself).symm
    · rw [hat a hap haq]
      exact hs.irrefl a
  · refine registry_offer hs hfree (hs.empty p hp) traders (by rw [hatp]) (fun r hr => ?_) i a
    by_cases hrq : r = q
    · rw [hrq, hatq]
    · rw [hat r hr hrq]
  · show (traders a).tradeState ≠ .transfer
    rcases hcases a with rfl | rfl | ⟨hap, haq⟩
    · rw [hatp]
      exact TradeState.noConfusion
    · rw [hatq]
      exact TradeState.noConfusion
    · rw [hat a hap haq]
      exact hs.still a
  · replace hasked : (traders a).tradeState = .acknowledge := hasked
    show (traders a).tradeItem = none
    rcases hcases a with rfl | rfl | ⟨hap, haq⟩
    · rw [hatp] at hasked
      cases hasked
    · rw [hatq]
      exact hs.empty a hq
    · rw [hat a hap haq] at hasked ⊢
      exact hs.asked a hasked

/-- A player in a trade goes on with the same partner. -/
theorem Sessions.update (hs : Sessions g) {g' : Game} {trader : Trader} (htraders : g'.traders = Function.update g.traders p trader)
    (hpartner : trader.tradePartner = (g.traders p).tradePartner) (hbusy : (g.traders p).tradeState ≠ .none)
    (hstate : trader.tradeState = .initiated ∨ trader.tradeState = .accept)
    (hregistry : ∀ i r, g'.tradeItems.lookup i = some r ↔ (g'.traders r).tradeItem = some i)
    (hapart : ∀ a ∈ g'.tradeItems.keys, ∀ b ∈ g'.tradeItems.keys, a ≠ b → g'.items.isHoldingItem a b = false) :
    Sessions g' := by
  have hatp : g'.traders p = trader := by rw [htraders, Function.update_self]
  have hat : ∀ r, r ≠ p → g'.traders r = g.traders r := fun r hr => by rw [htraders, Function.update_of_ne hr]
  have hpartners : ∀ r, (g'.traders r).tradePartner = (g.traders r).tradePartner := by
    intro r
    by_cases hr : r = p
    · rw [hr, hatp, hpartner]
    · rw [hat r hr]
  have hbusy' : (g'.traders p).tradeState ≠ .none ∧ (g'.traders p).tradeState ≠ .transfer ∧
      (g'.traders p).tradeState ≠ .acknowledge := by
    rw [hatp]
    rcases hstate with hstate | hstate <;> rw [hstate] <;> decide
  refine ⟨fun a b hab => ?_, fun a => ?_, fun a hnone => ?_, fun a => ?_, hregistry, hapart, fun a => ?_,
    fun a hasked => ?_⟩
  · rw [hpartners] at hab ⊢
    exact hs.symm a b hab
  · rw [hpartners]
    by_cases ha : a = p
    · subst ha
      exact ⟨fun hnone => absurd hnone hbusy'.1, fun hnone => absurd ((hs.idle a).mpr hnone) hbusy⟩
    · rw [hat a ha]
      exact hs.idle a
  · by_cases ha : a = p
    · exact absurd (ha ▸ hnone) hbusy'.1
    · rw [hat a ha] at hnone ⊢
      exact hs.empty a hnone
  · rw [hpartners]
    exact hs.irrefl a
  · by_cases ha : a = p
    · exact ha ▸ hbusy'.2.1
    · rw [hat a ha]
      exact hs.still a
  · by_cases ha : a = p
    · exact absurd (ha ▸ hasked) hbusy'.2.2
    · rw [hat a ha] at hasked ⊢
      exact hs.asked a hasked

/-- The answer to an offer. -/
theorem Sessions.answer (hs : Sessions g) (hfree : g.Unrelated item) (hp : (g.traders p).tradeState = .acknowledge)
    (hpartner : (g.traders p).tradePartner = some q) : Sessions (offer g p q item) := by
  have hbusy : (g.traders p).tradeState ≠ .none := by
    rw [hp]
    exact TradeState.noConfusion
  have hatp : (offer g p q item).traders p = ⟨.initiated, some item, some q⟩ := Function.update_self ..
  have hat : ∀ r, r ≠ p → (offer g p q item).traders r = g.traders r := fun r hr => Function.update_of_ne hr ..
  refine hs.update rfl hpartner.symm hbusy (.inl rfl) ?_ fun a ha b hb => apart_offer hs hfree ha hb
  exact registry_offer hs hfree (hs.asked p hp) (offer g p q item).traders (by rw [hatp]) fun r hr => by rw [hat r hr]

theorem Sessions.start (hs : Sessions g) (hne : q ≠ p) (hfree : g.Unrelated item) (shared : Bool) :
    Sessions (g.internalStartTrade p q item shared).2 := by
  unfold Game.internalStartTrade
  by_cases hbusy : (g.traders p).tradeState ≠ .none ∧
      ¬ ((g.traders p).tradeState = .acknowledge ∧ (g.traders p).tradePartner = some q)
  · rw [if_pos hbusy]
    exact hs
  · rw [if_neg hbusy]
    by_cases htaken : (g.traders q).tradeState ≠ .none ∧ (g.traders q).tradePartner ≠ some p
    · rw [if_pos htaken]
      exact hs
    · rw [if_neg htaken]
      cases shared with
      | false => exact hs
      | true =>
        have hqtrader : (offer g p q item).traders q = g.traders q := Function.update_of_ne hne ..
        show Sessions (if ((offer g p q item).traders q).tradeState = .none then _ else (true, offer g p q item)).2
        by_cases hq : (g.traders q).tradeState = .none
        · have hp : (g.traders p).tradeState = .none := by
            by_contra hp
            -- the partner of `p` would be idle
            have hpq := (not_and_not_right.mp hbusy hp).2
            have hqp := hs.symm p q hpq
            rw [(hs.idle q).mp hq] at hqp
            cases hqp
          rw [if_pos (by rw [hqtrader]; exact hq)]
          exact hs.pair hne hfree hp hq
        · rw [if_neg (by rw [hqtrader]; exact hq)]
          have hqp : (g.traders q).tradePartner = some p := not_and_not_right.mp htaken hq
          have hpq := hs.symm q p hqp
          have hp : (g.traders p).tradeState ≠ .none := by
            rw [Ne, hs.idle p, hpq]
            exact Option.some_ne_none q
          exact hs.answer hfree (not_and_not_right.mp hbusy hp).1 hpq

/-- An item that the player is trading already is refused. -/
theorem start_of_traded (hs : Sessions g) (hitem : g.tradeItems.lookup item = some p) (shared : Bool) :
    (g.internalStartTrade p q item shared).2 = g := by
  have howns := (hs.registry item p).mp hitem
  have hbusy : (g.traders p).tradeState ≠ .none ∧
      ¬ ((g.traders p).tradeState = .acknowledge ∧ (g.traders p).tradePartner = some q) := by
    refine ⟨fun hnone => ?_, fun hasked => ?_⟩
    · rw [hs.empty p hnone] at howns
      cases howns
    · rw [hs.asked p hasked.1] at howns
      cases howns
  unfold Game.internalStartTrade
  rw [if_pos hbusy]

theorem unrelated_of_not_traded (h : g.tradeItems.keys.any (g.isTraded item) = false)
    (hcontainer : ∀ i, g.items.isHoldingItem item i = true → g.items.isContainer item = true) : g.Unrelated item := by
  intro i hi
  have hnot : g.isTraded item i = false := by
    rw [List.any_eq_false] at h
    simpa using h i hi
  unfold Game.isTraded at hnot
  split at hnot
  · simp only [Bool.or_eq_false_iff, beq_eq_false_iff_ne] at hnot
    exact ⟨hnot.1.1.symm, hnot.1.2, hnot.2⟩
  · rename_i hplain
    simp only [Bool.or_eq_false_iff, beq_eq_false_iff_ne] at hnot
    exact ⟨hnot.1.symm, Bool.eq_false_iff.mpr fun hholds => hplain (hcontainer i hholds), hnot.2⟩

end Start

/-- Only a container holds something. -/
theorem isContainer_of_isHoldingItem {items : Items} {container item : Nat}
    (h : items.isHoldingItem container item = true) : items.isContainer container = true := by
  have hmem : ∀ n item, container ∈ items.above n item → items.isContainer container = true := by
    intro n
    induction n with
    | zero =>
      intro item hmem
      cases hmem
    | succ n ih =>
      intro item hmem
      unfold Items.above at hmem
      cases hholder : (items.parent item).filter items.isContainer with
      | none =>
        rw [hholder] at hmem
        cases hmem
      | some holder =>
        rw [hholder] at hmem
        rcases List.mem_cons.mp hmem with rfl | hrest
        · exact (Option.filter_eq_some_iff.mp hholder).2
        · exact ih holder hrest
  exact hmem _ item (List.contains_iff_mem.mp h)

theorem Sessions.request {g : Game} (hs : Sessions g) (p q item : Nat) (answers : Game.Request) :
    Sessions (g.playerRequestTrade p q item answers) := by
  unfold Game.playerRequestTrade
  split
  · exact hs
  · rename_i hready
    split
    · exact hs
    · rename_i htraded
      split
      · exact hs
      · split
        · exact hs
        · refine hs.start (fun hqp => hready (.inl hqp)) ?_ _
          exact unrelated_of_not_traded (by simpa using htraded) fun i => isContainer_of_isHoldingItem

/-! ## Accepting -/

theorem Sessions.accepting {g : Game} (hs : Sessions g) {p : Nat} (hp : (g.traders p).tradeState ≠ .none) :
    Sessions (g.setTradeState p .accept) := by
  refine hs.update rfl rfl hp (.inr rfl) (fun i r => ?_) hs.apart
  show g.tradeItems.lookup i = some r ↔ _
  rw [hs.registry]
  by_cases hr : r = p
  · subst hr
    rw [show (g.setTradeState r .accept).traders r = { g.traders r with tradeState := .accept } from
      Function.update_self ..]
  · rw [show (g.setTradeState p .accept).traders r = g.traders r from Function.update_of_ne hr ..]

theorem items_moveItem (g : Game) (item : Nat) (answer : Option (Option Nat)) :
    (g.moveItem item answer).traders = g.traders ∧ (g.moveItem item answer).tradeItems = g.tradeItems := by
  cases answer <;> exact ⟨rfl, rfl⟩

/-- A move leaves alone what is not inside the moved item. -/
theorem isHoldingItem_moveItem {g : Game} {moved item : Nat} (answer : Option (Option Nat)) (hne : item ≠ moved)
    (hnot : g.items.isHoldingItem moved item = false) (container : Nat) :
    (g.moveItem moved answer).items.isHoldingItem container item = g.items.isHoldingItem container item := by
  cases answer with
  | none => rfl
  | some holder => exact isHoldingItem_move holder hne hnot container

theorem ended_transfer {g : Game} (hs : Sessions g) {p q x y : Nat} (hx : (g.traders p).tradeItem = some x)
    (hy : (g.traders q).tradeItem = some y) (answers : Game.Accept) : Ended g (g.transferItems p q x y answers) p q := by
  let erased := (((g.setTradeState p .transfer).setTradeState q .transfer).eraseTradeItem x).eraseTradeItem y
  let moved := (erased.moveItem x answers.playerItemTo).moveItem y answers.partnerItemTo
  have htraders : moved.traders = ((g.setTradeState p .transfer).setTradeState q .transfer).traders :=
    (items_moveItem _ _ _).1.trans (items_moveItem _ _ _).1
  have hitems : moved.tradeItems = (g.tradeItems.erase x).erase y :=
    (items_moveItem _ _ _).2.trans (items_moveItem _ _ _).2
  have hlookup : ∀ i, ((g.tradeItems.erase x).erase y).lookup i =
      if (g.traders p).tradeItem = some i ∨ (g.traders q).tradeItem = some i then none else g.tradeItems.lookup i := by
    intro i
    rw [lookup_erase_eq, lookup_erase_eq, hx, hy]
    simp only [Option.some.injEq]
    by_cases hyi : y = i
    · rw [if_pos hyi, if_pos (.inr hyi)]
    · rw [if_neg hyi]
      by_cases hxi : x = i
      · rw [if_pos hxi, if_pos (.inl hxi)]
      · rw [if_neg hxi, if_neg (not_or.mpr ⟨hxi, hyi⟩)]
  have hkey : ∀ {r i}, (g.traders r).tradeItem = some i → i ∈ g.tradeItems.keys := fun h =>
    AList.lookup_isSome.mp (Option.isSome_iff_exists.mpr ⟨_, (hs.registry _ _).mpr h⟩)
  refine ⟨?_, fun i => ?_, fun a b _ hb => ?_⟩
  · show Function.update (Function.update moved.traders p {}) q {} = _
    rw [htraders]
    funext r
    by_cases hrq : r = q
    · rw [hrq, Function.update_self, Function.update_self]
    · rw [Function.update_of_ne hrq, Function.update_of_ne hrq]
      by_cases hrp : r = p
      · rw [hrp, Function.update_self, Function.update_self]
      · rw [Function.update_of_ne hrp, Function.update_of_ne hrp]
        exact (Function.update_of_ne hrq ..).trans (Function.update_of_ne hrp ..)
  · show moved.tradeItems.lookup i = _
    rw [hitems]
    exact hlookup i
  · -- a registered item is not inside one of the two, so it does not move with them
    have hmem : b ∈ (g.tradeItems.erase x).erase y := hitems ▸ hb
    rw [AList.mem_erase, AList.mem_erase] at hmem
    obtain ⟨hby, hbx, hbkey⟩ := hmem
    have hnotx := hs.apart x (hkey hx) b hbkey (Ne.symm hbx)
    have hnoty := hs.apart y (hkey hy) b hbkey (Ne.symm hby)
    have hfirst : ∀ c, (erased.moveItem x answers.playerItemTo).items.isHoldingItem c b = g.items.isHoldingItem c b :=
      isHoldingItem_moveItem (g := erased) answers.playerItemTo hbx hnotx
    show moved.items.isHoldingItem a b = _
    rw [isHoldingItem_moveItem answers.partnerItemTo hby ((hfirst y).trans hnoty), hfirst]

theorem Sessions.accept {g : Game} (hs : Sessions g) (p : Nat) (answers : Game.Accept) :
    Sessions (g.playerAcceptTrade p answers) := by
  unfold Game.playerAcceptTrade
  split
  · exact hs
  · split
    · exact hs
    · rename_i hstate
      cases hpartner : (g.traders p).tradePartner with
      | none => exact hs
      | some q =>
        have hbusy : (g.traders p).tradeState ≠ .none := by
          rw [Ne, hs.idle p, hpartner]
          exact Option.some_ne_none q
        have haccepting := hs.accepting hbusy
        have hpartner' : ((g.setTradeState p .accept).traders p).tradePartner = some q := by
          rw [show (g.setTradeState p .accept).traders p = { g.traders p with tradeState := .accept } from
            Function.update_self ..]
          exact hpartner
        simp only
        split
        · exact hs.close p
        · split
          · split
            · exact haccepting.close p
            · split
              · rename_i x y hx hy
                split
                · exact haccepting.close p
                · exact haccepting.ended hpartner' (ended_transfer haccepting hx hy answers)
              · exact haccepting.close p
          · exact haccepting

/-! ## Whole runs -/

theorem Sessions.step {g : Game} (hs : Sessions g) {call : Call} (hcall : Promised g call) : Sessions (step g call) := by
  cases call with
  | request player tradePartner tradeItem answers => exact hs.request player tradePartner tradeItem answers
  | start player tradePartner tradeItem shared =>
    obtain ⟨hne, htraded | hfree⟩ := hcall
    · show Sessions (g.internalStartTrade player tradePartner tradeItem shared).2
      rw [start_of_traded hs htraded]
      exact hs
    · exact hs.start hne hfree shared
  | accept player answers => exact hs.accept player answers
  | close player => exact hs.close player

end ForgottenServer.Trade
