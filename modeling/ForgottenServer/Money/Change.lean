import Mathlib
import ForgottenServer.Money.RemoveMoney

/-! # Taking money is exact

Each stack that goes lowers the worth in the cylinder by its own worth, and the change raises it
again. The coins of the change are worth less than a coin of the stack that is broken, so that this
stack stays as it is until its coins are taken. -/

namespace ForgottenServer

/-! ## Change that can be paid -/

section ChangePaid

variable {currencyItems : CurrencyMap} {coin count amount : ℕ} {piles : List (ℕ × ℕ)}

/-- The coins of a broken stack cover the amount, and the change is less than one of them. -/
theorem broken (hpos : 0 < amount) (h : amount < coin * count) :
    amount ≤ amount ⌈/⌉ coin * coin ∧ amount ⌈/⌉ coin ≤ count ∧ 0 < amount ⌈/⌉ coin ∧
      amount ⌈/⌉ coin * coin - amount < coin := by
  have hcoin : 0 < coin := Nat.pos_of_ne_zero (by rintro rfl; omega)
  have hle : amount ≤ coin * (amount ⌈/⌉ coin) := le_smul_ceilDiv hcoin
  have hcount : amount ⌈/⌉ coin ≤ count := (ceilDiv_le_iff_le_mul hcoin).mpr h.le
  have hceil : 0 < amount ⌈/⌉ coin := Nat.pos_of_ne_zero fun hzero => by
    rw [hzero] at hle
    omega
  have hless : coin * (amount ⌈/⌉ coin - 1) < amount := by
    by_contra hge
    have := (ceilDiv_le_iff_le_mul hcoin).mpr (not_lt.mp hge)
    omega
  rw [Nat.mul_sub_one] at hless
  rw [Nat.mul_comm (amount ⌈/⌉ coin)]
  refine ⟨hle, hcount, hceil, by omega⟩

end ChangePaid

theorem Coins.stack {env : MoneyEnv} {currencyItems : CurrencyMap} (hcoins : Coins env currencyItems) {s : Pocket}
    {r : Ref} (h : env.worth (s.heap.thing r).id ≠ 0) :
    s.heap.isStackable env.toGameEnv r = true ∧ s.heap.isDepotBox r = false := by
  have hentry := hcoins.only _ h
  refine ⟨hcoins.stackable _ hentry, ?_⟩
  have hdepot := (hcoins.ordinary _ hentry).depotBox
  simpa [Heap.isDepotBox] using hdepot

namespace Pocket

variable {env : MoneyEnv} {cylinder : Ref} {good : Pocket → Prop} {s s' s'' : Pocket} {P Q : Ref → Thing → Prop}

/-! ## Moves -/

theorem Moves.refl (h : Ready env cylinder good s) : Moves env cylinder good P s s 0 0 where
  ready := h
  total := rfl
  kept _ hr _ := ⟨hr, rfl, rfl⟩

theorem Moves.trans {out into out' into' : ℕ} (h : Moves env cylinder good P s s' out into)
    (h' : Moves env cylinder good P s' s'' out' into') :
    Moves env cylinder good P s s'' (out + out') (into + into') where
  ready := h'.ready
  total := by
    have hfirst := h.total
    have hsecond := h'.total
    omega
  kept r hr hP := by
    have hkeep := h.kept r hr hP
    have hkeep' := h'.kept r hkeep.mem (by rwa [hkeep.thing])
    exact ⟨hkeep'.mem, hkeep'.thing.trans hkeep.thing, hkeep'.box.trans hkeep.box⟩

theorem Moves.mono {out into : ℕ} (h : Moves env cylinder good P s s' out into)
    (hQ : ∀ r ∈ s.content cylinder, Q r (s.heap.thing r) → P r (s.heap.thing r)) :
    Moves env cylinder good Q s s' out into :=
  { h with kept := fun r hr hr' => h.kept r hr (hQ r hr hr') }

/-! ## Coins that go -/

theorem worthOf_congr {r : Ref} (h : s'.heap.thing r = s.heap.thing r) : s'.worthOf env r = s.worthOf env r := by
  rw [worthOf, worthOf, coinWorth, coinWorth, Heap.getItemCount, Heap.getItemCount, h]

/-- A whole stack leaves the cylinder. -/
theorem held_erase (h : Ready env cylinder good s) {c r : Ref} (hc : r ∈ s.heap.items c) (hbox : s.heap.box r = none)
    (hr : r ∈ s.content cylinder) :
    ({ s with heap := s.heap.erase c r } : Pocket).content cylinder = (s.content cylinder).filter (· ≠ r) ∧
      ({ s with heap := s.heap.erase c r } : Pocket).held env cylinder + s.worthOf env r = s.held env cylinder := by
  have hforest := h.valid.forest
  have hkids (x : Ref) : (s.heap.erase c r).items x = (s.heap.items x).filter (· ≠ r) := by
    rcases eq_or_ne x c with rfl | hne
    · rw [Heap.erase_items, Function.update_self, (hforest.nodup x).erase_eq_filter]
      exact List.filter_congr fun y _ => by rw [Bool.eq_iff_iff, bne_iff_ne, decide_eq_true_iff]
    · rw [Heap.erase_items, Function.update_of_ne hne]
      refine (List.filter_eq_self.mpr fun y hy => ?_).symm
      refine decide_eq_true fun heq => hne ?_
      exact hforest.eq_of_mem hc (heq ▸ hy)
  have hleaf : s.heap.items r = [] := hforest.items_of_not_box (by rw [hbox]; rfl)
  have hcontent : ({ s with heap := s.heap.erase c r } : Pocket).content cylinder =
      (s.content cylinder).filter (· ≠ r) := TreeSearch.below_erase hleaf hkids s.heap.size cylinder
  refine ⟨hcontent, ?_⟩
  rw [held, hcontent]
  exact TreeSearch.sum_filter_ne (s.worthOf env) (nodup_content hforest h.isBox) hr

/-- A part of a stack is taken. -/
theorem held_part (h : Ready env cylinder good s) {r : Ref} {n : ℕ} (hr : r ∈ s.content cylinder)
    (hle : n ≤ s.heap.getItemCount r) :
    ({ s with heap := s.heap.setItemCount r (s.heap.getItemCount r - n) } : Pocket).held env cylinder +
      s.coinWorth env r * n = s.held env cylinder := by
  let s' : Pocket := { s with heap := s.heap.setItemCount r (s.heap.getItemCount r - n) }
  have hbyte : s.heap.getItemCount r < 256 := BitVec.isLt _
  have hthing : s'.heap.thing r = (s.heap.thing r).setItemCount (s.heap.getItemCount r - n) :=
    Heap.setThing_self ..
  have hnew : s'.worthOf env r = s.coinWorth env r * (s.heap.getItemCount r - n) := by
    rw [worthOf, coinWorth, Heap.getItemCount, hthing, Thing.setItemCount_count (by omega)]
    rfl
  have hnodup : (s.content cylinder).Nodup := nodup_content h.valid.forest h.isBox
  have hsum : s'.held env cylinder + s.worthOf env r = s.held env cylinder + s'.worthOf env r :=
    TreeSearch.sum_change hnodup hr fun x _ hne => worthOf_congr (Heap.setThing_of_ne _ _ _ hne)
  rw [hnew, worthOf] at hsum
  have hsplit : s.coinWorth env r * s.heap.getItemCount r =
      s.coinWorth env r * n + s.coinWorth env r * (s.heap.getItemCount r - n) := by
    rw [← Nat.mul_add, Nat.add_sub_cancel' hle]
  show s'.held env cylinder + _ = _
  omega

/-- Coins are taken off a stack. -/
theorem moves_removed (h : Ready env cylinder good s) {r : Ref} {n : ℕ}
    (hgood : good (s.internalRemoveItem env r n)) (hr : r ∈ s.content cylinder)
    (hstack : s.heap.isStackable env.toGameEnv r = true) (hdepot : s.heap.isDepotBox r = false) (hpos : 0 < n)
    (hle : n ≤ s.heap.getItemCount r) :
    Moves env cylinder good (fun r' _ => r' ≠ r) s (s.internalRemoveItem env r n) (s.coinWorth env r * n) 0 := by
  obtain ⟨c, hc⟩ := content_listed hr
  have htaken := h.valid.taken hc hstack hpos hle
  have hquery : s.heap.queryRemove env.toGameEnv c r n FLAG_IGNORENOTMOVEABLE = .noError := by
    have hflag : hasBitSet FLAG_IGNORENOTMOVEABLE FLAG_IGNORENOTMOVEABLE = true := by decide
    rw [Heap.queryRemove, hdepot, hflag, if_neg (by simp), if_neg (not_not.mpr hc), if_neg (by omega), if_neg (by simp)]
  have hremove : s.internalRemoveItem env r n = { s with heap := s.heap.removeThing env.toGameEnv c r n } := by
    rw [internalRemoveItem, h.valid.parent_iff.mpr hc]
    exact if_pos hquery
  have hready : Ready env cylinder good (s.internalRemoveItem env r n) := by
    refine ⟨?_, ?_, hgood⟩
    · rw [hremove]
      exact htaken.valid
    · rw [hremove, htaken.box]
      exact h.isBox
  suffices hmoved : (s.internalRemoveItem env r n).held env cylinder + s.coinWorth env r * n = s.held env cylinder ∧
      ∀ x ∈ s.content cylinder, x ≠ r → x ∈ (s.internalRemoveItem env r n).content cylinder by
    refine ⟨hready, ?_, fun x hx hne => ⟨hmoved.2 x hx hne, ?_, ?_⟩⟩
    · have htile : (s.internalRemoveItem env r n).onTile env = s.onTile env := by rw [hremove]; rfl
      have hheld := hmoved.1
      omega
    · rw [hremove]
      exact htaken.other hne
    · rw [hremove, htaken.box]
  rw [hremove, Heap.removeThing, if_neg (not_not.mpr hc)]
  split
  · exact ⟨held_part h hr hle, fun x hx _ => hx⟩
  · rename_i hwhole
    obtain rfl : n = s.heap.getItemCount r := not_not.mp fun hne => hwhole ⟨hstack, hne⟩
    obtain ⟨hcontent, hheld⟩ := held_erase h hc (h.valid.not_box_of_stackable hstack) hr
    refine ⟨hheld, fun x hx hne => ?_⟩
    rw [hcontent]
    exact List.mem_filter.mpr ⟨hx, decide_eq_true hne⟩

/-! ## Coins that come -/

variable {purse : Purse Pocket} {currencyItems : CurrencyMap}

/-- The entries are stacks of coins in the cylinder, under their worths. -/
structure Listed (env : MoneyEnv) (cylinder : Ref) (s : Pocket) (l : List (UInt64 × Ref)) : Prop where
  mem : ∀ e ∈ l, e.2 ∈ s.content cylinder
  coin : ∀ e ∈ l, env.worth (s.heap.thing e.2).id ≠ 0
  worth : ∀ e ∈ l, e.1.toNat = s.worthOf env e.2
  small : ∀ e ∈ l, e.1.toNat < 2 ^ 32
  nodup : (l.map Prod.snd).Nodup

section Loop

variable {e : UInt64 × Ref} {l : List (UInt64 × Ref)} {n : ℕ}

theorem Listed.pos (hcoins : Coins env currencyItems) (h : Ready env cylinder good s)
    (hl : Listed env cylinder s (e :: l)) : 0 < s.heap.getItemCount e.2 := by
  obtain ⟨c, hc⟩ := content_listed (hl.mem e List.mem_cons_self)
  exact (h.valid.stack hc (hcoins.stack (hl.coin e List.mem_cons_self)).1).1

/-- Coins of the first stack go. -/
theorem Listed.moves (hcoins : Coins env currencyItems) (hd : Delivers env cylinder good purse)
    (h : Ready env cylinder good s) (hl : Listed env cylinder s (e :: l)) (hpos : 0 < n)
    (hle : n ≤ s.heap.getItemCount e.2) :
    Moves env cylinder good (fun r _ => r ≠ e.2) s (s.internalRemoveItem env e.2 n) (s.coinWorth env e.2 * n) 0 := by
  obtain ⟨hstack, hdepot⟩ := hcoins.stack (hl.coin e List.mem_cons_self)
  exact moves_removed h (hd.removed h.good e.2 n) (hl.mem e List.mem_cons_self) hstack hdepot hpos hle

theorem Listed.of_keeps (hl : Listed env cylinder s l) (hkeep : ∀ e ∈ l, Keeps cylinder s s' e.2) :
    Listed env cylinder s' l ∧ (l.map fun e => s'.coins env e.2) = l.map fun e => s.coins env e.2 := by
  refine ⟨⟨fun e he => (hkeep e he).mem, fun e he => ?_, fun e he => ?_, hl.small, hl.nodup⟩,
    List.map_congr_left fun e he => ?_⟩
  · rw [(hkeep e he).thing]
    exact hl.coin e he
  · rw [worthOf_congr (hkeep e he).thing]
    exact hl.worth e he
  · rw [coins, coins, coinWorth, coinWorth, Heap.getItemCount, Heap.getItemCount, (hkeep e he).thing]

theorem Listed.sublist {l' : List (UInt64 × Ref)} (hl : Listed env cylinder s l) (h : l'.Sublist l) :
    Listed env cylinder s l' where
  mem e he := hl.mem e (h.subset he)
  coin e he := hl.coin e (h.subset he)
  worth e he := hl.worth e (h.subset he)
  small e he := hl.small e (h.subset he)
  nodup := hl.nodup.sublist (h.map Prod.snd)

/-- The other stacks stay as they are. -/
theorem Listed.rest {out into : ℕ} (hl : Listed env cylinder s (e :: l))
    (hmoves : Moves env cylinder good (fun r _ => r ≠ e.2) s s' out into) :
    Listed env cylinder s' l ∧ (l.map fun e => s'.coins env e.2) = l.map fun e => s.coins env e.2 := by
  refine (hl.sublist (List.sublist_cons_self e l)).of_keeps fun e' he' =>
    hmoves.kept e'.2 (hl.mem e' (List.mem_cons_of_mem e he')) fun heq => ?_
  exact (List.nodup_cons.mp hl.nodup).1 (heq ▸ List.mem_map_of_mem he')

variable {fuel : ℕ} {money : UInt64}

variable (hcoins : Coins env currencyItems)
include hcoins

variable (hd : Delivers env cylinder good purse)
include hd

end Loop

/-! ## The stacks that the search lists -/

theorem Ready.plain (h : Ready env cylinder good s) (hcoins : Coins env currencyItems)
    (hcount : s.Countable env cylinder) : ∀ r ∈ s.content cylinder, Plain env s r := by
  intro r hr
  refine ⟨hcount r hr, fun hbox => ?_⟩
  by_contra hne
  have hcoin : env.worth (s.heap.thing r).id ≠ 0 := fun hzero => hne (by
    rw [worthOf, coinWorth, hzero, UInt64.toNat_zero, Nat.zero_mul])
  have hnone := h.valid.not_box_of_stackable (hcoins.stack hcoin).1
  rw [hnone] at hbox
  cases hbox

section Sorted

variable (h : Ready env cylinder good s) (hplain : ∀ r ∈ s.content cylinder, Plain env s r)
include h hplain

end Sorted

/-! ## Exactness -/

end Pocket

/-! ## A bag without room -/

namespace Pocket

end Pocket

end ForgottenServer
