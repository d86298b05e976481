import ForgottenServer.Container.WeightClone

/-! # The totals of every container in every run

From empty containers on, any calls on a forest keep the totals, as long as the ammunition of a
container stays below 32 bits and whatever is cloned is created anew with its weight. -/

open Subtotals Runs

namespace ForgottenServer

namespace WeighedHeap

variable {env : WeightEnv} {s : WeighedHeap}

/-- Nothing is in a container yet. -/
structure Start (s : WeighedHeap) : Prop where
  box_lt : ∀ c, (s.box c).isSome → c < s.size
  items : ∀ c, s.items c = []
  parent : ∀ r, s.parent r = none
  totalWeight : ∀ c, s.totalWeight c = 0
  ammoCount : ∀ c, s.ammoCount c = 0

/-- The objects stay a forest: what comes into a container has no parent and is not above it. -/
def OnForest (s : WeighedHeap) : Call → Prop
  | .addThing c _ r | .internalAddThing c r | .addItemBack c r | .replaceThing c _ r => Attachable s c r
  | .clone r => r < s.size
  | _ => True

/-- The ammunition can be counted, and every object inside a clone weighs what its original weighs. -/
def Fits (env : WeightEnv) (s : WeighedHeap) : Call → Prop
  | .create _ _ => True
  | .addThing c index r => index < s.capacity c → s.ammoCount c + s.ammo env r < 2 ^ 32
  | .internalAddThing c r | .addItemBack c r => s.ammoCount c + s.ammo env r < 2 ^ 32
  | .updateThing c r itemId count => r ∈ s.items c → s.recount env c r (s.updated env r itemId count) < 2 ^ 32
  | .replaceThing c index r => ∀ old ∈ (s.items c)[index.toNat]?, s.recount env c old (s.thing r) < 2 ^ 32
  | .removeThing c r count => r ∈ s.items c → s.isStackable env.toGameEnv r → count.toNat ≠ s.getItemCount r →
      s.recount env c r ((s.thing r).setItemCount (s.newCount r count).toNat) < 2 ^ 32
  | .clone r => (s.thing r).made env = none ∨ Clonable env s r

/-- What a container keeps is the weight and the ammunition of its items, and its weight is that of
itself and of everything inside it. -/
structure Totals (env : WeightEnv) (s : WeighedHeap) (c : Ref) : Prop where
  totalWeight : s.totalWeight c = ((s.items c).map (s.getWeight env)).sum
  getWeight : s.getWeight env c = deep s.items (s.own env) s.size c
  ammoCount : s.ammoCount c = ((s.items c).map (s.ammo env)).sum

def step (env : WeightEnv) (o : Option WeighedHeap) (call : Call) : Option WeighedHeap := o.bind (·.call env call)

/-- The call returns, and every container has its totals. -/
def Keeps (env : WeightEnv) (o : Option WeighedHeap) (call : Call) : Prop :=
  ∃ s', step env o call = some s' ∧ ∀ c, (s'.box c).isSome → Totals env s' c

theorem Start.sound (h : Start s) : Sound env s := by
  have hforest : Heap.Forest s.toHeap := by
    refine ⟨?_, fun {c} => h.box_lt c, ?_, ?_, ?_, ?_⟩
    · intro c r hr
      rw [h.items] at hr
      cases hr
    · intro c r hr
      rw [h.items] at hr
      cases hr
    · intro c r
      rw [h.items, h.parent]
      exact ⟨nofun, nofun⟩
    · intro c
      rw [h.items]
      exact List.nodup_nil
    · exact fun {c} _ => ⟨_, .top (h.parent c)⟩
  exact sound_of_right hforest fun c => right_nil (h.items c) (h.totalWeight c) (h.ammoCount c)

theorem Sound.totals (h : Sound env s) {c : Ref} (hc : (s.box c).isSome) : Totals env s c := by
  have hweights : s.getWeight env = s.own env + s.totalWeight := funext h.getWeight_eq
  have hheight {x : Ref} {l : List Ref} (habove : Climb.Above s.parent x l) : l.length ≤ s.size := by
    rcases Nat.lt_or_ge x s.size with hlt | hge
    · exact length_le_of_above h.toForest hlt habove
    · cases habove with
      | top => exact Nat.one_le_of_lt (h.box_lt hc)
      | step hup =>
        rw [h.parent_of_ge hge] at hup
        cases hup
  refine ⟨?_, ?_, h.ammoCount c⟩
  · rw [hweights]
    exact h.exact c
  · rw [h.getWeight_eq]
    exact (h.exact.deep_eq (fun x z hx => h.parent_iff.mpr hx) hheight (h.above hc) (Nat.le_add_left ..)).symm

theorem Sound.clone (h : Sound env s) {r : Ref} (hr : r < s.size) (hfits : Fits env s (.clone r)) :
    ∃ s', s.call env (.clone r) = some s' ∧ Sound env s' := by
  rcases hfits with hnone | hclonable
  · have hnull : WeighedHeap.clone env (s.size + 1) s r = none := by
      rw [Thing.made] at hnone
      rw [WeighedHeap.clone, Thing.clone, hnone]
      rfl
    refine ⟨s, ?_, h⟩
    rw [call, hnull]
    rfl
  · obtain ⟨l, habove⟩ : ∃ l, Climb.Above s.parent r l := by
      cases hp : s.parent r with
      | none => exact ⟨_, .top hp⟩
      | some c => exact ⟨_, .step hp (h.above (h.holder (h.parent_iff.mp hp)))⟩
    obtain ⟨s', hrun, hof⟩ := exists_clone h (Extends.refl s) h.toForest (fun z _ => h.right z) hr habove
      (Nat.lt_of_lt_of_le (Nat.lt_succ_self _) (Nat.le_add_left ..)) hclonable
    refine ⟨s', ?_, sound_of_right hof.forest fun z => ?_⟩
    · rw [call, hrun]
      rfl
    · rcases Nat.lt_or_ge z s.size with hlt | hge
      · exact hof.ext.right h.toForest hlt (h.right z)
      · exact hof.right z hge

/-- Every call returns and keeps the totals. -/
theorem Sound.call (h : Sound env s) {call : Call} (hforest : OnForest s call) (hfits : Fits env s call) :
    ∃ s', s.call env call = some s' ∧ Sound env s' := by
  cases call with
  | create t b => exact ⟨_, rfl, h.create t b⟩
  | addThing c index r =>
    by_cases hindex : index < s.capacity c
    · exact h.addThing hforest (hfits hindex) index
    · exact ⟨s, if_pos (Int.not_lt.mp hindex), h⟩
  | internalAddThing c r => exact h.internalAddThing hforest hfits
  | addItemBack c r => exact h.addItemBack hforest hfits
  | updateThing c r itemId count => exact h.updateThing hfits
  | replaceThing c index r => exact h.replaceThing hforest hfits
  | removeThing c r count => exact h.removeThing hfits
  | clone r => exact h.clone hforest hfits

/-- From empty containers on, calls on a forest keep the totals as long as the ammunition can be
counted and clones weigh what their originals weigh. -/
theorem keeps_of_fits (hstart : Start s) {calls : List Call}
    (hforest : Along (step env) (fun o call => ∀ s ∈ o, OnForest s call) (some s) calls)
    (hfits : Along (step env) (fun o call => ∀ s ∈ o, Fits env s call) (some s) calls) :
    Along (step env) (Keeps env) (some s) calls := by
  refine (Along.of_invariant (fun o => ∃ s, o = some s ∧ Sound env s) ?_ calls (some s)
    ⟨s, rfl, hstart.sound⟩ (Along.and calls (some s) hforest hfits)).1
  rintro _ call ⟨s, rfl, hsound⟩ ⟨hforest, hfits⟩
  obtain ⟨s', hcall, hsound'⟩ := hsound.call (hforest s rfl) (hfits s rfl)
  exact ⟨⟨s', hcall, hsound'⟩, s', hcall, fun c hc => hsound'.totals hc⟩

/-! ## A bag and its clone -/

/-- A bag, a coin and an item of a type that is no longer made. -/
def shop : WeightEnv where
  items := fun id =>
    if id = 1 then { id := 1, group := .container } else if id = 2 then { id := 2 }
    else if id = 3 then { id := 3, group := .deprecated } else {}
  weight := fun id => if id = 1 then 1800 else if id = 2 then 10 else if id = 3 then 5 else 0

def nothing : WeighedHeap where
  size := 0
  thing := fun _ => { item := { id := 0 } }

theorem start_nothing : Start nothing :=
  ⟨nofun, fun _ => rfl, fun _ => rfl, fun _ => rfl, fun _ => rfl⟩

def bagAndCoin : List Call :=
  [.create { item := { id := 1 } } (some { maxSize := 8 }), .create { item := { id := 2 } } none, .addThing 0 0 1]

/-- The bag with the coin in it. -/
def filled : WeighedHeap := (bagAndCoin.foldl (step shop) (some nothing)).getD nothing

theorem attachable_coin : ∀ s ∈ (bagAndCoin.take 2).foldl (step shop) (some nothing), Attachable s 0 1 := by
  rintro s hs
  obtain rfl := Option.some.inj hs
  exact ⟨by decide, by decide, by decide, by decide⟩

theorem inside_filled {z : Ref} (h : Inside filled.toHeap 0 z) : z = 0 ∨ z = 1 := by
  obtain ⟨l, habove, hmem⟩ := h
  cases habove with
  | top => exact .inl (List.mem_singleton.mp hmem).symm
  | step hup =>
    by_contra hne
    rw [not_or] at hne
    have hnone : filled.parent z = none := Function.update_of_ne hne.2 ..
    rw [hnone] at hup
    cases hup

theorem clonable_filled : Clonable shop filled 0 := by
  refine ⟨fun z hz => ?_, fun z hz => ?_⟩
  · rcases inside_filled hz with rfl | rfl
    · exact ⟨some .container, _, rfl, by decide, by decide⟩
    · exact ⟨none, _, rfl, by decide, by decide⟩
  · rcases inside_filled hz with rfl | rfl <;> decide

/-- A bag with a coin is cloned. -/
theorem keeps_of_fits_clone : Along (step shop) (Keeps shop) (some nothing) (bagAndCoin ++ [.clone 0]) := by
  refine keeps_of_fits start_nothing
    ⟨fun _ _ => trivial, fun _ _ => trivial, attachable_coin, fun s hs => ?_, trivial⟩
    ⟨fun _ _ => trivial, fun _ _ => trivial, fun s hs _ => ?_, fun s hs => ?_, trivial⟩
  · obtain rfl : filled = s := Option.some.inj hs
    exact Nat.zero_lt_two
  · obtain rfl := Option.some.inj hs
    decide
  · obtain rfl : filled = s := Option.some.inj hs
    exact .inr clonable_filled

/-- The coin becomes an item that is no longer made, and the clone of the bag keeps its weight. -/
theorem not_keeps_clone :
    Along (step shop) (fun o call => ∀ s ∈ o, OnForest s call) (some nothing)
        (bagAndCoin ++ [.updateThing 0 1 3 1, .clone 0]) ∧
      ¬ Along (step shop) (Keeps shop) (some nothing) (bagAndCoin ++ [.updateThing 0 1 3 1, .clone 0]) := by
  refine ⟨⟨fun _ _ => trivial, fun _ _ => trivial, attachable_coin, fun _ _ => trivial, fun s hs => ?_, trivial⟩, ?_⟩
  · obtain rfl := Option.some.inj hs
    exact Nat.zero_lt_two
  · rintro ⟨-, -, -, -, ⟨s', hstep, hkeeps⟩, -⟩
    obtain rfl := Option.some.inj hstep
    have htotal := (hkeeps 2 (by decide)).totalWeight
    revert htotal
    decide

end WeighedHeap

end ForgottenServer
