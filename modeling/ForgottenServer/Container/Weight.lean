import Mathlib
import ForgottenServer.Container.Forest
import ForgottenServer.Lib.Runs
import ForgottenServer.Lib.Subtotals

/-! # The weight and the ammunition that a container keeps

Every container keeps the weight of its content and the count of its ammunition
(`totalWeight` and `ammoCount` of `container.cpp`). A change adds the difference in weight to
the container and to every container above it; the count of the ammunition is its own. The
differences of the code are signed and its totals are not, both wrap at 32 bits. -/

namespace ForgottenServer

/-- The item table with its column of weights. -/
structure WeightEnv extends GameEnv where
  weight : UInt16 → BitVec 32

structure WeighedHeap extends Heap where
  totalWeight : Ref → BitVec 32 := fun _ => 0
  ammoCount : Ref → Nat := fun _ => 0

namespace Thing

variable (env : WeightEnv) (t : Thing)

def getBaseWeight : BitVec 32 :=
  if t.hasAttribute (.int .weight) then (t.item.getIntAttr .weight).setWidth 32 else env.weight t.id

/-- `Item::getWeight`. -/
def getWeight : BitVec 32 :=
  if (env.items t.id).stackable then t.getBaseWeight env * BitVec.ofNat 32 (max 1 t.getItemCount)
  else t.getBaseWeight env

/-- What an item adds to the ammunition of its container. -/
def ammo : Nat := if (env.items t.id).weaponType = .ammo then t.getItemCount else 0

end Thing

namespace WeighedHeap

variable (env : WeightEnv) (s : WeighedHeap)

/-- The weight of an object without what it holds. -/
def own (r : Ref) : BitVec 32 := (s.thing r).getWeight env

def ammo (r : Ref) : Nat := (s.thing r).ammo env

/-- `getWeight`, which `Container` overrides. -/
def getWeight (r : Ref) : BitVec 32 := if (s.box r).isSome then s.own env r + s.totalWeight r else s.own env r

def updateAmmoCount (c r : Ref) (diff : Int) : WeighedHeap :=
  if (s.type env.toGameEnv r).weaponType ≠ .ammo ∨ diff = 0 then s
  else if 0 < diff then
    { s with ammoCount := Function.update s.ammoCount c ((s.ammoCount c + diff.toNat) % 2 ^ 32) }
  else { s with ammoCount := Function.update s.ammoCount c (s.ammoCount c - min (s.ammoCount c) (-diff).toNat) }

/-- The container and every container above it. Where the parents go around, it never returns. -/
def updateItemWeight (c : Ref) (diff : BitVec 32) : Option WeighedHeap := do
  let totalWeight ← Subtotals.raise s.parent diff s.size c s.totalWeight
  pure { s with totalWeight }

/-! ## Changes -/

/-- The data of an object changes. -/
def withThing (r : Ref) (t : Thing) : WeighedHeap := { s with toHeap := s.setThing r t }

/-- A new object, without a parent. -/
def create (t : Thing) (b : Option Box) : WeighedHeap where
  toHeap := s.alloc t b
  totalWeight := Function.update s.totalWeight s.size 0
  ammoCount := Function.update s.ammoCount s.size 0

/-- An object comes to the front. -/
def addFront (c r : Ref) : Option WeighedHeap :=
  let s := { s with toHeap := s.push c r }
  let s := s.updateAmmoCount env c r (s.getItemCount r)
  s.updateItemWeight c (s.getWeight env r)

/-- The index may only be too large. -/
def addThing (c : Ref) (index : Int) (r : Ref) : Option WeighedHeap :=
  if (s.capacity c : Int) ≤ index then some s else s.addFront env c r

/-- A stack in a reward container loses its date. -/
def internalAddThing (c r : Ref) : Option WeighedHeap := do
  let s ← s.addFront env c r
  if (s.thing c).id = ITEM_REWARD_CONTAINER ∧ s.isStackable env.toGameEnv r then
    pure (s.withThing r ((s.thing r).removeAttribute .date))
  else pure s

def addItem (c r : Ref) : WeighedHeap :=
  let s := { s with toHeap := s.attach c r (s.items c ++ [r]) }
  s.updateAmmoCount env c r (s.getItemCount r)

def addItemBack (c r : Ref) : Option WeighedHeap :=
  let s := s.addItem env c r
  s.updateItemWeight c (s.getWeight env r)

/-- `updateThing`: the object takes another id and sub type. -/
def updated (r : Ref) (itemId : UInt16) (count : BitVec 32) : Thing :=
  ((s.thing r).setID env.toGameEnv itemId).setSubType env.items (count.setWidth 16)

def updateThing (c r : Ref) (itemId : UInt16) (count : BitVec 32) : Option WeighedHeap :=
  if r ∉ s.items c then some s
  else
    let oldWeight := s.getWeight env r
    let s' := s.updateAmmoCount env c r (-s.getItemCount r)
    let s' := s'.withThing r (s.updated env r itemId count)
    let s' := s'.updateAmmoCount env c r (s'.getItemCount r)
    s'.updateItemWeight c (s'.getWeight env r - oldWeight)

def replaceThing (c : Ref) (index : BitVec 32) (r : Ref) : Option WeighedHeap :=
  match (s.items c)[index.toNat]? with
  | none => some s
  | some replaced => do
    let s' := { s with toHeap := s.attach c r ((s.items c).set index.toNat r) }
    let s' ← s'.updateItemWeight c (s'.getWeight env r - s'.getWeight env replaced)
    let s' := s'.updateAmmoCount env c replaced (-s'.getItemCount replaced)
    let s' := s'.updateAmmoCount env c r (s'.getItemCount r)
    pure { s' with parent := Function.update s'.parent replaced none }

/-- The rest of a stack: the difference is taken as signed, and cut to a byte. -/
def newCount (r : Ref) (count : BitVec 32) : BitVec 8 :=
  let rest := BitVec.ofNat 32 (s.getItemCount r) - count
  if rest.msb then 0 else rest.setWidth 8

def removeThing (c r : Ref) (count : BitVec 32) : Option WeighedHeap :=
  if r ∉ s.items c then some s
  else if s.isStackable env.toGameEnv r ∧ count.toNat ≠ s.getItemCount r then
    let newCount := (s.newCount r count).toNat
    let oldWeight := s.getWeight env r
    let s' := s.updateAmmoCount env c r (-((s.getItemCount r : Int) - newCount))
    let s' := s'.withThing r ((s.thing r).setItemCount newCount)
    s'.updateItemWeight c (s'.getWeight env r - oldWeight)
  else do
    let s' ← s.updateItemWeight c (-s.getWeight env r)
    let s' := s'.updateAmmoCount env c r (-s'.getItemCount r)
    pure { s' with toHeap := s'.erase c r }

/-- One turn of the loop of `clone`; a null pointer is not added. -/
def addClone (clone : WeighedHeap → Ref → Option (Ref × WeighedHeap)) (new : Ref) (s : WeighedHeap) (child : Ref) :
    WeighedHeap :=
  match clone s child with
  | none => s
  | some (r, s) => s.addItem env new r

/-- `clone`: clones of everything inside are added without their weight, which is taken over from
the original. A null pointer is `none`. -/
def clone : Nat → WeighedHeap → Ref → Option (Ref × WeighedHeap)
  | 0, _, _ => none
  | fuel + 1, s, r => do
    let (cls, t) ← (s.thing r).clone env.toGameEnv
    let new := s.size
    let s' := s.create t (cls.map (Heap.newBox env.toGameEnv t.id))
    if (s.box r).isNone then pure (new, s')
    else
      let s' := (s.items r).foldl (addClone env (clone fuel) new) s'
      pure (new, { s' with totalWeight := Function.update s'.totalWeight new (s.totalWeight r) })

/-! ## Runs -/

inductive Call where
  | create (t : Thing) (b : Option Box)
  | addThing (c : Ref) (index : Int) (r : Ref)
  | internalAddThing (c r : Ref)
  | addItemBack (c r : Ref)
  | updateThing (c r : Ref) (itemId : UInt16) (count : BitVec 32)
  | replaceThing (c : Ref) (index : BitVec 32) (r : Ref)
  | removeThing (c r : Ref) (count : BitVec 32)
  | clone (r : Ref)

/-- A null pointer leaves everything as it is. -/
def call : Call → Option WeighedHeap
  | .create t b => some (s.create t b)
  | .addThing c index r => s.addThing env c index r
  | .internalAddThing c r => s.internalAddThing env c r
  | .addItemBack c r => s.addItemBack env c r
  | .updateThing c r itemId count => s.updateThing env c r itemId count
  | .replaceThing c index r => s.replaceThing env c index r
  | .removeThing c r count => s.removeThing env c r count
  | .clone r => some (((clone env (s.size + 1) s r).map Prod.snd).getD s)

/-! ## What has to hold -/

variable {env s}

/-- The lists and the parents agree, and the totals are those of the lists. -/
structure Sound (env : WeightEnv) (s : WeighedHeap) : Prop extends Heap.Forest s.toHeap where
  exact : Subtotals.Exact s.items (s.own env) s.totalWeight
  ammoCount : ∀ c, s.ammoCount c = Subtotals.inside s.items (s.ammo env) c

/-- An object that a container can take: it has no parent, and is not the container or above it. -/
structure Attachable (s : WeighedHeap) (c r : Ref) : Prop where
  box : (s.box c).isSome
  lt : r < s.size
  root : s.parent r = none
  apart : r ∉ c :: s.parents c

/-- The ammunition of a container after an object in it has become another. -/
def recount (env : WeightEnv) (s : WeighedHeap) (c r : Ref) (t : Thing) : Nat := s.ammoCount c - s.ammo env r + t.ammo env

/-! ## The ammunition -/

theorem updateAmmoCount_add {c r : Ref} {n : Nat}
    (h : s.ammoCount c + (if (s.type env.toGameEnv r).weaponType = .ammo then n else 0) < 2 ^ 32) :
    s.updateAmmoCount env c r n = { s with
      ammoCount := Function.update s.ammoCount c
        (s.ammoCount c + if (s.type env.toGameEnv r).weaponType = .ammo then n else 0) } := by
  rw [updateAmmoCount]
  by_cases hammo : (s.type env.toGameEnv r).weaponType = .ammo
  · rw [if_pos hammo] at h ⊢
    rcases Nat.eq_zero_or_pos n with rfl | hn
    · rw [if_pos (.inr rfl), Nat.add_zero, Function.update_eq_self]
    · have hne : ¬ ((s.type env.toGameEnv r).weaponType ≠ .ammo ∨ (n : Int) = 0) := by
        rintro (hne | hzero)
        · exact hne hammo
        · omega
      rw [if_neg hne, if_pos (by omega), Int.toNat_natCast, Nat.mod_eq_of_lt h]
  · rw [if_pos (.inl hammo), if_neg hammo, Nat.add_zero, Function.update_eq_self]

theorem updateAmmoCount_sub {c r : Ref} {n : Nat} :
    s.updateAmmoCount env c r (-n) = { s with
      ammoCount := Function.update s.ammoCount c
        (s.ammoCount c - if (s.type env.toGameEnv r).weaponType = .ammo then n else 0) } := by
  rw [updateAmmoCount]
  by_cases hammo : (s.type env.toGameEnv r).weaponType = .ammo
  · rw [if_pos hammo]
    rcases Nat.eq_zero_or_pos n with rfl | hn
    · rw [if_pos (.inr rfl), Nat.sub_zero, Function.update_eq_self]
    · have hne : ¬ ((s.type env.toGameEnv r).weaponType ≠ .ammo ∨ -(n : Int) = 0) := by
        rintro (hne | hzero)
        · exact hne hammo
        · omega
      rw [if_neg hne, if_neg (by omega), Int.neg_neg, Int.toNat_natCast]
      congr 2
      omega
  · rw [if_pos (.inl hammo), if_neg hammo, Nat.sub_zero, Function.update_eq_self]

/-! ## The weight -/

/-- A difference that is off at one container is made good by adding it there. -/
theorem updateItemWeight_of_off {c : Ref} {d : BitVec 32} {l : List Ref} {kids : Ref → List Ref} {own : Ref → BitVec 32}
    (habove : Climb.Above s.parent c l) (hlen : l.length ≤ s.size) (hnodup : ∀ z, (kids z).Nodup)
    (hkids : ∀ y ∈ l, ∀ z, y ∈ kids z ↔ s.parent y = some z) (hoff : Subtotals.OffAt kids own s.totalWeight c d) :
    ∃ w, s.updateItemWeight c d = some { s with totalWeight := w } ∧ Subtotals.Exact kids own w := by
  obtain ⟨w, hraise, hexact⟩ := hoff.raise_exact habove hnodup hlen hkids
  refine ⟨w, ?_, hexact⟩
  rw [updateItemWeight, hraise]
  rfl

namespace Sound

variable (h : Sound env s)
include h

theorem totalWeight_of_not_box {c : Ref} (hc : (s.box c).isSome = false) : s.totalWeight c = 0 := by
  rw [h.exact c, Subtotals.inside, h.items_of_not_box hc]
  rfl

theorem getWeight_eq (r : Ref) : s.getWeight env r = s.own env r + s.totalWeight r := by
  rw [getWeight]
  split
  · rfl
  · rename_i hbox
    rw [h.totalWeight_of_not_box (Bool.eq_false_iff.mpr hbox), add_zero]

theorem length_above {c : Ref} (hc : (s.box c).isSome) : (c :: s.parents c).length ≤ s.size := by
  obtain ⟨l, hl, habove⟩ := h.climb (h.box_lt hc) (h.ends hc)
  rw [(h.above hc).unique habove]
  exact Climb.length_of_climb hl

end Sound

end WeighedHeap

end ForgottenServer
