import ForgottenServer.Lib.WeakLinks
import Mathlib

/-! # Masters and summons

A creature has a reference to its master and a list of references to its summons. The references are weak: they can
be locked only while the creature is owned by a `shared_ptr`, which is not so for a creature on the stack, and no longer
so when a creature is destroyed. What a creature attacks and follows is left out. -/

open WeakLinks

namespace ForgottenServer.Summons

/-- A creature that is not there, one that no `shared_ptr` owns, and one that is owned. -/
inductive Lifetime where
  | absent
  | unowned
  | owned
deriving DecidableEq

/-- The creatures by their numbers, which are not used twice. -/
structure World where
  lifetime : Nat → Lifetime := fun _ => .absent
  master : Nat → Option Nat := fun _ => none
  summons : Nat → List Nat := fun _ => []
  instanceID : Nat → UInt32 := fun _ => 0
  created : Nat := 0

namespace World

/-- A reference to the creature can be locked. -/
def live (s : World) (creature : Nat) : Bool := s.lifetime creature = .owned

def lock (s : World) (ref : Option Nat) : Option Nat := ref.filter s.live

def setSummons (s : World) (creature : Nat) (summons : List Nat) : World :=
  { s with summons := Function.update s.summons creature summons }

def resetMaster (s : World) (creature : Nat) (master : Option Nat) : World :=
  { s with master := Function.update s.master creature master }

def setInstanceID (s : World) (creature : Nat) (id : UInt32) : World :=
  { s with instanceID := Function.update s.instanceID creature id }

def removeMaster (s : World) (self : Nat) : World :=
  let oldMaster := s.lock (s.master self)
  let s := s.resetMaster self none
  match oldMaster with
  | none => s
  | some oldMaster => s.setSummons oldMaster ((s.summons oldMaster).filter fun summon => s.live summon && summon ≠ self)

/-- The rest of `setMaster`, once the creature has left its old master. -/
def join (s : World) (self newMaster : Nat) : Bool × World :=
  let newMasterSummons := (s.summons newMaster).filter s.live
  let s := s.setSummons newMaster newMasterSummons
  let alreadySummoned := newMasterSummons.any fun summon => s.live summon && summon = self
  if s.live self = false ∨ s.live newMaster = false then (false, s)
  else
    let s := if alreadySummoned then s else s.setSummons newMaster (newMasterSummons ++ [self])
    let s := if s.instanceID self ≠ s.instanceID newMaster then s.setInstanceID self (s.instanceID newMaster) else s
    (true, s.resetMaster self (some newMaster))

def setMaster (s : World) (self : Nat) (newMaster : Option Nat) : Bool × World :=
  let oldMaster := s.lock (s.master self)
  match newMaster with
  | none => if oldMaster = none then (false, s) else (true, s.removeMaster self)
  | some newMaster =>
    if oldMaster = some newMaster then (true, s)
    else if oldMaster = none then s.join self newMaster
    else (s.removeMaster self).join self newMaster

def create (s : World) (lifetime : Lifetime) (instanceID : UInt32) : World :=
  { s with
    lifetime := Function.update s.lifetime s.created lifetime
    instanceID := Function.update s.instanceID s.created instanceID
    created := s.created + 1 }

/-- A turn of the loop over the summons of a creature that is destroyed. -/
def release (s : World) (summon : Nat) : World := if s.live summon then s.removeMaster summon else s

/-- The references to the creature expire, and its destructor runs. -/
def destroy (s : World) (self : Nat) : World :=
  let s := { s with lifetime := Function.update s.lifetime self .unowned }
  let s := s.removeMaster self
  let summonRefs := s.summons self
  let s := s.setSummons self []
  let s := summonRefs.foldl release s
  { s with lifetime := Function.update s.lifetime self .absent }

end World

inductive Event where
  | create (onStack : Bool) (instanceID : UInt32)
  | setMaster (creature : Nat) (newMaster : Option Nat)
  | removeMaster (creature : Nat)
  | destroy (creature : Nat)

/-- No call is made on a creature that is not there, or with one as its master. -/
def after (s : World) : Event → World
  | .create onStack instanceID => s.create (if onStack then .unowned else .owned) instanceID
  | .setMaster creature newMaster =>
    if s.lifetime creature ≠ .absent ∧ ∀ m ∈ newMaster, s.lifetime m ≠ .absent then (s.setMaster creature newMaster).2
    else s
  | .removeMaster creature => if s.lifetime creature ≠ .absent then s.removeMaster creature else s
  | .destroy creature => if s.lifetime creature ≠ .absent then s.destroy creature else s

/-! ## Both sides -/

/-- Both sides of every link are there, and no number that is still to come is in use. -/
structure Consistent (s : World) : Prop where
  linked : Linked s.live s.master s.summons
  fresh : ∀ c, s.created ≤ c → s.lifetime c = .absent
  masterless : ∀ c, s.created ≤ c → s.master c = none
  known : ∀ m c, s.master c = some m → m < s.created

variable {s : World} {m c self : Nat}

theorem lock_eq_some {s : World} {ref : Option Nat} : s.lock ref = some m ↔ ref = some m ∧ s.live m = true := by
  rw [World.lock, Option.filter_eq_some_iff]

theorem Consistent.lock_master (h : Consistent s) : s.lock (s.master c) = some m ↔ c ∈ s.summons m := by
  rw [lock_eq_some, h.linked.mem_iff, and_comm]

theorem Consistent.lock_master_none (h : Consistent s) (hnone : s.lock (s.master c) = none) (m : Nat) :
    c ∉ s.summons m := by
  rw [← h.lock_master, hnone]
  exact (Option.some_ne_none m).symm

/-- All summons are live. -/
theorem Consistent.filter_live (h : Consistent s) (m : Nat) (p : Nat → Bool) :
    (s.summons m).filter (fun summon => s.live summon && p summon) = (s.summons m).filter p := by
  refine List.filter_congr fun summon hsummon => ?_
  rw [((h.linked.mem m summon).mp hsummon).1, Bool.true_and]

theorem Consistent.filter_live_eq (h : Consistent s) (m : Nat) : (s.summons m).filter s.live = s.summons m := by
  have hboth := h.filter_live m fun _ => true
  simpa only [Bool.and_true, List.filter_true] using hboth

/-- A creature without a master, which is in no list. -/
def unlinked (s : World) (self : Nat) : World :=
  { s with master := Function.update s.master self none, summons := fun m => (s.summons m).filter (· ≠ self) }

theorem filter_ne_of_notMem {l : List Nat} (h : self ∉ l) : l.filter (· ≠ self) = l :=
  List.filter_eq_self.mpr fun _ hc => decide_eq_true fun heq => h (heq ▸ hc)

theorem Consistent.removeMaster_eq (h : Consistent s) (self : Nat) : s.removeMaster self = unlinked s self := by
  unfold World.removeMaster unlinked
  cases hold : s.lock (s.master self) with
  | none =>
    have hsummons : (fun m => (s.summons m).filter (· ≠ self)) = s.summons :=
      funext fun m => filter_ne_of_notMem (h.lock_master_none hold m)
    rw [hsummons]
    rfl
  | some old =>
    have hsummons :
        Function.update s.summons old ((s.summons old).filter fun summon => s.live summon && summon ≠ self) =
          fun m => (s.summons m).filter (· ≠ self) := by
      funext m
      by_cases hm : m = old
      · rw [hm, Function.update_self, h.filter_live]
      · rw [Function.update_of_ne hm]
        refine (filter_ne_of_notMem fun hmem => hm ?_).symm
        exact h.linked.unique hmem (h.lock_master.mp hold)
    rw [← hsummons]
    rfl

theorem Consistent.unlinked (h : Consistent s) (self : Nat) : Consistent (unlinked s self) where
  linked := h.linked.unlink self
  fresh := h.fresh
  masterless c hc := by
    simp only [Summons.unlinked, Function.update_apply, h.masterless c hc, ite_self]
  known m c hm := by
    simp only [Summons.unlinked, Function.update_apply] at hm
    split at hm
    · cases hm
    · exact h.known m c hm

theorem Consistent.removeMaster (h : Consistent s) (self : Nat) : Consistent (s.removeMaster self) := by
  rw [h.removeMaster_eq]
  exact h.unlinked self

/-! ## setMaster -/

theorem Consistent.lt_created (h : Consistent s) (hlive : s.live m = true) : m < s.created := by
  by_contra hge
  rw [World.live, h.fresh m (not_lt.mp hge)] at hlive
  cases hlive

/-- A creature whose master is gone gets a new one, if both can be locked. -/
theorem Consistent.link (h : Consistent s) (hfree : s.lock (s.master self) = none) (hself : s.live self = true)
    (hm : s.live m = true) : Consistent ((s.setSummons m (s.summons m ++ [self])).resetMaster self (some m)) where
  linked := h.linked.link (h.lock_master_none hfree) hself hm
  fresh := h.fresh
  masterless c hc := by
    have hne : c ≠ self := fun heq => absurd (h.lt_created hself) (not_lt.mpr (heq ▸ hc))
    exact (Function.update_of_ne hne _ _).trans (h.masterless c hc)
  known m' c hm' := by
    simp only [World.resetMaster, World.setSummons, Function.update_apply] at hm'
    split at hm'
    · rw [← Option.some.inj hm']
      exact h.lt_created hm
    · exact h.known m' c hm'

theorem Consistent.setInstanceID (h : Consistent s) (c : Nat) (id : UInt32) : Consistent (s.setInstanceID c id) :=
  ⟨h.linked, h.fresh, h.masterless, h.known⟩

theorem Consistent.join (h : Consistent s) (hfree : s.lock (s.master self) = none) (m : Nat) :
    Consistent (s.join self m).2 := by
  have hall := h.filter_live_eq m
  have hsame : s.setSummons m (s.summons m) = s := by rw [World.setSummons, Function.update_eq_self]
  have hnew : ((s.summons m).any fun summon => s.live summon && summon = self) = false := by
    rw [List.any_eq_false]
    intro summon hsummon hself
    simp only [Bool.and_eq_true, decide_eq_true_eq] at hself
    exact h.lock_master_none hfree m (hself.2 ▸ hsummon)
  simp only [World.join, hall, hsame, hnew, Bool.false_eq_true, if_false]
  split
  · exact h
  · rename_i hboth
    simp only [not_or, Bool.not_eq_false] at hboth
    have hlink := h.link hfree hboth.1 hboth.2
    split
    · exact hlink.setInstanceID self _
    · exact hlink

theorem Consistent.setMaster (h : Consistent s) (self : Nat) (newMaster : Option Nat) :
    Consistent (s.setMaster self newMaster).2 := by
  unfold World.setMaster
  cases newMaster with
  | none =>
    dsimp only
    split
    · exact h
    · exact h.removeMaster self
  | some m =>
    dsimp only
    split
    · exact h
    · split
      · rename_i hfree
        exact h.join hfree m
      · have hfree : (s.removeMaster self).lock ((s.removeMaster self).master self) = none := by
          rw [h.removeMaster_eq]
          change (Summons.unlinked s self).lock (Function.update s.master self none self) = none
          rw [Function.update_self]
          rfl
        exact (h.removeMaster self).join hfree m

/-! ## Creation and destruction -/

theorem Consistent.create (h : Consistent s) (lifetime : Lifetime) (instanceID : UInt32) :
    Consistent (s.create lifetime instanceID) where
  linked := by
    have hlive : (s.create lifetime instanceID).live =
        Function.update s.live s.created (decide (lifetime = .owned)) := by
      funext c
      simp only [World.create, World.live, Function.update_apply]
      split <;> rfl
    rw [hlive]
    refine h.linked.add (h.masterless _ le_rfl) (fun c hc => ?_) _
    exact absurd (h.known _ c hc) (lt_irrefl _)
  fresh c hc := (Function.update_of_ne (Nat.ne_of_gt hc) _ _).trans (h.fresh c (Nat.le_of_succ_le hc))
  masterless c hc := h.masterless c (Nat.le_of_succ_le hc)
  known m c hm := Nat.lt_succ_of_lt (h.known m c hm)

/-- The loop only resets the references of summons whose master cannot be locked any more. -/
theorem foldl_release (refs : List Nat) : ∀ {s : World}, (∀ c ∈ refs, s.lock (s.master c) = none) →
    (∀ c ∈ refs, s.live c = false → s.master c = none) →
    refs.foldl World.release s = { s with master := fun c => if c ∈ refs then none else s.master c } := by
  induction refs with
  | nil =>
    intro s _ _
    simp
  | cons r refs ih =>
    intro s hlock hdead
    have hrelease : s.release r = s.resetMaster r none := by
      rw [World.release]
      split
      · rw [World.removeMaster, hlock r List.mem_cons_self]
      · rename_i hr
        have hnone := hdead r List.mem_cons_self (Bool.eq_false_of_not_eq_true hr)
        rw [World.resetMaster, ← hnone, Function.update_eq_self]
    have hmaster (c : Nat) : (s.resetMaster r none).master c = if c = r then none else s.master c :=
      Function.update_apply ..
    rw [List.foldl_cons, hrelease, ih]
    · congr 1
      funext c
      rw [hmaster]
      by_cases hc : c = r <;> simp [hc]
    · intro c hc
      rw [hmaster]
      split
      · rfl
      · exact hlock c (List.mem_cons_of_mem r hc)
    · intro c hc hlive
      rw [hmaster]
      split
      · rfl
      · exact hdead c (List.mem_cons_of_mem r hc) hlive

/-- What is left when the creature is gone: it is nobody's summon, and nobody's master. -/
def destroyed (s : World) (self : Nat) : World :=
  { s with
    lifetime := Function.update s.lifetime self .absent
    master := fun c => if c = self ∨ c ∈ s.summons self then none else s.master c
    summons := fun m => if m = self then [] else (s.summons m).filter (· ≠ self) }

/-- The references of the creature have expired. -/
def expired (s : World) (self : Nat) : World := { s with lifetime := Function.update s.lifetime self .unowned }

theorem live_expired (s : World) (self c : Nat) : (expired s self).live c = (s.live c && c ≠ self) := by
  simp only [expired, World.live, Function.update_apply]
  by_cases hc : c = self <;> simp [hc]

theorem lock_expired {ref : Option Nat} : (expired s self).lock ref = some m ↔
    ref = some m ∧ s.live m = true ∧ m ≠ self := by
  rw [lock_eq_some, live_expired, Bool.and_eq_true, decide_eq_true_eq]

/-- The references of the creature have expired, but those to its master have not. -/
theorem Consistent.removeMaster_expired (h : Consistent s) (self : Nat) :
    (expired s self).removeMaster self =
      { expired s self with
        master := Function.update s.master self none
        summons := fun m => if m = self then s.summons self else (s.summons m).filter (· ≠ self) } := by
  have hother {m : Nat} (hm : m ≠ self) (hlock : (expired s self).lock (s.master self) ≠ some m) :
      (s.summons m).filter (· ≠ self) = s.summons m := by
    refine filter_ne_of_notMem fun hmem => hlock (lock_expired.mpr ?_)
    obtain ⟨hlive, hmaster⟩ := h.linked.mem_iff.mp hmem
    exact ⟨hmaster, hlive, hm⟩
  unfold World.removeMaster
  cases hold : (expired s self).lock ((expired s self).master self) with
  | none =>
    have hsummons : (fun m => if m = self then s.summons self else (s.summons m).filter (· ≠ self)) = s.summons := by
      funext m
      by_cases hm : m = self
      · rw [if_pos hm, hm]
      · rw [if_neg hm]
        exact hother hm fun hlock => Option.some_ne_none m (hlock.symm.trans hold)
    rw [hsummons]
    rfl
  | some old =>
    have hne : old ≠ self := (lock_expired.mp hold).2.2
    have hlist : (s.summons old).filter (fun summon => (expired s self).live summon && summon ≠ self) =
        (s.summons old).filter (· ≠ self) := by
      refine (List.filter_congr fun summon _ => ?_).trans (h.filter_live old (· ≠ self))
      rw [live_expired, Bool.and_assoc, Bool.and_self]
    have hsummons : Function.update s.summons old ((s.summons old).filter fun summon =>
        (expired s self).live summon && summon ≠ self) =
          fun m => if m = self then s.summons self else (s.summons m).filter (· ≠ self) := by
      funext m
      rw [hlist, Function.update_apply]
      by_cases hm : m = self
      · rw [if_pos hm, if_neg (hm ▸ hne.symm), hm]
      · rw [if_neg hm]
        split
        · rename_i heq
          rw [heq]
        · rename_i heq
          exact (hother hm fun hlock => heq (Option.some.inj (hlock.symm.trans hold))).symm
    rw [← hsummons]
    rfl

theorem Consistent.destroy_eq (h : Consistent s) (self : Nat) : s.destroy self = destroyed s self := by
  have hmaster {c : Nat} (hc : c ∈ s.summons self) : s.master c = some self := (h.linked.mem_iff.mp hc).2
  unfold World.destroy
  rw [← expired]
  simp only [h.removeMaster_expired, if_true]
  rw [foldl_release]
  · unfold Summons.destroyed
    simp only [expired, World.setSummons, Function.update_idem, World.mk.injEq, true_and, and_true]
    constructor
    · funext c
      rw [Function.update_apply]
      by_cases hc : c = self <;> simp [hc]
    · funext m
      rw [Function.update_apply]
      split <;> rfl
  · intro c hc
    refine Option.eq_none_iff_forall_ne_some.mpr fun m hlock => ?_
    obtain ⟨hlocked, hlive⟩ := lock_eq_some.mp hlock
    have hexpired : (expired s self).live m = true := hlive
    simp only [World.setSummons, Function.update_apply] at hlocked
    split at hlocked
    · cases hlocked
    · rw [hmaster hc] at hlocked
      rw [← Option.some.inj hlocked, live_expired] at hexpired
      simp at hexpired
  · intro c hc hdead
    have hexpired : (expired s self).live c = false := hdead
    rw [live_expired, ((h.linked.mem self c).mp hc).1, Bool.true_and] at hexpired
    have hself : c = self := not_not.mp (of_decide_eq_false hexpired)
    simp only [World.setSummons, hself, Function.update_self]

theorem Consistent.destroyed (h : Consistent s) (self : Nat) : Consistent (destroyed s self) where
  linked := by
    have hlive : (Summons.destroyed s self).live = fun c => s.live c && c ≠ self := by
      funext c
      simp only [Summons.destroyed, World.live, Function.update_apply]
      by_cases hc : c = self <;> simp [hc]
    rw [hlive]
    exact h.linked.bury self
  fresh c hc := by
    simp only [Summons.destroyed, Function.update_apply]
    split
    · rfl
    · exact h.fresh c hc
  masterless c hc := by
    simp only [Summons.destroyed]
    split
    · rfl
    · exact h.masterless c hc
  known m c hm := by
    simp only [Summons.destroyed] at hm
    split at hm
    · cases hm
    · exact h.known m c hm

/-! ## All events -/

theorem Consistent.after (h : Consistent s) (e : Event) : Consistent (after s e) := by
  cases e with
  | create onStack instanceID => exact h.create _ instanceID
  | setMaster creature newMaster =>
    rw [Summons.after]
    split
    · exact h.setMaster creature newMaster
    · exact h
  | removeMaster creature =>
    rw [Summons.after]
    split
    · exact h.removeMaster creature
    · exact h
  | destroy creature =>
    rw [Summons.after]
    split
    · rw [h.destroy_eq]
      exact h.destroyed creature
    · exact h

theorem consistent_empty : Consistent {} where
  linked := Linked.empty _
  fresh _ _ := rfl
  masterless _ _ := rfl
  known _ _ hm := absurd hm (Option.some_ne_none _).symm

theorem consistent_events (events : List Event) : Consistent (events.foldl after {}) := by
  induction events using List.reverseRecOn with
  | nil => exact consistent_empty
  | append_singleton events e ih =>
    rw [List.foldl_append]
    exact ih.after e

/-- After all events a creature is the live master of another if and only if it has a live reference to it in its list.
Then it has one such reference, and no other creature has one. -/
theorem summons_symmetric (events : List Event) :
    let s := events.foldl after {}
    let liveSummons := fun m => (s.summons m).filter s.live
    ∀ m c, (s.lock (s.master c) = some m ↔ c ∈ liveSummons m) ∧
      (s.lock (s.master c) = some m → (liveSummons m).count c = 1) ∧
      ∀ m', c ∈ liveSummons m → c ∈ liveSummons m' → m = m' := by
  intro s liveSummons m c
  have h : Consistent s := consistent_events events
  have hall (m : Nat) : liveSummons m = s.summons m := h.filter_live_eq m
  simp only [hall]
  refine ⟨h.lock_master, fun hlock => ?_, fun m' hm hm' => h.linked.unique hm hm'⟩
  exact List.count_eq_one_of_mem (h.linked.nodup m) (h.lock_master.mp hlock)

end ForgottenServer.Summons
