import Mathlib

/-! # Hash consing with weak references

A table refers to values that may be gone: for each hash a first reference, and a list for the
values that share the hash of another. `lock` gives the value of a reference while it is there.

A value that is asked for is looked up under its hash. A first reference whose value is gone
makes room. What is not found is stored under a new reference. -/

namespace HashConsing

/-- When two values count as one, and a hash that does not tell these apart. -/
structure Hashing (V H : Type) where
  eq : V → V → Bool
  hash : V → H
  refl : ∀ v, eq v v = true
  symm : ∀ v w, eq v w = true → eq w v = true
  trans : ∀ u v w, eq u v = true → eq v w = true → eq u w = true
  hash_eq : ∀ v w, eq v w = true → hash v = hash w

structure Table (H R : Type) where
  primary : H → Option R := fun _ => none
  collisions : List (H × R) := []

namespace Table

variable {H R V : Type}

def Has (t : Table H R) (h : H) (r : R) : Prop := t.primary h = some r ∨ (h, r) ∈ t.collisions

/-- Without the references that are gone. -/
def cleanup (lock : R → Option V) (t : Table H R) : Table H R where
  primary h := (t.primary h).filter fun r => (lock r).isSome
  collisions := t.collisions.filter fun e => (lock e.2).isSome

section Intern

variable [DecidableEq H]

def setPrimary (t : Table H R) (h : H) (first : Option R) : Table H R :=
  { t with primary := fun h' => if h' = h then first else t.primary h' }

/-- The first reference under `h`: whether it matches, whether its value is there, and the table
without it where it is gone. -/
def lookPrimary (lock : R → Option V) (eq : V → V → Bool) (h : H) (v : V) (t : Table H R) :
    Option R × Bool × Table H R :=
  match t.primary h with
  | none => (none, false, t)
  | some r =>
    match lock r with
    | none => (none, false, t.setPrimary h none)
    | some cached => if eq cached v then (some r, true, t) else (none, true, t)

def findCollision (lock : R → Option V) (eq : V → V → Bool) (h : H) (v : V) (t : Table H R) : Option R :=
  (t.collisions.find? fun e => e.1 = h && (lock e.2).any fun cached => eq cached v).map Prod.snd

/-- The reference that is found, or none when `fresh` was put into the table. -/
def intern (lock : R → Option V) (eq : V → V → Bool) (fresh : R) (h : H) (v : V) (t : Table H R) :
    Option R × Table H R :=
  match lookPrimary lock eq h v t with
  | (some r, _, t') => (some r, t')
  | (none, hasPrimary, t') =>
    match findCollision lock eq h v t' with
    | some r => (some r, t')
    | none =>
      if hasPrimary then (none, { t' with collisions := t'.collisions ++ [(h, fresh)] })
      else (none, t'.setPrimary h (some fresh))

end Intern

theorem not_has_empty (h : H) (r : R) : ¬({} : Table H R).Has h r := by simp [Has]

/-! ## What a step does to the references -/

/-- `t'` has references of `t` only, and all whose value is there. -/
structure Kept (lock : R → Option V) (t t' : Table H R) : Prop where
  sub : ∀ {h r}, t'.Has h r → t.Has h r
  keep : ∀ {h r v}, t.Has h r → lock r = some v → t'.Has h r

variable {lock lock' : R → Option V} {eq : V → V → Bool} {t t' : Table H R} {h : H} {v : V} {r fresh : R}

theorem Kept.refl (lock : R → Option V) (t : Table H R) : Kept lock t t := ⟨fun hr => hr, fun hr _ => hr⟩

theorem Kept.cleanup (lock : R → Option V) (t : Table H R) : Kept lock t (t.cleanup lock) := by
  constructor
  · intro h r hr
    rcases hr with hfirst | hcoll
    · exact .inl (Option.filter_eq_some_iff.mp hfirst).1
    · exact .inr (List.mem_filter.mp hcoll).1
  · intro h r v hr hlock
    have hsome : (lock r).isSome = true := by rw [hlock]; rfl
    rcases hr with hfirst | hcoll
    · exact .inl (Option.filter_eq_some_iff.mpr ⟨hfirst, hsome⟩)
    · exact .inr (List.mem_filter.mpr ⟨hcoll, hsome⟩)

/-- Nothing under `h` that is there matches `v`. -/
def Misses (lock : R → Option V) (eq : V → V → Bool) (h : H) (v : V) (t : Table H R) : Prop :=
  ∀ r cached, t.Has h r → lock r = some cached → eq cached v = false

/-- What has been added to a table under `h`. -/
structure Added (lock : R → Option V) (h : H) (fresh : R) (t t' : Table H R) : Prop where
  sub : ∀ {h' r}, t'.Has h' r → t.Has h' r ∨ (h' = h ∧ r = fresh)
  keep : ∀ {h' r v}, t.Has h' r → lock r = some v → t'.Has h' r
  new : t'.Has h fresh

theorem added_collision (lock : R → Option V) (h : H) (fresh : R) (t : Table H R) :
    Added lock h fresh t { t with collisions := t.collisions ++ [(h, fresh)] } := by
  refine ⟨?_, ?_, .inr (List.mem_append_right _ (List.mem_singleton_self _))⟩
  · intro h' r hr
    rcases hr with hfirst | hcoll
    · exact .inl (.inl hfirst)
    · rcases List.mem_append.mp hcoll with hold | hnew
      · exact .inl (.inr hold)
      · exact .inr (Prod.mk.inj (List.mem_singleton.mp hnew))
  · intro h' r v hr _
    exact hr.imp_right (List.mem_append_left _)

section Cases

variable [DecidableEq H]

theorem has_setPrimary {t : Table H R} {h h' : H} {first : Option R} {r : R} :
    (t.setPrimary h first).Has h' r ↔
      (if h' = h then first = some r else t.primary h' = some r) ∨ (h', r) ∈ t.collisions := by
  by_cases heq : h' = h <;> simp [Has, setPrimary, heq]

/-- A first reference that is gone may be erased. -/
theorem Kept.erase (hfirst : t.primary h = some r) (hgone : lock r = none) :
    Kept lock t (t.setPrimary h none) := by
  constructor
  · intro h' r' hr
    rw [has_setPrimary] at hr
    split at hr
    · exact .inr (hr.resolve_left (by simp))
    · exact hr
  · intro h' r' v' hr hlock
    rw [has_setPrimary]
    split
    · rename_i heq
      refine .inr (hr.resolve_left fun hfirst' => ?_)
      rw [heq, hfirst, Option.some.injEq] at hfirst'
      rw [← hfirst', hgone] at hlock
      cases hlock
    · exact hr

theorem lookPrimary_cases (lock : R → Option V) (eq : V → V → Bool) (h : H) (v : V) (t : Table H R) :
    (∃ r cached, lookPrimary lock eq h v t = (some r, true, t) ∧ t.Has h r ∧ lock r = some cached ∧
      eq cached v = true) ∨
    (∃ t', lookPrimary lock eq h v t = (none, false, t') ∧ Kept lock t t' ∧ t'.primary h = none) ∨
    (∃ r cached, lookPrimary lock eq h v t = (none, true, t) ∧ t.primary h = some r ∧ lock r = some cached ∧
      eq cached v = false) := by
  rw [lookPrimary]
  cases hfirst : t.primary h with
  | none => exact .inr (.inl ⟨t, rfl, Kept.refl lock t, hfirst⟩)
  | some r =>
    cases hlock : lock r with
    | none => exact .inr (.inl ⟨_, by simp only [hlock], Kept.erase hfirst hlock, if_pos rfl⟩)
    | some cached =>
      cases heq : eq cached v with
      | true => exact .inl ⟨r, cached, by simp [hlock, heq], .inl hfirst, hlock, heq⟩
      | false => exact .inr (.inr ⟨r, cached, by simp [hlock, heq], rfl, hlock, heq⟩)

theorem findCollision_some (hfind : findCollision lock eq h v t = some r) :
    (h, r) ∈ t.collisions ∧ ∃ cached, lock r = some cached ∧ eq cached v = true := by
  obtain ⟨e, he, rfl⟩ := Option.map_eq_some_iff.mp hfind
  have hmem := List.mem_of_find?_eq_some he
  have hmatch := List.find?_some he
  rw [Bool.and_eq_true, decide_eq_true_eq, Option.any_eq_true] at hmatch
  obtain ⟨rfl, cached, hlock, heq⟩ := hmatch
  exact ⟨hmem, cached, hlock, heq⟩

theorem findCollision_none (hfind : findCollision lock eq h v t = none) {cached : V}
    (hmem : (h, r) ∈ t.collisions) (hlock : lock r = some cached) : eq cached v = false := by
  have hall := List.find?_eq_none.mp (Option.map_eq_none_iff.mp hfind) (h, r) hmem
  simpa [hlock] using hall

theorem Kept.added (hkept : Kept lock t t') (hroom : t'.primary h = none) (fresh : R) :
    Added lock h fresh t (t'.setPrimary h (some fresh)) := by
  refine ⟨?_, ?_, has_setPrimary.mpr (.inl (by rw [if_pos rfl]))⟩
  · intro h' r hr
    rw [has_setPrimary] at hr
    split at hr
    · rename_i heq
      rcases hr with hfirst | hcoll
      · exact .inr ⟨heq, (Option.some.inj hfirst).symm⟩
      · exact .inl (hkept.sub (.inr hcoll))
    · exact .inl (hkept.sub hr)
  · intro h' r v hr hlock
    have hr' := hkept.keep hr hlock
    rw [has_setPrimary]
    split
    · rename_i heq
      refine .inr (hr'.resolve_left fun hfirst => ?_)
      rw [heq, hroom] at hfirst
      cases hfirst
    · exact hr'

theorem intern_cases (lock : R → Option V) (eq : V → V → Bool) (fresh : R) (h : H) (v : V) (t : Table H R) :
    (∃ r t' cached, intern lock eq fresh h v t = (some r, t') ∧ Kept lock t t' ∧ t.Has h r ∧
      lock r = some cached ∧ eq cached v = true) ∨
    (∃ t', intern lock eq fresh h v t = (none, t') ∧ Added lock h fresh t t' ∧ Misses lock eq h v t) := by
  rcases lookPrimary_cases lock eq h v t with ⟨r, cached, hlook, hhas, hlock, heq⟩ | ⟨t', hlook, hkept, hroom⟩ |
    ⟨r, cached, hlook, hfirst, hlock, hne⟩
  · exact .inl ⟨r, t, cached, by rw [intern, hlook], Kept.refl lock t, hhas, hlock, heq⟩
  · cases hfind : findCollision lock eq h v t' with
    | some r =>
      obtain ⟨hmem, cached, hlock, heq⟩ := findCollision_some hfind
      exact .inl ⟨r, t', cached, by simp only [intern, hlook, hfind], hkept, hkept.sub (.inr hmem), hlock, heq⟩
    | none =>
      refine .inr ⟨_, by simp only [intern, hlook, hfind]; rfl, hkept.added hroom fresh, ?_⟩
      intro r cached hr hlock
      rcases hkept.keep hr hlock with hfirst | hcoll
      · rw [hroom] at hfirst
        cases hfirst
      · exact findCollision_none hfind hcoll hlock
  · cases hfind : findCollision lock eq h v t with
    | some r' =>
      obtain ⟨hmem, cached', hlock', heq⟩ := findCollision_some hfind
      exact .inl ⟨r', t, cached', by simp only [intern, hlook, hfind], Kept.refl lock t, .inr hmem, hlock', heq⟩
    | none =>
      refine .inr ⟨_, by simp only [intern, hlook, hfind]; rfl, added_collision lock h fresh t, ?_⟩
      intro r' cached' hr hlock'
      rcases hr with hfirst' | hcoll
      · rw [hfirst, Option.some.injEq] at hfirst'
        rw [← hfirst', hlock, Option.some.injEq] at hlock'
        exact hlock' ▸ hne
      · exact findCollision_none hfind hcoll hlock'

end Cases

/-! ## The invariant -/

/-- Values stand under their hashes, and no two of them count as one. -/
structure Consistent (c : Hashing V H) (lock : R → Option V) (t : Table H R) : Prop where
  hashed : ∀ {h r v}, t.Has h r → lock r = some v → c.hash v = h
  distinct : ∀ {h h' r r' v v'}, t.Has h r → t.Has h' r' → lock r = some v → lock r' = some v' →
    c.eq v v' = true → r = r'

variable {c : Hashing V H}

theorem Consistent.empty (c : Hashing V H) (lock : R → Option V) : Consistent c lock {} :=
  ⟨fun hr => absurd hr (not_has_empty _ _), fun hr => absurd hr (not_has_empty _ _)⟩

theorem Consistent.sub (ht : Consistent c lock t) (hsub : ∀ {h r}, t'.Has h r → t.Has h r) :
    Consistent c lock t' :=
  ⟨fun hr => ht.hashed (hsub hr), fun hr hr' => ht.distinct (hsub hr) (hsub hr')⟩

/-- Values that go leave the others as they are. -/
theorem Consistent.expire (ht : Consistent c lock t) (hless : ∀ r v, lock' r = some v → lock r = some v) :
    Consistent c lock' t :=
  ⟨fun hr hlock => ht.hashed hr (hless _ _ hlock),
    fun hr hr' hlock hlock' => ht.distinct hr hr' (hless _ _ hlock) (hless _ _ hlock')⟩

/-- A value that was not found, under a new reference. -/
theorem Consistent.added (ht : Consistent c lock t) (hadd : Added lock (c.hash v) fresh t t')
    (hmiss : Misses lock c.eq (c.hash v) v t) (hfresh : ∀ h, ¬t.Has h fresh) {stored : V}
    (hstored : c.eq stored v = true) (hnew : lock' fresh = some stored)
    (hold : ∀ r, r ≠ fresh → lock' r = lock r) : Consistent c lock' t' := by
  have hlockOld : ∀ {h r w}, t.Has h r → lock' r = some w → lock r = some w := by
    intro h r w hr hlock
    rwa [hold r (fun heq => hfresh h (heq ▸ hr))] at hlock
  -- An old value is not one with the new value: it would have been found.
  have hapart : ∀ {h r w}, t.Has h r → lock' r = some w → c.eq w stored ≠ true := by
    intro h r w hr hlock heq
    have hmatch := c.trans _ _ _ heq hstored
    have hunder : t.Has (c.hash v) r := by
      rw [← c.hash_eq _ _ hmatch, ht.hashed hr (hlockOld hr hlock)]
      exact hr
    rw [hmiss r w hunder (hlockOld hr hlock)] at hmatch
    cases hmatch
  constructor
  · intro h r w hr hlock
    rcases hadd.sub hr with hr | ⟨rfl, rfl⟩
    · exact ht.hashed hr (hlockOld hr hlock)
    · rw [hnew, Option.some.injEq] at hlock
      exact hlock ▸ c.hash_eq _ _ hstored
  · intro h h' r r' w w' hr hr' hlock hlock' heq
    rcases hadd.sub hr with hr | ⟨rfl, rfl⟩ <;> rcases hadd.sub hr' with hr' | ⟨rfl, rfl⟩
    · exact ht.distinct hr hr' (hlockOld hr hlock) (hlockOld hr' hlock') heq
    · rw [hnew, Option.some.injEq] at hlock'
      exact absurd (hlock' ▸ heq) (hapart hr hlock)
    · rw [hnew, Option.some.injEq] at hlock
      exact absurd (c.symm _ _ (hlock ▸ heq)) (hapart hr' hlock')
    · rfl

/-- A value that is there is found. -/
theorem Consistent.intern_found [DecidableEq H] (ht : Consistent c lock t) {w : V} (hr : t.Has (c.hash w) r)
    (hlock : lock r = some w) (heq : c.eq w v = true) (fresh : R) :
    (intern lock c.eq fresh (c.hash v) v t).1 = some r := by
  rw [c.hash_eq _ _ heq] at hr
  rcases intern_cases lock c.eq fresh (c.hash v) v t with ⟨r', t', cached, hrun, -, hr', hlock', heq'⟩ |
    ⟨t', -, -, hmiss⟩
  · rw [hrun, ht.distinct hr hr' hlock hlock' (c.trans _ _ _ heq (c.symm _ _ heq'))]
  · rw [hmiss r w hr hlock] at heq
    cases heq

end Table

end HashConsing
