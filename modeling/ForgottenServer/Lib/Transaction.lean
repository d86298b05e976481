import Mathlib

/-! # Transactions of statements

A statement changes a state or fails, and a transaction makes all changes of its statements or
none. `Does qs ok f` says what a list of statements does: it fails where `ok` does not hold, and
makes the change `f` where it does. -/

namespace Transaction

variable {σ : Type}

abbrev Statement (σ : Type) := σ → Option σ

def execute : List (Statement σ) → σ → Option σ
  | [], s => some s
  | q :: qs, s => (q s).bind (execute qs)

/-- A transaction that fails is rolled back. -/
def commit (qs : List (Statement σ)) (s : σ) : σ := (execute qs s).getD s

theorem execute_append (qs qs' : List (Statement σ)) (s : σ) :
    execute (qs ++ qs') s = (execute qs s).bind (execute qs') := by
  induction qs generalizing s with
  | nil => rfl
  | cons q qs ih =>
    simp only [List.cons_append, execute]
    cases q s with
    | none => rfl
    | some s' => exact ih s'

structure Does (qs : List (Statement σ)) (ok : σ → Prop) (f : σ → σ) : Prop where
  done : ∀ {s}, ok s → execute qs s = some (f s)
  fails : ∀ {s}, ¬ok s → execute qs s = none

variable {qs qs' : List (Statement σ)} {ok ok' : σ → Prop} {f f' : σ → σ} {s : σ}

theorem Does.nil : Does [] (fun _ : σ => True) id := ⟨fun _ => rfl, fun h => absurd trivial h⟩

theorem Does.append (h : Does qs ok f) (h' : Does qs' ok' f') :
    Does (qs ++ qs') (fun s => ok s ∧ ok' (f s)) (f' ∘ f) := by
  constructor
  · intro s hs
    rw [execute_append, h.done hs.1]
    exact h'.done hs.2
  · intro s hs
    rw [execute_append]
    by_cases hok : ok s
    · rw [h.done hok]
      exact h'.fails fun hok' => hs ⟨hok, hok'⟩
    · rw [h.fails hok]
      rfl

/-- A condition that the first change does not affect. -/
theorem Does.append_stable (h : Does qs ok f) (h' : Does qs' ok' f') (hstable : ∀ s, ok' (f s) ↔ ok' s) :
    Does (qs ++ qs') (fun s => ok s ∧ ok' s) (f' ∘ f) := by
  have hboth := h.append h'
  constructor
  · exact fun hs => hboth.done ⟨hs.1, (hstable _).mpr hs.2⟩
  · exact fun hs => hboth.fails fun hs' => hs ⟨hs'.1, (hstable _).mp hs'.2⟩

theorem Does.commit_eq (h : Does qs ok f) (hs : ok s) : commit qs s = f s := by rw [commit, h.done hs, Option.getD_some]

theorem Does.commit_fails (h : Does qs ok f) (hs : ¬ok s) : commit qs s = s := by
  rw [commit, h.fails hs, Option.getD_none]

/-- A transaction whose change made twice is the change made once can be replayed. -/
theorem Does.commit_commit (h : Does qs ok f) (hstable : ok s → ok (f s)) (hidem : ok s → f (f s) = f s) :
    commit qs (commit qs s) = commit qs s := by
  by_cases hs : ok s
  · rw [h.commit_eq hs, h.commit_eq (hstable hs), hidem hs]
  · rw [h.commit_fails hs, h.commit_fails hs]

/-- Any number of replays. -/
theorem commit_iterate (h : commit qs (commit qs s) = commit qs s) :
    ∀ {n : ℕ}, 0 < n → (commit qs)^[n] s = commit qs s := by
  intro n hn
  obtain ⟨k, rfl⟩ := Nat.exists_eq_add_of_le' hn
  rw [Function.iterate_succ_apply]
  exact Function.iterate_fixed h k

/-! ## Overwriting -/

section Overwriting

variable {κ ν : Type} [DecidableEq κ]

/-- The values of some keys are written, one after another. -/
def overwrite (rows : List (κ × ν)) (f : κ → ν) : κ → ν :=
  rows.foldl (fun f row => Function.update f row.1 row.2) f

theorem overwrite_of_notMem {rows : List (κ × ν)} {k : κ} (hk : k ∉ rows.map Prod.fst) (f : κ → ν) :
    overwrite rows f k = f k := by
  induction rows generalizing f with
  | nil => rfl
  | cons row rows ih =>
    rw [List.map_cons, List.mem_cons, not_or] at hk
    rw [overwrite, List.foldl_cons]
    exact (ih hk.2 _).trans (Function.update_of_ne hk.1 _ _)

/-- What stood under the keys is forgotten. -/
theorem overwrite_congr {rows : List (κ × ν)} {f g : κ → ν} (h : ∀ k, k ∉ rows.map Prod.fst → f k = g k) :
    overwrite rows f = overwrite rows g := by
  induction rows generalizing f g with
  | nil => exact funext fun k => h k List.not_mem_nil
  | cons row rows ih =>
    rw [overwrite, overwrite, List.foldl_cons, List.foldl_cons]
    refine ih fun k hk => ?_
    by_cases heq : k = row.1
    · rw [heq, Function.update_self, Function.update_self]
    · rw [Function.update_of_ne heq, Function.update_of_ne heq]
      exact h k (by rw [List.map_cons, List.mem_cons, not_or]; exact ⟨heq, hk⟩)

theorem overwrite_overwrite (rows : List (κ × ν)) (f : κ → ν) :
    overwrite rows (overwrite rows f) = overwrite rows f :=
  overwrite_congr fun _ hk => overwrite_of_notMem hk f

end Overwriting

end Transaction
