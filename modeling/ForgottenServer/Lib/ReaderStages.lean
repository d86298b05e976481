import ForgottenServer.Lib.StreamReader

/-! # Where a reader stops

A reader that changes an object value by value leaves it changed when it fails. `onto` lets a
reader that has no object run beside one, and `each` uses every value as soon as it is read. What
is left of the object after a failure is then known: all values before the one that failed are
in it. -/

namespace Reader

variable {σ α β : Type}

/-- The reader, with an object that it does not touch. -/
def onto (m : Reader Unit α) : Reader σ α where
  run s i := ((m.run () i).1, s, (m.run () i).2.2)
  short _ i := m.short () i

/-- A value is read and put into the object. -/
def each (m : Reader σ α) (step : σ → α → σ) : Reader σ Unit := do
  let a ← m
  modify fun s => step s a

theorem eq_of_run {m m' : Reader σ α} (h : ∀ s i, m.run s i = m'.run s i) : m = m' := by
  obtain ⟨run, short⟩ := m
  obtain ⟨run', short'⟩ := m'
  rw [Reader.mk.injEq]
  exact funext fun s => funext fun i => h s i

theorem run_bind_some {m : Reader σ α} {s s' : σ} {i i' : List UInt8} {a : α} (h : m.run s i = (some a, s', i'))
    (f : α → Reader σ β) : (m >>= f).run s i = (f a).run s' i' := by
  show (andThen m f).run s i = _
  simp only [andThen, h]

theorem run_bind_none {m : Reader σ α} {s s' : σ} {i i' : List UInt8} (h : m.run s i = (none, s', i'))
    (f : α → Reader σ β) : (m >>= f).run s i = (none, s', i') := by
  show (andThen m f).run s i = _
  simp only [andThen, h]

instance : LawfulMonad (Reader σ) := LawfulMonad.mk' (Reader σ)
  (by
    intro α m
    refine eq_of_run fun s i => ?_
    show (m >>= pure).run s i = _
    rcases hrun : m.run s i with ⟨_ | a, s', i'⟩
    · exact run_bind_none hrun _
    · exact run_bind_some hrun _)
  (by
    intro α β a f
    rfl)
  (by
    intro α β γ m f g
    refine eq_of_run fun s i => ?_
    rcases hrun : m.run s i with ⟨_ | a, s', i'⟩
    · rw [run_bind_none (run_bind_none hrun f), run_bind_none hrun]
    · rw [run_bind_some hrun]
      rcases hrun' : (f a).run s' i' with ⟨_ | b, s'', i''⟩
      · rw [run_bind_none ((run_bind_some hrun f).trans hrun'), run_bind_none hrun']
      · rw [run_bind_some ((run_bind_some hrun f).trans hrun'), run_bind_some hrun'])

theorem run_modify_bind (g : σ → σ) (f : Unit → Reader σ β) (s : σ) (i : List UInt8) :
    (modify g >>= f).run s i = (f ()).run (g s) i := rfl

theorem run_inspect (f : σ → Reader σ α) (s : σ) (i : List UInt8) : (inspect f).run s i = (f s).run s i := rfl

variable {m : Reader Unit α} {s : σ} {i i' : List UInt8} {a : α}

theorem run_onto_bind (h : m.run () i = (some a, (), i')) (f : α → Reader σ β) :
    (onto m >>= f).run s i = (f a).run s i' :=
  run_bind_some (by simp only [onto, h]) f

theorem run_onto_bind_fails (h : Fails m i ()) (f : α → Reader σ β) :
    (onto m >>= f).run s i = (none, s, (m.run () i).2.2) := by
  have hnone : (m.run () i).1 = none := h
  exact run_bind_none (by simp only [onto, hnone]) f

theorem run_each (h : m.run () i = (some a, (), i')) (step : σ → α → σ) :
    (each (onto m) step).run s i = (some (), step s a, i') := run_onto_bind h _

theorem run_each_fails (h : Fails m i ()) (step : σ → α → σ) :
    (each (onto m) step).run s i = (none, s, (m.run () i).2.2) := run_onto_bind_fails h _

/-- A reader without an object either gives a value or fails. -/
theorem run_cases (m : Reader Unit α) (i : List UInt8) : (∃ a i', m.run () i = (some a, (), i')) ∨ Fails m i () := by
  rcases hrun : m.run () i with ⟨_ | a, u, i'⟩
  · exact .inr (congrArg Prod.fst hrun)
  · exact .inl ⟨a, i', rfl⟩

/-- `k` values were read, and then one failed. -/
structure StopsAfter (m : Reader Unit α) (k : ℕ) (i : List UInt8) (values : List α) (i' : List UInt8) : Prop where
  reads : (list k m).run () i = (some values, (), i')
  fails : Fails m i' ()

theorem run_list_succ {k : ℕ} {as : List α} {i'' : List UInt8} (h : m.run () i = (some a, (), i'))
    (hlist : (list k m).run () i' = (some as, (), i'')) : (list (k + 1) m).run () i = (some (a :: as), (), i'') := by
  rw [list, run_bind_some h, run_bind_some hlist]
  rfl

theorem length_of_run_list {n : ℕ} : ∀ {i i' : List UInt8} {values : List α},
    (list n m).run () i = (some values, (), i') → values.length = n := by
  induction n with
  | zero =>
    intro i i' values h
    cases h
    rfl
  | succ n ih =>
    intro i i' values h
    rw [list] at h
    rcases run_cases m i with ⟨a, j, hrun⟩ | hfails
    · rw [run_bind_some hrun] at h
      rcases run_cases (list n m) j with ⟨as, j', hlist⟩ | hfails
      · rw [run_bind_some hlist] at h
        cases h
        rw [List.length_cons, ih hlist]
      · have hnone := hfails.bind fun as => pure (a :: as)
        rw [Fails, h] at hnone
        cases hnone
    · have hnone := hfails.bind fun a => list n m >>= fun as => pure (a :: as)
      rw [Fails, h] at hnone
      cases hnone

/-- A list that has a value that fails is not read. -/
theorem StopsAfter.fails_list {n k : ℕ} (hk : k < n) :
    ∀ {i i' : List UInt8} {values : List α}, StopsAfter m k i values i' → Fails (list n m) i () := by
  induction n generalizing k with
  | zero => exact absurd hk (Nat.not_lt_zero k)
  | succ n ih =>
    intro i i' values h
    rw [list]
    cases k with
    | zero =>
      have hsame := h.reads
      cases hsame
      exact h.fails.bind _
    | succ k =>
      rcases run_cases m i with ⟨a, j, hrun⟩ | hfails
      · have hlist := h.reads
        rw [list, run_bind_some hrun] at hlist
        rcases run_cases (list k m) j with ⟨as, j', hrest⟩ | hnone
        · rw [run_bind_some hrest] at hlist
          cases hlist
          have hrec := ih (Nat.lt_of_succ_lt_succ hk) ⟨hrest, h.fails⟩
          have hbind := hrec.bind fun as => pure (a :: as)
          rw [Fails, run_bind_some hrun]
          exact hbind
        · have hbind := hnone.bind fun as => pure (a :: as)
          rw [Fails, hlist] at hbind
          cases hbind
      · exact hfails.bind _

/-- All values are in the object, or those before the one that failed. -/
theorem run_times_each (m : Reader Unit α) (step : σ → α → σ) (n : ℕ) : ∀ (s : σ) (i : List UInt8),
    (∃ values i', (list n m).run () i = (some values, (), i') ∧
      (times n (each (onto m) step)).run s i = (some (), values.foldl step s, i')) ∨
    (∃ k values i' i'', k < n ∧ StopsAfter m k i values i' ∧
      (times n (each (onto m) step)).run s i = (none, values.foldl step s, i'')) := by
  induction n with
  | zero => exact fun s i => .inl ⟨[], i, rfl, rfl⟩
  | succ n ih =>
    intro s i
    rcases run_cases m i with ⟨a, i', hrun⟩ | hfails
    · have hstep : (times (n + 1) (each (onto m) step)).run s i =
          (times n (each (onto m) step)).run (step s a) i' := by
        rw [times, run_bind_some (run_each hrun step)]
      rcases ih (step s a) i' with ⟨values, rest, hlist, htimes⟩ | ⟨k, values, at_, rest, hk, hstops, htimes⟩
      · exact .inl ⟨a :: values, rest, run_list_succ hrun hlist, hstep.trans htimes⟩
      · exact .inr ⟨k + 1, a :: values, at_, rest, Nat.succ_lt_succ hk,
          ⟨run_list_succ hrun hstops.reads, hstops.fails⟩, hstep.trans htimes⟩
    · refine .inr ⟨0, [], i, (m.run () i).2.2, Nat.succ_pos n, ⟨rfl, hfails⟩, ?_⟩
      rw [times, run_bind_none (run_each_fails hfails step)]
      rfl

end Reader
