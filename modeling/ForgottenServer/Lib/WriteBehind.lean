import Mathlib

/-! # Write-behind with revisions

A memory that is written to a database behind its back. A change marks its key and gives it a
new revision. A snapshot takes the marked keys with their values, and the revision it was
taken at. Snapshots reach the database in the order in which they were taken, as far as they
are not dropped. An acknowledgement, later still, takes the marks of a snapshot away where no
newer revision stands.

`Inv` is what keeps every change from getting lost. -/

namespace WriteBehind

variable {κ ν : Type}

structure Snapshot (κ ν : Type) where
  id : Nat
  keys : Set κ
  value : κ → ν

/-- `waiting` snapshots are not in the database yet, `written` ones are not acknowledged yet. -/
structure State (κ ν : Type) where
  memory : κ → ν
  marked : Set κ
  revision : κ → Option Nat
  clock : Nat
  database : κ → ν
  waiting : List (Snapshot κ ν) := []
  written : List (Snapshot κ ν) := []

/-- No revision of the key is newer than the snapshot. -/
def Covered (s : State κ ν) (snap : Snapshot κ ν) (k : κ) : Prop := k ∈ snap.keys ∧ ∀ n ∈ s.revision k, n ≤ snap.id

/-! ## The invariant -/

/-- The key has changed since the snapshot. -/
def Newer (s : State κ ν) (snap : Snapshot κ ν) (k : κ) : Prop := k ∈ s.marked ∧ ∃ n ∈ s.revision k, snap.id < n

structure Inv (s : State κ ν) : Prop where
  tracked : ∀ k, s.memory k ≠ s.database k → k ∈ s.marked
  le_clock : ∀ k, ∀ n ∈ s.revision k, n ≤ s.clock
  id_le : ∀ snap ∈ s.written ++ s.waiting, snap.id ≤ s.clock
  order : (s.written ++ s.waiting).Pairwise (·.id ≤ ·.id)
  covers : ∀ snap ∈ s.written ++ s.waiting, snap.id = s.clock → s.marked ⊆ snap.keys
  waiting : ∀ snap ∈ s.waiting, ∀ k ∈ snap.keys, s.memory k = snap.value k ∨ Newer s snap k
  written : ∀ snap ∈ s.written, ∀ k ∈ snap.keys, s.memory k = s.database k ∨ Newer s snap k

namespace Inv

variable {s : State κ ν}

/-- Memory and database agree, and nothing is under way. -/
theorem start {s : State κ ν} (hmem : s.memory = s.database) (hrev : ∀ k, s.revision k = none)
    (hwaiting : s.waiting = []) (hwritten : s.written = []) : Inv s where
  tracked k hne := absurd (congrFun hmem k) hne
  le_clock k n hn := by rw [hrev] at hn; cases hn
  id_le := by simp [hwaiting, hwritten]
  order := by simp [hwaiting, hwritten]
  covers := by simp [hwaiting, hwritten]
  waiting := by simp [hwaiting]
  written := by simp [hwritten]

/-- One key gets a new value, a mark and the next revision. -/
theorem change [DecidableEq κ] (h : Inv s) (k : κ) (v : ν) {marked : Set κ}
    (hmarked : ∀ k', k' ∈ marked ↔ k' = k ∨ k' ∈ s.marked) :
    Inv { s with memory := Function.update s.memory k v
                 marked
                 revision := Function.update s.revision k (some (s.clock + 1))
                 clock := s.clock + 1 } := by
  have hself : k ∈ marked := (hmarked k).mpr (.inl rfl)
  have hold {k'} (hk' : k' ∈ s.marked) : k' ∈ marked := (hmarked k').mpr (.inr hk')
  -- at the key that changes every snapshot is old
  have hnewer {s' : State κ ν} {snap} (hle : snap.id ≤ s.clock) (hm : s'.marked = marked)
      (hr : s'.revision k = some (s.clock + 1)) : Newer s' snap k :=
    ⟨hm ▸ hself, s.clock + 1, hr, Nat.lt_succ_of_le hle⟩
  have hother {s' : State κ ν} {snap k'} (hm : s'.marked = marked) (hr : s'.revision k' = s.revision k')
      (hn : Newer s snap k') : Newer s' snap k' := by
    obtain ⟨hmem, n, hrev, hlt⟩ := hn
    exact ⟨hm ▸ hold hmem, n, hr ▸ hrev, hlt⟩
  constructor
  · intro k' hk'
    rcases eq_or_ne k' k with rfl | hne
    · exact hself
    · simp only [Function.update_of_ne hne] at hk'
      exact hold (h.tracked k' hk')
  · intro k' n hn
    rcases eq_or_ne k' k with rfl | hne
    · simp only [Function.update_self] at hn
      exact (Option.some.inj hn).ge
    · simp only [Function.update_of_ne hne] at hn
      exact (h.le_clock k' n hn).trans (Nat.le_succ _)
  · exact fun snap hsnap => (h.id_le snap hsnap).trans (Nat.le_succ _)
  · exact h.order
  · intro snap hsnap hid
    exact absurd hid (Nat.lt_succ_of_le (h.id_le snap hsnap)).ne
  · intro snap hsnap k' hk'
    rcases eq_or_ne k' k with rfl | hne
    · exact .inr (hnewer (h.id_le snap (List.mem_append_right _ hsnap)) rfl (Function.update_self ..))
    · simp only [Function.update_of_ne hne]
      exact (h.waiting snap hsnap k' hk').imp_right (hother rfl (Function.update_of_ne hne ..))
  · intro snap hsnap k' hk'
    rcases eq_or_ne k' k with rfl | hne
    · exact .inr (hnewer (h.id_le snap (List.mem_append_left _ hsnap)) rfl (Function.update_self ..))
    · simp only [Function.update_of_ne hne]
      exact (h.written snap hsnap k' hk').imp_right (hother rfl (Function.update_of_ne hne ..))

/-- A snapshot is taken. -/
theorem build (h : Inv s) {new : Snapshot κ ν} (hid : new.id = s.clock) (hkeys : new.keys = s.marked)
    (hvalue : ∀ k ∈ s.marked, s.memory k = new.value k) : Inv { s with waiting := s.waiting ++ [new] } := by
  have hsplit {snap} (hsnap : snap ∈ s.written ++ (s.waiting ++ [new])) :
      snap ∈ s.written ++ s.waiting ∨ snap = new := by
    simpa [or_assoc] using hsnap
  constructor
  · exact h.tracked
  · exact h.le_clock
  · intro snap hsnap
    rcases hsplit hsnap with hold | rfl
    · exact h.id_le snap hold
    · exact hid.le
  · rw [← List.append_assoc, List.pairwise_append]
    refine ⟨h.order, List.pairwise_singleton _ _, fun snap hsnap snap' hnew => ?_⟩
    rw [List.mem_singleton.mp hnew, hid]
    exact h.id_le snap hsnap
  · intro snap hsnap hclock
    rcases hsplit hsnap with hold | rfl
    · exact h.covers snap hold hclock
    · exact hkeys.ge
  · intro snap hsnap k hk
    rcases List.mem_append.mp hsnap with hold | hnew
    · exact h.waiting snap hold k hk
    · rw [List.mem_singleton.mp hnew] at hk ⊢
      exact .inl (hvalue k (hkeys ▸ hk))
  · exact h.written

/-- Snapshots may be dropped at any time. -/
theorem drop (h : Inv s) {waiting written : List (Snapshot κ ν)} (hwaiting : waiting.Sublist s.waiting)
    (hwritten : written.Sublist s.written) : Inv { s with waiting, written } where
  tracked := h.tracked
  le_clock := h.le_clock
  id_le snap hsnap := h.id_le snap ((hwritten.append hwaiting).subset hsnap)
  order := h.order.sublist (hwritten.append hwaiting)
  covers snap hsnap := h.covers snap ((hwritten.append hwaiting).subset hsnap)
  waiting snap hsnap := h.waiting snap (hwaiting.subset hsnap)
  written snap hsnap := h.written snap (hwritten.subset hsnap)

/-- The first snapshot that waits reaches the database. -/
theorem write (h : Inv s) {snap : Snapshot κ ν} {rest : List (Snapshot κ ν)} (hq : s.waiting = snap :: rest)
    {database : κ → ν} (hin : ∀ k ∈ snap.keys, database k = snap.value k)
    (hout : ∀ k ∉ snap.keys, database k = s.database k) :
    Inv { s with database, waiting := rest, written := s.written ++ [snap] } := by
  have hhead := h.waiting snap (hq ▸ List.mem_cons_self)
  have hlist : s.written ++ [snap] ++ rest = s.written ++ s.waiting := by simp [hq]
  have hlater {snap'} (hsnap' : snap' ∈ s.written) : snap'.id ≤ snap.id := by
    have horder := h.order
    rw [List.pairwise_append] at horder
    exact horder.2.2 snap' hsnap' snap (hq ▸ List.mem_cons_self)
  constructor
  · intro k hk
    by_cases hmem : k ∈ snap.keys
    · rcases hhead k hmem with heq | hnewer
      · exact absurd (heq.trans (hin k hmem).symm) hk
      · exact hnewer.1
    · exact h.tracked k (hout k hmem ▸ hk)
  · exact h.le_clock
  · rw [hlist]
    exact h.id_le
  · rw [hlist]
    exact h.order
  · rw [hlist]
    exact h.covers
  · exact fun snap' hsnap' => h.waiting snap' (hq ▸ List.mem_cons_of_mem _ hsnap')
  · intro snap' hsnap' k hk
    by_cases hmem : k ∈ snap.keys
    · -- the snapshot that is written now is not older than `snap'`
      rcases hhead k hmem with heq | ⟨hmarked, n, hn, hlt⟩
      · exact .inl (heq.trans (hin k hmem).symm)
      · refine .inr ⟨hmarked, n, hn, lt_of_le_of_lt ?_ hlt⟩
        rcases List.mem_append.mp hsnap' with hold | hnew
        · exact hlater hold
        · rw [List.mem_singleton.mp hnew]
    · rcases List.mem_append.mp hsnap' with hold | hnew
      · exact (h.written snap' hold k hk).imp_left fun heq => heq.trans (hout k hmem).symm
      · rw [List.mem_singleton.mp hnew] at hk
        exact absurd hk hmem

/-- A key that a written snapshot covers is the same in the database. -/
theorem memory_eq_of_covered (h : Inv s) {snap : Snapshot κ ν} (hsnap : snap ∈ s.written) {k : κ}
    (hk : Covered s snap k) : s.memory k = s.database k := by
  rcases h.written snap hsnap k hk.1 with heq | ⟨_, n, hn, hlt⟩
  · exact heq
  · exact absurd (hk.2 n hn) (Nat.not_le.mpr hlt)

/-- The first snapshot that was written is acknowledged: what it covers loses its mark. -/
theorem acknowledge (h : Inv s) {snap : Snapshot κ ν} {rest : List (Snapshot κ ν)} (hw : s.written = snap :: rest)
    {marked : Set κ} (hmarked : ∀ k, k ∈ marked ↔ k ∈ s.marked ∧ ¬ Covered s snap k) {revision : κ → Option Nat}
    (hnone : ∀ k, Covered s snap k → revision k = none) (hkept : ∀ k, ¬ Covered s snap k → revision k = s.revision k) :
    Inv { s with marked, revision, written := rest } := by
  have hsnap : snap ∈ s.written := hw ▸ List.mem_cons_self
  have hlater {snap'} (hsnap' : snap' ∈ rest ++ s.waiting) : snap.id ≤ snap'.id := by
    have horder := h.order
    rw [hw, List.cons_append, List.pairwise_cons] at horder
    exact horder.1 snap' hsnap'
  have hsub {snap'} (hsnap' : snap' ∈ rest ++ s.waiting) : snap' ∈ s.written ++ s.waiting := by
    rw [hw]
    exact List.mem_cons_of_mem _ hsnap'
  -- what is newer than a later snapshot stays marked
  have hkeep {snap' k} (hsnap' : snap' ∈ rest ++ s.waiting) (hnewer : Newer s snap' k) :
      Newer { s with marked, revision, written := rest } snap' k := by
    obtain ⟨hmem, n, hn, hlt⟩ := hnewer
    have hnot : ¬ Covered s snap k := fun hcov =>
      absurd (hcov.2 n hn) (Nat.not_le.mpr (lt_of_le_of_lt (hlater hsnap') hlt))
    exact ⟨(hmarked k).mpr ⟨hmem, hnot⟩, n, (hkept k hnot).trans hn, hlt⟩
  constructor
  · intro k hk
    exact (hmarked k).mpr ⟨h.tracked k hk, fun hcov => hk (h.memory_eq_of_covered hsnap hcov)⟩
  · intro k n hn
    by_cases hcov : Covered s snap k
    · exact absurd ((hnone k hcov).symm.trans hn) nofun
    · exact h.le_clock k n ((hkept k hcov).symm.trans hn)
  · exact fun snap' hsnap' => h.id_le snap' (hsub hsnap')
  · have horder := h.order
    rw [hw, List.cons_append, List.pairwise_cons] at horder
    exact horder.2
  · exact fun snap' hsnap' hid k hk => h.covers snap' (hsub hsnap') hid ((hmarked k).mp hk).1
  · intro snap' hsnap' k hk
    exact (h.waiting snap' hsnap' k hk).imp_right (hkeep (List.mem_append_right _ hsnap'))
  · intro snap' hsnap' k hk
    exact (h.written snap' (hw ▸ List.mem_cons_of_mem _ hsnap') k hk).imp_right (hkeep (List.mem_append_left _ hsnap'))

/-- A written snapshot that no change followed covers every mark, and memory and database agree. -/
theorem settled (h : Inv s) {snap : Snapshot κ ν} (hsnap : snap ∈ s.written) (hid : snap.id = s.clock) :
    (∀ k ∈ s.marked, Covered s snap k) ∧ s.memory = s.database := by
  have hcovered (k : κ) (hk : k ∈ s.marked) : Covered s snap k :=
    ⟨h.covers snap (List.mem_append_left _ hsnap) hid hk, fun n hn => hid ▸ h.le_clock k n hn⟩
  refine ⟨hcovered, funext fun k => ?_⟩
  by_contra hne
  exact hne (h.memory_eq_of_covered hsnap (hcovered k (h.tracked k hne)))

end Inv

end WriteBehind
