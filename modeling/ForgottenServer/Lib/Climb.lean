import Mathlib

/-! # Climbing along a partial function

`up x` is what stands above `x`, if anything. `climb up n x` lists `x` and everything above
it, when the top is met within `n` steps. `Ends up x`: the top is met at some time. -/

namespace Climb

variable {α : Type} (up : α → Option α)

def climb : Nat → α → Option (List α)
  | 0, _ => none
  | n + 1, x => match up x with
    | none => some [x]
    | some y => (climb n y).map (x :: ·)

/-- `Above up x l`: `l` is `x` and everything above it. -/
inductive Above : α → List α → Prop
  | top {x} (h : up x = none) : Above x [x]
  | step {x y l} (h : up x = some y) (above : Above y l) : Above x (x :: l)

def Ends (x : α) : Prop := ∃ l, Above up x l

variable {up}

theorem Above.unique {x : α} {l l' : List α} (h : Above up x l) (h' : Above up x l') : l = l' := by
  induction h generalizing l' with
  | top hx =>
    cases h' with
    | top => rfl
    | step hy => rw [hx] at hy; cases hy
  | step hx _ ih =>
    cases h' with
    | top hy => rw [hx] at hy; cases hy
    | step hy above =>
      rw [hx] at hy
      cases hy
      rw [ih above]

theorem Above.mem_self {x : α} {l : List α} (h : Above up x l) : x ∈ l := by
  cases h <;> exact List.mem_cons_self ..

/-- What is above something above `x` is above `x`. -/
theorem Above.of_mem {x y : α} {l : List α} (h : Above up x l) (hy : y ∈ l) :
    ∃ l', Above up y l' ∧ l' <:+ l := by
  induction h with
  | top hx =>
    obtain rfl := List.mem_singleton.mp hy
    exact ⟨_, .top hx, List.suffix_rfl⟩
  | step hx above ih =>
    rcases List.mem_cons.mp hy with rfl | hy
    · exact ⟨_, .step hx above, List.suffix_rfl⟩
    · obtain ⟨l', habove, hsuffix⟩ := ih hy
      exact ⟨l', habove, hsuffix.trans (List.suffix_cons _ _)⟩

/-- What is above `x` and not `x` is right above something. -/
theorem Above.exists_up {x y : α} {l : List α} (h : Above up x l) (hy : y ∈ l) (hne : y ≠ x) : ∃ z, up z = some y := by
  induction h with
  | top => exact absurd (List.mem_singleton.mp hy) hne
  | @step x z l hx above ih =>
    have hmem := (List.mem_cons.mp hy).resolve_left hne
    by_cases hyz : y = z
    · exact ⟨x, hyz ▸ hx⟩
    · exact ih hmem hyz

/-- The top of a climb is above everything that is met. -/
theorem Above.top_mem {x y z : α} {l l' : List α} (h : Above up z l) (hx : x ∈ l) (htop : up x = none) (hy : y ∈ l)
    (hy' : Above up y l') : x ∈ l' := by
  induction h with
  | top hz =>
    obtain rfl := List.mem_singleton.mp hx
    obtain rfl := List.mem_singleton.mp hy
    exact hy'.mem_self
  | @step z w l hz above ih =>
    have hne : x ≠ z := by
      rintro rfl
      rw [htop] at hz
      cases hz
    have hx' := (List.mem_cons.mp hx).resolve_left hne
    rcases List.mem_cons.mp hy with rfl | hy
    · rw [hy'.unique (.step hz above)]
      exact hx
    · exact ih hx' hy

/-- Nothing stands above itself where the climb ends. -/
theorem Above.nodup {x : α} {l : List α} (h : Above up x l) : l.Nodup := by
  induction h with
  | top => exact List.nodup_singleton _
  | step hx above ih =>
    refine List.nodup_cons.mpr ⟨fun hmem => ?_, ih⟩
    obtain ⟨l', habove, hsuffix⟩ := above.of_mem hmem
    rw [habove.unique (.step hx above)] at hsuffix
    exact absurd hsuffix.length_le (by simp)

theorem climb_of_above {x : α} {l : List α} (h : Above up x l) :
    ∀ {n}, l.length ≤ n → climb up n x = some l := by
  induction h with
  | top hx =>
    intro n hn
    obtain ⟨n, rfl⟩ := Nat.exists_eq_add_of_le' hn
    simp [climb, hx]
  | step hx _ ih =>
    intro n hn
    obtain ⟨n, rfl⟩ := Nat.exists_eq_add_of_le' (Nat.le_trans (Nat.le_add_left 1 _) hn)
    simp [climb, hx, ih (Nat.le_of_succ_le_succ hn)]

theorem above_of_climb {l : List α} : ∀ {n : Nat} {x : α}, climb up n x = some l → Above up x l := by
  intro n
  induction n generalizing l with
  | zero => intro x h; cases h
  | succ n ih =>
    intro x h
    rw [climb] at h
    split at h
    · rename_i hx
      obtain rfl := Option.some.inj h
      exact .top hx
    · rename_i y hx
      obtain ⟨l', hl', rfl⟩ := Option.map_eq_some_iff.mp h
      exact .step hx (ih hl')

theorem length_of_climb {l : List α} : ∀ {n : Nat} {x : α}, climb up n x = some l → l.length ≤ n := by
  intro n
  induction n generalizing l with
  | zero => intro x h; cases h
  | succ n ih =>
    intro x h
    rw [climb] at h
    split at h
    · obtain rfl := Option.some.inj h
      exact Nat.succ_le_succ (Nat.zero_le _)
    · obtain ⟨l', hl', rfl⟩ := Option.map_eq_some_iff.mp h
      exact Nat.succ_le_succ (ih hl')

/-- As many steps as there are candidates are enough. -/
theorem climb_of_ends [DecidableEq α] {x : α} (s : Finset α) (hx : x ∈ s) (hup : ∀ y z, up y = some z → z ∈ s)
    (h : Ends up x) : ∃ l, climb up s.card x = some l ∧ Above up x l := by
  obtain ⟨l, hl⟩ := h
  have hsub : ∀ {x l}, Above up x l → x ∈ s → l.toFinset ⊆ s := by
    intro x l hl
    induction hl with
    | top => intro hx; simpa using hx
    | step hxy _ ih =>
      intro hx
      rw [List.toFinset_cons]
      exact Finset.insert_subset hx (ih (hup _ _ hxy))
  have hcard := Finset.card_le_card (hsub hl hx)
  rw [List.toFinset_card_of_nodup hl.nodup] at hcard
  exact ⟨l, climb_of_above hl hcard, hl⟩

section Move

variable [DecidableEq α] {x y : α}

/-- Where `x` is not met, it does not matter what is above it. -/
theorem Above.update {z : α} {l : List α} (h : Above up z l) (hx : x ∉ l) (v : Option α) :
    Above (Function.update up x v) z l := by
  induction h with
  | top hz =>
    have hne : _ ≠ x := fun he => hx (he ▸ List.mem_singleton_self _)
    exact .top (by rw [Function.update_of_ne hne, hz])
  | step hz _ ih =>
    have hne : _ ≠ x := fun he => hx (he ▸ List.mem_cons_self ..)
    exact .step (by rw [Function.update_of_ne hne, hz]) (ih fun hmem => hx (List.mem_cons_of_mem _ hmem))

/-- When `x` becomes a top, every climb still ends. -/
theorem ends_cut {z : α} (h : Ends up z) : Ends (Function.update up x none) z := by
  obtain ⟨l', hl'⟩ := h
  induction hl' with
  | @top z hz =>
    refine ⟨_, .top ?_⟩
    rcases eq_or_ne z x with rfl | hne
    · exact Function.update_self ..
    · rw [Function.update_of_ne hne, hz]
  | @step z _ _ hz _ ih =>
    rcases eq_or_ne z x with rfl | hne
    · exact ⟨_, .top (Function.update_self ..)⟩
    · obtain ⟨l', hl'⟩ := ih
      exact ⟨_, .step (by rw [Function.update_of_ne hne, hz]) hl'⟩

/-- `x` is still met when it becomes a top. -/
theorem Above.cut {z : α} {l : List α} (h : Above up z l) (hx : x ∈ l) :
    ∃ l', Above (Function.update up x none) z l' ∧ x ∈ l' := by
  induction h with
  | top =>
    obtain rfl := List.mem_singleton.mp hx
    exact ⟨_, .top (Function.update_self ..), List.mem_cons_self ..⟩
  | @step z _ _ hz _ ih =>
    rcases eq_or_ne x z with rfl | hne
    · exact ⟨_, .top (Function.update_self ..), List.mem_cons_self ..⟩
    · obtain ⟨l', hl', hmem⟩ := ih ((List.mem_cons.mp hx).resolve_left hne)
      exact ⟨_, .step (by rw [Function.update_of_ne hne.symm, hz]) hl', List.mem_cons_of_mem _ hmem⟩

/-- When `x` moves under `y`, and is not above it, every climb still ends. -/
theorem ends_move {l : List α} (hy : Above up y l) (hx : x ∉ l) {z : α} (h : Ends up z) :
    Ends (Function.update up x (some y)) z := by
  obtain ⟨l', hl'⟩ := h
  induction hl' with
  | @top z hz =>
    rcases eq_or_ne z x with rfl | hne
    · exact ⟨_, .step (Function.update_self ..) (hy.update hx _)⟩
    · exact ⟨_, .top (by rw [Function.update_of_ne hne, hz])⟩
  | @step z _ _ hz _ ih =>
    rcases eq_or_ne z x with rfl | hne
    · exact ⟨_, .step (Function.update_self ..) (hy.update hx _)⟩
    · obtain ⟨l', hl'⟩ := ih
      exact ⟨_, .step (by rw [Function.update_of_ne hne, hz]) hl'⟩

/-- When `x` moves under something below it, the climb from there never ends. -/
theorem not_ends_loop {l : List α} (hy : Above up y l) (hx : x ∈ l) :
    ¬ Ends (Function.update up x (some y)) y := by
  -- from `y` the climb meets `x` and then `y` again
  rintro ⟨l', hl'⟩
  have hmeets : ∀ {z l}, Above up z l → x ∈ l → ∀ {l'}, Above (Function.update up x (some y)) z l' → x ∈ l' := by
    intro z l hz
    induction hz with
    | top =>
      intro hmem l' hl'
      obtain rfl := List.mem_singleton.mp hmem
      exact hl'.mem_self
    | @step z w _ hzw _ ih =>
      intro hmem l' hl'
      rcases eq_or_ne x z with rfl | hne
      · exact hl'.mem_self
      · have hmem' := (List.mem_cons.mp hmem).resolve_left hne
        have hup : Function.update up x (some y) z = some w := by rw [Function.update_of_ne hne.symm, hzw]
        cases hl' with
        | top h => rw [hup] at h; cases h
        | step h above =>
          rw [hup] at h
          cases h
          exact List.mem_cons_of_mem _ (ih hmem' above)
  obtain ⟨lx, hlx, hsuffix⟩ := hl'.of_mem (hmeets hy hx hl')
  cases hlx with
  | top h => rw [Function.update_self] at h; cases h
  | step h above =>
    rw [Function.update_self] at h
    cases h
    rw [above.unique hl'] at hsuffix
    exact absurd hsuffix.length_le (by simp)

end Move

end Climb
