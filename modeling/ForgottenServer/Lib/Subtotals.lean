import Mathlib
import ForgottenServer.Lib.Climb

/-! # Totals that are kept at every node of a forest

Every node has a weight of its own and keeps the total of its children. When the total of one
node is off by a difference, it is enough to add the difference to that node and to everything
above it. -/

namespace Subtotals

variable {α G : Type} [AddCommMonoid G] {up : α → Option α} {kids : α → List α} {own total : α → G}

/-- What the children of a node are worth. -/
def inside (kids : α → List α) (worth : α → G) (c : α) : G := ((kids c).map worth).sum

/-- Every node is worth its own weight and its total. -/
def Exact (kids : α → List α) (own total : α → G) : Prop := ∀ c, total c = inside kids (own + total) c

/-- The total of `c` lacks `d`, every other total is right. -/
def OffAt [DecidableEq α] (kids : α → List α) (own total : α → G) (c : α) (d : G) : Prop :=
  ∀ z, inside kids (own + total) z = total z + if z = c then d else 0

/-- Adds `d` to the total of a node and of everything above it, when the top is met in time. -/
def raise [DecidableEq α] (up : α → Option α) (d : G) : Nat → α → (α → G) → Option (α → G)
  | 0, _, _ => none
  | n + 1, c, total =>
    let total := Function.update total c (total c + d)
    match up c with
    | none => some total
    | some p => raise up d n p total

/-- What a node weighs with everything below it, down to `n` steps. -/
def deep (kids : α → List α) (own : α → G) : Nat → α → G
  | 0, c => own c
  | n + 1, c => own c + ((kids c).map (deep kids own n)).sum

theorem inside_congr {kids' : α → List α} {worth worth' : α → G} {c : α} (hkids : kids' c = kids c)
    (h : ∀ x ∈ kids c, worth' x = worth x) : inside kids' worth' c = inside kids worth c := by
  rw [inside, inside, hkids, List.map_congr_left h]

/-- One more child. -/
theorem inside_cons {kids' : α → List α} {worth : α → G} {x c : α} (h : (kids' c).Perm (x :: kids c)) :
    inside kids' worth c = worth x + inside kids worth c := by
  rw [inside, (h.map worth).sum_eq, List.map_cons, List.sum_cons, inside]

section Change

variable [DecidableEq α] {c : α} {d : G}

/-- One child is worth something else. -/
theorem inside_change {worth worth' : α → G} {x : α} (hnodup : (kids c).Nodup) (hx : x ∈ kids c)
    (h : ∀ y ∈ kids c, y ≠ x → worth' y = worth y) :
    inside kids worth' c + worth x = inside kids worth c + worth' x := by
  have hperm := List.perm_cons_erase hx
  have hrest : ((kids c).erase x).map worth' = ((kids c).erase x).map worth :=
    List.map_congr_left fun y hy => h y (List.mem_of_mem_erase hy) fun heq => hnodup.not_mem_erase (heq ▸ hy)
  rw [inside, inside, (hperm.map worth').sum_eq, (hperm.map worth).sum_eq, List.map_cons, List.map_cons,
    List.sum_cons, List.sum_cons, hrest]
  rw [add_right_comm, add_comm (worth' x), add_right_comm]

/-- One child is worth `d` more. -/
theorem inside_add {c : α} (hnodup : (kids c).Nodup) (worth : α → G) (x : α) (d : G) :
    inside kids (fun y => worth y + if y = x then d else 0) c = inside kids worth c + if x ∈ kids c then d else 0 := by
  rw [inside, inside]
  generalize kids c = l at hnodup
  induction l with
  | nil => simp
  | cons y l ih =>
    obtain ⟨hy, hl⟩ := List.nodup_cons.mp hnodup
    rw [List.map_cons, List.sum_cons, ih hl, List.map_cons, List.sum_cons]
    rcases eq_or_ne y x with rfl | hne
    · rw [if_pos rfl, if_neg hy, if_pos (List.mem_cons_self ..), add_zero, add_right_comm]
    · rw [if_neg hne, add_zero, add_assoc]
      congr 3
      exact propext ⟨List.mem_cons_of_mem _, fun h => (List.mem_cons.mp h).resolve_left hne.symm⟩

theorem update_add (total : α → G) (c : α) (d : G) :
    Function.update total c (total c + d) = fun x => total x + if x = c then d else 0 := by
  funext x
  rcases eq_or_ne x c with rfl | hne
  · rw [Function.update_self, if_pos rfl]
  · rw [Function.update_of_ne hne, if_neg hne, add_zero]

/-- What the children are worth after `d` more at `c`. -/
theorem inside_update (hnodup : ∀ z, (kids z).Nodup) (c : α) (d : G) (z : α) :
    inside kids (own + Function.update total c (total c + d)) z =
      inside kids (own + total) z + if c ∈ kids z then d else 0 := by
  rw [update_add, ← inside_add (hnodup z)]
  refine congrArg (inside kids · z) (funext fun x => ?_)
  simp only [Pi.add_apply, add_assoc]

/-- At a root the difference is made good. -/
theorem OffAt.root (h : OffAt kids own total c d) (hnodup : ∀ z, (kids z).Nodup) (hroot : ∀ z, c ∉ kids z) :
    Exact kids own (Function.update total c (total c + d)) := by
  intro z
  rw [inside_update hnodup, if_neg (hroot z), add_zero, h z, update_add]

/-- Below a root it moves up to the parent. -/
theorem OffAt.parent (h : OffAt kids own total c d) (hnodup : ∀ z, (kids z).Nodup) {p : α}
    (hp : ∀ z, c ∈ kids z ↔ z = p) : OffAt kids own (Function.update total c (total c + d)) p d := by
  intro z
  rw [inside_update hnodup, h z, update_add]
  simp only [hp z]

/-- A difference that is added all the way up makes every total right. -/
theorem OffAt.raise_exact {l : List α} (habove : Climb.Above up c l) (hnodup : ∀ z, (kids z).Nodup) :
    ∀ {n total}, l.length ≤ n → OffAt kids own total c d → (∀ y ∈ l, ∀ z, y ∈ kids z ↔ up y = some z) →
      ∃ total', raise up d n c total = some total' ∧ Exact kids own total' := by
  induction habove with
  | @top c hc =>
    intro n total hn hoff hkids
    rw [List.length_singleton] at hn
    obtain ⟨n, rfl⟩ := Nat.exists_eq_add_of_le' hn
    refine ⟨Function.update total c (total c + d), by simp only [raise, hc], hoff.root hnodup fun z hz => ?_⟩
    have hup := (hkids c (List.mem_singleton_self c) z).mp hz
    rw [hc] at hup
    cases hup
  | @step c p l hc above ih =>
    intro n total hn hoff hkids
    obtain ⟨n, rfl⟩ := Nat.exists_eq_add_of_le' (Nat.le_trans (Nat.le_add_left 1 _) hn)
    have hp (z : α) : c ∈ kids z ↔ z = p := by
      rw [hkids c (List.mem_cons_self ..) z, hc, Option.some_inj, eq_comm]
    obtain ⟨total', hraise, hexact⟩ := ih (Nat.le_of_succ_le_succ hn) (hoff.parent hnodup hp)
      fun y hy => hkids y (List.mem_cons_of_mem _ hy)
    exact ⟨total', by simp only [raise, hc, hraise], hexact⟩

end Change

/-- Where every total is right, a node and its total are all that is at and below it. -/
theorem Exact.deep_eq (h : Exact kids own total) (hkids : ∀ x z, x ∈ kids z → up x = some z) {N : Nat}
    (hheight : ∀ {x l}, Climb.Above up x l → l.length ≤ N) :
    ∀ {n c l}, Climb.Above up c l → N ≤ l.length + n → deep kids own n c = own c + total c := by
  intro n
  induction n with
  | zero =>
    intro c l habove hn
    have hnil : kids c = [] := by
      refine List.eq_nil_iff_forall_not_mem.mpr fun x hx => ?_
      have hlen := hheight (Climb.Above.step (hkids x c hx) habove)
      rw [List.length_cons] at hlen
      omega
    rw [deep, h c, inside, hnil, List.map_nil, List.sum_nil, add_zero]
  | succ n ih =>
    intro c l habove hn
    have hmap : (kids c).map (deep kids own n) = (kids c).map (own + total) := by
      refine List.map_congr_left fun x hx => ih (.step (hkids x c hx) habove) ?_
      rw [List.length_cons]
      omega
    rw [deep, hmap, h c, inside]

/-! ## All that is at and below a node -/

/-- The children and the parents agree, and every climb ends within `N` steps. -/
structure Tree (up : α → Option α) (kids : α → List α) (N : Nat) : Prop where
  kids_iff : ∀ {x z}, x ∈ kids z ↔ up x = some z
  nodup : ∀ z, (kids z).Nodup
  above : ∀ x, ∃ l, Climb.Above up x l ∧ l.length ≤ N

/-- Only what is a child matters. -/
theorem deep_congr {own' : α → G} {p : α → Prop} (hkids : ∀ z, ∀ x ∈ kids z, p x) (hown : ∀ x, p x → own' x = own x) :
    ∀ (n : Nat) {z : α}, p z → deep kids own' n z = deep kids own n z := by
  intro n
  induction n with
  | zero => exact fun hz => hown _ hz
  | succ n ih =>
    intro z hz
    rw [deep, deep, hown z hz, List.map_congr_left fun x hx => ih (hkids z x hx)]

namespace Tree

variable {N : Nat} (h : Tree up kids N)
include h

theorem height {x : α} {l : List α} (habove : Climb.Above up x l) : l.length ≤ N := by
  obtain ⟨l', habove', hlen⟩ := h.above x
  rwa [habove.unique habove']

/-- Beyond the height, one more step adds nothing. -/
theorem deep_succ : ∀ {n c l}, Climb.Above up c l → N ≤ l.length + n → deep kids own (n + 1) c = deep kids own n c := by
  intro n
  induction n with
  | zero =>
    intro c l habove hn
    have hnil : kids c = [] := by
      refine List.eq_nil_iff_forall_not_mem.mpr fun x hx => ?_
      have hlen := h.height (.step (h.kids_iff.mp hx) habove)
      rw [List.length_cons] at hlen
      omega
    rw [deep, deep, hnil, List.map_nil, List.sum_nil, add_zero]
  | succ n ih =>
    intro c l habove hn
    rw [deep, List.map_congr_left fun x hx => ih (.step (h.kids_iff.mp hx) habove) (by rw [List.length_cons]; omega)]
    rfl

/-- What is below each node, as its total. -/
theorem exact (own : α → G) : Exact kids own (inside kids (deep kids own N)) := by
  intro c
  refine inside_congr rfl fun x _ => ?_
  obtain ⟨l, habove, _⟩ := h.above x
  rw [Pi.add_apply, ← h.deep_succ habove (Nat.le_add_left ..)]
  rfl

theorem deep_eq_own (own : α → G) (c : α) : deep kids own N c = own c + inside kids (deep kids own N) c := by
  obtain ⟨l, habove, _⟩ := h.above c
  rw [← h.deep_succ habove (Nat.le_add_left ..)]
  rfl

end Tree

section Change

variable [DecidableEq α]

theorem raise_eq {c : α} {l : List α} {d : G} (habove : Climb.Above up c l) :
    ∀ {n total}, l.length ≤ n → raise up d n c total = some fun z => total z + if z ∈ l then d else 0 := by
  induction habove with
  | @top c hc =>
    intro n total hn
    obtain ⟨n, rfl⟩ := Nat.exists_eq_add_of_le' (Nat.le_trans (Nat.le_of_eq List.length_singleton.symm) hn)
    simp only [raise, hc, update_add, List.mem_singleton]
  | @step c p l hc above ih =>
    intro n total hn
    obtain ⟨n, rfl⟩ := Nat.exists_eq_add_of_le' (Nat.le_trans (Nat.le_add_left 1 _) hn)
    have hnew : c ∉ l := (List.nodup_cons.mp (Climb.Above.step hc above).nodup).1
    simp only [raise, hc]
    rw [ih (Nat.le_of_succ_le_succ hn), update_add]
    refine congrArg some (funext fun z => ?_)
    rcases eq_or_ne z c with rfl | hne
    · simp only [if_true, hnew, if_false, add_zero, List.mem_cons, true_or]
    · simp only [hne, if_false, add_zero, List.mem_cons, false_or]

/-- A difference at one node is the difference of everything above it. -/
theorem OffAt.deep_eq {N : Nat} {c : α} {d : G} {l : List α} (hoff : OffAt kids own total c d) (h : Tree up kids N)
    (habove : Climb.Above up c l) (z : α) : deep kids own N z = own z + (total z + if z ∈ l then d else 0) := by
  obtain ⟨total', hraise, hexact⟩ := hoff.raise_exact habove h.nodup (h.height habove) fun _ _ _ => h.kids_iff
  rw [raise_eq habove (h.height habove)] at hraise
  obtain rfl := Option.some.inj hraise
  obtain ⟨lz, hz, _⟩ := h.above z
  exact hexact.deep_eq (fun _ _ hx => h.kids_iff.mp hx) h.height hz (Nat.le_add_left ..)

end Change

end Subtotals
