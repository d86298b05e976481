import Mathlib
import ForgottenServer.Lib.Subtotals

/-! # Searching a tree with a queue

`below kids n x` lists all that is below a node, down to `n` steps. A search takes a node from
the front of a queue, lists its children and lets those that may have children themselves queue
up. It lists everything below the nodes that were in the queue, each node once. -/

namespace TreeSearch

open Subtotals (Tree)

variable {α : Type} (kids : α → List α)

def below : Nat → α → List α
  | 0, _ => []
  | n + 1, x => kids x ++ (kids x).flatMap (below n)

/-- `none` when the queue is not empty after so many turns. -/
def search (isNode : α → Bool) : Nat → List α → Option (List α)
  | _, [] => some []
  | 0, _ :: _ => none
  | fuel + 1, x :: queue => (search isNode fuel (queue ++ (kids x).filter isNode)).map (kids x ++ ·)

variable {kids} {up : α → Option α} {N : Nat}

theorem below_of_nil {x : α} (h : kids x = []) (n : Nat) : below kids n x = [] := by
  cases n with
  | zero => rfl
  | succ n => rw [below, h, List.flatMap_nil, List.append_nil]

/-- Whatever is below a node is a child. -/
theorem exists_parent (n : Nat) : ∀ {x y : α}, y ∈ below kids n x → ∃ z, y ∈ kids z := by
  induction n with
  | zero => exact fun h => absurd h List.not_mem_nil
  | succ n ih =>
    intro x y h
    rcases List.mem_append.mp h with h | h
    · exact ⟨x, h⟩
    · obtain ⟨z, _, h⟩ := List.mem_flatMap.mp h
      exact ih h

/-- A node is strictly above all that is below it. -/
theorem above_of_mem (hup : ∀ x z, x ∈ kids z → up x = some z) (n : Nat) :
    ∀ {x y : α}, y ∈ below kids n x → ∀ {l}, Climb.Above up x l → ∃ front, front ≠ [] ∧ Climb.Above up y (front ++ l) := by
  induction n with
  | zero => exact fun h => absurd h List.not_mem_nil
  | succ n ih =>
    intro x y h l habove
    rcases List.mem_append.mp h with h | h
    · exact ⟨[y], by simp, .step (hup y x h) habove⟩
    · obtain ⟨z, hz, h⟩ := List.mem_flatMap.mp h
      obtain ⟨front, _, hy⟩ := ih h (.step (hup z x hz) habove)
      exact ⟨front ++ [z], by simp, by simpa using hy⟩

theorem nodup_below (h : Tree up kids N) (n : Nat) : ∀ x, (below kids n x).Nodup := by
  have hup (x z : α) (hx : x ∈ kids z) : up x = some z := h.kids_iff.mp hx
  induction n with
  | zero => exact fun _ => List.nodup_nil
  | succ n ih =>
    intro x
    obtain ⟨l, habove, _⟩ := h.above x
    have hkid {y : α} (hy : y ∈ kids x) : Climb.Above up y (y :: l) := .step (hup y x hy) habove
    refine List.nodup_append.mpr ⟨h.nodup x, List.nodup_flatMap.mpr ⟨fun y _ => ih y, ?_⟩, ?_⟩
    · -- what is below two children has both above it, at the same height
      refine (h.nodup x).imp_of_mem fun {y z} hy hz hne => ?_
      rw [Function.onFun, List.disjoint_left]
      intro r hry hrz
      obtain ⟨front, _, hr⟩ := above_of_mem hup n hry (hkid hy)
      obtain ⟨front', _, hr'⟩ := above_of_mem hup n hrz (hkid hz)
      have heq := hr.unique hr'
      exact hne (List.cons.inj (List.append_inj_right' heq (by simp))).1
    · intro y hy z hz heq
      subst heq
      obtain ⟨w, hw, hyw⟩ := List.mem_flatMap.mp hz
      obtain ⟨front, hne, hyw⟩ := above_of_mem hup n hyw (hkid hw)
      have hlen := congrArg List.length (hyw.unique (hkid hy))
      rw [List.length_append, List.length_cons, List.length_cons] at hlen
      have hpos := List.length_pos_of_ne_nil hne
      omega

/-! ## The search -/

section Search

variable {isNode : α → Bool} (h : Tree up kids N) (hleaf : ∀ x, isNode x = false → kids x = [])
include hleaf

include h

end Search

/-! ## A leaf goes -/

/-- Without a leaf, the rest is what it was. -/
theorem below_erase [DecidableEq α] {kids' : α → List α} {r : α} (hr : kids r = [])
    (hkids : ∀ x, kids' x = (kids x).filter (· ≠ r)) (n : Nat) :
    ∀ x, below kids' n x = (below kids n x).filter (· ≠ r) := by
  induction n with
  | zero => exact fun _ => rfl
  | succ n ih =>
    intro x
    rw [below, below, List.filter_append, hkids]
    congr 1
    induction kids x with
    | nil => rfl
    | cons y l ih' =>
      rw [List.flatMap_cons, List.filter_append, ← ih']
      rcases eq_or_ne y r with rfl | hne
      · rw [below_of_nil hr, List.filter_nil, List.nil_append, List.filter_cons_of_neg (by simp)]
      · rw [List.filter_cons_of_pos (by simpa using hne), List.flatMap_cons, ih]

section Sum

variable [DecidableEq α] {G : Type} [AddCommMonoid G] {f g : α → G} {l : List α} {r : α}

theorem sum_filter_ne (f : α → G) (hl : l.Nodup) (hr : r ∈ l) :
    ((l.filter (· ≠ r)).map f).sum + f r = (l.map f).sum := by
  have herase : l.erase r = l.filter (· ≠ r) := by
    rw [hl.erase_eq_filter]
    exact List.filter_congr fun x _ => by rw [Bool.eq_iff_iff, bne_iff_ne, decide_eq_true_iff]
  rw [((List.perm_cons_erase hr).map f).sum_eq, List.map_cons, List.sum_cons, herase, add_comm]

/-- One node is worth something else. -/
theorem sum_change (hl : l.Nodup) (hr : r ∈ l) (h : ∀ x ∈ l, x ≠ r → g x = f x) :
    (l.map g).sum + f r = (l.map f).sum + g r := by
  have hrest : (l.filter (· ≠ r)).map g = (l.filter (· ≠ r)).map f :=
    List.map_congr_left fun x hx => by
      obtain ⟨hmem, hne⟩ := List.mem_filter.mp hx
      exact h x hmem (by simpa using hne)
  rw [← sum_filter_ne f hl hr, ← sum_filter_ne g hl hr, hrest, add_right_comm]

end Sum

end TreeSearch
