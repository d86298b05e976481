import Mathlib

/-! # Cells and the gaps between them

A sequence of cells, some of which are empty, is sent as the cells that are there, with a number after each: how many
empty cells follow. `longest` is the longest gap that a number can tell. -/

namespace GapCoding

variable {T : Type}

inductive Piece (T : Type) where
  | cell (value : T)
  | gap (length : Nat)
  deriving DecidableEq

/-- The sender goes on with a cell. Its state is the gap that is open, if there is one. -/
def send (longest : Nat) : Option Nat → Option T → Option Nat × List (Piece T)
  | none, some value => (some 0, [.cell value])
  | some n, some value => (some 0, [.gap n, .cell value])
  | none, none => (some 0, [])
  | some n, none => if n + 1 = longest then (none, [.gap longest]) else (some (n + 1), [])

/-- The gap that is open at the end. -/
def close : Option Nat → List (Piece T)
  | none => []
  | some n => [.gap n]

def sendAll (longest : Nat) : Option Nat → List (Option T) → Option Nat × List (Piece T)
  | opened, [] => (opened, [])
  | opened, c :: cells =>
    let next := send longest opened c
    let rest := sendAll longest next.1 cells
    (rest.1, next.2 ++ rest.2)

/-- The pieces of some cells. -/
def encode (longest : Nat) (opened : Option Nat) (cells : List (Option T)) : List (Piece T) :=
  (sendAll longest opened cells).2 ++ close (sendAll longest opened cells).1

/-- The receiver knows how many cells there are. It counts down what is left of a gap, and looks at a piece when nothing
is left of it. -/
def receive : Nat → Nat → List (Piece T) → Option (List (Option T) × List (Piece T))
  | 0, 0, pieces => some ([], pieces)
  | 0, _ + 1, _ => none
  | count + 1, left + 1, pieces => (receive count left pieces).map fun r => (none :: r.1, r.2)
  | count + 1, 0, .gap n :: pieces => (receive count n pieces).map fun r => (none :: r.1, r.2)
  | count + 1, 0, .cell value :: .gap n :: pieces => (receive count n pieces).map fun r => (some value :: r.1, r.2)
  | _ + 1, 0, _ => none

theorem encode_nil (longest : Nat) (opened : Option Nat) : encode longest opened ([] : List (Option T)) = close opened :=
  rfl

theorem encode_cons (longest : Nat) (opened : Option Nat) (c : Option T) (cells : List (Option T)) :
    encode longest opened (c :: cells) = (send longest opened c).2 ++ encode longest (send longest opened c).1 cells := by
  simp only [encode, sendAll, List.append_assoc]

theorem sendAll_append (longest : Nat) (cells cells' : List (Option T)) : ∀ opened : Option Nat,
    sendAll longest opened (cells ++ cells') =
      ((sendAll longest (sendAll longest opened cells).1 cells').1,
        (sendAll longest opened cells).2 ++ (sendAll longest (sendAll longest opened cells).1 cells').2) := by
  induction cells with
  | nil => exact fun opened => rfl
  | cons c cells ih =>
    intro opened
    simp only [List.cons_append, sendAll, ih, List.append_assoc]

/-- A gap that is open is shorter than the longest. -/
def Short (longest : Nat) (opened : Option Nat) : Prop := ∀ n ∈ opened, n < longest

theorem short_send {longest : Nat} (hlongest : 0 < longest) {opened : Option Nat} (h : Short longest opened)
    (c : Option T) : Short longest (send longest opened c).1 := by
  have hzero : Short longest (some 0) := fun n hn => by
    rw [Option.mem_some_iff] at hn
    omega
  cases opened with
  | none => cases c <;> exact hzero
  | some n =>
    cases c with
    | some value => exact hzero
    | none =>
      have hn := h n rfl
      intro m hm
      rw [send] at hm
      split at hm
      · cases hm
      · rw [Option.mem_some_iff] at hm
        omega

/-- What the receiver needs to come to the end of the cells: after an open gap of `n` cells, a number that is not less,
of which `n` are over. -/
def Received (cells : List (Option T)) (rest : List (Piece T)) : Option Nat → List (Piece T) → Prop
  | none, pieces => receive cells.length 0 pieces = some (cells, rest)
  | some n, pieces => ∃ m left, pieces = .gap m :: left ∧ n ≤ m ∧ receive cells.length (m - n) left = some (cells, rest)

theorem received_encode {longest : Nat} (hlongest : 0 < longest) (rest : List (Piece T)) (cells : List (Option T)) :
    ∀ opened, Short longest opened → Received cells rest opened (encode longest opened cells ++ rest) := by
  induction cells with
  | nil =>
    intro opened _
    rw [encode_nil]
    cases opened with
    | none => exact rfl
    | some n => exact ⟨n, rest, rfl, le_rfl, by rw [Nat.sub_self]; rfl⟩
  | cons c cells ih =>
    intro opened hshort
    have hnext := ih _ (short_send hlongest hshort c)
    rw [encode_cons, List.append_assoc]
    cases opened with
    | none =>
      obtain ⟨m, left, hpieces, _, hleft⟩ : Received cells rest (some 0) _ := by cases c <;> exact hnext
      rw [Nat.sub_zero] at hleft
      cases c with
      | none =>
        simp only [send, List.nil_append] at hpieces ⊢
        rw [hpieces]
        simp only [Received, List.length_cons, receive, hleft, Option.map_some]
      | some value =>
        simp only [send, List.cons_append, List.nil_append] at hpieces ⊢
        rw [hpieces]
        simp only [Received, List.length_cons, receive, hleft, Option.map_some]
    | some n =>
      cases c with
      | some value =>
        obtain ⟨m, left, hpieces, _, hleft⟩ : Received cells rest (some 0) _ := hnext
        rw [Nat.sub_zero] at hleft
        have hopened : encode longest (some 0) cells ++ rest = .gap m :: left := hpieces
        refine ⟨n, .cell value :: (encode longest (some 0) cells ++ rest), rfl, le_rfl, ?_⟩
        rw [Nat.sub_self, hopened, List.length_cons, receive, hleft, Option.map_some]
      | none =>
        have hn := hshort n rfl
        by_cases hfull : n + 1 = longest
        · simp only [send, hfull, if_true, List.cons_append, List.nil_append] at hnext ⊢
          refine ⟨longest, _, rfl, by omega, ?_⟩
          -- the gap ends with this cell
          have hone : longest - n = 0 + 1 := by omega
          rw [hone, List.length_cons, receive, hnext, Option.map_some]
        · simp only [send, if_neg hfull, List.nil_append] at hnext ⊢
          obtain ⟨m, left, hpieces, hm, hleft⟩ := hnext
          refine ⟨m, left, hpieces, by omega, ?_⟩
          have hone : m - n = m - (n + 1) + 1 := by omega
          rw [hone, List.length_cons, receive, hleft, Option.map_some]

/-- The receiver gets the cells back, and nothing of what comes after them. -/
theorem receive_encode {longest : Nat} (hlongest : 0 < longest) (cells : List (Option T)) (rest : List (Piece T)) :
    receive cells.length 0 (encode longest none cells ++ rest) = some (cells, rest) :=
  received_encode hlongest rest cells none fun _ hn => by cases hn

end GapCoding
