import ForgottenServer.Lib.LeftmostSplit
import ForgottenServer.Lib.Loop
import Mathlib

/-! # Exploding and replacing

`explodeString` cuts a string at a separator, `replaceString` rewrites a string in place while it scans it. Both walk on
with `find` from a position that they move behind what they found. -/

open LeftmostSplit

namespace ForgottenServer.Tools

abbrev Bytes := List UInt8

def INT32_MIN : Int := -2 ^ 31

/-- `str.find(what, position)`, `none` for `npos`. -/
def find (str what : Bytes) (position : Nat) : Option Nat :=
  if position ≤ str.length then (firstAt what (str.drop position)).map (position + ·) else none

/-- `str.substr(position, count)`, which throws where the position is behind the end. -/
def substr (str : Bytes) (position count : Nat) : Option Bytes :=
  if position ≤ str.length then some ((str.drop position).take count) else none

/-! ## explodeString -/

structure Exploding where
  limit : Int
  start : Nat
  returnVector : List Bytes

/-- `--limit` has no meaning at the least `int32_t`. -/
def decrement (limit : Int) : Option Int := if limit = INT32_MIN then none else some (limit - 1)

/-- The test of the loop and its body. Behind the loop the rest is the last part. -/
def explodeTurn (inString separator : Bytes) (s : Exploding) : Option (Loop.Turn Exploding (List Bytes)) := do
  let limit ← decrement s.limit
  match if limit ≠ -1 then find inString separator s.start else none with
  | some last =>
    let part ← substr inString s.start (last - s.start)
    some (.again ⟨limit, last + separator.length, s.returnVector ++ [part]⟩)
  | none =>
    let rest ← substr inString s.start inString.length
    some (.stop (s.returnVector ++ [rest]))

/-- The parts, if the loop ends within `fuel` turns. -/
def explodeString (fuel : Nat) (inString separator : Bytes) (limit : Int) : Option (List Bytes) :=
  Loop.run (explodeTurn inString separator) fuel ⟨limit, 0, []⟩

/-! ## replaceString -/

/-- `source` and `position`. -/
def replaceTurn (search replacement : Bytes) (s : Bytes × Nat) : Option (Loop.Turn (Bytes × Nat) Bytes) :=
  match find s.1 search s.2 with
  | some position =>
    let source := s.1.take position ++ replacement ++ s.1.drop (position + search.length)
    some (.again (source, position + replacement.length))
  | none => some (.stop s.1)

/-- `source` as the call leaves it, if the loop ends within `fuel` turns. -/
def replaceString (fuel : Nat) (source search replacement : Bytes) : Option Bytes :=
  if search = [] then some source else Loop.run (replaceTurn search replacement) fuel (source, 0)

/-! ## What is found behind the parts that are done -/

variable {done rest what : Bytes}

theorem find_append (done rest what : Bytes) :
    find (done ++ rest) what done.length = (firstAt what rest).map (done.length + ·) := by
  rw [find, if_pos (by simp), List.drop_left]

theorem substr_append (done rest : Bytes) (count : Nat) :
    substr (done ++ rest) done.length count = some (rest.take count) := by
  rw [substr, if_pos (by simp), List.drop_left]

/-! ## The turns of explodeString -/

variable {separator part : Bytes} {limit : Int} {returnVector : List Bytes}

/-- The string from `start` on is the last part. -/
theorem explodeTurn_last (hlimit : limit ≠ INT32_MIN) (h : limit = 0 ∨ ¬ separator <:+: rest) :
    explodeTurn (done ++ rest) separator ⟨limit, done.length, returnVector⟩ =
      some (.stop (returnVector ++ [rest])) := by
  have htest : (if limit - 1 ≠ -1 then find (done ++ rest) separator done.length else none) = none := by
    rw [find_append]
    rcases h with rfl | h
    · rfl
    · rw [firstAt_eq_none.mpr h]
      exact ite_self _
  have hrest : rest.take (done ++ rest).length = rest := List.take_of_length_le (by simp)
  simp only [explodeTurn, decrement, if_neg hlimit, Option.bind_eq_bind, Option.bind_some, htest, substr_append, hrest]

/-- The next separator ends a part. -/
theorem explodeTurn_cut (hlimit : limit ≠ INT32_MIN) (hzero : limit ≠ 0) (hfree : Free separator part) :
    explodeTurn (done ++ (part ++ separator ++ rest)) separator ⟨limit, done.length, returnVector⟩ =
      some (.again ⟨limit - 1, (done ++ (part ++ separator)).length, returnVector ++ [part]⟩) := by
  have htest : (if limit - 1 ≠ -1 then find (done ++ (part ++ separator ++ rest)) separator done.length else none) =
      some (done.length + part.length) := by
    rw [if_pos (by omega), find_append, firstAt_append hfree, Option.map_some]
  have hpart : (part ++ separator ++ rest).take (done.length + part.length - done.length) = part := by
    rw [Nat.add_sub_cancel_left, List.append_assoc, List.take_left]
  simp only [explodeTurn, decrement, if_neg hlimit, Option.bind_eq_bind, Option.bind_some, htest, substr_append, hpart,
    List.length_append, Nat.add_assoc]

/-- With a limit from 0 on. -/
theorem explode_atMost (hsep : separator ≠ []) (rest : Bytes) :
    ∀ (done : Bytes) {limit : Int} {returnVector : List Bytes}, 0 ≤ limit → Loop.run (explodeTurn (done ++ rest) separator) (split separator rest).length
      ⟨limit, done.length, returnVector⟩ = some (returnVector ++ atMost separator limit.toNat (split separator rest)) := by
  have hmin {limit : Int} (hlimit : 0 ≤ limit) : limit ≠ INT32_MIN := by
    rw [INT32_MIN]
    omega
  induction rest using LeftmostSplit.induction hsep with
  | last rest hlast =>
    intro done limit returnVector hlimit
    rw [split_last hlast, List.length_singleton, Loop.run_stop (explodeTurn_last (hmin hlimit) (.inr hlast)),
      atMost_singleton]
  | cut part rest hfree ih =>
    intro done limit returnVector hlimit
    rw [split_cut hsep hfree, List.length_cons]
    by_cases hzero : limit = 0
    · rw [Loop.run_stop (explodeTurn_last (hmin hlimit) (.inl hzero)), hzero, Int.toNat_zero,
        atMost_zero (List.cons_ne_nil _ _), ← split_cut hsep hfree, intercalate_split]
    · obtain ⟨n, rfl⟩ : ∃ n : Nat, limit = n + 1 := ⟨limit.toNat - 1, by omega⟩
      rw [Loop.run_again (explodeTurn_cut (hmin hlimit) hzero hfree), ← List.append_assoc,
        ih _ (by omega), List.append_assoc, Int.add_sub_cancel, Int.toNat_natCast, Int.toNat_natCast_add_one, atMost_succ]
      rfl

/-- With a negative limit, as long as it can be counted down. -/
theorem explode_all (hsep : separator ≠ []) (rest : Bytes) : ∀ (done : Bytes) {limit : Int} {returnVector : List Bytes},
    limit < 0 → ((split separator rest).length : Int) ≤ limit - INT32_MIN →
    Loop.run (explodeTurn (done ++ rest) separator) (split separator rest).length ⟨limit, done.length, returnVector⟩ =
      some (returnVector ++ split separator rest) := by
  induction rest using LeftmostSplit.induction hsep with
  | last rest hlast =>
    intro done limit returnVector hlimit hcount
    rw [split_last hlast, List.length_singleton] at hcount ⊢
    rw [Loop.run_stop (explodeTurn_last (by omega) (.inr hlast))]
  | cut part rest hfree ih =>
    intro done limit returnVector hlimit hcount
    rw [split_cut hsep hfree, List.length_cons] at hcount ⊢
    rw [Loop.run_again (explodeTurn_cut (by omega) (by omega) hfree), ← List.append_assoc, ih _ (by omega) (by omega),
      List.append_assoc]
    rfl

/-- With a negative limit and more parts than it can be counted down. -/
theorem explode_overflow (hsep : separator ≠ []) (rest : Bytes) (fuel : Nat) :
    ∀ (done : Bytes) {limit : Int} {returnVector : List Bytes},
    limit < 0 → INT32_MIN ≤ limit → limit - INT32_MIN < (split separator rest).length →
    Loop.run (explodeTurn (done ++ rest) separator) fuel ⟨limit, done.length, returnVector⟩ = none := by
  have hundefined {inString : Bytes} {start : Nat} {returnVector : List Bytes} (fuel : Nat) :
      Loop.run (explodeTurn inString separator) fuel ⟨INT32_MIN, start, returnVector⟩ = none := by
    cases fuel with
    | zero => rfl
    | succ fuel => rfl
  induction rest using LeftmostSplit.induction hsep generalizing fuel with
  | last rest hlast =>
    intro done limit returnVector hlimit hmin hcount
    rw [split_last hlast, List.length_singleton] at hcount
    obtain rfl : limit = INT32_MIN := by omega
    exact hundefined fuel
  | cut part rest hfree ih =>
    intro done limit returnVector hlimit hmin hcount
    rw [split_cut hsep hfree, List.length_cons] at hcount
    by_cases heq : limit = INT32_MIN
    · rw [heq]
      exact hundefined fuel
    · cases fuel with
      | zero => rfl
      | succ fuel =>
        rw [Loop.run_again (explodeTurn_cut heq (by omega) hfree), ← List.append_assoc]
        exact ih fuel _ (by omega) (by omega) (by omega)

/-- Every string below 2^31 bytes is cut into its parts, but for the one that is nothing but 2^31 - 1 separators of one
byte and has no limit: its counter would have to go below the least `int32_t`. -/
theorem explodeString_inverts_join {inString separator : Bytes} {limit : Int} (hlength : inString.length < 2 ^ 31)
    (hsep : separator ≠ []) (hlimit : limit = -1 ∨ 0 ≤ limit)
    (hcounter : limit = -1 → ∀ c, separator = [c] → inString ≠ List.replicate (2 ^ 31 - 1) c) :
    ∃ fuel parts, explodeString fuel inString separator limit = some parts ∧
      separator.intercalate parts = inString ∧
      (limit = -1 → parts = split separator inString ∧ ∀ part ∈ parts, ¬ separator <:+: part) ∧
      (0 ≤ limit → (parts.length : Int) ≤ limit + 1 ∧
        parts = atMost separator limit.toNat (split separator inString)) ∧
      (limit = -1 → ∀ joined, Separable separator joined → inString = separator.intercalate joined → parts = joined) := by
  obtain rfl | hlimit := hlimit
  · have hcount : ((split separator inString).length : Int) ≤ -1 - INT32_MIN := by
      by_contra hmany
      rw [INT32_MIN] at hmany
      have hle := length_split_le hsep inString
      have hall : inString.length = 2 ^ 31 - 1 := by omega
      have hne : inString ≠ [] := List.ne_nil_of_length_pos (by omega)
      obtain ⟨c, hc, hs⟩ := eq_replicate_of_length_lt hsep hne (by omega)
      exact hcounter rfl c hc (hall ▸ hs)
    refine ⟨_, _, explode_all hsep inString [] (by omega) hcount, ?_, ?_, ?_, ?_⟩
    · exact intercalate_split separator inString
    · exact fun _ => ⟨rfl, fun part hpart => Separable.not_infix hsep (separable_split hsep inString) hpart⟩
    · exact fun hnonneg => absurd hnonneg (by decide)
    · rintro - joined hjoined rfl
      exact split_intercalate hsep hjoined
  · refine ⟨_, _, explode_atMost hsep inString [] hlimit, ?_, ?_, ?_, ?_⟩
    · exact (intercalate_atMost ..).trans (intercalate_split separator inString)
    · intro h
      omega
    · refine fun _ => ⟨?_, rfl⟩
      have hle := length_atMost_le separator limit.toNat (split separator inString)
      simp only [List.nil_append]
      omega
    · intro h
      omega

/-- A short list without a limit. -/
theorem explodeString_inverts_list : ∃ fuel parts, explodeString fuel [44, 118, 44] [44] (-1) = some parts ∧
    List.intercalate [44] parts = [44, 118, 44] ∧
    ((-1 : Int) = -1 → parts = split [44] [44, 118, 44] ∧ ∀ part ∈ parts, ¬ [44] <:+: part) ∧
    ((0 : Int) ≤ -1 → (parts.length : Int) ≤ -1 + 1 ∧
      parts = atMost [44] (-1 : Int).toNat (split [44] [44, 118, 44])) ∧
    ((-1 : Int) = -1 → ∀ joined, Separable [44] joined → [44, 118, 44] = List.intercalate [44] joined → parts = joined) :=
  explodeString_inverts_join (by decide) (by decide) (.inl rfl) fun _ c _ h => by
    have hlength := congrArg List.length h
    rw [List.length_replicate] at hlength
    exact absurd hlength (by decide)

theorem explodeString_separators (c : UInt8) {n : Nat} (hn : 2 ^ 31 ≤ n + 1) (fuel : Nat) :
    explodeString fuel (List.replicate n c) [c] (-1) = none := by
  have hsep : ([c] : Bytes) ≠ [] := List.cons_ne_nil _ _
  have hparts : split [c] (List.replicate n c) = List.replicate (n + 1) [] := by
    rw [← intercalate_replicate_nil, split_intercalate hsep (separable_replicate_nil hsep _)]
  refine explode_overflow hsep _ fuel [] (by decide) (by decide) ?_
  rw [hparts, List.length_replicate, INT32_MIN]
  omega

/-- The string that the counter does not get through: without a limit it makes 2^31 tests. -/
theorem explodeString_overflows : (List.replicate (2 ^ 31 - 1) (44 : UInt8)).length < 2 ^ 31 ∧
    ∀ fuel, explodeString fuel (List.replicate (2 ^ 31 - 1) 44) [44] (-1) = none :=
  ⟨by rw [List.length_replicate]; decide, explodeString_separators 44 (by decide)⟩

/-! ## The turns of replaceString -/

variable {search : Bytes}

theorem replace_run (hsearch : search ≠ []) (replacement rest : Bytes) : ∀ done : Bytes,
    Loop.run (replaceTurn search replacement) (split search rest).length (done ++ rest, done.length) =
      some (done ++ replacement.intercalate (split search rest)) := by
  induction rest using LeftmostSplit.induction hsearch with
  | last rest hlast =>
    intro done
    have hturn : replaceTurn search replacement (done ++ rest, done.length) = some (.stop (done ++ rest)) := by
      simp only [replaceTurn, find_append, firstAt_eq_none.mpr hlast, Option.map_none]
    rw [split_last hlast, List.length_singleton, Loop.run_stop hturn, List.intercalate_singleton]
  | cut part rest hfree ih =>
    intro done
    have hturn : replaceTurn search replacement (done ++ (part ++ search ++ rest), done.length) =
        some (.again (done ++ part ++ replacement ++ rest, (done ++ part ++ replacement).length)) := by
      have hbefore : (done ++ (part ++ search ++ rest)).take (done.length + part.length) = done ++ part := by
        rw [← List.length_append, List.append_assoc, ← List.append_assoc, List.take_left]
      have hbehind : (done ++ (part ++ search ++ rest)).drop (done.length + part.length + search.length) = rest := by
        rw [← List.length_append, ← List.length_append, ← List.append_assoc, ← List.append_assoc, List.drop_left]
      simp only [replaceTurn, find_append, firstAt_append hfree, Option.map_some, hbefore, hbehind, List.length_append]
    rw [split_cut hsearch hfree, List.length_cons, Loop.run_again hturn, ih,
      List.intercalate_cons_of_ne_nil (split_ne_nil search rest), List.append_assoc, List.append_assoc,
      List.append_assoc]

/-- The call ends, and it has put the replacement between the parts. -/
theorem replaceString_substitutes (source search replacement : Bytes) :
    ∃ fuel result, replaceString fuel source search replacement = some result ∧
      result = replacement.intercalate (split search source) ∧
      (result = source ↔ search = [] ∨ ¬ search <:+: source ∨ search = replacement) := by
  refine ⟨(split search source).length, _, ?_, rfl, intercalate_split_eq_iff search replacement source⟩
  rw [replaceString]
  split
  · rename_i hsearch
    rw [split, dif_pos hsearch, List.intercalate_singleton]
  · rename_i hsearch
    exact replace_run hsearch replacement source []

end ForgottenServer.Tools
