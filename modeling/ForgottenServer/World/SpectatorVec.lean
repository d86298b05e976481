import Mathlib
import ForgottenServer.Lib.SortUnique

/-! # Vectors of spectators

A `SpectatorVec` is a vector of shared pointers to creatures, null or not, and the two places where the players
and the monsters end, which hold while it is partitioned. `γ` are the addresses of the creatures, in the order in which
`std::sort` puts them. A call that follows a null pointer, or that hands the predicate a null player, is `none`. -/

namespace ForgottenServer.World

/-- What `getPlayer` and `getMonster` say about a creature. -/
inductive CreatureKind where
  | player
  | monster
  | other
  deriving DecidableEq, Repr

structure SpectatorVec (γ : Type) where
  vec : List (Option γ) := []
  playerEnd : Nat := 0
  monsterEnd : Nat := 0
  partitioned : Bool := false
  deriving DecidableEq

/-- `std::partition`: the two groups, in an order that the standard leaves open. -/
structure Partition (γ : Type) where
  run : (γ → Bool) → List γ → List γ × List γ
  perm : ∀ p l, ((run p l).1 ++ (run p l).2).Perm l
  left : ∀ p l, ∀ c ∈ (run p l).1, p c = true
  right : ∀ p l, ∀ c ∈ (run p l).2, p c = false

/-- The partition that keeps the order. -/
def Partition.stable (γ : Type) : Partition γ where
  run := fun p l => (l.filter p, l.filter (!p ·))
  perm := fun p l => List.filter_append_perm p l
  left := fun p l c hc => (List.mem_filter.mp hc).2
  right := fun p l c hc => by simpa using (List.mem_filter.mp hc).2

/-- `std::swap(vec[i], vec[j])`. -/
def swap {α : Type} (vec : List α) (i j : Nat) : List α :=
  match vec[i]?, vec[j]? with
  | some a, some b => (vec.set i b).set j a
  | _, _ => vec

theorem swap_append {α : Type} (A B C : List α) (a b : α) :
    swap (A ++ a :: (B ++ b :: C)) A.length (A.length + 1 + B.length) = A ++ b :: (B ++ a :: C) := by
  have hA : (A ++ a :: (B ++ b :: C))[A.length]? = some a := by simp
  have hB : (A ++ a :: (B ++ b :: C))[A.length + 1 + B.length]? = some b := by
    rw [List.getElem?_append_right (by omega), show A.length + 1 + B.length - A.length = B.length + 1 by omega]
    simp
  unfold swap
  rw [hA, hB]
  simp only [List.set_append_right _ _ (Nat.le_refl _), Nat.sub_self, List.set_cons_zero]
  rw [List.set_append_right _ _ (by omega), show A.length + 1 + B.length - A.length = B.length + 1 by omega]
  simp

theorem swap_self {α : Type} (vec : List α) (i : Nat) : swap vec i i = vec := by
  unfold swap
  cases h : vec[i]? with
  | none => rfl
  | some a =>
    obtain ⟨hi, ha⟩ := List.getElem?_eq_some_iff.mp h
    simp [← ha]

/-! ## The calls -/

variable {γ : Type}

namespace SpectatorVec

def emplace_back (sv : SpectatorVec γ) (c : Option γ) : SpectatorVec γ :=
  match c with
  | some c => { sv with vec := sv.vec ++ [some c], partitioned := false }
  | none => sv

def emplaceNull (sv : SpectatorVec γ) : SpectatorVec γ :=
  { sv with vec := sv.vec ++ [none], partitioned := false }

/-- `none` is the vector itself: `&spectators == this`. -/
def addSpectators [LinearOrder γ] (sv : SpectatorVec γ) (spectators : Option (SpectatorVec γ)) : SpectatorVec γ :=
  match spectators with
  | none => sv
  | some spectators =>
    if spectators.vec.isEmpty then sv
    else
      let vec := (sv.vec ++ spectators.vec).reduceOption
      let vec := vec.mergeSort (fun a b => decide (a ≤ b))
      { sv with vec := (vec.destutter (· ≠ ·)).map some, partitioned := false }

def erase [DecidableEq γ] (sv : SpectatorVec γ) (spectator : Option γ) : SpectatorVec γ :=
  let it := sv.vec.findIdx (· = spectator)
  if it = sv.vec.length then sv
  else { sv with vec := (swap sv.vec it (sv.vec.length - 1)).dropLast, partitioned := false }

def partitionByType (part : Partition γ) (kind : γ → CreatureKind) (sv : SpectatorVec γ) : SpectatorVec γ :=
  let vec := sv.vec.reduceOption
  let (players, rest) := part.run (fun c => kind c = .player) vec
  let (monsters, npcs) := part.run (fun c => kind c = .monster) rest
  { vec := (players ++ (monsters ++ npcs)).map some
    playerEnd := players.length
    monsterEnd := players.length + monsters.length
    partitioned := true }

/-- `c->getPlayer()`: no player where the creature is none, and no answer for a null pointer. -/
def getPlayer (kind : γ → CreatureKind) (c : Option γ) : Option (Option γ) :=
  c.map fun c => if kind c = .player then some c else none

/-- The loop of `filterPlayers`, with the number of turns that are left. -/
def filterLoop (kind : γ → CreatureKind) (pred : γ → Bool) :
    Nat → Nat → Nat → List (Option γ) → Option (List (Option γ) × Nat)
  | 0, _, writeIndex, vec => some (vec, writeIndex)
  | turns + 1, readIndex, writeIndex, vec => do
    let player ← getPlayer kind (← vec[readIndex]?)
    if !pred (← player) then filterLoop kind pred turns (readIndex + 1) writeIndex vec
    else
      let vec := if writeIndex ≠ readIndex then swap vec writeIndex readIndex else vec
      filterLoop kind pred turns (readIndex + 1) (writeIndex + 1) vec

def filterPlayers (part : Partition γ) (kind : γ → CreatureKind) (sv : SpectatorVec γ) (pred : γ → Bool) :
    Option (SpectatorVec γ) := do
  let sv := if !sv.partitioned then sv.partitionByType part kind else sv
  let (vec, writeIndex) ← filterLoop kind pred sv.playerEnd 0 0 sv.vec
  let removedPlayers := sv.playerEnd - writeIndex
  if removedPlayers = 0 then return { sv with vec := vec }
  return { sv with
    vec := vec.take writeIndex ++ vec.drop sv.playerEnd
    playerEnd := writeIndex
    monsterEnd := sv.monsterEnd - removedPlayers }

def players (sv : SpectatorVec γ) : List (Option γ) := sv.vec.take sv.playerEnd
def monsters (sv : SpectatorVec γ) : List (Option γ) := (sv.vec.drop sv.playerEnd).take (sv.monsterEnd - sv.playerEnd)
def npcs (sv : SpectatorVec γ) : List (Option γ) := (sv.vec.drop sv.monsterEnd).take (sv.vec.length - sv.monsterEnd)

end SpectatorVec

/-! ## The loop over the players

Before a turn the vector is what was kept, in its order, then what was rejected, then what has not been read. -/

namespace SpectatorVec

variable {kind : γ → CreatureKind} {pred : γ → Bool}

theorem getPlayer_player {c : γ} (hc : kind c = .player) : getPlayer kind (some c) = some (some c) := by
  simp [getPlayer, hc]

theorem filterLoop_rejects {turns readIndex writeIndex : Nat} {vec : List (Option γ)} {c : γ}
    (hread : vec[readIndex]? = some (some c)) (hc : kind c = .player) (hpred : pred c = false) :
    filterLoop kind pred (turns + 1) readIndex writeIndex vec =
      filterLoop kind pred turns (readIndex + 1) writeIndex vec := by
  simp [filterLoop, hread, getPlayer_player hc, hpred]

theorem filterLoop_keeps {turns readIndex writeIndex : Nat} {vec : List (Option γ)} {c : γ}
    (hread : vec[readIndex]? = some (some c)) (hc : kind c = .player) (hpred : pred c = true) :
    filterLoop kind pred (turns + 1) readIndex writeIndex vec =
      filterLoop kind pred turns (readIndex + 1) (writeIndex + 1) (swap vec writeIndex readIndex) := by
  by_cases hwrite : writeIndex = readIndex
  · subst hwrite
    simp [filterLoop, hread, getPlayer_player hc, hpred, swap_self]
  · simp [filterLoop, hread, getPlayer_player hc, hpred, hwrite]

theorem filterLoop_spec (kind : γ → CreatureKind) (pred : γ → Bool) (rest todo : List γ) : ∀ kept rejected : List γ,
    (∀ c ∈ todo, kind c = .player) →
    ∃ rejected' : List γ, rejected'.length = rejected.length + (todo.filter (!pred ·)).length ∧
      filterLoop kind pred todo.length (kept.length + rejected.length) kept.length
          ((kept ++ (rejected ++ (todo ++ rest))).map some) =
        some (((kept ++ todo.filter pred) ++ (rejected' ++ rest)).map some,
          kept.length + (todo.filter pred).length) := by
  induction todo with
  | nil => exact fun kept rejected _ => ⟨rejected, by simp, by simp [filterLoop]⟩
  | cons c todo ih =>
    intro kept rejected hplayers
    have hc := hplayers c List.mem_cons_self
    have htodo : ∀ c ∈ todo, kind c = .player := fun d hd => hplayers d (List.mem_cons_of_mem _ hd)
    have hread : ((kept ++ (rejected ++ (c :: todo ++ rest))).map some)[kept.length + rejected.length]? =
        some (some c) := by
      rw [List.getElem?_map, List.getElem?_append_right (by omega), List.getElem?_append_right (by omega)]
      simp
    cases hpred : pred c with
    | false =>
      obtain ⟨rejected', hlen, hloop⟩ := ih kept (rejected ++ [c]) htodo
      refine ⟨rejected', by simp [hlen, hpred]; omega, ?_⟩
      rw [List.length_cons, filterLoop_rejects hread hc hpred]
      simpa [hpred, Nat.add_assoc] using hloop
    | true =>
      cases rejected with
      | nil =>
        obtain ⟨rejected', hlen, hloop⟩ := ih (kept ++ [c]) [] htodo
        refine ⟨rejected', by simp [hlen, hpred], ?_⟩
        rw [List.length_cons, filterLoop_keeps hread hc hpred]
        simpa [hpred, swap_self, Nat.add_assoc, Nat.add_comm, Nat.add_left_comm] using hloop
      | cons r rejected =>
        -- the first of the rejected changes places with the one that is kept
        obtain ⟨rejected', hlen, hloop⟩ := ih (kept ++ [c]) (rejected ++ [r]) htodo
        refine ⟨rejected', by simp [hlen, hpred], ?_⟩
        rw [List.length_cons, filterLoop_keeps hread hc hpred]
        have hswap := swap_append (kept.map some) (rejected.map some) ((todo ++ rest).map some) (some r) (some c)
        simp only [List.length_map] at hswap
        have hvec : swap ((kept ++ (r :: rejected ++ (c :: todo ++ rest))).map some) kept.length
            (kept.length + (r :: rejected).length) =
            ((kept ++ [c]) ++ ((rejected ++ [r]) ++ (todo ++ rest))).map some := by
          rw [List.length_cons, show kept.length + (rejected.length + 1) = kept.length + 1 + rejected.length by omega]
          simpa using hswap
        rw [hvec]
        simpa [hpred, Nat.add_assoc, Nat.add_comm, Nat.add_left_comm] using hloop

/-! ## Partitioned vectors -/

/-- The players, the monsters and the others that a partitioned vector is made of. -/
structure Parts (kind : γ → CreatureKind) (sv : SpectatorVec γ) (ps ms ns : List γ) : Prop where
  vec : sv.vec = (ps ++ (ms ++ ns)).map some
  playerEnd : sv.playerEnd = ps.length
  monsterEnd : sv.monsterEnd = ps.length + ms.length
  player : ∀ c ∈ ps, kind c = .player
  monster : ∀ c ∈ ms, kind c = .monster
  other : ∀ c ∈ ns, kind c = .other

/-- The bounds hold while the vector is partitioned. -/
def Bounded (kind : γ → CreatureKind) (sv : SpectatorVec γ) : Prop :=
  sv.partitioned = true → ∃ ps ms ns, Parts kind sv ps ms ns

theorem partitionByType_parts (part : Partition γ) (kind : γ → CreatureKind) (sv : SpectatorVec γ) :
    ∃ ps ms ns, Parts kind (sv.partitionByType part kind) ps ms ns ∧
      (ps ++ (ms ++ ns)).Perm sv.vec.reduceOption := by
  let isPlayer : γ → Bool := fun c => kind c = .player
  let isMonster : γ → Bool := fun c => kind c = .monster
  have hperm := part.perm isPlayer sv.vec.reduceOption
  have hleft := part.left isPlayer sv.vec.reduceOption
  have hright := part.right isPlayer sv.vec.reduceOption
  cases hrun : part.run isPlayer sv.vec.reduceOption with
  | mk ps rest =>
    rw [hrun] at hperm hleft hright
    have hperm' := part.perm isMonster rest
    have hleft' := part.left isMonster rest
    have hright' := part.right isMonster rest
    cases hrun' : part.run isMonster rest with
    | mk ms ns =>
      rw [hrun'] at hperm' hleft' hright'
      have hparts : sv.partitionByType part kind =
          { vec := (ps ++ (ms ++ ns)).map some, playerEnd := ps.length, monsterEnd := ps.length + ms.length,
            partitioned := true } := by
        simp only [partitionByType, show part.run (fun c => decide (kind c = .player)) sv.vec.reduceOption = (ps, rest)
          from hrun, show part.run (fun c => decide (kind c = .monster)) rest = (ms, ns) from hrun']
      refine ⟨ps, ms, ns, ⟨by rw [hparts], by rw [hparts], by rw [hparts], ?_, ?_, ?_⟩, ?_⟩
      · exact fun c hc => by simpa [isPlayer] using hleft c hc
      · exact fun c hc => by simpa [isMonster] using hleft' c hc
      · intro c hc
        have hplayer := hright c (hperm'.subset (List.mem_append_right _ hc))
        have hmonster := hright' c hc
        simp only [isPlayer, isMonster, decide_eq_false_iff_not] at hplayer hmonster
        cases hk : kind c <;> simp_all
      · exact (hperm'.append_left ps).trans hperm

theorem Parts.filterPlayers (part : Partition γ) {sv : SpectatorVec γ} {ps ms ns : List γ} (h : Parts kind sv ps ms ns)
    (hsv : sv.partitioned = true) (pred : γ → Bool) :
    ∃ sv', sv.filterPlayers part kind pred = some sv' ∧ Parts kind sv' (ps.filter pred) ms ns ∧
      sv'.partitioned = true := by
  obtain ⟨rejected, hlen, hloop⟩ := filterLoop_spec kind pred (ms ++ ns) ps [] [] h.player
  simp only [List.nil_append, List.length_nil, Nat.zero_add, Nat.add_zero] at hlen hloop
  rw [← h.vec, ← h.playerEnd] at hloop
  have hsum : ps.length = (ps.filter pred).length + rejected.length := by
    rw [hlen, ← List.length_append]
    exact (List.filter_append_perm pred ps).length_eq.symm
  have hplayer : ∀ c ∈ ps.filter pred, kind c = .player := fun c hc => h.player c (List.mem_filter.mp hc).1
  unfold SpectatorVec.filterPlayers
  simp only [hsv, Bool.not_true, Bool.false_eq_true, if_false, hloop, Option.bind_eq_bind, Option.bind_some]
  by_cases hzero : sv.playerEnd - (ps.filter pred).length = 0
  · rw [if_pos hzero]
    have hnone : rejected = [] := by
      apply List.eq_nil_of_length_eq_zero
      rw [h.playerEnd] at hzero
      omega
    refine ⟨_, rfl, ⟨by simp [hnone], ?_, ?_, hplayer, h.monster, h.other⟩, rfl⟩
    · rw [h.playerEnd, hsum, hnone]
      rfl
    · rw [h.monsterEnd, hsum, hnone]
      rfl
  · rw [if_neg hzero]
    refine ⟨_, rfl, ⟨?_, rfl, ?_, hplayer, h.monster, h.other⟩, rfl⟩
    · have htake : ((ps.filter pred ++ (rejected ++ (ms ++ ns))).map some).take (ps.filter pred).length =
          (ps.filter pred).map some := by
        rw [List.map_append, List.take_left' (by simp)]
      have hdrop : ((ps.filter pred ++ (rejected ++ (ms ++ ns))).map some).drop sv.playerEnd =
          (ms ++ ns).map some := by
        rw [← List.append_assoc, List.map_append, List.drop_left' (by simp [h.playerEnd, hsum])]
      simp only [htake, hdrop, ← List.map_append]
    · rw [h.monsterEnd, h.playerEnd]
      dsimp only
      omega

/-! ## What each call does -/

inductive Call (γ : Type) where
  | emplace_back (c : Option γ)
  | emplaceNull
  | addSpectators (spectators : Option (SpectatorVec γ))
  | erase (spectator : Option γ)
  | partitionByType
  | filterPlayers (pred : γ → Bool)

def call [LinearOrder γ] (part : Partition γ) (kind : γ → CreatureKind) (sv : SpectatorVec γ) :
    Call γ → Option (SpectatorVec γ)
  | .emplace_back c => some (sv.emplace_back c)
  | .emplaceNull => some sv.emplaceNull
  | .addSpectators spectators => some (sv.addSpectators spectators)
  | .erase spectator => some (sv.erase spectator)
  | .partitionByType => some (sv.partitionByType part kind)
  | .filterPlayers pred => sv.filterPlayers part kind pred

/-- A creature that `filterPlayers` keeps. -/
def stays (kind : γ → CreatureKind) (pred : γ → Bool) (c : γ) : Bool := kind c != .player || pred c

/-- What each call leaves of the vector, up to the order. -/
def Effect [LinearOrder γ] (kind : γ → CreatureKind) (sv sv' : SpectatorVec γ) : Call γ → Prop
  | .emplace_back (some c) => sv'.vec = sv.vec ++ [some c]
  | .emplace_back none => sv' = sv
  | .emplaceNull => sv'.vec = sv.vec ++ [none]
  | .addSpectators none => sv' = sv
  | .addSpectators (some other) =>
    (other.vec = [] → sv' = sv) ∧
    (other.vec ≠ [] → sv'.vec.Nodup ∧ ∀ c, c ∈ sv'.vec ↔ c ≠ none ∧ (c ∈ sv.vec ∨ c ∈ other.vec))
  | .erase spectator => sv'.vec.Perm (sv.vec.erase spectator) ∧ (spectator ∉ sv.vec → sv' = sv)
  | .partitionByType => sv'.vec.Perm (sv.vec.reduceOption.map some) ∧ sv'.partitioned = true
  | .filterPlayers pred =>
    sv'.vec.Perm ((sv.vec.reduceOption.filter (stays kind pred)).map some) ∧ sv'.partitioned = true

theorem addSpectators_spec [LinearOrder γ] (sv other : SpectatorVec γ) (hother : other.vec ≠ []) :
    (sv.addSpectators (some other)).vec.Nodup ∧
      ∀ c, c ∈ (sv.addSpectators (some other)).vec ↔ c ≠ none ∧ (c ∈ sv.vec ∨ c ∈ other.vec) := by
  have hempty : other.vec.isEmpty = false := by simpa using hother
  let all := ((sv.vec ++ other.vec).reduceOption).mergeSort (fun a b => decide (a ≤ b))
  have hvec : (sv.addSpectators (some other)).vec = (all.destutter (· ≠ ·)).map some := by
    simp [addSpectators, hempty, all]
  have hsorted : all.Pairwise (· ≤ ·) := List.pairwise_mergeSort' (· ≤ ·) _
  rw [hvec]
  refine ⟨(SortUnique.nodup_destutter hsorted).map (Option.some_injective γ), fun c => ?_⟩
  cases c with
  | none => simp
  | some c =>
    rw [List.mem_map_of_injective (Option.some_injective γ), SortUnique.mem_destutter, List.mem_mergeSort,
      List.reduceOption_mem_iff, List.mem_append]
    simp

/-- The pointer found changes places with the last one, which is then cut off. -/
theorem swap_dropLast_perm {α : Type} (A B : List α) (a : α) :
    ((swap (A ++ a :: B) A.length ((A ++ a :: B).length - 1)).dropLast).Perm (A ++ B) := by
  cases B using List.reverseRecOn with
  | nil =>
    rw [show (A ++ [a]).length - 1 = A.length by simp, swap_self, List.dropLast_concat, List.append_nil]
  | append_singleton B b =>
    have hlast : (A ++ a :: (B ++ [b])).length - 1 = A.length + 1 + B.length := by simp; omega
    rw [hlast, swap_append A B [] a b, ← List.cons_append, ← List.append_assoc, List.dropLast_concat]
    exact (List.perm_append_singleton b B).symm.append_left A

theorem erase_spec [DecidableEq γ] (sv : SpectatorVec γ) (c : Option γ) :
    (sv.erase c).vec.Perm (sv.vec.erase c) ∧ (c ∉ sv.vec → sv.erase c = sv) := by
  by_cases hc : c ∈ sv.vec
  · refine ⟨?_, fun h => absurd hc h⟩
    obtain ⟨A, B, hA, hvec, herase⟩ := List.exists_erase_eq hc
    have hnot : ∀ d ∈ A, decide (d = c) = false := fun d hd => decide_eq_false fun h => hA (h ▸ hd)
    have hit : sv.vec.findIdx (fun d => decide (d = c)) = A.length := by
      rw [hvec, List.findIdx_append, List.findIdx_eq_length_of_false hnot]
      simp [List.findIdx_cons]
    have hlen : A.length ≠ sv.vec.length := by
      rw [hvec]
      simp
    unfold erase
    simp only [hit, if_neg hlen]
    rw [herase, hvec]
    exact swap_dropLast_perm A B c
  · have hnot : ∀ d ∈ sv.vec, decide (d = c) = false := fun d hd => decide_eq_false fun h => hc (h ▸ hd)
    have hsame : sv.erase c = sv := by
      unfold erase
      simp only [List.findIdx_eq_length_of_false hnot, if_pos]
    rw [hsame, List.erase_of_not_mem hc]
    exact ⟨List.Perm.refl _, fun _ => rfl⟩

theorem Parts.reduceOption {sv : SpectatorVec γ} {ps ms ns : List γ} (h : Parts kind sv ps ms ns) :
    sv.vec.reduceOption = ps ++ (ms ++ ns) := by
  rw [h.vec]
  simp [List.reduceOption]

/-- Filtering the players filters the whole vector: the others stay. -/
theorem Parts.filter_stays {sv : SpectatorVec γ} {ps ms ns : List γ} (h : Parts kind sv ps ms ns) (pred : γ → Bool) :
    (ps ++ (ms ++ ns)).filter (stays kind pred) = ps.filter pred ++ (ms ++ ns) := by
  have hps : ps.filter (stays kind pred) = ps.filter pred :=
    List.filter_congr fun c hc => by simp [stays, h.player c hc]
  have hms : ms.filter (stays kind pred) = ms := List.filter_eq_self.mpr fun c hc => by simp [stays, h.monster c hc]
  have hns : ns.filter (stays kind pred) = ns := List.filter_eq_self.mpr fun c hc => by simp [stays, h.other c hc]
  rw [List.filter_append, List.filter_append, hps, hms, hns]

theorem filterPlayers_spec (part : Partition γ) {sv : SpectatorVec γ} (h : Bounded kind sv) (pred : γ → Bool) :
    ∃ sv', sv.filterPlayers part kind pred = some sv' ∧ Bounded kind sv' ∧
      sv'.vec.Perm ((sv.vec.reduceOption.filter (stays kind pred)).map some) ∧ sv'.partitioned = true := by
  cases hsv : sv.partitioned with
  | true =>
    obtain ⟨ps, ms, ns, hparts⟩ := h hsv
    obtain ⟨sv', hrun, hparts', hsv'⟩ := hparts.filterPlayers part hsv pred
    refine ⟨sv', hrun, fun _ => ⟨_, _, _, hparts'⟩, ?_, hsv'⟩
    rw [hparts'.vec, hparts.reduceOption, hparts.filter_stays]
  | false =>
    obtain ⟨ps, ms, ns, hparts, hperm⟩ := partitionByType_parts part kind sv
    obtain ⟨sv', hrun, hparts', hsv'⟩ := hparts.filterPlayers part rfl pred
    refine ⟨sv', ?_, fun _ => ⟨_, _, _, hparts'⟩, ?_, hsv'⟩
    · rw [← hrun]
      simp [SpectatorVec.filterPlayers, hsv, partitionByType]
    · rw [hparts'.vec, ← hparts.filter_stays]
      exact (hperm.filter _).map some

theorem bounded_of_unpartitioned {sv : SpectatorVec γ} (h : sv.partitioned = false) : Bounded kind sv :=
  fun hsv => Bool.noConfusion (h.symm.trans hsv)

/-- What is unchanged or no longer partitioned stays within its bounds. -/
theorem Bounded.next {sv sv' : SpectatorVec γ} (h : Bounded kind sv) (hnext : sv' = sv ∨ sv'.partitioned = false) :
    Bounded kind sv' := by
  obtain rfl | hsv' := hnext
  · exact h
  · exact bounded_of_unpartitioned hsv'

theorem addSpectators_next [LinearOrder γ] (sv : SpectatorVec γ) (other : Option (SpectatorVec γ)) :
    sv.addSpectators other = sv ∨ (sv.addSpectators other).partitioned = false := by
  unfold addSpectators
  split
  · exact .inl rfl
  · split
    · exact .inl rfl
    · exact .inr rfl

theorem erase_next [DecidableEq γ] (sv : SpectatorVec γ) (c : Option γ) :
    sv.erase c = sv ∨ (sv.erase c).partitioned = false := by
  unfold erase
  dsimp only
  split
  · exact .inl rfl
  · exact .inr rfl

/-- Every call answers, keeps the bounds and does what it is for. -/
theorem call_spec [LinearOrder γ] (part : Partition γ) {sv : SpectatorVec γ} (h : Bounded kind sv) (e : Call γ) :
    ∃ sv', sv.call part kind e = some sv' ∧ Bounded kind sv' ∧ Effect kind sv sv' e := by
  cases e with
  | emplace_back c =>
    cases c with
    | none => exact ⟨sv, rfl, h, rfl⟩
    | some c => exact ⟨_, rfl, h.next (.inr rfl), rfl⟩
  | emplaceNull => exact ⟨_, rfl, h.next (.inr rfl), rfl⟩
  | addSpectators other =>
    refine ⟨_, rfl, h.next (addSpectators_next sv other), ?_⟩
    cases other with
    | none => exact rfl
    | some other =>
      refine ⟨fun hother => ?_, addSpectators_spec sv other⟩
      simp [addSpectators, hother]
  | erase c => exact ⟨_, rfl, h.next (erase_next sv c), erase_spec sv c⟩
  | partitionByType =>
    obtain ⟨ps, ms, ns, hparts, hperm⟩ := partitionByType_parts part kind sv
    refine ⟨_, rfl, fun _ => ⟨_, _, _, hparts⟩, ?_, rfl⟩
    rw [hparts.vec]
    exact hperm.map some
  | filterPlayers pred => exact filterPlayers_spec part h pred

/-! ## Runs -/

def run [LinearOrder γ] (part : Partition γ) (kind : γ → CreatureKind) (calls : List (Call γ)) :
    Option (SpectatorVec γ) :=
  calls.foldlM (call part kind) {}

theorem run_bounded [LinearOrder γ] (part : Partition γ) (kind : γ → CreatureKind) (calls : List (Call γ)) :
    ∃ sv, run part kind calls = some sv ∧ Bounded kind sv := by
  induction calls using List.reverseRecOn with
  | nil => exact ⟨{}, rfl, bounded_of_unpartitioned rfl⟩
  | append_singleton calls e ih =>
    obtain ⟨sv, hrun, hsv⟩ := ih
    obtain ⟨sv', hcall, hsv', -⟩ := call_spec part hsv e
    refine ⟨sv', ?_, hsv'⟩
    unfold run at hrun ⊢
    rw [List.foldlM_append, hrun]
    simpa using hcall

/-- Whether a pointer leads to a creature of a kind. -/
def isKind (kind : γ → CreatureKind) (k : CreatureKind) (c : Option γ) : Bool := c.any fun c => kind c = k

theorem Parts.spans {sv : SpectatorVec γ} {ps ms ns : List γ} (h : Parts kind sv ps ms ns) :
    sv.players = ps.map some ∧ sv.monsters = ms.map some ∧ sv.npcs = ns.map some := by
  have hvec : sv.vec = ps.map some ++ (ms.map some ++ ns.map some) := by rw [h.vec, List.map_append, List.map_append]
  have hdrop : sv.vec.drop sv.monsterEnd = ns.map some := by
    rw [hvec, h.monsterEnd, ← List.append_assoc, List.drop_left' (by simp)]
  refine ⟨?_, ?_, ?_⟩
  · rw [players, hvec, h.playerEnd, List.take_left' (by simp)]
  · rw [monsters, hvec, h.playerEnd, h.monsterEnd, List.drop_left' (by simp), List.take_left' (by simp)]
  · rw [npcs, hdrop, hvec, h.monsterEnd]
    exact List.take_of_length_le (by simp; omega)

/-- One part of the vector is all there is of its kind. -/
theorem filter_isKind {k : CreatureKind} {cs : List γ} (hcs : ∀ c ∈ cs, kind c = k) (k' : CreatureKind) :
    (cs.map some).filter (isKind kind k') = if k = k' then cs.map some else [] := by
  by_cases hk : k = k'
  · rw [if_pos hk, List.filter_eq_self]
    intro c hc
    obtain ⟨d, hd, rfl⟩ := List.mem_map.mp hc
    simp [isKind, hcs d hd, hk]
  · rw [if_neg hk, List.filter_eq_nil_iff]
    intro c hc
    obtain ⟨d, hd, rfl⟩ := List.mem_map.mp hc
    simp [isKind, hcs d hd, hk]

theorem Parts.filter_vec {sv : SpectatorVec γ} {ps ms ns : List γ} (h : Parts kind sv ps ms ns) (k : CreatureKind) :
    sv.vec.filter (isKind kind k) =
      (if .player = k then ps.map some else []) ++
        ((if .monster = k then ms.map some else []) ++ if .other = k then ns.map some else []) := by
  rw [h.vec, List.map_append, List.map_append, List.filter_append, List.filter_append, filter_isKind h.player,
    filter_isKind h.monster, filter_isKind h.other]

/-- What the three spans of a partitioned vector hold. -/
structure Spans (kind : γ → CreatureKind) (sv : SpectatorVec γ) : Prop where
  notNull : none ∉ sv.vec
  players : sv.players = sv.vec.filter (isKind kind .player)
  monsters : sv.monsters = sv.vec.filter (isKind kind .monster)
  npcs : sv.npcs = sv.vec.filter (isKind kind .other)

theorem Bounded.spans {sv : SpectatorVec γ} (h : Bounded kind sv) (hsv : sv.partitioned = true) : Spans kind sv := by
  obtain ⟨ps, ms, ns, hparts⟩ := h hsv
  obtain ⟨hplayers, hmonsters, hnpcs⟩ := hparts.spans
  refine ⟨?_, ?_, ?_, ?_⟩
  · rw [hparts.vec]
    simp
  · rw [hplayers, hparts.filter_vec]
    simp
  · rw [hmonsters, hparts.filter_vec]
    simp
  · rw [hnpcs, hparts.filter_vec]
    simp

/-- In every state that calls lead to, the next call answers and does what it is for, and the spans of a partitioned
vector hold the players, the monsters and the others. -/
theorem spectatorVec_exact [LinearOrder γ] (part : Partition γ) (kind : γ → CreatureKind) (calls : List (Call γ)) :
    ∃ sv, run part kind calls = some sv ∧ (sv.partitioned = true → Spans kind sv) ∧
      ∀ e, ∃ sv', sv.call part kind e = some sv' ∧ Effect kind sv sv' e := by
  obtain ⟨sv, hrun, hsv⟩ := run_bounded part kind calls
  refine ⟨sv, hrun, hsv.spans, fun e => ?_⟩
  obtain ⟨sv', hcall, -, heffect⟩ := call_spec part hsv e
  exact ⟨sv', hcall, heffect⟩

/-- Two players, a monster and another creature, of whom the second player goes. -/
example : (run (.stable Nat) (fun c => if c < 2 then .player else if c = 2 then .monster else .other)
    [.emplace_back (some 3), .emplace_back (some 1), .emplaceNull, .emplace_back (some 2), .emplace_back (some 0),
      .filterPlayers (· = 0)]).map (fun sv => (sv.players, sv.monsters, sv.npcs)) =
    some ([some 0], [some 2], [some 3]) := by decide

end SpectatorVec

end ForgottenServer.World
