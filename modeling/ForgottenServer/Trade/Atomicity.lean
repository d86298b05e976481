import ForgottenServer.Trade.Transfer

/-! # Transfers that exchange both items or none

A transfer should leave everything where it was, or give each item to the other side with all that is in it. It does so
exactly when the moves do as the dry runs say: the destination of each takes everything, and the first move does not
stack what the player gives with what the partner gives. -/

namespace ForgottenServer.Trade

/-- Two items of one trade, each with its owner or on the ground, and neither in the other. -/
structure Offer (s : Belongings) (playerItem partnerItem : Ref) : Prop where
  wellFormed : s.WellFormed
  playerItem_lt : playerItem < s.size
  partnerItem_lt : partnerItem < s.size
  playerItem_holder : s.holder playerItem = some (.side .player) ∨ s.holder playerItem = some .world
  partnerItem_holder : s.holder partnerItem = some (.side .partner) ∨ s.holder partnerItem = some .world
  not_mem_partnerItem : playerItem ∉ s.chain partnerItem
  not_mem_playerItem : partnerItem ∉ s.chain playerItem

/-- The item is as it was, and with whom it was. -/
def Still (s s' : Belongings) (item : Ref) : Prop := s'.holder item = s.holder item ∧ s'.object item = s.object item

structure Kept (s s' : Belongings) (playerItem partnerItem : Ref) : Prop where
  player : Still s s' playerItem
  partner : Still s s' partnerItem
  amount : ∀ who kind, s'.amount who kind = s.amount who kind

/-- A stack is used up, other items go to the side themselves. -/
def Handed (s s' : Belongings) (item : Ref) (side : Side) : Prop :=
  s'.holder item = if (s.object item).stackable then none else some (.side side)

/-- Whoever had an item loses all of it and the other side has it all. -/
structure Swapped (s s' : Belongings) (playerItem partnerItem : Ref) : Prop where
  player : Handed s s' playerItem .partner
  partner : Handed s s' partnerItem .player
  amount : ∀ who kind,
    s'.amount who kind + (if s.holder playerItem = some who then s.goods playerItem kind else 0) +
        (if s.holder partnerItem = some who then s.goods partnerItem kind else 0) =
      s.amount who kind + (if who = .side .partner then s.goods playerItem kind else 0) +
        (if who = .side .player then s.goods partnerItem kind else 0)

def Atomic (s s' : Belongings) (playerItem partnerItem : Ref) : Prop :=
  Kept s s' playerItem partnerItem ∨ Swapped s s' playerItem partnerItem

/-- The move takes the whole item, and it has a place for what does not join a stack. -/
def MoveAnswers.Whole {s : Belongings} {side : Side} {item : Ref} (a : MoveAnswers s side item)
    (tradeItem : Option Ref) : Prop :=
  a.refusal tradeItem = none ∧ ((s.object item).stackable → a.count = (s.object item).count) ∧
    (a.dest.addThing s side = none → (s.object item).stackable ∧ a.joined = a.count)

/-- The answers with which a transfer does what it should. -/
def Answers.Sound {s : Belongings} {playerItem partnerItem : Ref} (a : Answers s playerItem partnerItem) : Prop :=
  ¬ a.Agreed ∨
  (∃ ret, ret ≠ .noError ∧ a.first.refusal (some partnerItem) = some ret) ∨
  (a.first.refusal (some partnerItem) = some .noError ∧ (a.second.refusal none).isSome) ∨
  (a.first.Whole (some partnerItem) ∧ a.first.dest.toItem ≠ some partnerItem ∧ a.second.Whole none)

/-! ## One move -/

namespace MoveAnswers

variable {s : Belongings} {side : Side} {item : Ref} (a : MoveAnswers s side item)
  {tradeItem : Option Ref}

theorem internalMoveItem_of_refusal {ret : ReturnValue} (hret : a.refusal tradeItem = some ret) :
    a.internalMoveItem tradeItem = (ret, s) := by
  unfold internalMoveItem
  rw [hret]

theorem internalMoveItem_of_none (hmade : a.refusal tradeItem = none) :
    a.internalMoveItem tradeItem = (a.result, a.moved) := by
  unfold internalMoveItem
  rw [hmade]

theorem arrived_le (kind : Nat) : a.arrived kind ≤ a.taken kind := by
  unfold arrived
  split
  · exact le_rfl
  · split
    · rename_i hboth
      unfold taken
      rw [if_pos hboth.1, if_pos hboth.2]
      exact a.joined_le
    · exact Nat.zero_le _

/-- The move of a whole item takes all that is in it. -/
theorem taken_eq_goods (h : s.WellFormed) (hitem : item < s.size)
    (hall : (s.object item).stackable → a.count = (s.object item).count) (kind : Nat) :
    a.taken kind = s.goods item kind := by
  unfold taken
  by_cases hstack : (s.object item).stackable = true
  · rw [if_pos hstack, h.goods_stack hitem hstack, hall hstack]
  · rw [if_neg hstack]

theorem Whole.arrived_eq {a : MoveAnswers s side item} (hwhole : a.Whole tradeItem) (kind : Nat) :
    a.arrived kind = a.taken kind := by
  unfold arrived
  split
  · rfl
  · rename_i hnone
    obtain ⟨hstack, hjoined⟩ := hwhole.2.2 (Option.not_isSome_iff_eq_none.mp hnone)
    unfold taken
    rw [if_pos hstack]
    by_cases hkind : (s.object item).kind = kind
    · rw [if_pos ⟨hstack, hkind⟩, if_pos hkind, hjoined]
    · rw [if_neg fun hboth => hkind hboth.2, if_neg hkind]

/-- A container that takes a part of a stack only does not pass for one that takes it all. -/
theorem count_eq_of_result (hcontainer : a.dest.isContainer) (hstack : (s.object item).stackable = true)
    (hresult : a.result = .noError) : a.count = (s.object item).count := by
  unfold count
  rw [if_pos hstack]
  refine Nat.min_eq_left ?_
  by_contra hlt
  unfold result at hresult
  rw [if_pos ⟨hstack, Nat.not_le.mp hlt⟩] at hresult
  exact hlt (a.room hcontainer hresult hstack)

theorem count_lt_of_result (hresult : a.result ≠ .noError) :
    (s.object item).stackable = true ∧ a.count < (s.object item).count := by
  unfold result at hresult
  split at hresult
  · rename_i hboth
    refine ⟨hboth.1, ?_⟩
    unfold count
    rw [if_pos hboth.1]
    exact (Nat.min_le_right _ _).trans_lt hboth.2
  · exact absurd rfl hresult

section Made

variable (h : s.WellFormed) (hitem : item < s.size) (hmade : a.refusal tradeItem = none)
include h hitem hmade

theorem handed_iff (hholder : s.holder item ≠ none) : Handed s a.moved item side ↔
    ((s.object item).stackable → a.count = (s.object item).count) ∧
      ((s.object item).stackable = false → (a.dest.addThing s side).isSome) := by
  unfold Handed
  by_cases hstack : (s.object item).stackable = true
  · rw [if_pos hstack, a.holder_moved_stack h hitem hmade hstack]
    refine ⟨fun hnone => ⟨fun _ => ?_, fun hbox => (by rw [hstack] at hbox; cases hbox)⟩, fun hboth => ?_⟩
    · by_contra hpart
      rw [if_neg hpart] at hnone
      exact hholder hnone
    · exact if_pos (hboth.1 hstack)
  · have hbox := Bool.eq_false_iff.mpr hstack
    rw [if_neg hstack, a.holder_moved_item h hitem hbox]
    refine ⟨fun hside => ⟨fun hstack' => absurd hstack' hstack, fun _ => ?_⟩, fun hboth => if_pos (hboth.2 hbox)⟩
    by_contra hnone
    rw [if_neg hnone] at hside
    cases hside

/-- An item that is handed over is moved as a whole when everything of it arrives. -/
theorem whole_of_handed (hholder : s.holder item ≠ none) (hhanded : Handed s a.moved item side)
    (harrived : a.arrived (s.object item).kind = a.taken (s.object item).kind) : a.Whole tradeItem := by
  obtain ⟨hall, hplace⟩ := (a.handed_iff h hitem hmade hholder).mp hhanded
  refine ⟨hmade, hall, fun hnone => ?_⟩
  have hstack : (s.object item).stackable = true := by
    by_contra hbox
    have hsome := hplace (Bool.eq_false_iff.mpr hbox)
    rw [hnone] at hsome
    cases hsome
  refine ⟨hstack, ?_⟩
  unfold arrived taken at harrived
  have hnot : ¬ (none : Option Parent).isSome = true := Bool.false_ne_true
  rwa [hnone, if_neg hnot, if_pos ⟨hstack, rfl⟩, if_pos hstack, if_pos rfl] at harrived

/-- A move that is made changes something about the item. -/
theorem not_still (hholder : s.holder item ≠ none) (hside : s.holder item ≠ some (.side side)) :
    ¬ Still s a.moved item := by
  rintro ⟨hsame, hobject⟩
  obtain ⟨_, hpos, hle, _⟩ := a.of_refusal_eq_none hmade
  by_cases hstack : (s.object item).stackable = true
  · rw [a.holder_moved_stack h hitem hmade hstack] at hsame
    split at hsame
    · exact hholder hsame.symm
    · rename_i hpart
      have hcount := a.count_moved_stack h hitem hmade hstack hpart
      rw [hobject] at hcount
      have := hle hstack
      omega
  · rw [a.holder_moved_item h hitem (Bool.eq_false_iff.mpr hstack)] at hsame
    split at hsame
    · exact hside hsame.symm
    · exact hholder hsame.symm

end Made

theorem Whole.handed {a : MoveAnswers s side item} (hwhole : a.Whole tradeItem) (h : s.WellFormed)
    (hitem : item < s.size) (hholder : s.holder item ≠ none) : Handed s a.moved item side := by
  refine (a.handed_iff h hitem hwhole.1 hholder).mpr ⟨hwhole.2.1, fun hbox => ?_⟩
  by_contra hnone
  have hstack := (hwhole.2.2 (Option.not_isSome_iff_eq_none.mp hnone)).1
  rw [hbox] at hstack
  cases hstack

end MoveAnswers

/-! ## Both moves -/

variable {s : Belongings} {playerItem partnerItem : Ref}

theorem Offer.holder_playerItem_ne (hoffer : Offer s playerItem partnerItem) :
    s.holder playerItem ≠ none ∧ s.holder playerItem ≠ some (.side .partner) := by
  rcases hoffer.playerItem_holder with hplayer | hworld
  · rw [hplayer]
    exact ⟨fun h => (by cases h), fun h => (by cases h)⟩
  · rw [hworld]
    exact ⟨fun h => (by cases h), fun h => (by cases h)⟩

theorem Offer.holder_partnerItem_ne (hoffer : Offer s playerItem partnerItem) :
    s.holder partnerItem ≠ none ∧ s.holder partnerItem ≠ some (.side .player) := by
  rcases hoffer.partnerItem_holder with hpartner | hworld
  · rw [hpartner]
    exact ⟨fun h => (by cases h), fun h => (by cases h)⟩
  · rw [hworld]
    exact ⟨fun h => (by cases h), fun h => (by cases h)⟩

namespace Answers

variable (a : Answers s playerItem partnerItem)

/-- What the first move leaves. -/
abbrev between : Belongings := (a.first.internalMoveItem (some partnerItem)).2

theorem transfer_eq (hagreed : a.Agreed) : a.transfer.2 =
    if (a.first.internalMoveItem (some partnerItem)).1 = .noError then (a.second.internalMoveItem none).2
    else a.between := by
  unfold transfer
  rw [if_pos hagreed]
  split
  · rename_i hret
    rw [if_pos hret]
  · rename_i hret
    rw [if_neg hret]

theorem sound_iff_of_ignored (hagreed : a.Agreed) (hfirst : a.first.refusal (some partnerItem) = some .noError) :
    a.Sound ↔ (a.second.refusal none).isSome := by
  refine ⟨?_, fun hsecond => .inr (.inr (.inl ⟨hfirst, hsecond⟩))⟩
  rintro (hnot | ⟨ret, hret, hrefused⟩ | ⟨_, hsecond⟩ | ⟨hwhole, _⟩)
  · exact absurd hagreed hnot
  · rw [hfirst] at hrefused
    exact absurd (Option.some.inj hrefused).symm hret
  · exact hsecond
  · rw [hwhole.1] at hfirst
    cases hfirst

theorem sound_iff_of_made (hagreed : a.Agreed) (hfirst : a.first.refusal (some partnerItem) = none) : a.Sound ↔
    a.first.Whole (some partnerItem) ∧ a.first.dest.toItem ≠ some partnerItem ∧ a.second.Whole none := by
  refine ⟨?_, fun hwhole => .inr (.inr (.inr hwhole))⟩
  rintro (hnot | ⟨ret, _, hrefused⟩ | ⟨hignored, _⟩ | hwhole)
  · exact absurd hagreed hnot
  · rw [hfirst] at hrefused
    cases hrefused
  · rw [hfirst] at hignored
    cases hignored
  · exact hwhole

section Offer

variable (hoffer : Offer s playerItem partnerItem)
include hoffer

/-- The first move leaves the item of the partner alone, unless it joins it. -/
theorem between_spec : a.between.WellFormed ∧ Apart s a.between playerItem ∧ partnerItem ∉ a.between.chain playerItem ∧
    (a.first.dest.toItem ≠ some partnerItem → a.between.object partnerItem = s.object partnerItem) ∧
    ∀ kind, a.between.goods partnerItem kind = s.goods partnerItem kind +
      if a.first.refusal (some partnerItem) = none ∧ a.first.dest.toItem = some partnerItem ∧
        (s.object playerItem).kind = kind then a.first.joined else 0 := by
  unfold between
  cases hfirst : a.first.refusal (some partnerItem) with
  | some ret =>
    rw [a.first.internalMoveItem_of_refusal hfirst]
    refine ⟨hoffer.wellFormed, .refl .., hoffer.not_mem_playerItem, fun _ => rfl, fun kind => ?_⟩
    simp only [reduceCtorEq, false_and, if_false, Nat.add_zero]
  | none =>
    have h := hoffer.wellFormed
    have hitem := hoffer.playerItem_lt
    have hdest := (a.first.of_refusal_eq_none hfirst).2.2.2 partnerItem rfl
    have hne : partnerItem ≠ playerItem := fun heq => hoffer.not_mem_playerItem (heq.symm ▸ h.mem_self hitem)
    rw [a.first.internalMoveItem_of_none hfirst]
    refine ⟨a.first.wellFormed_moved h hitem hfirst, a.first.apart_moved h hitem hfirst,
      a.first.not_mem_chain_moved h hitem hfirst hoffer.not_mem_playerItem hdest,
      fun hjoin => a.first.object_moved h hoffer.partnerItem_lt hne hjoin, fun kind => ?_⟩
    rw [a.first.goods_moved h hitem hfirst hoffer.partnerItem_lt hoffer.not_mem_partnerItem hoffer.not_mem_playerItem
      hdest]
    simp only [true_and]

theorem partnerItem_between : partnerItem < a.between.size ∧ a.between.holder partnerItem = s.holder partnerItem := by
  have hapart := (a.between_spec hoffer).2.1
  exact ⟨hoffer.partnerItem_lt.trans_le hapart.size_le,
    hapart.holder _ hoffer.partnerItem_lt hoffer.not_mem_partnerItem⟩

/-- The second move does not change who has the item of the player. -/
theorem holder_second (hsecond : a.second.refusal none = none) :
    a.second.moved.holder playerItem = a.between.holder playerItem := by
  obtain ⟨h, hapart, hnot, _⟩ := a.between_spec hoffer
  exact (a.second.apart_moved h (a.partnerItem_between hoffer).1 hsecond).holder _
    (hoffer.playerItem_lt.trans_le hapart.size_le) hnot

theorem amount_second (hfirst : a.first.refusal (some partnerItem) = none) (hsecond : a.second.refusal none = none)
    (who : Holder) (kind : Nat) : a.second.moved.amount who kind +
        (if s.holder playerItem = some who then a.first.taken kind else 0) +
        (if s.holder partnerItem = some who then a.second.taken kind else 0) =
      s.amount who kind + (if who = .side .partner then a.first.arrived kind else 0) +
        if who = .side .player then a.second.arrived kind else 0 := by
  have hbetween : (a.first.internalMoveItem (some partnerItem)).2 = a.first.moved :=
    congrArg Prod.snd (a.first.internalMoveItem_of_none hfirst)
  obtain ⟨hlt, hholder⟩ := a.partnerItem_between hoffer
  have hone := a.first.amount_moved hoffer.wellFormed hoffer.playerItem_lt hfirst who kind
  have htwo := a.second.amount_moved (a.between_spec hoffer).1 hlt hsecond who kind
  rw [hholder] at htwo
  rw [← hbetween] at hone
  omega

theorem swapped (hfirst : a.first.Whole (some partnerItem)) (hjoin : a.first.dest.toItem ≠ some partnerItem)
    (hsecond : a.second.Whole none) : Swapped s a.second.moved playerItem partnerItem := by
  have hbetween : a.between = a.first.moved := congrArg Prod.snd (a.first.internalMoveItem_of_none hfirst.1)
  obtain ⟨h, _, _, hobject, hgoods⟩ := a.between_spec hoffer
  obtain ⟨hlt, hholder⟩ := a.partnerItem_between hoffer
  refine ⟨?_, ?_, fun who kind => ?_⟩
  · unfold Handed
    rw [a.holder_second hoffer hsecond.1, hbetween]
    exact hfirst.handed hoffer.wellFormed hoffer.playerItem_lt hoffer.holder_playerItem_ne.1
  · unfold Handed
    rw [← hobject hjoin]
    exact hsecond.handed h hlt (hholder ▸ hoffer.holder_partnerItem_ne.1)
  · have hamount := a.amount_second hoffer hfirst.1 hsecond.1 who kind
    have htwo := (a.second.taken_eq_goods h hlt hsecond.2.1 kind).trans (hgoods kind)
    rw [if_neg fun hboth => hjoin hboth.2.1, Nat.add_zero] at htwo
    rwa [hfirst.arrived_eq, hsecond.arrived_eq, htwo,
      a.first.taken_eq_goods hoffer.wellFormed hoffer.playerItem_lt hfirst.2.1] at hamount

/-- What arrives with the two sides when the amounts are those of a swap. -/
theorem arrived_of_swapped (hfirst : a.first.refusal (some partnerItem) = none) (hsecond : a.second.refusal none = none)
    (hone : ∀ kind, a.first.taken kind = s.goods playerItem kind)
    (htwo : ∀ kind, s.goods partnerItem kind ≤ a.second.taken kind)
    (hswapped : Swapped s a.second.moved playerItem partnerItem) (kind : Nat) :
    a.first.arrived kind = a.first.taken kind ∧ a.second.arrived kind = s.goods partnerItem kind ∧
      (s.holder partnerItem = some (.side .partner) → a.second.taken kind = s.goods partnerItem kind) := by
  have hle := a.first.arrived_le kind
  have hpartner := a.amount_second hoffer hfirst hsecond (.side .partner) kind
  have hpartner' := hswapped.amount (.side .partner) kind
  have hplayer := a.amount_second hoffer hfirst hsecond (.side .player) kind
  have hplayer' := hswapped.amount (.side .player) kind
  simp only [if_neg hoffer.holder_playerItem_ne.2, if_true, reduceCtorEq, Holder.side.injEq, if_false] at hpartner hpartner'
  simp only [if_neg hoffer.holder_partnerItem_ne.2, if_true, reduceCtorEq, Holder.side.injEq, if_false, hone]
    at hplayer hplayer'
  have hone := hone kind
  have htwo := htwo kind
  refine ⟨?_, ?_, fun hholder => ?_⟩
  · split at hpartner
    · rw [if_pos ‹_›] at hpartner'
      omega
    · rw [if_neg ‹_›] at hpartner'
      omega
  · omega
  · rw [if_pos hholder] at hpartner hpartner'
    omega

theorem whole_of_swapped (hfirst : a.first.refusal (some partnerItem) = none) (hsecond : a.second.refusal none = none)
    (hswapped : Swapped s a.second.moved playerItem partnerItem) :
    a.first.Whole (some partnerItem) ∧ a.first.dest.toItem ≠ some partnerItem ∧ a.second.Whole none := by
  have hbetween : a.between = a.first.moved := congrArg Prod.snd (a.first.internalMoveItem_of_none hfirst)
  obtain ⟨h, _, _, hobject, hgoods⟩ := a.between_spec hoffer
  obtain ⟨hlt, hholder⟩ := a.partnerItem_between hoffer
  have hplayer := hoffer.holder_playerItem_ne.1
  have hpartner : a.between.holder partnerItem ≠ none := hholder ▸ hoffer.holder_partnerItem_ne.1
  have hhanded : Handed s a.first.moved playerItem .partner := by
    have hhanded := hswapped.player
    unfold Handed at hhanded
    rwa [a.holder_second hoffer hsecond, hbetween] at hhanded
  have hhanded' : Handed a.between a.second.moved partnerItem .player := by
    have hhanded' := hswapped.partner
    unfold Handed at hhanded' ⊢
    rwa [hbetween, a.first.stackable_moved hoffer.wellFormed hoffer.partnerItem_lt]
  have hone := a.first.taken_eq_goods hoffer.wellFormed hoffer.playerItem_lt
    ((a.first.handed_iff hoffer.wellFormed hoffer.playerItem_lt hfirst hplayer).mp hhanded).1
  have htwo := a.second.taken_eq_goods h hlt ((a.second.handed_iff h hlt hsecond hpartner).mp hhanded').1
  have harrived := a.arrived_of_swapped hoffer hfirst hsecond hone
    (fun kind => by rw [htwo, hgoods]; exact Nat.le_add_right _ _) hswapped
  have hjoin : a.first.dest.toItem ≠ some partnerItem := by
    intro hjoin
    obtain ⟨_, hwith, _⟩ := a.first.toItem_spec hoffer.wellFormed hjoin
    have hpos := a.first.joined_pos hoffer.wellFormed (a.first.of_refusal_eq_none hfirst).2.1 hjoin
    have htaken := (harrived (s.object playerItem).kind).2.2 hwith
    rw [htwo, hgoods, if_pos ⟨hfirst, hjoin, rfl⟩] at htaken
    omega
  refine ⟨a.first.whole_of_handed hoffer.wellFormed hoffer.playerItem_lt hfirst hplayer hhanded (harrived _).1, hjoin,
    a.second.whole_of_handed h hlt hsecond hpartner hhanded' ?_⟩
  rw [(harrived _).2.1, htwo, hgoods, if_neg fun hboth => hjoin hboth.2.1, Nat.add_zero]

/-- Two moves that are made do not leave both items as they were. -/
theorem not_kept (hfirst : a.first.refusal (some partnerItem) = none) (hresult : a.first.result = .noError)
    (hsecond : a.second.refusal none = none) : ¬ Kept s a.second.moved playerItem partnerItem := by
  intro hkept
  have h := hoffer.wellFormed
  obtain ⟨h', _, _, hobject, _⟩ := a.between_spec hoffer
  obtain ⟨hlt, hholder⟩ := a.partnerItem_between hoffer
  by_cases hjoin : a.first.dest.toItem = some partnerItem
  · -- the stack of the player is used up, and nothing brings it back
    have hbetween : a.between = a.first.moved := congrArg Prod.snd (a.first.internalMoveItem_of_none hfirst)
    obtain ⟨_, _, hstack, _, _, hcontainer, _⟩ := a.first.toItem_spec h hjoin
    have hall := a.first.count_eq_of_result hcontainer hstack hresult
    have hsame := hkept.player.1
    rw [a.holder_second hoffer hsecond, hbetween, a.first.holder_moved_stack h hoffer.playerItem_lt hfirst hstack,
      if_pos hall] at hsame
    exact hoffer.holder_playerItem_ne.1 hsame.symm
  · obtain ⟨hsame, hobject'⟩ := hkept.partner
    refine a.second.not_still h' hlt hsecond ?_ ?_ ⟨hsame.trans hholder.symm, hobject'.trans (hobject hjoin).symm⟩
    · exact hholder ▸ hoffer.holder_partnerItem_ne.1
    · exact hholder ▸ hoffer.holder_partnerItem_ne.2

/-- The first move alone is not the whole transfer. -/
theorem not_atomic_between (hfirst : a.first.refusal (some partnerItem) = none) :
    ¬ Atomic s a.between playerItem partnerItem := by
  have hbetween : a.between = a.first.moved := congrArg Prod.snd (a.first.internalMoveItem_of_none hfirst)
  obtain ⟨hnone, hside⟩ := hoffer.holder_playerItem_ne
  rintro (hkept | hswapped)
  · rw [hbetween] at hkept
    exact a.first.not_still hoffer.wellFormed hoffer.playerItem_lt hfirst hnone hside hkept.player
  · have hhanded := hswapped.partner
    unfold Handed at hhanded
    rw [(a.partnerItem_between hoffer).2] at hhanded
    split at hhanded
    · exact hoffer.holder_partnerItem_ne.1 hhanded
    · exact hoffer.holder_partnerItem_ne.2 hhanded

/-- Neither is the second one. -/
theorem not_atomic_second (hfirst : a.first.refusal (some partnerItem) = some .noError)
    (hsecond : a.second.refusal none = none) : ¬ Atomic s a.second.moved playerItem partnerItem := by
  have hbetween : a.between = s := congrArg Prod.snd (a.first.internalMoveItem_of_refusal hfirst)
  obtain ⟨hlt, hholder⟩ := a.partnerItem_between hoffer
  have hbox : (s.object playerItem).stackable = false := by
    refine (a.first.of_refusal_eq_noError hfirst).resolve_left fun hself => ?_
    exact hoffer.holder_playerItem_ne.2 (a.first.toItem_spec hoffer.wellFormed hself).2.1
  rintro (hkept | hswapped)
  · refine a.second.not_still (a.between_spec hoffer).1 hlt hsecond ?_ ?_ ?_
    · exact hholder ▸ hoffer.holder_partnerItem_ne.1
    · exact hholder ▸ hoffer.holder_partnerItem_ne.2
    · obtain ⟨hsame, hobject⟩ := hkept.partner
      exact ⟨hsame.trans hholder.symm, hobject.trans (congrArg (·.object partnerItem) hbetween.symm)⟩
  · have hhanded := hswapped.player
    unfold Handed at hhanded
    rw [a.holder_second hoffer hsecond, hbetween, hbox, if_neg Bool.false_ne_true] at hhanded
    exact hoffer.holder_playerItem_ne.2 hhanded

theorem transfer_atomic_iff : Atomic s a.transfer.2 playerItem partnerItem ↔ a.Sound := by
  have hkept : Atomic s s playerItem partnerItem := .inl ⟨⟨rfl, rfl⟩, ⟨rfl, rfl⟩, fun _ _ => rfl⟩
  by_cases hagreed : a.Agreed
  · rw [a.transfer_eq hagreed]
    cases hfirst : a.first.refusal (some partnerItem) with
    | some ret =>
      have hmove := a.first.internalMoveItem_of_refusal hfirst
      have hbetween : a.between = s := congrArg Prod.snd hmove
      by_cases hret : ret = .noError
      · subst hret
        rw [if_pos (congrArg Prod.fst hmove), a.sound_iff_of_ignored hagreed hfirst]
        cases hsecond : a.second.refusal none with
        | some ret =>
          rw [a.second.internalMoveItem_of_refusal hsecond]
          refine iff_of_true ?_ rfl
          show Atomic s a.between playerItem partnerItem
          rwa [hbetween]
        | none =>
          rw [a.second.internalMoveItem_of_none hsecond]
          exact iff_of_false (a.not_atomic_second hoffer hfirst hsecond) Bool.false_ne_true
      · have hfst : (a.first.internalMoveItem (some partnerItem)).1 ≠ .noError := fun heq =>
          hret ((congrArg Prod.fst hmove).symm.trans heq)
        rw [if_neg hfst, hbetween]
        exact iff_of_true hkept (.inr (.inl ⟨ret, hret, hfirst⟩))
    | none =>
      have hret : (a.first.internalMoveItem (some partnerItem)).1 = a.first.result :=
        congrArg Prod.fst (a.first.internalMoveItem_of_none hfirst)
      rw [a.sound_iff_of_made hagreed hfirst, hret]
      by_cases hresult : a.first.result = .noError
      · rw [if_pos hresult]
        cases hsecond : a.second.refusal none with
        | some ret =>
          rw [a.second.internalMoveItem_of_refusal hsecond]
          refine iff_of_false (a.not_atomic_between hoffer hfirst) fun hwhole => ?_
          rw [hwhole.2.2.1] at hsecond
          cases hsecond
        | none =>
          rw [a.second.internalMoveItem_of_none hsecond]
          refine ⟨fun hatomic => ?_, fun hwhole => .inr (a.swapped hoffer hwhole.1 hwhole.2.1 hwhole.2.2)⟩
          exact a.whole_of_swapped hoffer hfirst hsecond (hatomic.resolve_left (a.not_kept hoffer hfirst hresult hsecond))
      · rw [if_neg hresult]
        refine iff_of_false (a.not_atomic_between hoffer hfirst) fun hwhole => ?_
        obtain ⟨hstack, hlt⟩ := a.first.count_lt_of_result hresult
        exact hlt.ne (hwhole.1.2.1 hstack)
  · have hstate : a.transfer.2 = s := by
      unfold transfer
      rw [if_neg hagreed]
    rw [hstate]
    exact iff_of_true hkept (.inl hagreed)

end Offer

end Answers

/-! ## Trades of what the players have in their hands -/

/-- Items that are in slots. -/
def slots (items : List (Object × Side × Nat)) : Belongings where
  size := items.length
  object r := (items[r]?.map Prod.fst).getD { kind := 0 }
  parent r := items[r]?.map fun item => .inventory item.2.1 item.2.2

theorem wellFormed_slots {items : List (Object × Side × Nat)} (hcount : ∀ item ∈ items, 0 < item.1.count) :
    (slots items).WellFormed := by
  have hup (r : Ref) : (slots items).up r = none := by
    show Belongings.boxOf (items[r]?.map fun item => .inventory item.2.1 item.2.2) = none
    cases items[r]? with
    | none => rfl
    | some item => rfl
  refine ⟨fun r => ⟨_, .top (hup r)⟩, fun {r c} hr => ?_, fun {r c} hr => ?_, fun {r} hr => ?_, fun {r} hr => ?_⟩
  · rw [hup] at hr
    cases hr
  · rw [hup] at hr
    cases hr
  · exact congrArg (Option.map _) (List.getElem?_eq_none hr)
  · have hobject : (slots items).object r = items[r].1 := by
      show (items[r]?.map Prod.fst).getD { kind := 0 } = items[r].1
      rw [List.getElem?_eq_getElem hr]
      rfl
    rw [hobject]
    exact hcount _ (List.getElem_mem hr)

/-- A slot is free when none of the items is in it. -/
theorem Belongings.WellFormed.free {s : Belongings} (h : s.WellFormed) {p : Parent}
    (hlt : ∀ r, r < s.size → s.parent r ≠ some p) (r : Ref) : s.parent r ≠ some p := by
  by_cases hr : r < s.size
  · exact hlt r hr
  · rw [h.fresh (Nat.not_lt.mp hr)]
    exact fun heq => (by cases heq)

def gold (count : Nat) : Object := { kind := 3031, count, stackable := true }

def sword : Object := { kind := 3264, slotType := 6 }

def arrows : Object := { kind := 3447, count := 30, stackable := true, slotType := 10 }

/-- The answers of a move to a slot, where everything agrees. -/
def toSlot {s : Belongings} {side : Side} {item : Ref} (index : Int) (room : Nat)
    (hfree : slotFirst ≤ index → index ≤ slotLast → ∀ r, s.parent r ≠ some (.inventory side index.toNat)) :
    MoveAnswers s side item where
  dest := .player index
  queryAdd := .noError
  queryMaxCount := .noError
  maxQueryCount := room
  queryRemove := .noError
  valid := hfree
  room := fun hcontainer => (by cases hcontainer)

/-- Gold of the player for a sword of the partner. -/
def handful (rest : List (Object × Side × Nat)) : Belongings :=
  slots ((gold 50, .player, 5) :: (sword, .partner, 6) :: rest)

theorem offer_handful {rest : List (Object × Side × Nat)} (hcount : ∀ item ∈ rest, 0 < item.1.count) :
    Offer (handful rest) 0 1 := by
  have h : (handful rest).WellFormed := by
    refine wellFormed_slots fun item hitem => ?_
    rcases List.mem_cons.mp hitem with rfl | hitem
    · exact Nat.succ_pos _
    rcases List.mem_cons.mp hitem with rfl | hitem
    · exact Nat.succ_pos _
    · exact hcount item hitem
  have hplayer : 0 < (handful rest).size := Nat.succ_pos _
  have hpartner : 1 < (handful rest).size := Nat.succ_lt_succ (Nat.succ_pos _)
  refine ⟨h, hplayer, hpartner, .inl ?_, .inl ?_, fun hmem => ?_, fun hmem => ?_⟩
  · exact h.holder_eq_placeHolder hplayer
  · exact h.holder_eq_placeHolder hpartner
  · rw [h.chain_eq hpartner (.top rfl)] at hmem
    exact absurd (List.mem_singleton.mp hmem) (by decide)
  · rw [h.chain_eq hplayer (.top rfl)] at hmem
    exact absurd (List.mem_singleton.mp hmem) (by decide)

/-- A trade that every check agrees to. -/
def agreedBy {s : Belongings} {playerItem partnerItem : Ref} (first : MoveAnswers s .partner playerItem)
    (second : MoveAnswers (first.internalMoveItem (some partnerItem)).2 .player partnerItem) :
    Answers s playerItem partnerItem where
  addToPartner := ⟨.noError, .noError⟩
  addToPlayer := ⟨.noError, .noError⟩
  removeFromPlayer := ⟨.noError, true⟩
  removeFromPartner := ⟨.noError, true⟩
  first
  second

/-- The other hand of the partner is free. -/
def freeHand : MoveAnswers (handful []) .partner 0 :=
  toSlot 5 100 fun _ _ => (offer_handful (by decide)).wellFormed.free (by decide)

theorem wellFormed_freeHand : (freeHand.internalMoveItem (some 1)).2.WellFormed :=
  @MoveAnswers.wellFormed_moved _ _ _ freeHand (offer_handful (by decide)).wellFormed (by decide) (some 1) (by decide)

def swapAnswers : Answers (handful []) 0 1 :=
  agreedBy freeHand (toSlot 5 1 fun _ _ => wellFormed_freeHand.free (by decide))

theorem atomic_swapAnswers : Offer (handful []) 0 1 ∧ Atomic (handful []) swapAnswers.transfer.2 0 1 := by
  have hoffer : Offer (handful []) 0 1 := offer_handful (by decide)
  refine ⟨hoffer, (swapAnswers.transfer_atomic_iff hoffer).mpr (.inr (.inr (.inr ⟨?_, by decide, ?_⟩)))⟩
  · exact ⟨by decide, by decide, by decide⟩
  · exact ⟨by decide, by decide, by decide⟩

/-- What fills the slots of the partner that gold can be in. -/
def fullRest : List (Object × Side × Nat) := [(gold 40, .partner, 5), (arrows, .partner, 10)]

/-- There is no slot for gold, but there is room for more of it. -/
def fullHands : MoveAnswers (handful fullRest) .partner 0 :=
  toSlot (-1) 60 fun hfirst => absurd hfirst (by decide)

theorem wellFormed_fullHands : (fullHands.internalMoveItem (some 1)).2.WellFormed :=
  @MoveAnswers.wellFormed_moved _ _ _ fullHands (offer_handful (by decide)).wellFormed (by decide) (some 1) (by decide)

def lossAnswers : Answers (handful fullRest) 0 1 :=
  agreedBy fullHands (toSlot 5 1 fun _ _ => wellFormed_fullHands.free (by decide))

/-- The gold of the player is gone, the partner still has theirs only, and the sword is with the player. -/
theorem not_atomic_lossAnswers : Offer (handful fullRest) 0 1 ∧ lossAnswers.transfer.1 = true ∧
    lossAnswers.transfer.2.holder 1 = some (.side .player) ∧
    ¬ Atomic (handful fullRest) lossAnswers.transfer.2 0 1 := by
  refine ⟨offer_handful (by decide), by decide +kernel, by decide +kernel, ?_⟩
  rintro (hkept | hswapped)
  · exact absurd hkept.player.1 (by decide +kernel)
  · exact absurd (hswapped.amount (.side .partner) 3031) (by decide +kernel)

end ForgottenServer.Trade
