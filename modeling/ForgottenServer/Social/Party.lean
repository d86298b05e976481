import Mathlib
import ForgottenServer.Lib.Runs

/-! # Parties

Membership is kept on both sides: a player has a party and a list of the parties that invite it, a party has a leader, a
list of members and a list of invited players. Every player stays online, so no reference expires, and what is sent to
the clients is left out. -/

namespace ForgottenServer.Social

/-- A party. `self` is its reference to itself, which keeps it alive until it is disbanded. -/
structure Party (Player : Type) where
  self : Bool := false
  leader : Option Player := none
  memberList : List Player := []
  inviteList : List Player := []

def Party.empty {Player : Type} (party : Party Player) : Bool := party.memberList.isEmpty && party.inviteList.isEmpty

/-- The parties, with the number of those that were ever created, and what the players know of them. -/
structure Parties (Player : Type) where
  party : Player → Option Nat := fun _ => none
  invitePartyList : Player → List Nat := fun _ => []
  parties : Nat → Party Player := fun _ => {}
  created : Nat := 0

/-- The answers of the callbacks in one call. -/
structure Events (Player : Type) where
  onDisband : Nat → Bool
  onJoin : Nat → Player → Bool
  onLeave : Nat → Player → Bool
  onPassLeadership : Nat → Player → Bool
  onRevokeInvitation : Nat → Player → Bool

variable {Player : Type} [DecidableEq Player]

namespace Parties

/-! ## Players -/

def setParty (w : Parties Player) (player : Player) (party : Option Nat) : Parties Player :=
  { w with party := Function.update w.party player party }

def setInvitations (w : Parties Player) (player : Player) (invitations : List Nat) : Parties Player :=
  { w with invitePartyList := Function.update w.invitePartyList player invitations }

def addPartyInvitation (w : Parties Player) (player : Player) (id : Nat) : Parties Player :=
  if id ∈ w.invitePartyList player then w else w.setInvitations player (id :: w.invitePartyList player)

def removePartyInvitation (w : Parties Player) (player : Player) (id : Nat) : Parties Player :=
  w.setInvitations player ((w.invitePartyList player).filter (· ≠ id))

/-! ## Parties -/

def setParties (w : Parties Player) (id : Nat) (party : Party Player) : Parties Player :=
  { w with parties := Function.update w.parties id party }

/-- `Party::create`, and its number. -/
def create (w : Parties Player) (leader : Player) : Parties Player :=
  { w.setParties w.created { self := true, leader := some leader } with created := w.created + 1 }.setParty leader
    (some w.created)

variable (ev : Events Player)

def disband (w : Parties Player) (id : Nat) : Parties Player :=
  if !ev.onDisband id then w
  else
    let party := w.parties id
    let w := match party.leader with
      | some leader => w.setParty leader none
      | none => w
    let w := party.inviteList.foldl (fun w invitee => w.removePartyInvitation invitee id) w
    let w := party.memberList.foldl (fun w member => w.setParty member none) w
    w.setParties id {}

def passPartyLeadership (w : Parties Player) (id : Nat) (player : Player) (forceRemove : Bool) : Parties Player × Bool :=
  let party := w.parties id
  if party.leader = some player ∨ w.party player ≠ some id then (w, false)
  else if !ev.onPassLeadership id player && !forceRemove then (w, false)
  else (w.setParties id { party with
    leader := some player
    memberList := party.leader.toList ++ party.memberList.filter (· ≠ player) }, true)

/-- Whether a leader who leaves leaves no one to lead, else who leads now. -/
def nextLeader (party : Party Player) (player : Player) : Option Player :=
  let validMembers := party.memberList.filter (· ≠ player)
  if validMembers.length = 1 ∧ party.inviteList = [] ∧ party.leader = some player then none else validMembers.head?

def leaveParty (w : Parties Player) (id : Nat) (player : Player) (forceRemove : Bool) : Parties Player × Bool :=
  let party := w.parties id
  if w.party player ≠ some id ∧ party.leader ≠ some player then (w, false)
  else if !forceRemove && !ev.onLeave id player then (w, false)
  else
    let leads := party.leader = some player ∨ party.leader = none
    let next := nextLeader party player
    let missingLeader := decide leads && next.isNone
    let w := match next with
      | some next => if leads then (w.passPartyLeadership ev id next true).1 else w
      | none => w
    let party := w.parties id
    let w := w.setParties id { party with memberList := party.memberList.filter (· ≠ player) }
    let w := w.setParty player none
    (if missingLeader || (w.parties id).empty then w.disband ev id else w, true)

def removeInvite (w : Parties Player) (id : Nat) (player : Player) (removeFromPlayer : Bool) : Parties Player × Bool :=
  let party := w.parties id
  if player ∉ party.inviteList then (w, false)
  else
    let w := w.setParties id { party with inviteList := party.inviteList.filter (· ≠ player) }
    let w := if removeFromPlayer then w.removePartyInvitation player id else w
    (if (w.parties id).empty then w.disband ev id else w, true)

def revokeInvitation (w : Parties Player) (id : Nat) (player : Player) : Parties Player :=
  if !ev.onRevokeInvitation id player then w else (w.removeInvite ev id player true).1

/-- `Player::clearPartyInvitations`. -/
def clearPartyInvitations (w : Parties Player) (player : Player) : Parties Player :=
  ((w.invitePartyList player).foldl (fun w id => (w.removeInvite ev id player false).1) w).setInvitations player []

def joinParty (w : Parties Player) (id : Nat) (player : Player) : Parties Player × Bool :=
  match (w.parties id).leader with
  | none => (w, false)
  | some leader =>
    if !ev.onJoin id player then (w, false)
    else
      let w := if (w.parties id).memberList = [] then w.clearPartyInvitations ev leader else w
      let party := w.parties id
      let w := w.setParties id { party with memberList := party.memberList ++ [player] }
      let w := w.setParty player (some id)
      let w := w.clearPartyInvitations ev player
      (w.removePartyInvitation player id, true)

def invitePlayer (w : Parties Player) (id : Nat) (player : Player) : Parties Player × Bool :=
  let party := w.parties id
  if player ∈ party.inviteList then (w, false)
  else if party.leader = none then (w, false)
  else ((w.setParties id { party with inviteList := party.inviteList ++ [player] }).addPartyInvitation player id, true)

end Parties

/-! ## Runs -/

inductive Call (Player : Type) where
  | create (leader : Player)
  | invitePlayer (id : Nat) (player : Player)
  | joinParty (id : Nat) (player : Player)
  | revokeInvitation (id : Nat) (player : Player)
  | removeInvite (id : Nat) (player : Player)
  | passPartyLeadership (id : Nat) (player : Player) (forceRemove : Bool)
  | leaveParty (id : Nat) (player : Player) (forceRemove : Bool)
  | disband (id : Nat)

/-- A call with the answers of its callbacks. A party is created for a player without one, and an invited player without
a party joins. -/
def Parties.step (w : Parties Player) : Events Player × Call Player → Parties Player
  | (_, .create leader) => if w.party leader = none then w.create leader else w
  | (_, .invitePlayer id player) => (w.invitePlayer id player).1
  | (ev, .joinParty id player) =>
    if player ∈ (w.parties id).inviteList ∧ w.party player = none then (w.joinParty ev id player).1 else w
  | (ev, .revokeInvitation id player) => w.revokeInvitation ev id player
  | (ev, .removeInvite id player) => (w.removeInvite ev id player true).1
  | (ev, .passPartyLeadership id player forceRemove) => (w.passPartyLeadership ev id player forceRemove).1
  | (ev, .leaveParty id player forceRemove) => (w.leaveParty ev id player forceRemove).1
  | (ev, .disband id) => w.disband ev id

/-- What the players know of a party is what it lists, each of them once, and a party that is not alive has nobody. -/
structure Parties.Agrees (w : Parties Player) (id : Nat) (party : Party Player) : Prop where
  party_iff : ∀ player, w.party player = some id ↔ party.leader = some player ∨ player ∈ party.memberList
  member_once : party.memberList.Nodup
  leader_no_member : ∀ player, party.leader = some player → player ∉ party.memberList
  invited_iff : ∀ player, id ∈ w.invitePartyList player ↔ player ∈ party.inviteList
  invited_once : party.inviteList.Nodup
  led : party.self = true → party.leader.isSome
  disbanded : party.self = false → party = {}

structure Consistent (w : Parties Player) : Prop where
  agrees : ∀ id, w.Agrees id (w.parties id)
  invitation_once : ∀ player, (w.invitePartyList player).Nodup
  fresh : ∀ id ≥ w.created, w.parties id = {}

namespace Parties

variable {w : Parties Player} {ev : Events Player}

/-! ## What a disband changes -/

theorem foldl_removePartyInvitation (id : Nat) (invitees : List Player) :
    ∀ w : Parties Player, invitees.foldl (fun w invitee => w.removePartyInvitation invitee id) w =
      { w with invitePartyList := fun player =>
          if player ∈ invitees then (w.invitePartyList player).filter (· ≠ id) else w.invitePartyList player } := by
  induction invitees with
  | nil => exact fun w => by simp
  | cons invitee invitees ih =>
    intro w
    rw [List.foldl_cons, ih]
    simp only [removePartyInvitation, setInvitations, Parties.mk.injEq, true_and, and_true]
    funext player
    by_cases hplayer : player = invitee
    · subst hplayer
      by_cases hmem : player ∈ invitees <;> simp [hmem, List.filter_filter]
    · simp [hplayer]

theorem foldl_setParty (members : List Player) :
    ∀ w : Parties Player, members.foldl (fun w member => w.setParty member none) w =
      { w with party := fun player => if player ∈ members then none else w.party player } := by
  induction members with
  | nil => exact fun w => by simp
  | cons member members ih =>
    intro w
    rw [List.foldl_cons, ih]
    simp only [setParty, Parties.mk.injEq, and_true]
    funext player
    by_cases hplayer : player = member
    · subst hplayer
      simp
    · simp [hplayer]

theorem disband_eq (hev : ∀ id, ev.onDisband id = true) (w : Parties Player) (id : Nat) :
    w.disband ev id =
      { w with
        party := fun player =>
          if (w.parties id).leader = some player ∨ player ∈ (w.parties id).memberList then none else w.party player
        invitePartyList := fun player =>
          if player ∈ (w.parties id).inviteList then (w.invitePartyList player).filter (· ≠ id)
          else w.invitePartyList player
        parties := Function.update w.parties id {} } := by
  rw [disband, hev]
  simp only [Bool.not_true, Bool.false_eq_true, if_false, foldl_removePartyInvitation, foldl_setParty, setParties]
  cases hleader : (w.parties id).leader with
  | none => simp
  | some leader =>
    simp only [setParty, Parties.mk.injEq, and_true]
    funext player
    by_cases hplayer : player = leader
    · subst hplayer
      simp
    · simp [Function.update_of_ne hplayer, Ne.symm hplayer]

/-- A leader who has just left is not there to be told so again. -/
theorem disband_setParty_leader (hev : ∀ id, ev.onDisband id = true) {id : Nat} {player : Player}
    (hleader : (w.parties id).leader = some player) : (w.setParty player none).disband ev id = w.disband ev id := by
  rw [disband_eq hev, disband_eq hev]
  simp only [setParty, Parties.mk.injEq, and_true]
  refine ⟨funext fun p => ?_, rfl⟩
  by_cases hp : p = player
  · subst hp
    simp [hleader]
  · simp [Function.update_of_ne hp]

end Parties

/-! ## The two sides agree -/

namespace Consistent

variable {w : Parties Player} {ev : Events Player}

section

omit [DecidableEq Player]

/-- One party changes, and the players know it. -/
theorem update (h : Consistent w) {w' : Parties Player} {id : Nat} {party : Party Player}
    (hparties : w'.parties = Function.update w.parties id party) (hcreated : w.created ≤ w'.created)
    (hid : id < w'.created) (hself : w'.Agrees id party)
    (hparty : ∀ player, ∀ id' ≠ id, w'.party player = some id' ↔ w.party player = some id')
    (hinvited : ∀ player, ∀ id' ≠ id, id' ∈ w'.invitePartyList player ↔ id' ∈ w.invitePartyList player)
    (honce : ∀ player, (w'.invitePartyList player).Nodup) : Consistent w' where
  agrees := by
    intro id'
    rw [hparties]
    by_cases hne : id' = id
    · subst hne
      rw [Function.update_self]
      exact hself
    · rw [Function.update_of_ne hne]
      obtain ⟨h₁, h₂, h₃, h₄, h₅, h₆, h₇⟩ := h.agrees id'
      exact ⟨fun player => (hparty player id' hne).trans (h₁ player), h₂, h₃,
        fun player => (hinvited player id' hne).trans (h₄ player), h₅, h₆, h₇⟩
  invitation_once := honce
  fresh := by
    intro id' hle
    rw [hparties, Function.update_of_ne (by omega)]
    exact h.fresh id' (Nat.le_trans hcreated hle)

theorem lt_created (h : Consistent w) {id : Nat} (halive : (w.parties id).self = true) : id < w.created := by
  by_contra hge
  rw [h.fresh id (by omega)] at halive
  cases halive

theorem alive_of_leader (h : Consistent w) {id : Nat} {leader : Player} (hleader : (w.parties id).leader = some leader) :
    (w.parties id).self = true := by
  by_contra hself
  rw [(h.agrees id).disbanded (Bool.eq_false_iff.mpr hself)] at hleader
  cases hleader

theorem alive_of_party (h : Consistent w) {id : Nat} {player : Player} (hparty : w.party player = some id) :
    (w.parties id).self = true := by
  by_contra hself
  have hnobody := ((h.agrees id).party_iff player).mp hparty
  rw [(h.agrees id).disbanded (Bool.eq_false_iff.mpr hself)] at hnobody
  rcases hnobody with hleader | hmember
  · cases hleader
  · cases hmember

/-- The members of a party change, and the players know it. -/
theorem setMembers (h : Consistent w) {id : Nat} {leader : Player} {memberList : List Player}
    {party : Player → Option Nat} (halive : (w.parties id).self = true) (honce : memberList.Nodup)
    (hno : leader ∉ memberList) (hself : ∀ player, party player = some id ↔ player = leader ∨ player ∈ memberList)
    (hother : ∀ player, ∀ id' ≠ id, party player = some id' ↔ w.party player = some id') :
    Consistent { w with
      party, parties := Function.update w.parties id { w.parties id with leader := some leader, memberList } } := by
  refine h.update rfl (Nat.le_refl _) (h.lt_created halive) ⟨fun player => ?_, honce, fun player hplayer => ?_,
    (h.agrees id).invited_iff, (h.agrees id).invited_once, fun _ => rfl, fun hself => ?_⟩ hother (fun _ _ _ => Iff.rfl)
    h.invitation_once
  · rw [hself player, Option.some.injEq, eq_comm]
  · cases hplayer
    exact hno
  · rw [halive] at hself
    cases hself

/-- The invited players change, and know it. -/
theorem setInvitees (h : Consistent w) {id : Nat} {inviteList : List Player} {invitations : Player → List Nat}
    (halive : (w.parties id).self = true) (honce : inviteList.Nodup)
    (hself : ∀ player, id ∈ invitations player ↔ player ∈ inviteList)
    (hother : ∀ player, ∀ id' ≠ id, id' ∈ invitations player ↔ id' ∈ w.invitePartyList player)
    (honces : ∀ player, (invitations player).Nodup) :
    Consistent { w with
      invitePartyList := invitations, parties := Function.update w.parties id { w.parties id with inviteList } } := by
  refine h.update rfl (Nat.le_refl _) (h.lt_created halive) ⟨(h.agrees id).party_iff, (h.agrees id).member_once,
    (h.agrees id).leader_no_member, hself, honce, (h.agrees id).led, fun hself => ?_⟩ (fun _ _ _ => Iff.rfl) hother honces
  change (w.parties id).self = false at hself
  rw [halive] at hself
  cases hself

end

theorem disband (h : Consistent w) (hev : ∀ id, ev.onDisband id = true) (id : Nat) :
    Consistent (w.disband ev id) := by
  rw [Parties.disband_eq hev]
  by_cases halive : (w.parties id).self = true
  · have hiff := (h.agrees id).party_iff
    refine h.update rfl (Nat.le_refl _) (h.lt_created halive) ⟨fun player => ?_, List.nodup_nil, fun _ _ => List.not_mem_nil,
      fun player => ?_, List.nodup_nil, fun hself => absurd hself (by simp), fun _ => rfl⟩ (fun player id' hne => ?_)
      (fun player id' hne => ?_) fun player => ?_
    · by_cases hin : (w.parties id).leader = some player ∨ player ∈ (w.parties id).memberList
      · simp [hin]
      · simp [hin, (hiff player).not.mpr hin]
    · have hinvited := (h.agrees id).invited_iff player
      by_cases hin : player ∈ (w.parties id).inviteList
      · simp [hin]
      · simp [hin, hinvited.not.mpr hin]
    · by_cases hin : (w.parties id).leader = some player ∨ player ∈ (w.parties id).memberList
      · simp [hin, (hiff player).mpr hin, Ne.symm hne]
      · simp [hin]
    · by_cases hin : player ∈ (w.parties id).inviteList
      · simp [hin, hne]
      · simp [hin]
    · dsimp only
      split
      · exact (h.invitation_once player).filter _
      · exact h.invitation_once player
  · have hnobody := (h.agrees id).disbanded (Bool.eq_false_iff.mpr halive)
    rw [← hnobody, Function.update_eq_self]
    simpa [hnobody] using h

theorem create (h : Consistent w) {leader : Player} (hnone : w.party leader = none) : Consistent (w.create leader) := by
  have hfresh := h.fresh w.created (Nat.le_refl _)
  have hagrees := h.agrees w.created
  rw [hfresh] at hagrees
  refine h.update rfl (Nat.le_succ _) (Nat.lt_succ_self _) ⟨fun player => ?_, List.nodup_nil,
    fun _ _ => List.not_mem_nil, hagrees.invited_iff, List.nodup_nil, fun _ => rfl, fun hself => (by cases hself)⟩
    (fun player id' hne => ?_) (fun _ _ _ => Iff.rfl) h.invitation_once
  · show Function.update w.party leader (some w.created) player = _ ↔ _
    by_cases hplayer : player = leader
    · subst hplayer
      simp
    · have hno := hagrees.party_iff player
      simp_all [Ne.symm hplayer]
  · show Function.update w.party leader (some w.created) player = _ ↔ _
    by_cases hplayer : player = leader
    · subst hplayer
      simp [hnone, Ne.symm hne]
    · rw [Function.update_of_ne hplayer]

theorem invitePlayer (h : Consistent w) (id : Nat) (player : Player) : Consistent (w.invitePlayer id player).1 := by
  rw [Parties.invitePlayer]
  split
  · exact h
  · rename_i hinvited
    split
    · exact h
    · rename_i hleader
      obtain ⟨leader, hleader⟩ := Option.ne_none_iff_exists'.mp hleader
      have hnone := ((h.agrees id).invited_iff player).not.mpr hinvited
      have hadd : (w.setParties id { w.parties id with
            inviteList := (w.parties id).inviteList ++ [player] }).addPartyInvitation player id =
          { w with
            invitePartyList := Function.update w.invitePartyList player (id :: w.invitePartyList player)
            parties := Function.update w.parties id { w.parties id with
              inviteList := (w.parties id).inviteList ++ [player] } } := if_neg hnone
      have honce := (h.agrees id).invited_once.concat hinvited
      rw [List.concat_eq_append] at honce
      rw [hadd]
      refine h.setInvitees (h.alive_of_leader hleader) honce (fun p => ?_) (fun p id' hne => ?_) fun p => ?_
      · by_cases hp : p = player
        · subst hp
          simp
        · rw [Function.update_of_ne hp, (h.agrees id).invited_iff, List.mem_append, List.mem_singleton, or_iff_left hp]
      · by_cases hp : p = player
        · subst hp
          simp [hne]
        · rw [Function.update_of_ne hp]
      · by_cases hp : p = player
        · subst hp
          rw [Function.update_self]
          exact (h.invitation_once p).cons hnone
        · rw [Function.update_of_ne hp]
          exact h.invitation_once p

theorem removeInvite (h : Consistent w) (hev : ∀ id, ev.onDisband id = true) (id : Nat) (player : Player) :
    Consistent (w.removeInvite ev id player true).1 := by
  rw [Parties.removeInvite]
  split
  · exact h
  · rename_i hinvited
    have halive : (w.parties id).self = true := by
      by_contra hself
      rw [(h.agrees id).disbanded (Bool.eq_false_iff.mpr hself)] at hinvited
      exact hinvited List.not_mem_nil
    have hremoved : Consistent ((w.setParties id { w.parties id with
        inviteList := (w.parties id).inviteList.filter (· ≠ player) }).removePartyInvitation player id) := by
      refine h.setInvitees halive ((h.agrees id).invited_once.filter _) (fun p => ?_) (fun p id' hne => ?_) fun p => ?_
      · by_cases hp : p = player
        · subst hp
          simp
        · rw [Function.update_of_ne hp]
          simpa [hp, Parties.setParties] using (h.agrees id).invited_iff p
      · by_cases hp : p = player
        · subst hp
          simp [hne, Parties.setParties]
        · rw [Function.update_of_ne hp]
          rfl
      · by_cases hp : p = player
        · subst hp
          rw [Function.update_self]
          exact (h.invitation_once p).filter _
        · rw [Function.update_of_ne hp]
          exact h.invitation_once p
    simp only [if_true]
    split
    · exact hremoved.disband hev id
    · exact hremoved

theorem passPartyLeadership (h : Consistent w) (id : Nat) (player : Player) (forceRemove : Bool) :
    Consistent (w.passPartyLeadership ev id player forceRemove).1 := by
  rw [Parties.passPartyLeadership]
  split
  · exact h
  · rename_i hmay
    obtain ⟨hleader, hparty⟩ := not_or.mp hmay
    have hparty := not_not.mp hparty
    split
    · exact h
    · obtain ⟨hiff, honce, hno, -, -, hled, -⟩ := h.agrees id
      have halive := h.alive_of_party hparty
      obtain ⟨leader, hold⟩ := Option.isSome_iff_exists.mp (hled halive)
      have hmember := ((hiff player).mp hparty).resolve_left hleader
      have hleads : leader ≠ player := by
        rintro rfl
        exact hleader hold
      have hmembers : ((w.parties id).leader.toList ++ (w.parties id).memberList.filter (· ≠ player)).Nodup := by
        rw [hold]
        exact (honce.filter _).cons fun hmem => hno leader hold (List.mem_filter.mp hmem).1
      have hplayer : player ∉ (w.parties id).leader.toList ++ (w.parties id).memberList.filter (· ≠ player) := by
        simp [hold, Ne.symm hleads]
      refine h.setMembers halive hmembers hplayer (fun p => ?_) fun _ _ _ => Iff.rfl
      rw [hiff p, hold]
      by_cases hp : p = player
      · subst hp
        simp [hmember]
      · simp [hp, @eq_comm _ leader p]

/-- A member leaves. -/
theorem removeMember (h : Consistent w) {id : Nat} {player leader : Player} (hparty : w.party player = some id)
    (hleader : (w.parties id).leader = some leader) (hne : leader ≠ player) :
    Consistent ((w.setParties id { w.parties id with
      memberList := (w.parties id).memberList.filter (· ≠ player) }).setParty player none) := by
  obtain ⟨hiff, honce, hno, -⟩ := h.agrees id
  have hleaves : (w.setParties id { w.parties id with
        memberList := (w.parties id).memberList.filter (· ≠ player) }).setParty player none =
      { w with
        party := Function.update w.party player none
        parties := Function.update w.parties id { w.parties id with
          leader := some leader, memberList := (w.parties id).memberList.filter (· ≠ player) } } := by
    rw [← hleader]
    rfl
  rw [hleaves]
  refine h.setMembers (h.alive_of_party hparty) (honce.filter _)
    (fun hmem => hno leader hleader (List.mem_filter.mp hmem).1) (fun p => ?_) fun p id' hid => ?_
  · by_cases hp : p = player
    · subst hp
      simp [Ne.symm hne]
    · rw [Function.update_of_ne hp, hiff p, hleader]
      simp [hp, @eq_comm _ leader p]
  · by_cases hp : p = player
    · subst hp
      simp [hparty, Ne.symm hid]
    · rw [Function.update_of_ne hp]

/-- What a member leaves behind is disbanded if nobody is left. -/
theorem leave (h : Consistent w) (hev : ∀ id, ev.onDisband id = true) {id : Nat} {player leader : Player}
    (hparty : w.party player = some id) (hleader : (w.parties id).leader = some leader) (hne : leader ≠ player) :
    let w' := (w.setParties id { w.parties id with
      memberList := (w.parties id).memberList.filter (· ≠ player) }).setParty player none
    Consistent (if (w'.parties id).empty then w'.disband ev id else w') := by
  have hleft := h.removeMember hparty hleader hne
  intro w'
  split
  · exact hleft.disband hev id
  · exact hleft

theorem nextLeader_mem {party : Party Player} {player next : Player}
    (hnext : Parties.nextLeader party player = some next) : next ∈ party.memberList ∧ next ≠ player := by
  rw [Parties.nextLeader] at hnext
  split at hnext
  · cases hnext
  · obtain ⟨hmem, hne⟩ := List.mem_filter.mp (List.mem_of_head? hnext)
    exact ⟨hmem, of_decide_eq_true hne⟩

theorem leaveParty (h : Consistent w) (hev : ∀ id, ev.onDisband id = true) (id : Nat) (player : Player)
    (forceRemove : Bool) : Consistent (w.leaveParty ev id player forceRemove).1 := by
  rw [Parties.leaveParty]
  split
  · exact h
  · rename_i hin
    split
    · exact h
    · obtain ⟨hiff, -, hno, -, -, hled, -⟩ := h.agrees id
      have hparty : w.party player = some id := by
        by_contra hout
        exact hin ⟨hout, fun hleader => hout ((hiff player).mpr (.inl hleader))⟩
      obtain ⟨leader, hleader⟩ := Option.isSome_iff_exists.mp (hled (h.alive_of_party hparty))
      by_cases hleads : leader = player
      · subst hleads
        cases hnext : Parties.nextLeader (w.parties id) leader with
        | none =>
          -- the party is disbanded as it was before the leader left
          have hfilter : (w.parties id).memberList.filter (· ≠ leader) = (w.parties id).memberList := by
            refine List.filter_eq_self.mpr fun member hmember => decide_eq_true ?_
            rintro rfl
            exact hno member hleader hmember
          have hsame : w.setParties id { w.parties id with leader := some leader } = w := by
            rw [← hleader, Parties.setParties, Function.update_eq_self]
          simp only [hleader, true_or, decide_true, Option.isNone_none, Bool.and_self, Bool.true_or, if_true, hfilter,
            hsame]
          rw [Parties.disband_setParty_leader hev hleader]
          exact h.disband hev id
        | some next =>
          obtain ⟨hmember, hne⟩ := nextLeader_mem hnext
          have hnextParty := (hiff next).mpr (.inr hmember)
          have hpass := @passPartyLeadership _ _ w ev h id next true
          have hnot : leader ≠ next := Ne.symm hne
          have hpassed : ((w.passPartyLeadership ev id next true).1.parties id).leader = some next ∧
              (w.passPartyLeadership ev id next true).1.party = w.party := by
            rw [Parties.passPartyLeadership]
            simp [hleader, hnot, hnextParty, Parties.setParties]
          simp only [hleader, true_or, decide_true, Option.isNone_some, Bool.and_false, Bool.false_or, if_true]
          exact hpass.leave hev (by rw [hpassed.2]; exact hparty) hpassed.1 hne
      · have hnotLeads : ¬((w.parties id).leader = some player ∨ (w.parties id).leader = none) := by
          simp [hleader, hleads]
        simp only [hnotLeads, decide_false, Bool.false_and, Bool.false_or, if_false]
        split
        · exact h.leave hev hparty hleader hleads
        · exact h.leave hev hparty hleader hleads

end Consistent

namespace Parties

variable {w : Parties Player} {ev : Events Player}

/-! ## Invitations that a player no longer wants -/

/-- It makes no difference when the player forgets the invitation. -/
theorem removeInvite_setInvitations (hev : ∀ id, ev.onDisband id = true) (w : Parties Player) {id : Nat}
    {player : Player} {rest : List Nat} (hrest : id ∉ rest) :
    ((w.setInvitations player (id :: rest)).removeInvite ev id player true).1 =
      if player ∈ (w.parties id).inviteList then (w.removeInvite ev id player false).1.setInvitations player rest
      else w.setInvitations player (id :: rest) := by
  by_cases hin : player ∈ (w.parties id).inviteList
  · have hforgets : (id :: rest).filter (· ≠ id) = rest := by
      rw [List.filter_cons_of_neg (by simp)]
      refine List.filter_eq_self.mpr fun id' hmem => decide_eq_true ?_
      rintro rfl
      exact hrest hmem
    simp only [removeInvite, setInvitations, setParties, removePartyInvitation, disband_eq hev, hin, not_true_eq_false,
      if_false, if_true, Bool.false_eq_true, Function.update_self, Function.update_idem, hforgets]
    split
    · rename_i hempty
      simp only [Party.empty, Bool.and_eq_true, List.isEmpty_iff] at hempty
      simp only [hempty, Parties.mk.injEq, and_true, true_and]
      funext p
      by_cases hp : p = player
      · subst hp
        simp
      · simp [Function.update_of_ne hp]
    · rfl
  · simp [removeInvite, setInvitations, hin]

/-- A party that somebody else is invited to keeps its leader. -/
theorem removeInvite_stays (hev : ∀ id, ev.onDisband id = true) {w : Parties Player} {id id' : Nat}
    {player invitee : Player} (hne : invitee ≠ player) (hinvited : invitee ∈ (w.parties id).inviteList) :
    ((w.removeInvite ev id' player false).1.parties id).leader = (w.parties id).leader ∧
      invitee ∈ ((w.removeInvite ev id' player false).1.parties id).inviteList := by
  rw [removeInvite]
  split
  · exact ⟨rfl, hinvited⟩
  · simp only [Bool.false_eq_true, if_false, setParties, Function.update_self, disband_eq hev]
    by_cases hid : id = id'
    · subst hid
      have hmem : invitee ∈ (w.parties id).inviteList.filter (· ≠ player) :=
        List.mem_filter.mpr ⟨hinvited, decide_eq_true hne⟩
      have hstays : (Party.empty { w.parties id with inviteList := (w.parties id).inviteList.filter (· ≠ player) }) =
          false := by
        rw [Party.empty, List.isEmpty_eq_false_iff.mpr (List.ne_nil_of_mem hmem), Bool.and_false]
      simp only [hstays, Bool.false_eq_true, if_false, Function.update_self]
      exact ⟨trivial, hmem⟩
    · split
      · simp only [Function.update_of_ne hid]
        exact ⟨trivial, hinvited⟩
      · simp only [Function.update_of_ne hid]
        exact ⟨trivial, hinvited⟩

/-- A disbanded party gives nobody a party. -/
theorem party_removeInvite (hev : ∀ id, ev.onDisband id = true) {w : Parties Player} {id : Nat} {player p : Player}
    (hnone : w.party p = none) : (w.removeInvite ev id player false).1.party p = none := by
  rw [removeInvite]
  split
  · exact hnone
  · simp only [Bool.false_eq_true, if_false]
    split
    · rw [disband_eq hev]
      dsimp only
      split
      · rfl
      · exact hnone
    · exact hnone

theorem clearPartyInvitations_stays (hev : ∀ id, ev.onDisband id = true) {w : Parties Player} {id : Nat}
    {player invitee : Player} (hne : invitee ≠ player) (hinvited : invitee ∈ (w.parties id).inviteList)
    (hnone : w.party invitee = none) :
    ((w.clearPartyInvitations ev player).parties id).leader = (w.parties id).leader ∧
      (w.clearPartyInvitations ev player).party invitee = none := by
  rw [clearPartyInvitations]
  show ((List.foldl _ w _).parties id).leader = _ ∧ (List.foldl _ w _).party invitee = none
  generalize w.invitePartyList player = invitations
  induction invitations generalizing w with
  | nil => exact ⟨rfl, hnone⟩
  | cons id' invitations ih =>
    obtain ⟨hleader, hinvited'⟩ := @removeInvite_stays _ _ ev hev w id id' player invitee hne hinvited
    obtain ⟨hleader', hnone'⟩ := ih hinvited' (party_removeInvite hev hnone)
    exact ⟨hleader'.trans hleader, hnone'⟩

end Parties

namespace Consistent

variable {w : Parties Player} {ev : Events Player}

theorem clearPartyInvitations (h : Consistent w) (hev : ∀ id, ev.onDisband id = true) (player : Player) :
    Consistent (w.clearPartyInvitations ev player) := by
  rw [Parties.clearPartyInvitations]
  -- the invitations that are left are those that the player still has
  have hrest : ∀ (rest : List Nat) (w : Parties Player), Consistent (w.setInvitations player rest) →
      Consistent ((rest.foldl (fun w id => (w.removeInvite ev id player false).1) w).setInvitations player []) := by
    intro rest
    induction rest with
    | nil => exact fun w hw => hw
    | cons id rest ih =>
      intro w hw
      refine ih _ ?_
      have honce := hw.invitation_once player
      have hinvited := ((hw.agrees id).invited_iff player).mp
      simp only [Parties.setInvitations, Function.update_self] at honce hinvited
      have hremoved := hw.removeInvite hev id player
      rw [Parties.removeInvite_setInvitations hev w (List.nodup_cons.mp honce).1,
        if_pos (hinvited List.mem_cons_self)] at hremoved
      exact hremoved
  refine hrest _ w ?_
  rw [Parties.setInvitations, Function.update_eq_self]
  exact h

theorem joinParty (h : Consistent w) (hev : ∀ id, ev.onDisband id = true) {id : Nat} {player : Player}
    (hinvited : player ∈ (w.parties id).inviteList) (hnone : w.party player = none) :
    Consistent (w.joinParty ev id player).1 := by
  rw [Parties.joinParty]
  cases hleader : (w.parties id).leader with
  | none => exact h
  | some leader =>
    dsimp only
    split
    · exact h
    · have hne : player ≠ leader := by
        rintro rfl
        rw [((h.agrees id).party_iff player).mpr (.inl hleader)] at hnone
        cases hnone
      -- whether or not the leader gives up other invitations, the party stays
      have hready : ∀ w' : Parties Player, Consistent w' → (w'.parties id).leader = some leader →
          w'.party player = none →
          Consistent (((w'.setParties id { w'.parties id with
            memberList := (w'.parties id).memberList ++ [player] }).setParty player (some id))) := by
        intro w' h' hleader' hnone'
        obtain ⟨hiff, honce, hno, -⟩ := h'.agrees id
        have hout := (hiff player).not.mp (by rw [hnone']; exact fun heq => (by cases heq))
        have honce' := honce.concat (not_or.mp hout).2
        rw [List.concat_eq_append] at honce'
        have hjoins : (w'.setParties id { w'.parties id with
              memberList := (w'.parties id).memberList ++ [player] }).setParty player (some id) =
            { w' with
              party := Function.update w'.party player (some id)
              parties := Function.update w'.parties id { w'.parties id with
                leader := some leader, memberList := (w'.parties id).memberList ++ [player] } } := by
          rw [← hleader']
          rfl
        rw [hjoins]
        refine h'.setMembers (h'.alive_of_leader hleader') honce' ?_ (fun p => ?_) fun p id' hid => ?_
        · simp [hno leader hleader', Ne.symm hne]
        · by_cases hp : p = player
          · subst hp
            simp
          · rw [Function.update_of_ne hp, hiff p, hleader']
            simp [hp, @eq_comm _ leader p]
        · by_cases hp : p = player
          · subst hp
            simp [hnone', Ne.symm hid]
          · rw [Function.update_of_ne hp]
      -- the player has no invitation left to lose
      have hforgets : ∀ w' : Parties Player, (w'.clearPartyInvitations ev player).removePartyInvitation player id =
          w'.clearPartyInvitations ev player := by
        intro w'
        simp [Parties.clearPartyInvitations, Parties.removePartyInvitation, Parties.setInvitations]
      rw [hforgets]
      refine Consistent.clearPartyInvitations ?_ hev player
      split
      · obtain ⟨hleader', hnone'⟩ := @Parties.clearPartyInvitations_stays _ _ ev hev w id leader player hne hinvited
          hnone
        exact hready _ (h.clearPartyInvitations hev leader) (hleader'.trans hleader) hnone'
      · exact hready w h hleader hnone

theorem step (h : Consistent w) {call : Call Player} (hev : ∀ id, ev.onDisband id = true) :
    Consistent (w.step (ev, call)) := by
  cases call with
  | create leader =>
    rw [Parties.step]
    split
    · rename_i hnone
      exact h.create hnone
    · exact h
  | invitePlayer id player => exact h.invitePlayer id player
  | joinParty id player =>
    rw [Parties.step]
    split
    · rename_i hmay
      exact h.joinParty hev hmay.1 hmay.2
    · exact h
  | revokeInvitation id player =>
    rw [Parties.step, Parties.revokeInvitation]
    split
    · exact h
    · exact h.removeInvite hev id player
  | removeInvite id player => exact h.removeInvite hev id player
  | passPartyLeadership id player forceRemove => exact h.passPartyLeadership id player forceRemove
  | leaveParty id player forceRemove => exact h.leaveParty hev id player forceRemove
  | disband id => exact h.disband hev id

end Consistent

/-- Whatever the players do, and whatever the callbacks answer but for the one on disbanding, the two sides agree. -/
theorem parties_consistent (calls : List (Events Player × Call Player))
    (hev : ∀ call ∈ calls, ∀ id, call.1.onDisband id = true) :
    Consistent (calls.foldl Parties.step ({} : Parties Player)) := by
  suffices hrun : ∀ w : Parties Player, Consistent w → Consistent (calls.foldl Parties.step w) by
    refine hrun {} ⟨fun id => ?_, fun _ => List.nodup_nil, fun _ _ => rfl⟩
    exact ⟨fun player => by simp, List.nodup_nil, fun _ _ => List.not_mem_nil, fun player => by simp, List.nodup_nil,
      fun hself => (by cases hself), fun _ => rfl⟩
  induction calls with
  | nil => exact fun w h => h
  | cons call calls ih =>
    exact fun w h => ih (fun c hc => hev c (List.mem_cons_of_mem _ hc)) _ (h.step (hev call List.mem_cons_self))

def agreeable : Events Nat := ⟨fun _ => true, fun _ _ => true, fun _ _ => true, fun _ _ => true, fun _ _ => true⟩

/-- A leader leaves two members, of whom the first leads then. -/
theorem parties_consistent_leave :
    Consistent ([(agreeable, .create 1), (agreeable, .invitePlayer 0 2), (agreeable, .joinParty 0 2),
      (agreeable, .invitePlayer 0 3), (agreeable, .joinParty 0 3), (agreeable, .leaveParty 0 1 false)].foldl
        Parties.step ({} : Parties Nat)) := by
  apply parties_consistent
  intro call hcall id
  simp only [List.mem_cons, List.not_mem_nil, or_false] at hcall
  rcases hcall with rfl | rfl | rfl | rfl | rfl | rfl <;> rfl

end ForgottenServer.Social
