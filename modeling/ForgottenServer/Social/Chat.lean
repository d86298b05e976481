import ForgottenServer.Lib.Runs

/-! # Private channels and the channels of parties

A premium player can have a channel of his own and invite others to it. A party has a channel that its members open.
The channels of guilds and of scripts are left out, except that a number that a script has taken is never a private
channel. A player is known by the number of his object, and by the number of his character, which he keeps when he
comes again. -/

namespace ForgottenServer.Chats

def CHANNEL_GUILD : Nat := 0x00
def CHANNEL_PARTY : Nat := 0x01
def CHANNEL_PRIVATE : Nat := 0xFFFF

structure PrivateChatChannel where
  owner : Nat
  users : Finset Nat := ∅
  invites : Finset Nat := ∅

/-- What does not change: the characters of the players, and the channels of scripts. -/
structure Names where
  guid : Nat → Nat
  normal : Nat → Bool

/-- A party is known by its address. -/
structure Chat where
  online : Finset Nat := ∅
  party : Nat → Option Nat := fun _ => none
  privateChannels : Nat → Option PrivateChatChannel := fun _ => none
  partyChannels : Nat → Option (Finset Nat) := fun _ => none

inductive Event where
  /-- A player comes whose character is not there yet. -/
  | login (player : Nat)
  /-- The connection of a player who is there is taken over. -/
  | connect (player : Nat)
  | logout (player : Nat)
  | joinParty (player party : Nat)
  | leaveParty (player : Nat)
  | createPrivateChannel (player : Nat) (premium : Bool)
  | channelInvite (player invited : Nat)
  | channelExclude (player excluded : Nat)
  | requestChannels (player : Nat)
  | openChannel (player channelId : Nat)
  | closeChannel (player channelId : Nat)
  deriving DecidableEq, Repr

namespace PrivateChatChannel

variable (channel : PrivateChatChannel)

def isInvited (guid : Nat) : Bool := guid == channel.owner || guid ∈ channel.invites

theorem isInvited_iff (guid : Nat) : channel.isInvited guid ↔ guid = channel.owner ∨ guid ∈ channel.invites := by
  simp [isInvited]

def removeUser (player : Nat) : PrivateChatChannel := { channel with users := channel.users.erase player }

def invitePlayer (guid : Nat) : PrivateChatChannel := { channel with invites := insert guid channel.invites }

def excludePlayer (player guid : Nat) : PrivateChatChannel :=
  if guid ∈ channel.invites then { channel with invites := channel.invites.erase guid }.removeUser player else channel

theorem excludePlayer_owner (player guid : Nat) : (channel.excludePlayer player guid).owner = channel.owner := by
  unfold excludePlayer
  split <;> rfl

end PrivateChatChannel

namespace Chat

variable (names : Names) (s : Chat)

def setPrivate (id : Nat) (channel : Option PrivateChatChannel) : Chat :=
  { s with privateChannels := Function.update s.privateChannels id channel }

def setPartyChannel (party : Nat) (users : Option (Finset Nat)) : Chat :=
  { s with partyChannels := Function.update s.partyChannels party users }

def setParty (player : Nat) (party : Option Nat) : Chat := { s with party := Function.update s.party player party }

/-- The private channel with a number, where the player may enter it. -/
def getPrivate (player channelId : Nat) : Option PrivateChatChannel :=
  if channelId = CHANNEL_GUILD ∨ channelId = CHANNEL_PARTY ∨ names.normal channelId then none
  else (s.privateChannels channelId).filter fun channel => channel.isInvited (names.guid player)

/-- The numbers that `createChannel` tries. -/
def channelIds : List Nat := List.range' 100 9900

/-- `getPrivateChannel`: the number of the channel that the player owns. -/
def ownChannel (player : Nat) : Option Nat :=
  channelIds.find? fun id => (s.privateChannels id).any fun channel => channel.owner == names.guid player

/-- `createChannel` of a private channel, and the owner enters it. -/
def createPrivateChannel (player : Nat) (premium : Bool) : Chat :=
  if !premium || (s.ownChannel names player).isSome then s
  else
    match channelIds.find? fun id => (s.privateChannels id).isNone with
    | none => s
    | some id => s.setPrivate id (some { owner := names.guid player, users := {player} })

def invite (player invited : Nat) : Chat :=
  match s.ownChannel names player with
  | none => s
  | some id =>
    if player = invited then s
    else s.setPrivate id ((s.privateChannels id).map fun channel => channel.invitePlayer (names.guid invited))

def exclude (player excluded : Nat) : Chat :=
  match s.ownChannel names player with
  | none => s
  | some id =>
    if player = excluded then s
    else s.setPrivate id ((s.privateChannels id).map fun channel => channel.excludePlayer excluded (names.guid excluded))

/-- `getChannelList` makes the channel of the party. -/
def requestChannels (player : Nat) : Chat :=
  match s.party player with
  | none => s
  | some party => if (s.partyChannels party).isSome then s else s.setPartyChannel party (some ∅)

def addUserToChannel (player channelId : Nat) : Chat :=
  if channelId = CHANNEL_PARTY then
    (s.party player).elim s fun party =>
      (s.partyChannels party).elim s fun users => s.setPartyChannel party (some (insert player users))
  else
    (s.getPrivate names player channelId).elim s fun channel =>
      s.setPrivate channelId (some { channel with users := insert player channel.users })

/-- The owner of a channel that is not private is 0. -/
def removeUserFromChannel (player channelId : Nat) : Chat :=
  if channelId = CHANNEL_PARTY then
    (s.party player).elim s fun party =>
      (s.partyChannels party).elim s fun users =>
        if player ∉ users then s
        else if users.erase player = ∅ ∨ names.guid player = 0 then s.setPartyChannel party none
        else s.setPartyChannel party (some (users.erase player))
  else
    (s.getPrivate names player channelId).elim s fun channel =>
      if player ∉ channel.users then s
      else if channel.owner = names.guid player then s.setPrivate channelId none
      else s.setPrivate channelId (some (channel.removeUser player))

/-- What `removeUserFromAllChannels` does to a private channel. -/
def withdraw (player : Nat) (channel : PrivateChatChannel) : Option PrivateChatChannel :=
  if channel.owner = names.guid player then none
  else some ({ channel with invites := channel.invites.erase (names.guid player) }.removeUser player)

def removeUserFromAllChannels (player : Nat) : Chat :=
  { s with
    partyChannels := fun party => (s.partyChannels party).map fun users => users.erase player
    privateChannels := fun id => (s.privateChannels id).bind (withdraw names player) }

/-- `setParty(nullptr)`, and then `sendClosePrivate`. -/
def leaveParty (player : Nat) : Chat := (s.setParty player none).removeUserFromChannel names player CHANNEL_PARTY

/-- Those who hear what a player says in a channel. -/
def talkToChannel (player channelId : Nat) : Finset Nat :=
  let users :=
    if channelId = CHANNEL_PARTY then (s.party player).bind s.partyChannels
    else (s.getPrivate names player channelId).map fun channel => channel.users
  users.elim ∅ fun users => if player ∈ users then users else ∅

/-- A player with this character is there. -/
def present (player : Nat) : Bool := names.guid player ∈ s.online.image names.guid

def step (s : Chat) : Event → Chat
  | .login player => if s.present names player then s else { s with online := insert player s.online }
  | .connect player => if player ∈ s.online then s.removeUserFromAllChannels names player else s
  | .logout player =>
    if player ∈ s.online then
      { (s.leaveParty names player).removeUserFromAllChannels names player with online := s.online.erase player }
    else s
  | .joinParty player party => if player ∈ s.online ∧ s.party player = none then s.setParty player (some party) else s
  | .leaveParty player => s.leaveParty names player
  | .createPrivateChannel player premium =>
    if player ∈ s.online then s.createPrivateChannel names player premium else s
  | .channelInvite player invited =>
    if player ∈ s.online ∧ invited ∈ s.online then s.invite names player invited else s
  | .channelExclude player excluded =>
    if player ∈ s.online ∧ excluded ∈ s.online then s.exclude names player excluded else s
  | .requestChannels player => if player ∈ s.online then s.requestChannels player else s
  | .openChannel player channelId => if player ∈ s.online then s.addUserToChannel names player channelId else s
  | .closeChannel player channelId => if player ∈ s.online then s.removeUserFromChannel names player channelId else s

def run (events : List Event) : Chat := events.foldl (step names) {}

end Chat

/-- Whether `guest` is invited to the channel of `owner` after an event: an invitation stands until the owner takes it
back, or one of the two goes or comes with a new connection. -/
def Event.invited (owner guest : Nat) (before : Bool) : Event → Bool
  | .channelInvite player invited => before || player == owner && invited == guest
  | .channelExclude player excluded => before && !(player == owner && excluded == guest)
  | .logout player | .connect player => before && player != owner && player != guest
  | _ => before

def invited (owner guest : Nat) (events : List Event) : Bool := events.foldl (Event.invited owner guest) false

/-! ## A channel that is kept -/

section Kept

variable (names : Names)

structure Kept (online : Finset Nat) (invited : Nat → Nat → Bool) (owner : Nat) (channel : PrivateChatChannel) :
    Prop where
  owner_online : owner ∈ online
  guid_owner : names.guid owner = channel.owner
  guest : ∀ guid ∈ channel.invites, ∃ guest ∈ online, names.guid guest = guid ∧ guest ≠ owner ∧ invited owner guest
  user : ∀ user ∈ channel.users, user ∈ online ∧ channel.isInvited (names.guid user)

def OneEach (online : Finset Nat) : Prop := ∀ p ∈ online, ∀ q ∈ online, names.guid p = names.guid q → p = q

variable {names} {online online' : Finset Nat} {I J : Nat → Nat → Bool} {owner player : Nat}
  {channel : PrivateChatChannel}

namespace Kept

theorem mono (h : Kept names online I owner channel) (honline : online ⊆ online')
    (hJ : ∀ guest ∈ online, guest ≠ owner → I owner guest → J owner guest) : Kept names online' J owner channel where
  owner_online := honline h.owner_online
  guid_owner := h.guid_owner
  guest guid hguid := by
    obtain ⟨guest, hguest, heq, hne, hI⟩ := h.guest guid hguid
    exact ⟨guest, honline hguest, heq, hne, hJ guest hguest hne hI⟩
  user user huser := ⟨honline (h.user user huser).1, (h.user user huser).2⟩

theorem addUser (h : Kept names online I owner channel) (hplayer : player ∈ online)
    (hinvited : channel.isInvited (names.guid player)) :
    Kept names online I owner { channel with users := insert player channel.users } where
  owner_online := h.owner_online
  guid_owner := h.guid_owner
  guest := h.guest
  user user huser := by
    rcases Finset.mem_insert.mp huser with rfl | hold
    · exact ⟨hplayer, hinvited⟩
    · exact h.user user hold

theorem removeUser (h : Kept names online I owner channel) : Kept names online I owner (channel.removeUser player) where
  owner_online := h.owner_online
  guid_owner := h.guid_owner
  guest := h.guest
  user user huser := h.user user (Finset.mem_of_mem_erase huser)

theorem invitePlayer (h : Kept names online I owner channel) (hplayer : player ∈ online) (hne : player ≠ owner) :
    Kept names online (fun o guest => I o guest || owner == o && player == guest) owner
      (channel.invitePlayer (names.guid player)) where
  owner_online := h.owner_online
  guid_owner := h.guid_owner
  guest guid hguid := by
    rcases Finset.mem_insert.mp hguid with rfl | hold
    · exact ⟨player, hplayer, rfl, hne, by simp⟩
    · obtain ⟨guest, hguest, heq, hne, hI⟩ := h.guest guid hold
      exact ⟨guest, hguest, heq, hne, by simp [hI]⟩
  user user huser := by
    have hin := (h.user user huser).2
    rw [PrivateChatChannel.isInvited_iff] at hin
    exact ⟨(h.user user huser).1, (PrivateChatChannel.isInvited_iff _ _).mpr (hin.imp_right Finset.mem_insert_of_mem)⟩

/-- Who is taken off the list of the invited is taken out of the channel too, and no other player has his character. -/
theorem uninvite (h : Kept names online I owner channel) (hone : OneEach names online) (hplayer : player ∈ online)
    (hne : player ≠ owner) :
    Kept names (online.erase player) (fun o guest => I o guest && player != guest) owner
      ({ channel with invites := channel.invites.erase (names.guid player) }.removeUser player) where
  owner_online := Finset.mem_erase.mpr ⟨hne.symm, h.owner_online⟩
  guid_owner := h.guid_owner
  guest guid hguid := by
    obtain ⟨hother, hold⟩ := Finset.mem_erase.mp hguid
    obtain ⟨guest, hguest, rfl, hne, hI⟩ := h.guest guid hold
    have hguest' : guest ≠ player := fun heq => hother (congrArg names.guid heq)
    exact ⟨guest, Finset.mem_erase.mpr ⟨hguest', hguest⟩, rfl, hne, by simp [hI, hguest'.symm]⟩
  user user huser := by
    obtain ⟨hother, hold⟩ := Finset.mem_erase.mp huser
    obtain ⟨honline, hin⟩ := h.user user hold
    rw [PrivateChatChannel.isInvited_iff] at hin
    have hguid : names.guid user ≠ names.guid player := fun heq => hother (hone user honline player hplayer heq)
    refine ⟨Finset.mem_erase.mpr ⟨hother, honline⟩, (PrivateChatChannel.isInvited_iff _ _).mpr ?_⟩
    exact hin.imp_right fun hmem => Finset.mem_erase.mpr ⟨hguid, hmem⟩

theorem excludePlayer (h : Kept names online I owner channel) (hone : OneEach names online) (hplayer : player ∈ online)
    (hne : player ≠ owner) :
    Kept names online (fun o guest => I o guest && !(owner == o && player == guest)) owner
      (channel.excludePlayer player (names.guid player)) := by
  unfold PrivateChatChannel.excludePlayer
  split
  · refine (h.uninvite hone hplayer hne).mono (Finset.erase_subset _ _) fun guest _ _ hI => ?_
    simp only [Bool.and_eq_true, bne_iff_ne] at hI
    simp [hI.1, hI.2]
  · next hnot =>
    refine ⟨h.owner_online, h.guid_owner, fun guid hguid => ?_, h.user⟩
    obtain ⟨guest, hguest, rfl, hne, hI⟩ := h.guest guid hguid
    have hother : player ≠ guest := fun heq => hnot (heq ▸ hguid)
    exact ⟨guest, hguest, rfl, hne, by simp [hI, hother]⟩

end Kept

end Kept

/-! ## All private channels -/

namespace Chat

variable (names : Names) {s : Chat} {I J : Nat → Nat → Bool}

structure Wf (invited : Nat → Nat → Bool) (s : Chat) : Prop where
  character : OneEach names s.online
  channel : ∀ id channel, s.privateChannels id = some channel →
    id ∈ channelIds ∧ ∃ owner, Kept names s.online invited owner channel
  single : ∀ id id' channel channel', s.privateChannels id = some channel → s.privateChannels id' = some channel' →
    channel.owner = channel'.owner → id = id'

variable {names} {player id : Nat} {channel channel' : PrivateChatChannel}

theorem setPrivate_apply (c : Option PrivateChatChannel) (id' : Nat) :
    (s.setPrivate id c).privateChannels id' = if id' = id then c else s.privateChannels id' :=
  Function.update_apply ..

namespace Wf

/-- Only the number that was set has another channel, and nobody else owns that one. -/
theorem setPrivate (h : Wf names I s) (c : Option PrivateChatChannel)
    (hc : ∀ channel, c = some channel → id ∈ channelIds ∧ (∃ owner, Kept names s.online J owner channel) ∧
      ∀ id' other, id' ≠ id → s.privateChannels id' = some other → other.owner ≠ channel.owner)
    (hJ : ∀ id' other owner, id' ≠ id → s.privateChannels id' = some other → Kept names s.online I owner other →
      Kept names s.online J owner other) : Wf names J (s.setPrivate id c) where
  character := h.character
  channel id' other hother := by
    rw [setPrivate_apply] at hother
    split at hother
    · next heq =>
      subst heq
      exact ⟨(hc other hother).1, (hc other hother).2.1⟩
    · next hne =>
      obtain ⟨hid, owner, hkept⟩ := h.channel id' other hother
      exact ⟨hid, owner, hJ id' other owner hne hother hkept⟩
  single id₁ id₂ channel₁ channel₂ h₁ h₂ howner := by
    rw [setPrivate_apply] at h₁ h₂
    split at h₁ <;> split at h₂
    · next heq₁ heq₂ => rw [heq₁, heq₂]
    · next heq hne => exact absurd howner.symm ((hc channel₁ h₁).2.2 id₂ channel₂ hne h₂)
    · next hne heq => exact absurd howner ((hc channel₂ h₂).2.2 id₁ channel₁ hne h₁)
    · exact h.single id₁ id₂ channel₁ channel₂ h₁ h₂ howner

/-- A channel changes and keeps its owner. -/
theorem change (h : Wf names I s) (hold : s.privateChannels id = some channel) (howner : channel'.owner = channel.owner)
    (hkept : ∀ owner, Kept names s.online I owner channel → Kept names s.online J owner channel')
    (hJ : ∀ id' other owner, id' ≠ id → s.privateChannels id' = some other → Kept names s.online I owner other →
      Kept names s.online J owner other) : Wf names J (s.setPrivate id (some channel')) := by
  refine h.setPrivate _ ?_ hJ
  intro _ heq
  obtain rfl := Option.some.inj heq
  obtain ⟨hid, owner, hchannel⟩ := h.channel id channel hold
  refine ⟨hid, ⟨owner, hkept owner hchannel⟩, fun id' other hne hother heq => ?_⟩
  exact hne (h.single id' id other channel hother hold (heq.trans howner))

theorem setPrivate_none (h : Wf names I s) : Wf names I (s.setPrivate id none) :=
  h.setPrivate none (fun _ heq => by cases heq) fun _ _ _ _ _ hkept => hkept

theorem congr {s' : Chat} (h : Wf names I s) (honline : s'.online = s.online)
    (hprivate : s'.privateChannels = s.privateChannels) : Wf names I s' where
  character := honline ▸ h.character
  channel := by
    rw [hprivate, honline]
    exact h.channel
  single := by
    rw [hprivate]
    exact h.single

end Wf

theorem getPrivate_eq_some {channelId : Nat} (h : s.getPrivate names player channelId = some channel) :
    s.privateChannels channelId = some channel ∧ channel.isInvited (names.guid player) := by
  unfold getPrivate at h
  split at h
  · cases h
  · exact Option.filter_eq_some_iff.mp h

theorem withdraw_eq_some (h : withdraw names player channel = some channel') : channel.owner ≠ names.guid player ∧
    channel' = { channel with invites := channel.invites.erase (names.guid player) }.removeUser player := by
  unfold withdraw at h
  split at h
  · cases h
  · next hne => exact ⟨hne, (Option.some.inj h).symm⟩

theorem ownChannel_eq_some (h : s.ownChannel names player = some id) :
    ∃ channel, s.privateChannels id = some channel ∧ channel.owner = names.guid player := by
  simpa [Option.any_eq_true] using List.find?_some h

theorem Wf.ownChannel_eq_some_iff (h : Wf names I s) : s.ownChannel names player = some id ↔
    ∃ channel, s.privateChannels id = some channel ∧ channel.owner = names.guid player := by
  refine ⟨ownChannel_eq_some, ?_⟩
  rintro ⟨channel, hchannel, howner⟩
  cases hown : s.ownChannel names player with
  | none =>
    have hnone := List.find?_eq_none.mp hown id (h.channel id channel hchannel).1
    simp [hchannel, howner] at hnone
  | some id' =>
    obtain ⟨channel', hchannel', howner'⟩ := ownChannel_eq_some hown
    rw [h.single id' id channel' channel hchannel' hchannel (howner'.trans howner.symm)]

theorem leaveParty_eq : s.leaveParty names player = s.setParty player none := by
  simp [leaveParty, removeUserFromChannel, setParty]

namespace Wf

variable (h : Wf names I s)
include h

theorem idle (hJ : ∀ owner ∈ s.online, ∀ guest ∈ s.online, I owner guest → J owner guest) : Wf names J s where
  character := h.character
  channel id channel hchannel := by
    obtain ⟨hid, owner, hkept⟩ := h.channel id channel hchannel
    exact ⟨hid, owner, hkept.mono subset_rfl fun guest hguest _ => hJ owner hkept.owner_online guest hguest⟩
  single := h.single

theorem create (hplayer : player ∈ s.online) (premium : Bool) :
    Wf names I (s.createPrivateChannel names player premium) := by
  unfold createPrivateChannel
  split
  · exact h
  · next hguard =>
    have hnone : s.ownChannel names player = none := by
      cases hown : s.ownChannel names player with
      | none => rfl
      | some id => simp [hown] at hguard
    split
    · exact h
    · next id hid =>
      refine h.setPrivate _ (fun channel heq => ?_) fun _ _ _ _ _ hkept => hkept
      obtain rfl := Option.some.inj heq
      refine ⟨List.mem_of_find?_eq_some hid, ⟨player, ?_⟩, fun id' other _ hother howner => ?_⟩
      · exact ⟨hplayer, rfl, by simp, by simp [hplayer, PrivateChatChannel.isInvited_iff]⟩
      · rw [h.ownChannel_eq_some_iff.mpr ⟨other, hother, howner⟩] at hnone
        cases hnone

theorem invite {guest : Nat} (hplayer : player ∈ s.online) (hguest : guest ∈ s.online) :
    Wf names (fun o g => I o g || player == o && guest == g) (s.invite names player guest) := by
  have hmono : ∀ owner channel, Kept names s.online I owner channel →
      Kept names s.online (fun o g => I o g || player == o && guest == g) owner channel :=
    fun owner channel hkept => hkept.mono subset_rfl fun g _ _ hI => by simp [hI]
  have hsame : Wf names (fun o g => I o g || player == o && guest == g) s := h.idle fun o _ g _ hI => by simp [hI]
  unfold Chat.invite
  split
  · exact hsame
  · next id hid =>
    split
    · exact hsame
    · next hne =>
      obtain ⟨channel, hchannel, howner⟩ := ownChannel_eq_some hid
      rw [hchannel]
      refine h.change hchannel rfl (fun owner hkept => ?_) fun _ other owner _ _ hkept => hmono owner other hkept
      obtain rfl : player = owner :=
        h.character player hplayer owner hkept.owner_online (howner.symm.trans hkept.guid_owner.symm)
      exact hkept.invitePlayer hguest fun heq => hne heq.symm

theorem exclude {guest : Nat} (hplayer : player ∈ s.online) (hguest : guest ∈ s.online) :
    Wf names (fun o g => I o g && !(player == o && guest == g)) (s.exclude names player guest) := by
  have hother : ∀ owner channel, owner ≠ player → Kept names s.online I owner channel →
      Kept names s.online (fun o g => I o g && !(player == o && guest == g)) owner channel := by
    intro owner channel hne hkept
    exact hkept.mono subset_rfl fun g _ _ hI => by simp [hI, hne.symm]
  unfold Chat.exclude
  split
  · next hnone =>
    refine ⟨h.character, fun id channel hchannel => ?_, h.single⟩
    obtain ⟨hid, owner, hkept⟩ := h.channel id channel hchannel
    refine ⟨hid, owner, hother owner channel (fun heq => ?_) hkept⟩
    rw [h.ownChannel_eq_some_iff.mpr ⟨channel, hchannel, heq ▸ hkept.guid_owner.symm⟩] at hnone
    cases hnone
  · next id hid =>
    obtain ⟨channel, hchannel, howner⟩ := ownChannel_eq_some hid
    split
    · next heq =>
      subst heq
      refine ⟨h.character, fun id' channel' hchannel' => ?_, h.single⟩
      obtain ⟨hid', owner, hkept⟩ := h.channel id' channel' hchannel'
      refine ⟨hid', owner, hkept.mono subset_rfl fun g _ hg hI => ?_⟩
      by_cases howner : player = owner
      · simp [hI, howner, hg.symm]
      · simp [hI, howner]
    · next hne =>
      rw [hchannel]
      refine h.change hchannel ?_ (fun owner hkept => ?_) fun id' other owner hid' hchannel' hkept => ?_
      · exact channel.excludePlayer_owner guest (names.guid guest)
      · obtain rfl : player = owner :=
          h.character player hplayer owner hkept.owner_online (howner.symm.trans hkept.guid_owner.symm)
        exact hkept.excludePlayer h.character hguest fun heq => hne heq.symm
      · refine hother owner other (fun heq => hid' ?_) hkept
        exact h.single id' id other channel hchannel' hchannel (hkept.guid_owner.symm.trans (heq ▸ howner.symm))

/-- The player may go with that, or stay. -/
theorem removeUserFromAllChannels (hplayer : player ∈ s.online) {online : Finset Nat} (hsub : online ⊆ s.online)
    (hkeep : s.online.erase player ⊆ online) :
    Wf names (fun o g => I o g && player != o && player != g)
      { s.removeUserFromAllChannels names player with online := online } where
  character p hp q hq := h.character p (hsub hp) q (hsub hq)
  channel id channel' hchannel' := by
    obtain ⟨channel, hchannel, hwithdraw⟩ := Option.bind_eq_some_iff.mp hchannel'
    obtain ⟨hid, owner, hkept⟩ := h.channel id channel hchannel
    obtain ⟨hnot, rfl⟩ := withdraw_eq_some hwithdraw
    have hne : player ≠ owner := fun heq => hnot (heq ▸ hkept.guid_owner.symm)
    refine ⟨hid, owner, (hkept.uninvite h.character hplayer hne).mono hkeep fun guest _ _ hI => ?_⟩
    simp only [Bool.and_eq_true, bne_iff_ne] at hI
    simp [hI.1, hI.2, hne]
  single id₁ id₂ channel₁ channel₂ h₁ h₂ howner := by
    obtain ⟨old₁, hold₁, hwithdraw₁⟩ := Option.bind_eq_some_iff.mp h₁
    obtain ⟨old₂, hold₂, hwithdraw₂⟩ := Option.bind_eq_some_iff.mp h₂
    obtain ⟨_, rfl⟩ := withdraw_eq_some hwithdraw₁
    obtain ⟨_, rfl⟩ := withdraw_eq_some hwithdraw₂
    exact h.single id₁ id₂ old₁ old₂ hold₁ hold₂ howner

theorem addUserToChannel (hplayer : player ∈ s.online) (channelId : Nat) :
    Wf names I (s.addUserToChannel names player channelId) := by
  unfold Chat.addUserToChannel
  split
  · cases s.party player with
    | none => exact h
    | some party =>
      cases husers : s.partyChannels party with
      | none => simpa [husers] using h
      | some users =>
        have hopened : Wf names I (s.setPartyChannel party (some (insert player users))) := h.congr rfl rfl
        simpa [husers] using hopened
  · cases hchannel : s.getPrivate names player channelId with
    | none => exact h
    | some channel =>
      obtain ⟨hchannel, hinvited⟩ := getPrivate_eq_some hchannel
      exact h.change hchannel rfl (fun _ hkept => hkept.addUser hplayer hinvited) fun _ _ _ _ _ hkept => hkept

theorem removeUserFromChannel (channelId : Nat) : Wf names I (s.removeUserFromChannel names player channelId) := by
  unfold Chat.removeUserFromChannel
  split
  · cases s.party player with
    | none => exact h
    | some party =>
      cases husers : s.partyChannels party with
      | none => simpa [husers] using h
      | some users =>
        simp only [Option.elim_some, husers]
        split
        · exact h
        · split
          · exact h.congr rfl rfl
          · exact h.congr rfl rfl
  · cases hchannel : s.getPrivate names player channelId with
    | none => exact h
    | some channel =>
      obtain ⟨hchannel, hinvited⟩ := getPrivate_eq_some hchannel
      simp only [Option.elim_some]
      split
      · exact h
      · split
        · exact h.setPrivate_none
        · exact h.change hchannel rfl (fun _ hkept => hkept.removeUser) fun _ _ _ _ _ hkept => hkept

theorem requestChannels : Wf names I (s.requestChannels player) := by
  unfold Chat.requestChannels
  split
  · exact h
  · split
    · exact h
    · exact h.congr rfl rfl

theorem login : Wf names I (s.step names (.login player)) := by
  simp only [Chat.step]
  split
  · exact h
  · next habsent =>
    simp only [present, Finset.mem_image, decide_eq_true_eq, not_exists, not_and] at habsent
    refine ⟨fun p hp q hq heq => ?_, fun id channel hchannel => ?_, h.single⟩
    · rcases Finset.mem_insert.mp hp with rfl | hold <;> rcases Finset.mem_insert.mp hq with rfl | hold'
      · rfl
      · exact absurd heq.symm (habsent q hold')
      · exact absurd heq (habsent p hold)
      · exact h.character p hold q hold' heq
    · obtain ⟨hid, owner, hkept⟩ := h.channel id channel hchannel
      exact ⟨hid, owner, hkept.mono (Finset.subset_insert _ _) fun _ _ _ hI => hI⟩

/-- An event that has no effect says nothing about the players who are there. -/
theorem step (e : Event) : Wf names (fun owner guest => e.invited owner guest (I owner guest)) (s.step names e) := by
  cases e with
  | login player => exact h.login
  | connect player =>
    simp only [Chat.step]
    split
    · next hplayer => exact h.removeUserFromAllChannels hplayer subset_rfl (Finset.erase_subset _ _)
    · next hnot => exact h.idle fun o ho g hg hI => by grind [Event.invited]
  | logout player =>
    simp only [Chat.step]
    split
    · next hplayer =>
      rw [leaveParty_eq]
      have hleft : Wf names I (s.setParty player none) := h.congr rfl rfl
      exact hleft.removeUserFromAllChannels hplayer (Finset.erase_subset _ _) subset_rfl
    · next hnot => exact h.idle fun o ho g hg hI => by grind [Event.invited]
  | joinParty player party =>
    simp only [Chat.step]
    split
    · exact h.congr rfl rfl
    · exact h
  | leaveParty player =>
    simp only [Chat.step]
    rw [leaveParty_eq]
    exact h.congr rfl rfl
  | createPrivateChannel player premium =>
    simp only [Chat.step]
    split
    · next hplayer => exact h.create hplayer premium
    · exact h
  | channelInvite player guest =>
    simp only [Chat.step]
    split
    · next hboth => exact h.invite hboth.1 hboth.2
    · exact h.idle fun o _ g _ hI => by grind [Event.invited]
  | channelExclude player guest =>
    simp only [Chat.step]
    split
    · next hboth => exact h.exclude hboth.1 hboth.2
    · next hnot => exact h.idle fun o ho g hg hI => by grind [Event.invited]
  | requestChannels player =>
    simp only [Chat.step]
    split
    · exact h.requestChannels
    · exact h
  | openChannel player channelId =>
    simp only [Chat.step]
    split
    · next hplayer => exact h.addUserToChannel hplayer channelId
    · exact h
  | closeChannel player channelId =>
    simp only [Chat.step]
    split
    · exact h.removeUserFromChannel channelId
    · exact h

end Wf

theorem run_append (events : List Event) (e : Event) : run names (events ++ [e]) = (run names events).step names e :=
  List.foldl_append

theorem run_wf (names : Names) (events : List Event) :
    Wf names (fun owner guest => invited owner guest events) (run names events) := by
  induction events using List.reverseRecOn with
  | nil =>
    constructor
    · simp [OneEach, run]
    · intro id channel hchannel
      cases hchannel
    · intro id id' channel channel' hchannel
      cases hchannel
  | append_singleton events e ih =>
    rw [run_append]
    simpa only [invited, List.foldl_append, List.foldl_cons, List.foldl_nil] using ih.step e

/-- Who hears a player, or speaks, in a private channel is there, and is its owner or has an invitation that stands. -/
theorem run_talkToChannel (names : Names) (events : List Event) (player channelId hearer : Nat)
    (hchannel : channelId ≠ CHANNEL_PARTY) (hhears : hearer ∈ (run names events).talkToChannel names player channelId) :
    ∃ owner ∈ (run names events).online, (run names events).ownChannel names owner = some channelId ∧
      ∀ person ∈ [player, hearer], person ∈ (run names events).online ∧
        (person = owner ∨ invited owner person events) := by
  have hwf := run_wf names events
  simp only [talkToChannel, if_neg hchannel] at hhears
  cases hget : (run names events).getPrivate names player channelId with
  | none => simp [hget] at hhears
  | some channel =>
    obtain ⟨hsome, -⟩ := getPrivate_eq_some hget
    obtain ⟨-, owner, hkept⟩ := hwf.channel channelId channel hsome
    simp only [hget, Option.map_some, Option.elim_some] at hhears
    split at hhears
    · next hplayer =>
      refine ⟨owner, hkept.owner_online, hwf.ownChannel_eq_some_iff.mpr ⟨channel, hsome, hkept.guid_owner.symm⟩, ?_⟩
      intro person hperson
      have huser : person ∈ channel.users := by
        rcases List.mem_pair.mp hperson with rfl | rfl
        · exact hplayer
        · exact hhears
      obtain ⟨honline, hin⟩ := hkept.user person huser
      refine ⟨honline, ?_⟩
      rcases (channel.isInvited_iff _).mp hin with hown | hguest
      · exact Or.inl (hwf.character person honline owner hkept.owner_online (hown.trans hkept.guid_owner.symm))
      · obtain ⟨guest, hguest, heq, -, hI⟩ := hkept.guest _ hguest
        rw [hwf.character person honline guest hguest heq.symm]
        exact Or.inr hI
    · simp at hhears

/-- Two players with their own characters. -/
def twoPlayers : Names := ⟨fun player => player + 1, fun _ => false⟩

/-- The second player is a guest in the channel of the first. -/
def guestInvited : List Event :=
  [.login 1, .login 2, .createPrivateChannel 1 true, .channelInvite 1 2, .openChannel 2 100]

theorem run_talkToChannel_guest : ∃ owner ∈ (run twoPlayers guestInvited).online,
    (run twoPlayers guestInvited).ownChannel twoPlayers owner = some 100 ∧
      ∀ person ∈ [1, 2], person ∈ (run twoPlayers guestInvited).online ∧
        (person = owner ∨ invited owner person guestInvited) :=
  run_talkToChannel twoPlayers guestInvited 1 100 2 (by decide) (by decide +kernel)

/-! ## The channel of a party -/

/-- The player is in the channel that a party has. -/
def Listens (player party : Nat) (s : Chat) : Prop := ∃ users, s.partyChannels party = some users ∧ player ∈ users

/-- The player neither goes nor comes with a new connection, nor closes the channel while he is in the party. -/
def Stays (player party : Nat) (s : Chat) (e : Event) : Prop :=
  e ≠ .logout player ∧ e ≠ .connect player ∧ (e = .closeChannel player CHANNEL_PARTY → s.party player ≠ some party)

theorem partyChannels_create (premium : Bool) :
    (s.createPrivateChannel names player premium).partyChannels = s.partyChannels := by
  unfold createPrivateChannel
  split
  · rfl
  · split <;> rfl

theorem partyChannels_invite (guest : Nat) : (s.invite names player guest).partyChannels = s.partyChannels := by
  unfold invite
  split
  · rfl
  · split <;> rfl

theorem partyChannels_exclude (guest : Nat) : (s.exclude names player guest).partyChannels = s.partyChannels := by
  unfold exclude
  split
  · rfl
  · split <;> rfl

theorem setPartyChannel_apply (party : Nat) (users : Option (Finset Nat)) (party' : Nat) :
    (s.setPartyChannel party users).partyChannels party' = if party' = party then users else s.partyChannels party' :=
  Function.update_apply ..

namespace Listens

variable {party other : Nat} (h : Listens player party s)
include h

theorem congr {s' : Chat} (hsame : s'.partyChannels = s.partyChannels) : Listens player party s' := by
  unfold Listens
  rw [hsame]
  exact h

theorem removeUserFromAllChannels (hne : other ≠ player) :
    Listens player party (s.removeUserFromAllChannels names other) := by
  obtain ⟨users, husers, hmem⟩ := h
  exact ⟨users.erase other, by simp [Chat.removeUserFromAllChannels, husers], Finset.mem_erase.mpr ⟨hne.symm, hmem⟩⟩

theorem setPartyChannel {users : Finset Nat} {party' : Nat} (hkeep : party' = party → player ∈ users) :
    Listens player party (s.setPartyChannel party' (some users)) := by
  obtain ⟨old, hold, hmem⟩ := h
  by_cases heq : party = party'
  · exact ⟨users, by rw [setPartyChannel_apply, if_pos heq], hkeep heq.symm⟩
  · exact ⟨old, by rw [setPartyChannel_apply, if_neg heq, hold], hmem⟩

theorem addUserToChannel (channelId : Nat) : Listens player party (s.addUserToChannel names other channelId) := by
  unfold Chat.addUserToChannel
  split
  · cases s.party other with
    | none => exact h
    | some party' =>
      simp only [Option.elim_some]
      cases husers : s.partyChannels party' with
      | none => exact h
      | some users =>
        refine h.setPartyChannel fun heq => ?_
        obtain ⟨old, hold, hmem⟩ := h
        rw [heq, hold] at husers
        exact Option.some.inj husers ▸ Finset.mem_insert_of_mem hmem
  · cases s.getPrivate names other channelId <;> exact h

theorem requestChannels : Listens player party (s.requestChannels other) := by
  unfold Chat.requestChannels
  split
  · exact h
  · next party' _ =>
    split
    · exact h
    · next hnone =>
      refine h.setPartyChannel fun heq => ?_
      obtain ⟨old, hold, _⟩ := h
      simp [heq, hold] at hnone

/-- The player who listens keeps the channel from being empty, and nobody owns it. -/
theorem removeUserFromChannel (hguid : names.guid other ≠ 0) {channelId : Nat}
    (hstays : other = player → channelId = CHANNEL_PARTY → s.party other ≠ some party) :
    Listens player party (s.removeUserFromChannel names other channelId) := by
  unfold Chat.removeUserFromChannel
  split
  · next hchannel =>
    cases hparty : s.party other with
    | none => exact h
    | some party' =>
      simp only [Option.elim_some]
      cases husers : s.partyChannels party' with
      | none => exact h
      | some users =>
        simp only [Option.elim_some]
        have hkeep : party' = party → player ∈ users.erase other := by
          rintro rfl
          obtain ⟨old, hold, hmem⟩ := h
          obtain rfl := Option.some.inj (husers.symm.trans hold)
          exact Finset.mem_erase.mpr ⟨fun heq => hstays heq.symm hchannel hparty, hmem⟩
        split
        · exact h
        · split
          · next hempty =>
            have hne : party ≠ party' := by
              rintro rfl
              simp [hempty.resolve_right hguid] at hkeep
            obtain ⟨old, hold, hmem⟩ := h
            exact ⟨old, by rw [setPartyChannel_apply, if_neg hne, hold], hmem⟩
          · exact h.setPartyChannel hkeep
  · cases s.getPrivate names other channelId with
    | none => exact h
    | some channel =>
      simp only [Option.elim_some]
      split
      · exact h
      · split <;> exact h

theorem step (hguid : ∀ player, names.guid player ≠ 0) {e : Event} (hstays : Stays player party s e) :
    Listens player party (s.step names e) := by
  obtain ⟨hlogout, hconnect, hclose⟩ := hstays
  cases e with
  | login other =>
    simp only [Chat.step]
    split <;> exact h
  | connect other =>
    simp only [Chat.step]
    split
    · exact h.removeUserFromAllChannels fun heq => hconnect (congrArg _ heq)
    · exact h
  | logout other =>
    simp only [Chat.step, leaveParty_eq]
    split
    · have hleft : Listens player party (s.setParty other none) := h
      exact (hleft.removeUserFromAllChannels fun heq => hlogout (congrArg _ heq) :
        Listens player party ((s.setParty other none).removeUserFromAllChannels names other))
    · exact h
  | joinParty other party' =>
    simp only [Chat.step]
    split <;> exact h
  | leaveParty other =>
    simp only [Chat.step, leaveParty_eq]
    exact h
  | createPrivateChannel other premium =>
    simp only [Chat.step]
    split
    · exact h.congr (partyChannels_create premium)
    · exact h
  | channelInvite other guest =>
    simp only [Chat.step]
    split
    · exact h.congr (partyChannels_invite guest)
    · exact h
  | channelExclude other guest =>
    simp only [Chat.step]
    split
    · exact h.congr (partyChannels_exclude guest)
    · exact h
  | requestChannels other =>
    simp only [Chat.step]
    split
    · exact h.requestChannels
    · exact h
  | openChannel other channelId =>
    simp only [Chat.step]
    split
    · exact h.addUserToChannel channelId
    · exact h
  | closeChannel other channelId =>
    simp only [Chat.step]
    split
    · refine h.removeUserFromChannel (hguid other) ?_
      rintro rfl rfl
      exact hclose rfl
    · exact h

end Listens

/-- Who leaves a party goes on hearing what is said in its channel: `setParty(nullptr)` comes before `sendClosePrivate`,
and the channel to take him out of is then not found. -/
theorem run_leaveParty_hears (names : Names) (hguid : ∀ player, names.guid player ≠ 0) (before after : List Event)
    (player party : Nat) (hlistens : Listens player party (run names before))
    (hstays : Runs.Along (step names) (Stays player party) (run names (before ++ [.leaveParty player])) after)
    (member : Nat) (hmember : (run names (before ++ .leaveParty player :: after)).party member = some party)
    (hopen : Listens member party (run names (before ++ .leaveParty player :: after))) :
    player ∈ (run names (before ++ .leaveParty player :: after)).talkToChannel names member CHANNEL_PARTY := by
  have hstart : Listens player party (run names (before ++ [.leaveParty player])) := by
    rw [run_append]
    simp only [step, leaveParty_eq]
    exact hlistens
  have hend : Listens player party (run names (before ++ .leaveParty player :: after)) := by
    have hrun := (Runs.Along.of_invariant (P := fun _ _ => True) (Listens player party)
      (fun s e hs hok => ⟨hs.step hguid hok, trivial⟩) after _ hstart hstays).2
    simpa only [run, List.foldl_append, List.foldl_cons, List.foldl_nil] using hrun
  obtain ⟨users, husers, hmem⟩ := hend
  obtain ⟨_, husers', hmem'⟩ := hopen
  obtain rfl := Option.some.inj (husers.symm.trans husers')
  simp [talkToChannel, hmember, husers, hmem', hmem]

/-- Two players are in a party and in its channel. -/
def partyTalks : List Event :=
  [.login 1, .login 2, .joinParty 1 7, .joinParty 2 7, .requestChannels 1, .openChannel 1 1, .openChannel 2 1]

theorem run_leaveParty_hears_two :
    2 ∈ (run twoPlayers (partyTalks ++ [.leaveParty 2, .closeChannel 2 1])).talkToChannel twoPlayers 1 CHANNEL_PARTY :=
  run_leaveParty_hears twoPlayers (fun player => Nat.succ_ne_zero player) partyTalks [.closeChannel 2 1] 2 7
    ⟨{1, 2}, by decide +kernel, by decide⟩ ⟨⟨by decide, by decide, fun _ => by decide +kernel⟩, trivial⟩ 1
    (by decide +kernel) ⟨{1, 2}, by decide +kernel, by decide⟩

end Chat

end ForgottenServer.Chats
