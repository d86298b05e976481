import ForgottenServer.Save.Recovery

/-! # Credits of players who are not online

`Market::creditBank`, `Market::insertInboxItems` and `IOLoginData::increaseBankBalance` change the rows of a
player in the database. The queries of a snapshot write the balance and the whole inbox as they were when it
was built (`savePlayer`). `World` is the server with these rows. -/

namespace ForgottenServer.Save

/-- A row of `player_inboxitems`. -/
structure InboxRow where
  sid : Nat
  pid : Int
  itemtype : UInt16
  count : Nat
  attributes : List UInt8
  deriving DecidableEq

/-- The column `balance` and the inbox of a player. -/
structure Account where
  balance : Nat
  inbox : List InboxRow
  deriving DecidableEq

/-- What `insertInboxItems` reads of an item type. -/
structure InboxType where
  id : UInt16
  stackable : Bool
  stackSize : Nat

namespace Account

def addBalance (amount : Nat) (account : Account) : Account := { account with balance := account.balance + amount }

/-- `COALESCE(MAX(`sid`), 100)` -/
def maxSid (account : Account) : Nat :=
  match account.inbox.map (·.sid) with
  | [] => 100
  | sid :: sids => sids.foldl max sid

/-- The rows of a loop that takes a stack off the amount in each turn. -/
def stackRows (itemId : UInt16) (attributes : List UInt8) (stackSize : Nat) : Nat → Nat → Nat → List InboxRow
  | 0, _, _ => []
  | fuel + 1, sid, remaining =>
    if remaining = 0 then []
    else ⟨sid, 0, itemId, min remaining stackSize, attributes⟩ ::
      stackRows itemId attributes stackSize fuel (sid + 1) (remaining - min remaining stackSize)

/-- The rows that `insertInboxItems` adds, if it adds any. -/
def newRows (account : Account) (itemType : InboxType) (amount : Nat) (attributes : List UInt8) :
    Option (List InboxRow) :=
  let sid := account.maxSid + 1
  let stackSize := if itemType.stackable then max 1 itemType.stackSize else 1
  let rowCount := if attributes = [] then 1 + (amount - 1) / stackSize else 1
  if itemType.id = 0 ∨ amount = 0 ∨ (attributes ≠ [] ∧ amount ≠ 1) ∨ 2 ^ 32 - 1 < sid + rowCount then none
  else some (stackRows itemType.id attributes stackSize amount sid amount)

def addRows (rows : List InboxRow) (account : Account) : Account := { account with inbox := account.inbox ++ rows }

end Account

/-- A change of the rows of a player. -/
inductive Credit where
  | creditBank (amount : Nat)
  | increaseBankBalance (amount : Nat)
  | insertInboxItems (itemType : InboxType) (amount : Nat) (attributes : List UInt8)

/-- The change that a credit makes, if it makes one. A balance that does not fit its column is an error. -/
def Credit.change (guid : Guid) (account : Account) : Credit → Option (Account → Account)
  | .creditBank amount =>
    if amount = 0 then some id
    else if guid = 0 ∨ 2 ^ 64 ≤ account.balance + amount then none
    else some (Account.addBalance amount)
  | .increaseBankBalance amount => if 2 ^ 64 ≤ account.balance + amount then none else some (Account.addBalance amount)
  | .insertInboxItems itemType amount attributes =>
    if guid = 0 then none else (account.newRows itemType amount attributes).map Account.addRows

/-! ## The server with the rows

`last` and `owed` are not data of the program: the number of the last snapshot that was built of a player, and
what it writes, with all credits since. A player gets no credit this way while being online, so `owed` is what
the player had at logout and all credits since. -/

structure World where
  server : State := {}
  accounts : Guid → Account
  contents : Nat → Account := fun _ => ⟨0, []⟩
  last : Guid → Nat := fun _ => 0
  owed : Guid → Account

/-- A new server with a database. -/
def World.start (accounts : Guid → Account) : World := { accounts, owed := accounts }

/-- Snapshots are committed one after another. -/
def writeAccounts (contents : Nat → Account) (commits : List (Guid × PlayerSaveSnapshot)) (accounts : Guid → Account) :
    Guid → Account :=
  commits.foldl (fun accounts c => Function.update accounts c.1 (contents c.2.builtAt)) accounts

/-- `account`: the balance and the inbox in the queries of the snapshot, if the event builds one.
`ok`: whether the statements of a credit were executed. -/
inductive WorldEvent where
  | save (e : Event) (account : Account)
  | credit (guid : Guid) (credit : Credit) (ok : Bool)

namespace World

/-- A snapshot is built. -/
def note (w : World) (account : Account) : Option (Guid × PlayerSaveSnapshot) → World
  | none => w
  | some (guid, save) =>
    { w with
      contents := Function.update w.contents save.builtAt account
      last := Function.update w.last guid save.builtAt
      owed := Function.update w.owed guid account }

def creditAll (w : World) (guid : Guid) (change : Account → Account) : World :=
  { w with
    accounts := Function.update w.accounts guid (change (w.accounts guid))
    owed := Function.update w.owed guid (change (w.owed guid)) }

def step (w : World) : WorldEvent → World
  | .save e account =>
    let w' := w.note account (builds w.server e)
    { w' with
      server := Save.step w.server e
      accounts := writeAccounts w'.contents (commits w.server e) w.accounts }
  | .credit guid credit ok =>
    match credit.change guid (w.accounts guid) with
    | some change => if ok then w.creditAll guid change else w
    | none => w

/-- The balance and the inbox with which a player is loaded. -/
def loadPlayer (w : World) (guid : Guid) : Account := w.accounts guid

end World

/-! ## What is owed to one player -/

/-- Nothing of the player is still to be written. -/
def Line.Quiet (l : Line) : Prop := l.inFlight = false ∧ l.pending = none

/-- Rows that come from the last snapshot are what is owed. As long as something is still to be written, no
credit was made since. -/
structure Owes (clock : Nat) (contents : Nat → Account) (last : Nat) (owed account : Account) (l : Line) : Prop where
  recorded : ∀ t ∈ l.recorded, t.builtAt ≤ last
  waiting : ∀ p, l.waiting = some p → p.builtAt ≤ last
  same : ∀ r, l.rows = some r → r.builtAt = last → account = owed
  moving : ¬ l.Quiet → last < clock ∧ owed = contents last

/-- What the rows are after some snapshots. -/
def written (contents : Nat → Account) (cs : List PlayerSaveSnapshot) (account : Account) : Account :=
  cs.foldl (fun _ save => contents save.builtAt) account

namespace Owes

variable {clock : Nat} {contents : Nat → Account} {last : Nat} {owed account : Account} {l l' : Line}
  {cs : List PlayerSaveSnapshot} {save : PlayerSaveSnapshot}

/-- Recording a snapshot that is not newer than the last. -/
theorem append (h : Owes clock contents last owed account l) (hsave : save.builtAt ≤ last) {t : PlayerSaveSnapshot}
    (ht : t ∈ l.recorded ++ [save]) : t.builtAt ≤ last := by
  rcases List.mem_append.mp ht with ht | ht
  · exact h.recorded t ht
  · rw [List.mem_singleton.mp ht]
    exact hsave

/-- A move without a new snapshot. -/
theorem move_old (h : Owes clock contents last owed account l) (hinv : LineInv clock l)
    (hmove : LineMove l none cs l') : Owes clock contents last owed (written contents cs account) l' := by
  cases hmove with
  | stay => exact h
  | land save success hone =>
    have hfly : l.inFlight = true := hinv.inFlight_of_mem (hone ▸ List.mem_singleton_self _)
    have hmoving := h.moving fun hquiet => absurd (hfly.symm.trans hquiet.1) (by simp)
    obtain ⟨f, _, hflights, hrec, _⟩ := hinv.flying hfly
    obtain rfl : f = ⟨save, none⟩ := by simpa using hflights.symm.trans hone
    cases success with
    | false => exact ⟨h.recorded, h.waiting, h.same, fun _ => hmoving⟩
    | true =>
      refine ⟨fun t ht => h.append (h.recorded save hrec) ht, h.waiting, ?_, fun _ => hmoving⟩
      rintro r ⟨⟩ hlast
      rw [hmoving.2, ← hlast]
      rfl
  | finish save success deleted hone hnone =>
    have hfly : l.inFlight = true := hinv.inFlight_of_mem (hone ▸ List.mem_singleton_self _)
    have hmoving := h.moving fun hquiet => absurd (hfly.symm.trans hquiet.1) (by simp)
    rw [Line.delete]
    split <;> exact ⟨h.recorded, h.waiting, h.same, fun _ => hmoving⟩
  | next f save ok hone hwaiting =>
    have hfly : l.inFlight = true := hinv.inFlight_of_mem (hone ▸ List.mem_singleton_self _)
    have hmoving := h.moving fun hquiet => absurd (hfly.symm.trans hquiet.1) (by simp)
    cases ok with
    | false => exact ⟨h.recorded, fun _ hp => (by cases hp), h.same, fun _ => hmoving⟩
    | true =>
      exact ⟨fun t ht => h.append (h.waiting save hwaiting) ht, fun _ hp => (by cases hp), h.same, fun _ => hmoving⟩
  | crash =>
    refine ⟨h.recorded, fun _ hp => (by cases hp), h.same, fun hquiet => h.moving fun hbefore => hquiet ?_⟩
    exact ⟨rfl, hbefore.2⟩
  | replay save deleted hf hw =>
    have hmoving := h.moving fun hquiet => absurd (hw.symm.trans hquiet.2) (by simp)
    have hrec : save ∈ l.recorded := by
      have hnewest := hinv.newest
      rw [hw, Option.some_or] at hnewest
      exact hnewest.1
    have hsame : ∀ r, some save = some r → r.builtAt = last → written contents [save] account = owed := by
      rintro r ⟨⟩ hlast
      rw [hmoving.2, ← hlast]
      rfl
    rw [Line.delete]
    split <;> exact ⟨fun t ht => h.append (h.recorded save hrec) ht, h.waiting, hsame, fun _ => hmoving⟩

/-- A move with a new snapshot, which is owed from then on. -/
theorem move_new (hinv : LineInv clock l) (hmove : LineMove l (some save) cs l') (hnumber : save.builtAt = clock)
    (contents : Nat → Account) (account new : Account) :
    Owes (clock + 1) (Function.update contents clock new) clock new
      (written (Function.update contents clock new) cs account) l' := by
  have hold : ∀ t ∈ l.recorded, t.builtAt ≤ clock := fun t ht => Nat.le_of_lt (hinv.fresh t ht)
  have hnew : ∀ t ∈ l.recorded ++ [save], t.builtAt ≤ clock := by
    intro t ht
    rcases List.mem_append.mp ht with ht | ht
    · exact hold t ht
    · rw [List.mem_singleton.mp ht, hnumber]
  have hsame (account : Account) : ∀ r, l.rows = some r → r.builtAt = clock → account = new := fun r hr heq =>
    absurd heq (hinv.fresh r (hinv.committed r hr)).ne
  have hmoving {l : Line} : ¬ l.Quiet → clock < clock + 1 ∧ new = Function.update contents clock new clock := by
    rw [Function.update_self]
    exact fun _ => ⟨Nat.lt_succ_self clock, rfl⟩
  cases hmove with
  | dispatch save ok hf =>
    cases ok with
    | false => exact ⟨hold, fun _ hp => (by cases hp), hsame _, hmoving⟩
    | true => exact ⟨hnew, fun _ hp => (by cases hp), hsame _, hmoving⟩
  | wait save ok hf =>
    have hwaiting : ∀ p, some save = some p → p.builtAt ≤ clock := by
      rintro p ⟨⟩
      exact hnumber.le
    cases ok with
    | false => exact ⟨hold, hwaiting, hsame _, hmoving⟩
    | true => exact ⟨hnew, hwaiting, hsame _, hmoving⟩
  | direct save committed hf =>
    have hwaiting : ∀ p, l.waiting = some p → p.builtAt ≤ clock := by
      intro p hp
      rw [(hinv.grounded hf).2] at hp
      cases hp
    cases committed with
    | false => exact ⟨hold, hwaiting, hsame _, hmoving⟩
    | true =>
      refine ⟨hnew, hwaiting, fun _ _ _ => ?_, hmoving⟩
      show Function.update contents clock new save.builtAt = new
      rw [hnumber, Function.update_self]

/-- A new snapshot of another player. -/
theorem other (h : Owes clock contents last owed account l) (new : Account) :
    Owes (clock + 1) (Function.update contents clock new) last owed account l := by
  refine ⟨h.recorded, h.waiting, h.same, fun hquiet => ?_⟩
  obtain ⟨hlt, howed⟩ := h.moving hquiet
  rw [Function.update_of_ne hlt.ne]
  exact ⟨Nat.lt_succ_of_lt hlt, howed⟩

/-- A credit when nothing is still to be written. -/
theorem credit (h : Owes clock contents last owed account l) (hquiet : l.Quiet) (change : Account → Account) :
    Owes clock contents last (change owed) (change account) l := by
  refine ⟨h.recorded, h.waiting, fun r hr hlast => ?_, fun hnot => absurd hquiet hnot⟩
  rw [h.same r hr hlast]

/-- The last snapshot is in the rows when it was recorded and nothing is still to be written. -/
theorem settled (h : Owes clock contents last owed account l) (hinv : LineInv clock l) (hquiet : l.Quiet)
    {t : PlayerSaveSnapshot} (ht : t ∈ l.recorded) (hlast : t.builtAt = last) : account = owed := by
  have hnewest := hinv.rows_newest hquiet.2
  cases hrows : l.rows with
  | none =>
    rw [hrows, IsNewest] at hnewest
    rw [hnewest] at ht
    cases ht
  | some r =>
    rw [hrows] at hnewest
    exact h.same r hrows (le_antisymm (h.recorded r hnewest.1) (hlast ▸ hnewest.2 t ht))

end Owes

/-! ## Runs -/

/-- Nothing of the player is in flight, waits for a flight or is left in the table. -/
def Quiet (s : State) (guid : Guid) : Prop := guid ∉ s.manager.flushInFlight ∧ s.db.pending guid = none

/-- All flushes of the player are over, and the last snapshot was one of them. -/
def Flushed (w : World) (guid : Guid) : Prop :=
  Quiet w.server guid ∧ ∃ t ∈ w.server.db.recorded guid, t.builtAt = w.last guid

/-- No credit is made while a snapshot of the player is still to be written, and no direct flush passes a
snapshot in the table. -/
def Allowed (w : World) : WorldEvent → Prop
  | .save e _ => Clear w.server e
  | .credit guid _ _ => Quiet w.server guid

/-- The rows of every player, between two steps. -/
structure WorldInv (s : State) (contents : Nat → Account) (last : Guid → Nat) (owed accounts : Guid → Account) : Prop where
  server : Inv s
  owes : ∀ guid, Owes s.clock contents (last guid) (owed guid) (accounts guid) (s.lines guid)

namespace WorldInv

variable {s s' : State} {contents : Nat → Account} {last : Guid → Nat} {owed accounts : Guid → Account} {guid : Guid}
  {cs : List PlayerSaveSnapshot}

theorem writeAccounts_map (contents : Nat → Account) (guid : Guid) (cs : List PlayerSaveSnapshot) :
    ∀ accounts : Guid → Account, writeAccounts contents (cs.map (guid, ·)) accounts =
      Function.update accounts guid (written contents cs (accounts guid)) := by
  induction cs with
  | nil =>
    intro accounts
    exact (Function.update_eq_self guid accounts).symm
  | cons save cs ih =>
    intro accounts
    have hrest := ih (Function.update accounts guid (contents save.builtAt))
    rw [Function.update_self, Function.update_idem] at hrest
    exact hrest

theorem move_old (h : WorldInv s contents last owed accounts) (hmoves : Moves s guid none cs s') :
    WorldInv s' contents last owed (writeAccounts contents (cs.map (guid, ·)) accounts) := by
  refine ⟨h.server.moves hmoves fun hnew => absurd rfl hnew, fun g => ?_⟩
  obtain ⟨l, hlines, hmove⟩ := hmoves.line
  have hclock : s'.clock = s.clock := hmoves.clock
  rw [hlines, hclock, writeAccounts_map]
  rcases eq_or_ne g guid with rfl | hne
  · rw [Function.update_self, Function.update_self]
    exact (h.owes g).move_old (h.server g) hmove
  · rw [Function.update_of_ne hne, Function.update_of_ne hne]
    exact h.owes g

theorem move_new {save : PlayerSaveSnapshot} (h : WorldInv s contents last owed accounts)
    (hmoves : Moves s guid (some save) cs s') (hclear : cs ≠ [] → s.db.pending guid = none) (account : Account) :
    WorldInv s' (Function.update contents save.builtAt account) (Function.update last guid save.builtAt)
      (Function.update owed guid account)
      (writeAccounts (Function.update contents save.builtAt account) (cs.map (guid, ·)) accounts) := by
  refine ⟨h.server.moves hmoves fun _ => hclear, fun g => ?_⟩
  obtain ⟨l, hlines, hmove⟩ := hmoves.line
  have hclock : s'.clock = s.clock + 1 := hmoves.clock
  have hnumber : save.builtAt = s.clock := hmoves.number save rfl
  rw [hlines, hclock, writeAccounts_map, hnumber]
  rcases eq_or_ne g guid with rfl | hne
  · simp only [Function.update_self]
    exact Owes.move_new (h.server g) hmove hnumber contents (accounts g) account
  · simp only [Function.update_of_ne hne]
    exact (h.owes g).other account

theorem crash (h : WorldInv s contents last owed accounts) : WorldInv s.crash contents last owed accounts := by
  refine ⟨h.server.crash, fun g => ?_⟩
  rw [lines_crash]
  exact (h.owes g).move_old (h.server g) .crash

theorem recover (replay : Guid → Replay) (guids : List Guid) : ∀ {s : State} {accounts : Guid → Account},
    WorldInv s contents last owed accounts → s.manager.flushInFlight = ∅ →
      WorldInv (recoverPendingFlushes guids replay s) contents last owed
        (writeAccounts contents (replayed replay guids s) accounts) := by
  induction guids with
  | nil => exact fun h _ => h
  | cons guid guids ih =>
    intro s accounts h hground
    obtain ⟨hmoves, hstill⟩ := moves_recoverGuid hground replay guid
    rw [replayed, writeAccounts, List.foldl_append]
    exact ih (h.move_old hmoves) hstill

end WorldInv

def World.Ok (w : World) : Prop := WorldInv w.server w.contents w.last w.owed w.accounts

theorem World.Ok.save {w : World} (h : w.Ok) (e : Event) (account : Account) (hclear : Clear w.server e) :
    (w.step (.save e account)).Ok := by
  by_cases hrestart : ∃ guids replay, e = .restart guids replay
  · obtain ⟨guids, replay, rfl⟩ := hrestart
    exact WorldInv.recover replay guids (WorldInv.crash h) rfl
  · obtain ⟨guid, new, cs, hmoves, hbuilds, hcommits⟩ :=
      h.server.orderly.moves_step e fun guids replay heq => hrestart ⟨guids, replay, heq⟩
    rw [World.Ok, World.step, hbuilds, hcommits]
    cases new with
    | none => exact WorldInv.move_old h hmoves
    | some save =>
      refine WorldInv.move_new h hmoves (fun hcs => ?_) account
      exact hclear.pending_eq_none hbuilds (by rw [hcommits]; simpa using hcs)

theorem World.Ok.credit {w : World} (h : w.Ok) {guid : Guid} (hquiet : Quiet w.server guid) (credit : Credit) (ok : Bool) :
    (w.step (.credit guid credit ok)).Ok := by
  rw [World.step]
  split
  · split
    · rename_i change _ _
      refine ⟨h.server, fun g => ?_⟩
      rw [World.creditAll]
      rcases eq_or_ne g guid with rfl | hne
      · simp only [Function.update_self]
        exact (h.owes g).credit ⟨State.lines_grounded.mpr hquiet.1, hquiet.2⟩ change
      · simp only [Function.update_of_ne hne]
        exact h.owes g
    · exact h
  · exact h

theorem World.Ok.step {w : World} {e : WorldEvent} (h : w.Ok) (he : Allowed w e) : (w.step e).Ok := by
  cases e with
  | save e account => exact h.save e account he
  | credit guid credit ok => exact h.credit he credit ok

theorem World.start_ok (accounts : Guid → Account) : (World.start accounts).Ok :=
  ⟨inv_new, fun _ => ⟨fun _ ht => (by cases ht), fun _ hp => (by cases hp), fun _ hr => (by cases hr),
    fun hnot => absurd ⟨rfl, rfl⟩ hnot⟩⟩

/-- In every run in which credits are made only when nothing of the player is still to be written, and no direct
flush passes a snapshot in the table: whenever all flushes of a player are over, the player is loaded with what
the last snapshot had and all credits since. -/
theorem credits_survive (accounts : Guid → Account) (es : List WorldEvent)
    (hrun : Runs.Along World.step Allowed (World.start accounts) es) (guid : Guid)
    (hflushed : Flushed (es.foldl World.step (World.start accounts)) guid) :
    (es.foldl World.step (World.start accounts)).loadPlayer guid = (es.foldl World.step (World.start accounts)).owed guid := by
  have hok := (Runs.Along.of_invariant (P := fun _ _ => True) World.Ok (fun w e h he => ⟨h.step he, trivial⟩) es _
    (World.start_ok accounts) hrun).2
  obtain ⟨hquiet, t, ht, hlast⟩ := hflushed
  exact (hok.owes guid).settled (hok.server guid) ⟨State.lines_grounded.mpr hquiet.1, hquiet.2⟩ ht hlast

def goldAccount : Account := ⟨1000, []⟩

/-- A logout with nothing in flight, and credits after it. -/
def quietRun : List WorldEvent :=
  [.save (.savePlayerSync 1 (some ⟨["balance = 1000"], by simp⟩) true true) goldAccount,
    .credit 1 (.creditBank 500) true, .credit 1 (.insertInboxItems ⟨2148, true, 100⟩ 3 []) true]

theorem credits_survive_quiet :
    (quietRun.foldl World.step (World.start fun _ => ⟨0, []⟩)).loadPlayer 1 =
      (quietRun.foldl World.step (World.start fun _ => ⟨0, []⟩)).owed 1 := by
  refine credits_survive _ quietRun ⟨?_, ?_, ?_, trivial⟩ 1 ⟨?_, ⟨⟨["balance = 1000"], by simp⟩, 0⟩, ?_, ?_⟩
  · exact fun _ _ _ => rfl
  · exact ⟨by decide, rfl⟩
  · exact ⟨by decide, rfl⟩
  · exact ⟨by decide +kernel, rfl⟩
  · decide +kernel
  · decide +kernel

/-- The player logs out while a flush of the save of all players is in flight. Then the credit is reported as
successful, and the snapshot of the logout is written after it. -/
def loggedOutRun : List WorldEvent :=
  [.save (.savePlayer 1 (some ⟨["balance = 900"], by simp⟩) true) ⟨900, []⟩,
    .save (.savePlayerSync 1 (some ⟨["balance = 1000"], by simp⟩) true true) goldAccount,
    .credit 1 (.creditBank 500) true,
    .save (.poolFlush 0 true) goldAccount, .save (.runTask true true) goldAccount,
    .save (.poolFlush 0 true) goldAccount, .save (.runTask true true) goldAccount]

theorem credit_overwritten :
    Flushed (loggedOutRun.foldl World.step (World.start fun _ => ⟨0, []⟩)) 1 ∧
      (loggedOutRun.foldl World.step (World.start fun _ => ⟨0, []⟩)).owed 1 = ⟨1500, []⟩ ∧
      (loggedOutRun.foldl World.step (World.start fun _ => ⟨0, []⟩)).loadPlayer 1 = ⟨1000, []⟩ := by
  refine ⟨⟨?_, ⟨⟨["balance = 1000"], by simp⟩, 1⟩, ?_, ?_⟩, ?_, ?_⟩
  · exact ⟨by decide +kernel, rfl⟩
  all_goals decide +kernel

end ForgottenServer.Save
