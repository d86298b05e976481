import ForgottenServer.Bestiary.Charms

/-! # Charms and crashes

A charm action writes the charms to the database at once, but the charm points are in memory until a save of the player
is flushed. -/

namespace ForgottenServer.Bestiary

open Runs

/-- What has happened to a player's points so far: the points it has earned, and those that went into tiers and came
back out of them. -/
structure Totals where
  earned : Nat
  bought : Nat := 0
  refunded : Nat := 0

/-- The row of the player, or a save that will become it, and what had happened when it was built. -/
structure PlayerSave where
  charmPoints : Nat
  inventoryMoney : Nat
  bankBalance : Nat
  totals : Totals

structure Server where
  player : Player
  row : PlayerSave
  pending : List PlayerSave := []
  totals : Totals

inductive Event where
  | action (call : Call)
  /-- The player completes a creature. -/
  | earn (amount : Nat)
  | savePlayer
  /-- The oldest save is committed, or fails or is replaced by the next one. -/
  | flush (ok : Bool)
  /-- The server crashes, and the player is loaded again. -/
  | crash

def Player.spent (p : Player) : Nat := getSpentMajorCharmPoints p.loadCharmStates

def Player.addBestiaryCharmPoints (p : Player) (amount : Nat) : Player :=
  { p with charmPoints := if amount > 2 ^ 32 - 1 - p.charmPoints then 2 ^ 32 - 1 else p.charmPoints + amount }

theorem Player.charmPoints_add_le (p : Player) (amount : Nat) :
    (p.addBestiaryCharmPoints amount).charmPoints ≤ p.charmPoints + amount := by
  rw [addBestiaryCharmPoints]
  dsimp only
  split
  · omega
  · exact le_rfl

namespace Server

def buildPlayerSave (s : Server) : PlayerSave :=
  ⟨s.player.charmPoints, s.player.inventoryMoney, s.player.bankBalance, s.totals⟩

/-- The player as the database has it: the charm rows as they are, and the points of the last committed save. -/
def loadPlayer (s : Server) : Player :=
  { s.player with
    charmPoints := s.row.charmPoints, inventoryMoney := s.row.inventoryMoney, bankBalance := s.row.bankBalance }

theorem spent_loadPlayer (s : Server) : s.loadPlayer.spent = s.player.spent := rfl

theorem charmPoints_loadPlayer (s : Server) : s.loadPlayer.charmPoints = s.row.charmPoints := rfl

def step (s : Server) : Event → Server
  | .action call =>
    let player := s.player.step call
    { s with
      player
      totals := { s.totals with
        bought := s.totals.bought + (player.spent - s.player.spent)
        refunded := s.totals.refunded + (s.player.spent - player.spent) } }
  | .earn amount =>
    { s with
      player := s.player.addBestiaryCharmPoints amount
      totals := { s.totals with earned := s.totals.earned + amount } }
  | .savePlayer => { s with pending := s.pending ++ [s.buildPlayerSave] }
  | .flush ok => match s.pending with
    | [] => s
    | save :: pending => if ok then { s with row := save, pending } else { s with pending }
  | .crash => { s with player := s.loadPlayer, pending := [] }

/-- After a crash the stored points and those in the stored tiers are no more than the player had earned. -/
def Safe (s : Server) : Event → Prop
  | .crash => s.loadPlayer.charmPoints + s.loadPlayer.spent ≤ s.totals.earned
  | _ => True

/-- The tiers bought since the row was built cost no more than what was earned and refunded since then. -/
def Allowed (s : Server) : Event → Prop
  | .crash => s.totals.bought - s.row.totals.bought ≤
      (s.totals.earned - s.row.totals.earned) + (s.totals.refunded - s.row.totals.refunded)
  | _ => True

/-- A save had its points in line with the tiers of its time. -/
structure Held (totals : Totals) (spent : Nat) (save : PlayerSave) : Prop where
  earned : save.totals.earned ≤ totals.earned
  bought : save.totals.bought ≤ totals.bought
  refunded : save.totals.refunded ≤ totals.refunded
  points : save.charmPoints + spent + (totals.refunded - save.totals.refunded) ≤
    save.totals.earned + (totals.bought - save.totals.bought)

structure Inv (s : Server) : Prop where
  player : s.player.charmPoints + s.player.spent ≤ s.totals.earned
  row : Held s.totals s.player.spent s.row
  pending : ∀ save ∈ s.pending, Held s.totals s.player.spent save

theorem Held.action {totals : Totals} {spent : Nat} {save : PlayerSave} (h : Held totals spent save) (spent' : Nat) :
    Held { totals with
      bought := totals.bought + (spent' - spent), refunded := totals.refunded + (spent - spent') } spent' save := by
  obtain ⟨hearned, hbought, hrefunded, hpoints⟩ := h
  refine ⟨hearned, ?_, ?_, ?_⟩
  · show save.totals.bought ≤ totals.bought + (spent' - spent)
    omega
  · show save.totals.refunded ≤ totals.refunded + (spent - spent')
    omega
  · show save.charmPoints + spent' + (totals.refunded + (spent - spent') - save.totals.refunded) ≤
      save.totals.earned + (totals.bought + (spent' - spent) - save.totals.bought)
    omega

theorem Held.earn {totals : Totals} {spent : Nat} {save : PlayerSave} (h : Held totals spent save) (amount : Nat) :
    Held { totals with earned := totals.earned + amount } spent save :=
  ⟨Nat.le_add_right_of_le h.earned, h.bought, h.refunded, h.points⟩

/-- Tiers are paid for with points of the same player. -/
theorem Inv.action {s : Server} (h : Inv s) {player : Player} (hmore : player.allPoints ≤ s.player.allPoints) :
    Inv { s with
      player
      totals := { s.totals with
        bought := s.totals.bought + (player.spent - s.player.spent)
        refunded := s.totals.refunded + (s.player.spent - player.spent) } } :=
  ⟨hmore.trans h.player, h.row.action _, fun save hsave => (h.pending save hsave).action _⟩

theorem Inv.step {s : Server} (h : Inv s) {e : Event} (ha : s.Allowed e) : Inv (s.step e) ∧ s.Safe e := by
  cases e with
  | action call =>
    have hmore : (s.player.step call).allPoints ≤ s.player.allPoints :=
      (Player.kept_handleCharmAction call.env s.player call.charmId call.action call.raceId).no_more
    refine ⟨?_, trivial⟩
    rw [Server.step]
    generalize s.player.step call = player at hmore
    exact h.action hmore
  | earn amount =>
    refine ⟨⟨?_, h.row.earn amount, fun save hsave => (h.pending save hsave).earn amount⟩, trivial⟩
    have hplayer := h.player
    have hpoints := s.player.charmPoints_add_le amount
    show (s.player.addBestiaryCharmPoints amount).charmPoints + s.player.spent ≤ s.totals.earned + amount
    omega
  | savePlayer =>
    refine ⟨⟨h.player, h.row, fun save hsave => ?_⟩, trivial⟩
    rcases List.mem_append.mp hsave with hsave | hsave
    · exact h.pending save hsave
    · obtain rfl := List.mem_singleton.mp hsave
      refine ⟨le_rfl, le_rfl, le_rfl, ?_⟩
      show s.player.charmPoints + s.player.spent + (s.totals.refunded - s.totals.refunded) ≤
        s.totals.earned + (s.totals.bought - s.totals.bought)
      have hplayer := h.player
      omega
  | flush ok =>
    refine ⟨?_, trivial⟩
    rw [Server.step]
    split
    · exact h
    · rename_i save pending hpending
      have hrest : ∀ save' ∈ pending, Held s.totals s.player.spent save' := fun save' hsave =>
        h.pending save' (by rw [hpending]; exact List.mem_cons_of_mem _ hsave)
      split
      · exact ⟨h.player, h.pending save (by rw [hpending]; exact List.mem_cons_self), hrest⟩
      · exact ⟨h.player, h.row, hrest⟩
  | crash =>
    obtain ⟨hearned, hbought, hrefunded, hpoints⟩ := h.row
    have hsafe : s.row.charmPoints + s.player.spent ≤ s.totals.earned := by
      change s.totals.bought - s.row.totals.bought ≤ _ at ha
      omega
    exact ⟨⟨hsafe, h.row, fun save hsave => absurd hsave List.not_mem_nil⟩, hsafe⟩

/-- A player who has just been loaded. -/
def start (player : Player) : Server :=
  let totals : Totals := { earned := player.allPoints }
  ⟨player, ⟨player.charmPoints, player.inventoryMoney, player.bankBalance, totals⟩, [], totals⟩

/-- While no crash finds tiers in the database that the points of the row have not paid for, no crash gives points to the
player. -/
theorem safe_of_allowed (player : Player) (es : List Event) (hrun : Along step Allowed (start player) es) :
    Along step Safe (start player) es := by
  refine (Along.of_invariant Inv (fun s e h ha => h.step ha) es _ ?_ hrun).1
  refine ⟨le_rfl, ⟨le_rfl, le_rfl, le_rfl, ?_⟩, fun save hsave => absurd hsave List.not_mem_nil⟩
  show player.charmPoints + player.spent + (0 - 0) ≤ player.allPoints + (0 - 0)
  exact le_rfl

/-- Nothing fails. -/
def calm : Env := ⟨8, false, fun _ => 0, fun _ => none, true, true, true⟩

/-- A charm is unlocked and the player saved before the crash. -/
theorem safe_of_allowed_saved :
    Along step Safe (start { charmPoints := 240 })
      [.action ⟨calm, 0, 0, 0⟩, .savePlayer, .flush true, .earn 5, .crash] := by
  apply safe_of_allowed
  refine ⟨trivial, trivial, trivial, trivial, ?_, trivial⟩
  simp only [Allowed, step, start, buildPlayerSave, List.nil_append, if_true, Nat.sub_self, Nat.zero_le]

/-- Without the save, the player has both the charm and its price. -/
theorem not_safe_upgrade :
    ¬ Along step Safe (start { charmPoints := 240 }) [.action ⟨calm, 0, 0, 0⟩, .crash] := by
  intro h
  obtain ⟨-, hsafe, -⟩ := h
  -- the points of the player are now in the tier
  have hkept := (Player.kept_handleCharmAction calm { charmPoints := 240 } 0 0 0).exactly
  rw [Player.allPoints_new] at hkept
  have hspent : (Player.step { charmPoints := 240 } ⟨calm, 0, 0, 0⟩).allPoints = 240 := hkept (by decide)
  have hpaid : (Player.step { charmPoints := 240 } ⟨calm, 0, 0, 0⟩).charmPoints = 0 := rfl
  rw [Player.allPoints, hpaid, Nat.zero_add] at hspent
  simp only [Safe, step, spent_loadPlayer, charmPoints_loadPlayer, start, Player.allPoints_new] at hsafe
  rw [Player.spent, hspent] at hsafe
  omega

end Server

end ForgottenServer.Bestiary
