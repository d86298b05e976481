import ForgottenServer.Login.Inventory
import Mathlib

/-! # When depots are saved

The block `player_depotitems` is written if one of the lockers of the player wants it. A chest tells its locker of every
change, but it is in a locker only once `getDepotLocker` was asked for its depot. What else is in a locker is left
out. -/

open BreadthFirst

namespace ForgottenServer.DepotSave

open IOLoginData (saveItems depotList depotBlock loadBlock orderBySid specialPid newDepotChest)

/-! ## Lockers, chests and notifications -/

inductive Cylinder where
  | container
  | inbox
  | depotChest (depotId : Nat)
  | depotLocker (depotId : Nat)
  | tile
deriving DecidableEq

structure DepotLocker where
  onTile : Bool := false
  save : Bool := false

/-- A player with the rows of the block. `chestParent` and `chestSave` are fields of a chest, by its depot. -/
structure Session where
  saveFlag : Bool
  depotChests : DepotChests := ∅
  chestParent : Nat → Option Nat := fun _ => none
  chestSave : Nat → Bool := fun _ => false
  depotLockerMap : AList fun _ : Nat => DepotLocker := ∅
  depotitems : List ItemRow

/-- The cylinders from one to its root, from the last but one on. -/
def getTopParent (chain : List Cylinder) : List Cylinder := chain.drop (chain.length - 2)

theorem length_getTopParent (chain : List Cylinder) : (getTopParent chain).length ≤ chain.length := by
  rw [getTopParent, List.length_drop]
  exact Nat.sub_le _ _

theorem getTopParent_append (below : List Cylinder) {tail : List Cylinder} (h : 2 ≤ tail.length) :
    getTopParent (below ++ tail) = getTopParent tail := by
  rw [getTopParent, getTopParent, List.length_append, Nat.add_sub_assoc h, List.drop_length_add_append]

namespace Session

def lockerParent (s : Session) (depotId : Nat) : List Cylinder :=
  if (s.depotLockerMap.lookup depotId).any (·.onTile) then [.tile] else []

/-- A chest and what it is in. -/
def chestChain (s : Session) (depotId : Nat) : List Cylinder :=
  .depotChest depotId :: match s.chestParent depotId with
    | some locker => .depotLocker locker :: s.lockerParent locker
    | none => []

def setLocker (s : Session) (depotId : Nat) (f : DepotLocker → DepotLocker) : Session :=
  match s.depotLockerMap.lookup depotId with
  | some locker => { s with depotLockerMap := s.depotLockerMap.insert depotId (f locker) }
  | none => s

/-- `postAddNotification` and `postRemoveNotification`. -/
def postNotification (s : Session) : List Cylinder → Session
  | [] => s
  | .tile :: _ => s
  | .inbox :: parents => s.postNotification parents
  | .depotChest depotId :: parents =>
    let s := s.postNotification parents
    { s with chestSave := Function.update s.chestSave depotId true }
  | .depotLocker depotId :: parents =>
    (s.postNotification parents).setLocker depotId fun locker => { locker with save := true }
  | .container :: parents =>
    let topParent := getTopParent (.container :: parents)
    if topParent.length ≤ parents.length then s.postNotification topParent
    -- `topParent == this`
    else s.postNotification parents
termination_by chain => chain.length

end Session

/-! ## What is done with depots -/

/-- The list of the chest, or of a container in it, is changed. -/
def editAt (edit : List ItemTree → List ItemTree) : List Nat → List ItemTree → Option (List ItemTree)
  | [], itemlist => some (edit itemlist)
  | index :: path, itemlist => match itemlist[index]? with
    | some (.node container inside) =>
      (editAt edit path inside).map fun inside => itemlist.set index (.node container inside)
    | _ => none

inductive Operation where
  | getDepotChest (depotId : Nat) (autoCreate : Bool)
  | getDepotLocker (depotId : Nat)
  /-- A locker is used on the map. -/
  | openLocker (depotId : Nat)
  /-- An item goes into a chest or a container in it, or out of it. -/
  | change (depotId : Nat) (path : List Nat) (edit : List ItemTree → List ItemTree)
  /-- The same for a locker, or its inbox and as many containers in there. -/
  | changeLocker (depotId : Nat) (inside : Option Nat)
  | savePlayer (succeeds : Bool)

/-- An `uint32_t` as an `int32_t`. -/
def toInt32 (n : Nat) : Int := (BitVec.ofNat 32 n).toInt

/-- `-static_cast<int32_t>(it.first * 20 + boxIndex + 1)` -/
def boxPid (depotId boxIndex : Nat) : Int := (-BitVec.ofNat 32 (depotId * 20 + boxIndex + 1)).toInt

/-- An item of a chest with its `pid`, or the items of a box with theirs. -/
def itemWith (chestPid : Nat → Int) (boxPid : Nat → Nat → Int) (depotId : Nat) (item : ItemTree) :
    List (Int × ItemTree) :=
  if item.label.isDepotBox then match item with
    | .node box itemlist => itemlist.map fun subItem => (boxPid depotId (box.item.id - ITEM_DEPOT_BOX_1).toNat, subItem)
    | .leaf _ => []
  else [(chestPid depotId, item)]

def listWith (chestPid : Nat → Int) (boxPid : Nat → Nat → Int) (chests : DepotChests) : List (Int × ItemTree) :=
  chests.entries.flatMap fun e => e.2.flatMap (itemWith chestPid boxPid e.1)

namespace Session

variable (env : ObjectEnv)

def getDepotChest (s : Session) (depotId : Nat) : Session :=
  if depotId ∈ s.depotChests then s
  else { s with depotChests := s.depotChests.insert depotId (newDepotChest env) }

def getDepotLocker (s : Session) (depotId : Nat) : Session :=
  if depotId ∈ s.depotLockerMap then s
  else
    let s := { s with depotLockerMap := s.depotLockerMap.insert depotId {} }.getDepotChest env depotId
    { s with chestParent := Function.update s.chestParent depotId (some depotId) }

/-- What is in a chest after a change, if it can be made. -/
def changed (s : Session) (depotId : Nat) (path : List Nat) (edit : List ItemTree → List ItemTree) :
    Option (List ItemTree) :=
  (s.depotChests.lookup depotId).bind (editAt edit path)

def change (s : Session) (depotId : Nat) (path : List Nat) (edit : List ItemTree → List ItemTree) : Session :=
  match s.changed depotId path edit with
  | some itemlist => { s with depotChests := s.depotChests.replace depotId itemlist }.postNotification
      (List.replicate path.length Cylinder.container ++ s.chestChain depotId)
  | none => s

def changeLocker (s : Session) (depotId : Nat) (inside : Option Nat) : Session :=
  if depotId ∈ s.depotLockerMap then
    let chain := .depotLocker depotId :: s.lockerParent depotId
    match inside with
    | some n => s.postNotification (List.replicate n Cylinder.container ++ .inbox :: chain)
    | none => s.postNotification chain
  else s

def needsSave (s : Session) : Bool := s.depotLockerMap.entries.any (·.2.save)

/-- The rows are those of before if the transaction fails. The flags of the chests are not asked. -/
def savePlayer (s : Session) (succeeds : Bool) : Session :=
  if s.saveFlag && s.needsSave && succeeds then
    { s with depotitems := saveItems env (listWith toInt32 boxPid s.depotChests) }
  else s

def step (s : Session) : Operation → Session
  | .getDepotChest depotId autoCreate => if autoCreate then s.getDepotChest env depotId else s
  | .getDepotLocker depotId => s.getDepotLocker env depotId
  | .openLocker depotId => (s.getDepotLocker env depotId).setLocker depotId fun locker => { locker with onTile := true }
  | .change depotId path edit => s.change depotId path edit
  | .changeLocker depotId inside => s.changeLocker depotId inside
  | .savePlayer succeeds => s.savePlayer env succeeds

def run (s : Session) (ops : List Operation) : Session := ops.foldl (step env) s

end Session

/-- `loadPlayer`: the rows of the depots, then those of the inboxes, each of which asks for its locker. -/
def login (env : ObjectEnv) (saveFlag : Bool) (depotitems : List ItemRow) (inboxPids : List Nat) : Session :=
  inboxPids.foldl (Session.getDepotLocker env)
    { saveFlag, depotitems, depotChests := loadBlock env (depotBlock env) (orderBySid depotitems) ∅ }

namespace Session

/-- A locker that is there hears of the operation. -/
def touches (s : Session) : Operation → Bool
  | .change depotId path edit => decide (depotId ∈ s.depotLockerMap) && (s.changed depotId path edit).isSome
  | .changeLocker depotId _ => decide (depotId ∈ s.depotLockerMap)
  | _ => false

def touched (env : ObjectEnv) (s : Session) : List Operation → Bool
  | [] => false
  | op :: ops => s.touches op || (s.step env op).touched env ops

/-! ## What a notification does -/

variable {env : ObjectEnv} {s : Session} {depotId : Nat}

/-- Only the lockers themselves and the flags of the chests differ. -/
structure Same (s s' : Session) : Prop where
  saveFlag : s'.saveFlag = s.saveFlag
  depotChests : s'.depotChests = s.depotChests
  chestParent : s'.chestParent = s.chestParent
  depotitems : s'.depotitems = s.depotitems
  lockers : ∀ depotId, depotId ∈ s'.depotLockerMap ↔ depotId ∈ s.depotLockerMap

theorem Same.refl (s : Session) : Same s s := ⟨rfl, rfl, rfl, rfl, fun _ => Iff.rfl⟩

theorem Same.trans {s' s'' : Session} (h : Same s s') (h' : Same s' s'') : Same s s'' where
  saveFlag := h'.saveFlag.trans h.saveFlag
  depotChests := h'.depotChests.trans h.depotChests
  chestParent := h'.chestParent.trans h.chestParent
  depotitems := h'.depotitems.trans h.depotitems
  lockers depotId := (h'.lockers depotId).trans (h.lockers depotId)

theorem same_setLocker (s : Session) (depotId : Nat) (f : DepotLocker → DepotLocker) :
    Same s (s.setLocker depotId f) := by
  rw [setLocker]
  cases hlocker : s.depotLockerMap.lookup depotId with
  | none => exact Same.refl s
  | some locker =>
    refine ⟨rfl, rfl, rfl, rfl, fun d => (AList.mem_insert _).trans (or_iff_right_of_imp fun heq => ?_)⟩
    rw [heq]
    exact AList.lookup_isSome.mp (Option.isSome_iff_exists.mpr ⟨locker, hlocker⟩)

theorem same_postNotification (s : Session) (chain : List Cylinder) : Same s (s.postNotification chain) := by
  fun_induction postNotification s chain with
  | case1 => exact Same.refl _
  | case2 => exact Same.refl _
  | case3 parents ih => exact ih
  | case4 depotId parents s' ih => exact ih.trans ⟨rfl, rfl, rfl, rfl, fun _ => Iff.rfl⟩
  | case5 depotId parents ih => exact ih.trans (same_setLocker _ _ _)
  | case6 parents topParent hlt ih => exact ih
  | case7 parents topParent hle ih => exact ih

theorem needsSave_iff (s : Session) :
    s.needsSave = true ↔ ∃ depotId locker, s.depotLockerMap.lookup depotId = some locker ∧ locker.save = true := by
  simp only [needsSave, List.any_eq_true, AList.mem_lookup_iff, Option.mem_def.symm]
  exact ⟨fun ⟨e, he, hsave⟩ => ⟨e.1, e.2, he, hsave⟩, fun ⟨d, locker, he, hsave⟩ => ⟨⟨d, locker⟩, he, hsave⟩⟩

/-- A locker that keeps its flag makes no difference. -/
theorem needsSave_insert {locker locker' : DepotLocker} (h : s.depotLockerMap.lookup depotId = some locker)
    (hsave : locker'.save = locker.save) :
    needsSave { s with depotLockerMap := s.depotLockerMap.insert depotId locker' } = s.needsSave := by
  rw [Bool.eq_iff_iff, needsSave_iff, needsSave_iff]
  constructor
  · rintro ⟨d, found, hfound, hflag⟩
    by_cases heq : d = depotId
    · subst heq
      obtain rfl := Option.some.inj ((AList.lookup_insert _).symm.trans hfound)
      exact ⟨d, locker, h, hsave ▸ hflag⟩
    · exact ⟨d, found, (AList.lookup_insert_ne heq).symm.trans hfound, hflag⟩
  · rintro ⟨d, found, hfound, hflag⟩
    by_cases heq : d = depotId
    · subst heq
      obtain rfl := Option.some.inj (h.symm.trans hfound)
      exact ⟨d, locker', AList.lookup_insert _, hsave.trans hflag⟩
    · exact ⟨d, found, (AList.lookup_insert_ne heq).trans hfound, hflag⟩

theorem needsSave_onTile (s : Session) (depotId : Nat) :
    (s.setLocker depotId fun locker => { locker with onTile := true }).needsSave = s.needsSave := by
  rw [setLocker]
  cases hlocker : s.depotLockerMap.lookup depotId with
  | none => rfl
  | some locker => exact needsSave_insert hlocker rfl

theorem needsSave_save (s : Session) (depotId : Nat) :
    (s.setLocker depotId fun locker => { locker with save := true }).needsSave =
      (s.needsSave || decide (depotId ∈ s.depotLockerMap)) := by
  rw [setLocker]
  cases hlocker : s.depotLockerMap.lookup depotId with
  | none => simp [AList.lookup_eq_none.mp hlocker]
  | some locker =>
    have hmem : depotId ∈ s.depotLockerMap := AList.lookup_isSome.mp (Option.isSome_iff_exists.mpr ⟨locker, hlocker⟩)
    rw [decide_eq_true hmem, Bool.or_true, needsSave_iff]
    exact ⟨depotId, _, AList.lookup_insert _, rfl⟩

theorem postNotification_replicate (s : Session) (n : Nat) {tail : List Cylinder} (h : 2 ≤ tail.length) :
    s.postNotification (List.replicate (n + 1) .container ++ tail) = s.postNotification (getTopParent tail) := by
  have htop := getTopParent_append (List.replicate (n + 1) .container) h
  rw [List.replicate_succ, List.cons_append] at htop ⊢
  have hlength : (getTopParent tail).length ≤ (List.replicate n Cylinder.container ++ tail).length := by
    rw [List.length_append]
    exact (length_getTopParent tail).trans (Nat.le_add_left _ _)
  rw [postNotification, htop, if_pos hlength]

/-- The containers that an item is in pass the notification on, whether they are asked or not. -/
theorem needsSave_containers {c : Cylinder} {above : List Cylinder}
    (hc : (s.postNotification (c :: above)).needsSave = (s.postNotification above).needsSave)
    (habove : above.length ≤ 2) (n : Nat) : (s.postNotification (List.replicate n .container ++ c :: above)).needsSave =
      (s.postNotification above).needsSave := by
  cases n with
  | zero => exact hc
  | succ n =>
    match above, habove with
    | [], _ =>
      have hone : s.postNotification [.container, c] = s.postNotification [c] := by
        rw [postNotification]
        rfl
      cases n with
      | zero => exact (congrArg needsSave hone).trans hc
      | succ n =>
        have hlast : List.replicate (n + 1 + 1) Cylinder.container ++ [c] =
            List.replicate (n + 1) .container ++ [.container, c] := by
          rw [List.replicate_succ', List.append_assoc]
          rfl
        rw [hlast, postNotification_replicate s n (by simp)]
        exact (congrArg needsSave hone).trans hc
    | [x], _ =>
      rw [postNotification_replicate s n (by simp)]
      exact hc
    | [x, y], _ =>
      rw [postNotification_replicate s n (by simp)]
      rfl

/-! ## Which operations a locker hears of -/

/-- A chest is in its own locker if there is one. -/
def Linked (s : Session) : Prop :=
  ∀ depotId, s.chestParent depotId = if depotId ∈ s.depotLockerMap then some depotId else none

theorem Linked.of_same {s' : Session} (h : s.Linked) (hsame : Same s s') : s'.Linked := by
  intro d
  rw [hsame.chestParent, h d]
  exact if_congr (hsame.lockers d).symm rfl rfl

theorem length_lockerParent (s : Session) (depotId : Nat) : (s.lockerParent depotId).length ≤ 1 := by
  rw [lockerParent]
  split
  · exact Nat.le_refl 1
  · exact Nat.zero_le 1

/-- What a locker is in hears nothing. -/
theorem needsSave_locker (s : Session) (depotId : Nat) :
    (s.postNotification (.depotLocker depotId :: s.lockerParent depotId)).needsSave =
      (s.needsSave || decide (depotId ∈ s.depotLockerMap)) := by
  have hparent : s.postNotification (s.lockerParent depotId) = s := by
    rw [lockerParent]
    split <;> rw [postNotification]
  rw [postNotification, hparent, needsSave_save]

/-- What an operation does, if a locker hears of it or not. -/
structure Kept (s : Session) (touched : Bool) (s' : Session) : Prop where
  linked : s'.Linked
  needsSave : s'.needsSave = (s.needsSave || touched)
  saveFlag : s'.saveFlag = s.saveFlag
  depotitems : s'.depotitems = s.depotitems ∨ (s.saveFlag && s.needsSave) = true

theorem Kept.refl (h : s.Linked) : Kept s false s := ⟨h, (Bool.or_false _).symm, rfl, .inl rfl⟩

theorem Kept.trans {s' s'' : Session} {touched : Bool} (h : Kept s false s') (h' : Kept s' touched s'') :
    Kept s touched s'' where
  linked := h'.linked
  needsSave := by rw [h'.needsSave, h.needsSave, Bool.or_false]
  saveFlag := h'.saveFlag.trans h.saveFlag
  depotitems := by
    have hset := h'.depotitems
    rw [h.needsSave, h.saveFlag, Bool.or_false] at hset
    rcases hset with hsame | hset
    · exact h.depotitems.imp_left hsame.trans
    · exact .inr hset

theorem Kept.of_same {s' : Session} {touched : Bool} (h : s.Linked) (hsame : Same s s')
    (hsave : s'.needsSave = (s.needsSave || touched)) : Kept s touched s' :=
  ⟨h.of_same hsame, hsave, hsame.saveFlag, .inl hsame.depotitems⟩

theorem kept_change (h : s.Linked) (depotId : Nat) (path : List Nat) (edit : List ItemTree → List ItemTree) :
    Kept s (s.touches (.change depotId path edit)) (s.change depotId path edit) := by
  rw [change, touches]
  cases hchanged : s.changed depotId path edit with
  | none =>
    rw [Option.isSome_none, Bool.and_false]
    exact Kept.refl h
  | some itemlist =>
    have hreplace : Linked { s with depotChests := s.depotChests.replace depotId itemlist } := h
    have hchest (above : List Cylinder) (s : Session) :
        (s.postNotification (.depotChest depotId :: above)).needsSave = (s.postNotification above).needsSave := by
      rw [postNotification]
      rfl
    have hsame := same_postNotification { s with depotChests := s.depotChests.replace depotId itemlist }
      (List.replicate path.length .container ++ s.chestChain depotId)
    refine ⟨hreplace.of_same hsame, ?_, hsame.saveFlag, .inl hsame.depotitems⟩
    rw [Option.isSome_some, Bool.and_true, chestChain, h depotId]
    show (postNotification _ (_ ++ _)).needsSave = _
    by_cases hmem : depotId ∈ s.depotLockerMap
    · simp only [if_pos hmem]
      have hlength := length_lockerParent s depotId
      rw [needsSave_containers (hchest _ _) (by rw [List.length_cons]; omega)]
      exact needsSave_locker { s with depotChests := s.depotChests.replace depotId itemlist } depotId
    · simp only [if_neg hmem]
      rw [needsSave_containers (hchest [] _) (Nat.zero_le 2), postNotification, decide_eq_false hmem, Bool.or_false]
      rfl

theorem kept_changeLocker (h : s.Linked) (depotId : Nat) (inside : Option Nat) :
    Kept s (s.touches (.changeLocker depotId inside)) (s.changeLocker depotId inside) := by
  rw [changeLocker, touches]
  split
  · cases inside with
    | none => exact Kept.of_same h (same_postNotification _ _) (needsSave_locker s depotId)
    | some n =>
      have hlength := length_lockerParent s depotId
      have hinbox (above : List Cylinder) : (s.postNotification (.inbox :: above)).needsSave =
          (s.postNotification above).needsSave := by rw [postNotification]
      refine Kept.of_same h (same_postNotification _ _) ?_
      exact (needsSave_containers (hinbox _) (by rw [List.length_cons]; omega) n).trans (needsSave_locker s depotId)
  · rename_i hmem
    rw [decide_eq_false hmem]
    exact Kept.refl h

theorem getDepotChest_cases (env : ObjectEnv) (s : Session) (depotId : Nat) : ∃ chests : DepotChests,
    s.getDepotChest env depotId = { s with depotChests := chests } := by
  rw [getDepotChest]
  split
  · exact ⟨s.depotChests, rfl⟩
  · exact ⟨_, rfl⟩

theorem kept_getDepotChest (env : ObjectEnv) (h : s.Linked) (depotId : Nat) :
    Kept s false (s.getDepotChest env depotId) := by
  obtain ⟨chests, hchests⟩ := getDepotChest_cases env s depotId
  rw [hchests]
  exact ⟨h, (Bool.or_false _).symm, rfl, .inl rfl⟩

/-- A new locker has no flag set, and the chest is put into it. -/
theorem kept_getDepotLocker (env : ObjectEnv) (h : s.Linked) (depotId : Nat) :
    Kept s false (s.getDepotLocker env depotId) := by
  rw [getDepotLocker]
  split
  · exact Kept.refl h
  · rename_i hmem
    obtain ⟨chests, hchests⟩ :=
      getDepotChest_cases env { s with depotLockerMap := s.depotLockerMap.insert depotId {} } depotId
    simp only [hchests]
    refine ⟨fun d => ?_, ?_, rfl, .inl rfl⟩
    · show Function.update s.chestParent depotId (some depotId) d =
        if d ∈ s.depotLockerMap.insert depotId {} then some d else none
      by_cases heq : d = depotId
      · subst heq
        rw [Function.update_self, if_pos ((AList.mem_insert _).mpr (.inl rfl))]
      · rw [Function.update_of_ne heq, h d]
        exact if_congr ((AList.mem_insert _).trans (or_iff_right heq)).symm rfl rfl
    · rw [Bool.or_false, Bool.eq_iff_iff, needsSave_iff, needsSave_iff]
      refine exists_congr fun d => exists_congr fun locker => and_congr_left fun hsave => ?_
      show (s.depotLockerMap.insert depotId {}).lookup d = some locker ↔ _
      by_cases heq : d = depotId
      · subst heq
        rw [AList.lookup_insert, AList.lookup_eq_none.mpr hmem]
        refine iff_of_false (fun h => ?_) fun h => by cases h
        rw [← Option.some.inj h] at hsave
        cases hsave
      · rw [AList.lookup_insert_ne heq]

theorem kept_openLocker (env : ObjectEnv) (h : s.Linked) (depotId : Nat) : Kept s false
    ((s.getDepotLocker env depotId).setLocker depotId fun locker => { locker with onTile := true }) := by
  have hlocker := kept_getDepotLocker env h depotId
  have hsame := same_setLocker (s.getDepotLocker env depotId) depotId fun locker => { locker with onTile := true }
  exact ⟨hlocker.linked.of_same hsame, (needsSave_onTile _ _).trans hlocker.needsSave,
    hsame.saveFlag.trans hlocker.saveFlag, hlocker.depotitems.imp_left hsame.depotitems.trans⟩

theorem kept_savePlayer (env : ObjectEnv) (h : s.Linked) (succeeds : Bool) :
    Kept s false (s.savePlayer env succeeds) := by
  rw [savePlayer]
  split
  · rename_i hsave
    exact ⟨h, (Bool.or_false _).symm, rfl, .inr (Bool.and_eq_true_iff.mp hsave).1⟩
  · exact Kept.refl h

theorem kept_step (env : ObjectEnv) (h : s.Linked) (op : Operation) : Kept s (s.touches op) (s.step env op) := by
  cases op with
  | getDepotChest depotId autoCreate =>
    cases autoCreate with
    | false => exact Kept.refl h
    | true => exact kept_getDepotChest env h depotId
  | getDepotLocker depotId => exact kept_getDepotLocker env h depotId
  | openLocker depotId => exact kept_openLocker env h depotId
  | change depotId path edit => exact kept_change h depotId path edit
  | changeLocker depotId inside => exact kept_changeLocker h depotId inside
  | savePlayer succeeds => exact kept_savePlayer env h succeeds

/-! ## Runs -/

/-- Flags are only ever set, and by what a locker hears of. Until then no rows are written. -/
theorem kept_run (env : ObjectEnv) (ops : List Operation) : ∀ {s : Session}, s.Linked →
    (s.run env ops).needsSave = (s.needsSave || s.touched env ops) ∧ (s.run env ops).saveFlag = s.saveFlag ∧
      ((s.saveFlag && (s.run env ops).needsSave) = false → (s.run env ops).depotitems = s.depotitems) := by
  induction ops with
  | nil => exact fun _ => ⟨(Bool.or_false _).symm, rfl, fun _ => rfl⟩
  | cons op ops ih =>
    intro s h
    have hstep := kept_step env h op
    obtain ⟨hsave, hflag, hrows⟩ := ih hstep.linked
    have hnext : s.run env (op :: ops) = (s.step env op).run env ops := rfl
    rw [hnext, touched]
    refine ⟨?_, hflag.trans hstep.saveFlag, fun hclear => ?_⟩
    · rw [hsave, hstep.needsSave, Bool.or_assoc]
    · refine (hrows (hstep.saveFlag ▸ hclear)).trans (hstep.depotitems.resolve_right fun hset => ?_)
      rw [hsave, hstep.needsSave] at hclear
      obtain ⟨hflag, hset⟩ := Bool.and_eq_true_iff.mp hset
      simp [hflag, hset] at hclear

theorem run_savePlayer (env : ObjectEnv) (s : Session) (ops : List Operation) :
    s.run env (ops ++ [.savePlayer true]) = (s.run env ops).savePlayer env true := by
  rw [run, List.foldl_append]
  rfl

theorem depotChests_savePlayer (env : ObjectEnv) (s : Session) (succeeds : Bool) :
    (s.savePlayer env succeeds).depotChests = s.depotChests := by
  rw [savePlayer]
  split <;> rfl

theorem kept_lockers (env : ObjectEnv) (inboxPids : List Nat) : ∀ {s : Session}, s.Linked →
    Kept s false (inboxPids.foldl (getDepotLocker env) s) := by
  induction inboxPids with
  | nil => exact fun h => Kept.refl h
  | cons pid inboxPids ih =>
    intro s h
    have hpid := kept_getDepotLocker env h pid
    exact hpid.trans (ih hpid.linked)

end Session

/-! ## What the rows describe -/

/-- The rows are those of the items in the chests, whichever chest comes first, and each of them has the `pid` that the
loader takes for its place. -/
def Describes (env : ObjectEnv) (depotitems : List ItemRow) (chests : DepotChests) : Prop :=
  ∃ order : DepotChests, order.entries.Perm chests.entries ∧ depotitems = saveItems env (depotList order) ∧
    ∀ g ∈ depotList order, g.1 < 100

/-- Every item is in a place that has a `pid`. -/
def Placed (chests : DepotChests) : Prop := ∀ g ∈ depotList chests, -2 ^ 31 ≤ g.1 ∧ g.1 < 100

/-- A `pid` of a row is that of a place or the number of another row. -/
theorem parent_saveItems {env : ObjectEnv} {itemList : List (Int × ItemTree)} {row : ItemRow}
    (h : row ∈ saveItems env itemList) : (∃ g ∈ itemList, g.1 = row.parent) ∨ 0 ≤ row.parent := by
  obtain ⟨row, hrow, rfl⟩ := List.mem_map.mp h
  rcases flatten_parent Int.ofNat _ row hrow with hroot | ⟨m, hm⟩
  · exact .inl hroot
  · exact .inr (hm ▸ Int.natCast_nonneg m)

theorem exists_saveItems (env : ObjectEnv) {itemList : List (Int × ItemTree)} {g : Int × ItemTree} (h : g ∈ itemList) :
    ∃ row ∈ saveItems env itemList, row.parent = g.1 := by
  obtain ⟨row, hrow, hparent⟩ := exists_row Int.ofNat h 100
  exact ⟨_, List.mem_map_of_mem hrow, hparent⟩

theorem toInt32_eq {n : Nat} (h : n < 100) : toInt32 n = n := by
  rw [toInt32, BitVec.toInt_eq_toNat_cond, BitVec.toNat_ofNat]
  omega

theorem boxPid_eq {depotId boxIndex : Nat} (h : -2 ^ 31 ≤ specialPid depotId boxIndex) :
    boxPid depotId boxIndex = specialPid depotId boxIndex := by
  rw [specialPid] at h ⊢
  rw [boxPid, BitVec.toInt_eq_toNat_cond, BitVec.toNat_neg, BitVec.toNat_ofNat]
  omega

theorem depotList_eq (chests : DepotChests) : depotList chests = listWith Nat.cast specialPid chests := by
  refine List.flatMap_congr fun e _ => List.flatMap_congr fun item _ => ?_
  cases item with
  | leaf o => rfl
  | node o itemlist => rfl

/-- Every `pid` that is written is one of a signed 32-bit integer. -/
theorem le_listWith {chests : DepotChests} {g : Int × ItemTree} (h : g ∈ listWith toInt32 boxPid chests) :
    -2 ^ 31 ≤ g.1 := by
  obtain ⟨e, _, h⟩ := List.mem_flatMap.mp h
  obtain ⟨item, _, h⟩ := List.mem_flatMap.mp h
  rw [itemWith.eq_def] at h
  split at h
  · cases item with
    | leaf o => cases h
    | node box itemlist =>
      obtain ⟨subItem, _, rfl⟩ := List.mem_map.mp h
      exact BitVec.le_toInt _
  · rw [List.mem_singleton.mp h]
    exact BitVec.le_toInt _

theorem itemWith_eq {depotId : Nat} {item : ItemTree}
    (h : ∀ g ∈ itemWith Nat.cast specialPid depotId item, -2 ^ 31 ≤ g.1 ∧ g.1 < 100) :
    itemWith toInt32 boxPid depotId item = itemWith Nat.cast specialPid depotId item := by
  rw [itemWith.eq_def] at h ⊢
  rw [itemWith.eq_def]
  split at h
  · rename_i hbox
    rw [if_pos hbox, if_pos hbox]
    cases item with
    | leaf o => rfl
    | node box itemlist =>
      refine List.map_congr_left fun subItem hsub => ?_
      rw [boxPid_eq (h _ (List.mem_map_of_mem hsub)).1]
  · rename_i hbox
    have hpid := (h _ (List.mem_singleton_self _)).2
    rw [if_neg hbox, if_neg hbox, toInt32_eq (Int.ofNat_lt.mp hpid)]

theorem listWith_eq {chests : DepotChests} (h : Placed chests) : listWith toInt32 boxPid chests = depotList chests := by
  rw [Placed, depotList_eq] at h
  rw [depotList_eq]
  refine List.flatMap_congr fun e he => List.flatMap_congr fun item hitem => itemWith_eq fun g hg => ?_
  exact h g (List.mem_flatMap.mpr ⟨e, he, List.mem_flatMap.mpr ⟨item, hitem, hg⟩⟩)

/-- Rows that are written describe the chests if every item has a place. -/
theorem describes_written (env : ObjectEnv) (chests : DepotChests) :
    Describes env (saveItems env (listWith toInt32 boxPid chests)) chests ↔ Placed chests := by
  constructor
  · rintro ⟨order, hperm, hrows, hpids⟩ g hg
    have hg' : g ∈ depotList order := (hperm.flatMap_right _).mem_iff.mpr hg
    obtain ⟨row, hrow, hparent⟩ := exists_saveItems env hg'
    rw [← hrows] at hrow
    refine ⟨?_, hpids g hg'⟩
    rw [← hparent]
    rcases parent_saveItems hrow with ⟨g', hg', heq⟩ | hnonneg
    · exact heq ▸ le_listWith hg'
    · exact le_trans (by decide) hnonneg
  · intro h
    exact ⟨chests, List.Perm.refl _, by rw [listWith_eq h], fun g hg => (h g hg).2⟩

/-- The rows of an empty table describe chests with nothing in them. -/
theorem depotList_nil {env : ObjectEnv} {chests : DepotChests} (h : Describes env [] chests) :
    depotList chests = [] := by
  obtain ⟨order, hperm, hrows, _⟩ := h
  refine List.eq_nil_iff_forall_not_mem.mpr fun g hg => ?_
  have hg' : g ∈ depotList order := (hperm.flatMap_right _).mem_iff.mpr hg
  obtain ⟨row, hrow, _⟩ := exists_saveItems env hg'
  rw [← hrows] at hrow
  cases hrow

/-! ## Saves after a login -/

namespace Session

def Described (env : ObjectEnv) (s : Session) : Prop := Describes env s.depotitems s.depotChests

end Session

variable (env : ObjectEnv) (saveFlag : Bool) (depotitems : List ItemRow) (inboxPids : List Nat)

theorem kept_login : (login env saveFlag depotitems inboxPids).Linked ∧
    (login env saveFlag depotitems inboxPids).needsSave = false ∧
    (login env saveFlag depotitems inboxPids).saveFlag = saveFlag ∧
    (login env saveFlag depotitems inboxPids).depotitems = depotitems := by
  have hlinked : Session.Linked { saveFlag := saveFlag, depotitems := depotitems,
                                  depotChests := loadBlock env (depotBlock env) (orderBySid depotitems) ∅ } :=
    fun _ => rfl
  have h := Session.kept_lockers env inboxPids hlinked
  have hclear : (saveFlag && false) ≠ true := by rw [Bool.and_false]; exact Bool.false_ne_true
  exact ⟨h.linked, h.needsSave, h.saveFlag, h.depotitems.resolve_right hclear⟩

/-- The rows after a save are those of the chests, if a locker has heard of a change, else those of the login. -/
theorem depotitems_saved (ops : List Operation) :
    ((login env saveFlag depotitems inboxPids).run env (ops ++ [.savePlayer true])).depotitems =
      if (saveFlag && (login env saveFlag depotitems inboxPids).touched env ops) = true then
        saveItems env (listWith toInt32 boxPid ((login env saveFlag depotitems inboxPids).run env ops).depotChests)
      else depotitems := by
  obtain ⟨hlinked, hclear, hflag, hrows⟩ := kept_login env saveFlag depotitems inboxPids
  obtain ⟨hsave, hflag', hrows'⟩ := Session.kept_run env ops hlinked
  rw [hclear, Bool.false_or] at hsave
  rw [hflag, hsave] at hrows'
  rw [Session.run_savePlayer, Session.savePlayer, hflag', hflag, hsave, Bool.and_true]
  split
  · rfl
  · rename_i hset
    exact (hrows' (Bool.not_eq_true _ ▸ hset)).trans hrows

/-- Whatever was done since the login, the rows describe the depots after a successful save if and only if

* some locker that was there has heard of a change, and every item is in a place that has a `pid`, or
* none has, or the player is not to be saved, and the rows of the login still describe the depots. -/
theorem depots_saved_iff (ops : List Operation) :
    ((login env saveFlag depotitems inboxPids).run env (ops ++ [.savePlayer true])).Described env ↔
      if (saveFlag && (login env saveFlag depotitems inboxPids).touched env ops) = true then
        Placed ((login env saveFlag depotitems inboxPids).run env ops).depotChests
      else Describes env depotitems ((login env saveFlag depotitems inboxPids).run env ops).depotChests := by
  rw [Session.Described, depotitems_saved, Session.run_savePlayer, Session.depotChests_savePlayer]
  split
  · exact describes_written env _
  · exact Iff.rfl

/-- An item goes into the first box of a depot that was not opened. -/
def coinInBox : List Operation := [.getDepotChest 1 true, .change 1 [0] (.leaf IOLoginData.coin :: ·)]

/-- The item is in the box, but not in the database. -/
theorem coinInBox_lost : ¬ ((login IOLoginData.depotEnv true [] []).run IOLoginData.depotEnv
    (coinInBox ++ [.savePlayer true])).Described IOLoginData.depotEnv := by
  have htouched : (true && (login IOLoginData.depotEnv true [] []).touched IOLoginData.depotEnv coinInBox) = false := rfl
  have hchests : ((login IOLoginData.depotEnv true [] []).run IOLoginData.depotEnv coinInBox).depotChests = _ :=
    (Session.same_postNotification _ _).depotChests
  rw [Session.Described, depotitems_saved, Session.run_savePlayer, Session.depotChests_savePlayer,
    if_neg (Bool.not_eq_true _ ▸ htouched), hchests]
  intro h
  have hcoin := congrArg List.length (depotList_nil h)
  cases hcoin

end ForgottenServer.DepotSave
