import ForgottenServer.Login.Items

/-! # Inboxes and store inbox

The blocks `player_inboxitems` and `player_storeinboxitems`. Every depot locker has an inbox of its
own, and the `pid` of an item is the id of the locker. The saver stops after a hundred items. -/

open BreadthFirst

namespace ForgottenServer

def ITEM_DEPOT : UInt16 := 3502
def ITEM_MARKET : UInt16 := 12903
def ITEM_SUPPLY_STASH : UInt16 := 28750

/-- `std::unordered_map` from a depot id to the list of the locker. -/
abbrev DepotLockers := AList fun _ : Nat => List ItemTree

def Object.isInbox (o : Object) : Bool := o.item.id == ITEM_INBOX

namespace IOLoginData

/-- `CreateItem`, for a thing that is added to a locker if it could be made. -/
def createThing (env : ObjectEnv) (type : UInt16) (itemlist : List ItemTree) : List ItemTree :=
  ((Object.create env type 0).map fun n => Rose.build n.1 n.2 itemlist).toList

/-- A locker as `getDepotLocker` makes it, with what is in its inbox. What is in its chest is kept with
the depots. -/
def depotLocker (env : ObjectEnv) (marketSystemEnabled : Bool) (inbox : List ItemTree) : List ItemTree :=
  .node ⟨Item.create env.items ITEM_DEPOT 0 (env.newDuration ITEM_DEPOT), .none⟩ [] ::
    (createThing env ITEM_INBOX inbox ++ createThing env ITEM_SUPPLY_STASH [] ++
      if marketSystemEnabled then createThing env ITEM_MARKET [] else [])

def getDepotLocker (env : ObjectEnv) (marketSystemEnabled : Bool) (lockers : DepotLockers) (depotId : Nat) :
    List ItemTree := (lockers.lookup depotId).getD (depotLocker env marketSystemEnabled [])

/-- The `uint32_t` id of a locker as an `int32_t`. -/
def lockerPid (depotId : Nat) : Int := (BitVec.ofNat 32 depotId).toInt

def inboxItem (depotId : Nat) (item : ItemTree) : List (Int × ItemTree) :=
  if item.label.isInbox then match item with
    | .node _ itemlist => itemlist.map fun subItem => (lockerPid depotId, subItem)
    | .leaf _ => []
  else []

/-- All items in the inboxes. -/
def inboxItems (lockers : DepotLockers) : List (Int × ItemTree) :=
  lockers.entries.flatMap fun e => e.2.flatMap (inboxItem e.1)

/-- `if (++inboxItemsCount > 100) continue;` -/
def inboxList (lockers : DepotLockers) : List (Int × ItemTree) := (inboxItems lockers).take 100

def inboxBlock (env : ObjectEnv) (marketSystemEnabled : Bool) : Block DepotLockers where
  skips _ := false
  root pid := if 0 ≤ pid ∧ pid < 100 then
      some fun item lockers => lockers.insert pid.toNat
        (addToFirst ITEM_INBOX item (getDepotLocker env marketSystemEnabled lockers pid.toNat))
    else none

def storeInboxList (storeInbox : List ItemTree) : List (Int × ItemTree) := storeInbox.map fun item => (0, item)

def storeInboxBlock : Block (List ItemTree) where
  skips _ := false
  root pid := if 0 ≤ pid ∧ pid < 100 then some List.cons else none

/-! ## What the inboxes show -/

variable {env : ObjectEnv} {marketSystemEnabled : Bool} {inbox : Object}

/-- The item table has the inbox, and the other things of a locker are none. -/
structure HasInbox (env : ObjectEnv) (inbox : Object) : Prop where
  created : Object.create env ITEM_INBOX 0 = some (inbox, true)
  id : inbox.item.id = ITEM_INBOX
  stash : ∀ t ∈ createThing env ITEM_SUPPLY_STASH [], t.label.isInbox = false
  market : ∀ t ∈ createThing env ITEM_MARKET [], t.label.isInbox = false

/-- What stands behind the inbox in a locker. -/
def behindInbox (env : ObjectEnv) (marketSystemEnabled : Bool) : List ItemTree :=
  createThing env ITEM_SUPPLY_STASH [] ++ if marketSystemEnabled then createThing env ITEM_MARKET [] else []

def lockerChest (env : ObjectEnv) : ItemTree :=
  .node ⟨Item.create env.items ITEM_DEPOT 0 (env.newDuration ITEM_DEPOT), .none⟩ []

theorem depotLocker_eq (hinbox : HasInbox env inbox) (items : List ItemTree) :
    depotLocker env marketSystemEnabled items =
      [lockerChest env] ++ .node inbox items :: behindInbox env marketSystemEnabled := by
  have hthing : createThing env ITEM_INBOX items = [.node inbox items] := by
    rw [createThing, hinbox.created]
    rfl
  rw [depotLocker, hthing, List.append_assoc]
  rfl

theorem isInbox_lockerChest (env : ObjectEnv) : (lockerChest env).label.isInbox = false := by
  rw [Object.isInbox, lockerChest, Rose.label, Item.create_id]
  decide

theorem isInbox_behind (hinbox : HasInbox env inbox) {t : ItemTree} (ht : t ∈ behindInbox env marketSystemEnabled) :
    t.label.isInbox = false := by
  rcases List.mem_append.mp ht with ht | ht
  · exact hinbox.stash t ht
  · split at ht
    · exact hinbox.market t ht
    · cases ht

/-- An item that goes into the inbox of a locker. -/
theorem addToFirst_depotLocker (hinbox : HasInbox env inbox) (item : ItemTree) (items : List ItemTree) :
    addToFirst ITEM_INBOX item (depotLocker env marketSystemEnabled items) =
      depotLocker env marketSystemEnabled (item :: items) := by
  have hchest : ∀ t ∈ [lockerChest env], t.label.item.id ≠ ITEM_INBOX := by
    intro t ht heq
    have hno := isInbox_lockerChest env
    rw [← List.mem_singleton.mp ht, Object.isInbox, heq] at hno
    exact absurd hno (by decide)
  have hid : (Rose.node inbox items).label.item.id = ITEM_INBOX := hinbox.id
  rw [depotLocker_eq hinbox, depotLocker_eq hinbox, addToFirst_append hchest, addToFirst, if_pos hid]
  rfl

def ShowsInboxes (env : ObjectEnv) (marketSystemEnabled : Bool) (st : Int → List ItemTree) (lockers : DepotLockers) :
    Prop :=
  (∀ depotId < 100, getDepotLocker env marketSystemEnabled lockers depotId =
    depotLocker env marketSystemEnabled (st depotId)) ∧ ∀ depotId ∈ lockers, depotId < 100

theorem shows_inboxes (hinbox : HasInbox env inbox) :
    Shows (inboxBlock env marketSystemEnabled) (ShowsInboxes env marketSystemEnabled) where
  place {st lockers pid f item} hst hroot _ := by
    simp only [inboxBlock] at hroot
    split at hroot
    · rename_i hpid
      obtain rfl := Option.some.inj hroot
      obtain ⟨d, rfl⟩ := Int.eq_ofNat_of_zero_le hpid.1
      have hd : d < 100 := Int.ofNat_lt.mp hpid.2
      simp only [Int.toNat_natCast]
      refine ⟨fun depotId hdepot => ?_, fun depotId hmem => ?_⟩
      · by_cases heq : depotId = d
        · subst heq
          rw [getDepotLocker, AList.lookup_insert, Option.getD_some, hst.1 depotId hdepot, Function.update_self,
            addToFirst_depotLocker hinbox]
        · have hne : (depotId : Int) ≠ d := fun h => heq (Int.ofNat.inj h)
          rw [getDepotLocker, AList.lookup_insert_ne heq, Function.update_of_ne hne]
          exact hst.1 depotId hdepot
      · rcases (AList.mem_insert lockers).mp hmem with rfl | hmem
        · exact hd
        · exact hst.2 depotId hmem
    · cases hroot
  other {st lockers pid list} hst hroot := by
    simp only [inboxBlock] at hroot
    split at hroot
    · cases hroot
    · rename_i hpid
      refine ⟨fun depotId hdepot => ?_, hst.2⟩
      have hne : (depotId : Int) ≠ pid := by omega
      rw [Function.update_of_ne hne]
      exact hst.1 depotId hdepot

/-! ## Inboxes that are saved and loaded -/

/-- Lockers with what is in their inboxes. -/
structure LockersOf (env : ObjectEnv) (marketSystemEnabled : Bool) (lockers : DepotLockers)
    (inboxOf : Nat → List ItemTree) : Prop where
  id : ∀ d ∈ lockers, d < 2 ^ 32
  locker : ∀ d ∈ lockers, lockers.lookup d = some (depotLocker env marketSystemEnabled (inboxOf d))
  made : ∀ d ∈ lockers, Rose.AllOf (Object.Made env) (inboxOf d)

theorem lockerPid_eq_iff {d depotId : Nat} (hd : d < 2 ^ 32) (hdepot : depotId < 100) :
    lockerPid d = depotId ↔ d = depotId := by
  rw [lockerPid, BitVec.toInt_eq_toNat_cond, BitVec.toNat_ofNat, Nat.mod_eq_of_lt hd]
  omega

theorem flatMap_inboxItem (hinbox : HasInbox env inbox) (d : Nat) (items : List ItemTree) :
    (depotLocker env marketSystemEnabled items).flatMap (inboxItem d) = items.map (lockerPid d, ·) := by
  have hno {t : ItemTree} (ht : t.label.isInbox = false) : inboxItem d t = [] := by
    rw [inboxItem.eq_def, ht]
    rfl
  have hyes : inboxItem d (.node inbox items) = items.map (lockerPid d, ·) := by
    have hid : (Rose.node inbox items).label.isInbox = true := by
      rw [Object.isInbox, Rose.label, hinbox.id]
      decide
    rw [inboxItem, if_pos hid]
  rw [depotLocker_eq hinbox, List.flatMap_append, List.flatMap_cons, List.flatMap_cons, List.flatMap_nil,
    hno (isInbox_lockerChest env), hyes,
    List.flatMap_eq_nil_iff.mpr fun t ht => hno (isInbox_behind hinbox ht), List.append_nil, List.append_nil,
    List.nil_append]

/-- The items in the inbox of a locker are those with its id. -/
theorem rootsAt_inboxItems (hinbox : HasInbox env inbox) {lockers : DepotLockers} {inboxOf : Nat → List ItemTree}
    (h : LockersOf env marketSystemEnabled lockers inboxOf) {depotId : Nat} (hdepot : depotId < 100) :
    rootsAt (inboxItems lockers) depotId = if depotId ∈ lockers then inboxOf depotId else [] := by
  have hne : ∀ d ∈ lockers, d ≠ depotId → ∀ list : List ItemTree,
      rootsAt (list.flatMap (inboxItem d)) depotId = [] := by
    intro d hd hne list
    rw [rootsAt_flatMap]
    refine List.flatMap_eq_nil_iff.mpr fun t _ => ?_
    have hpid : lockerPid d ≠ depotId := fun heq => hne ((lockerPid_eq_iff (h.id d hd) hdepot).mp heq)
    rw [inboxItem.eq_def]
    split
    · cases t with
      | leaf o => rfl
      | node o ts => exact (rootsAt_map _ _ _).trans (if_neg hpid)
    · rfl
  rw [inboxItems, rootsAt_entries (f := fun d list => list.flatMap (inboxItem d)) lockers hne]
  by_cases hmem : depotId ∈ lockers
  · rw [h.locker depotId hmem, if_pos hmem, Option.map_some, Option.getD_some, flatMap_inboxItem hinbox]
    exact (rootsAt_map _ _ _).trans (if_pos ((lockerPid_eq_iff (h.id depotId hmem) hdepot).mpr rfl))
  · rw [AList.lookup_eq_none.mpr hmem, if_neg hmem]
    rfl

theorem mem_inboxItems (hinbox : HasInbox env inbox) {lockers : DepotLockers} {inboxOf : Nat → List ItemTree}
    (h : LockersOf env marketSystemEnabled lockers inboxOf) {g : Int × ItemTree} (hg : g ∈ inboxItems lockers) :
    ∃ d ∈ lockers, g.1 = lockerPid d ∧ g.2 ∈ inboxOf d := by
  obtain ⟨⟨d, list⟩, he, hg⟩ := List.mem_flatMap.mp hg
  have hmem : d ∈ lockers := AList.mem_keys.mpr (List.mem_map_of_mem he)
  have hlist : lockers.lookup d = some list := (AList.mem_lookup_iff).mpr he
  rw [h.locker d hmem] at hlist
  rw [← Option.some.inj hlist] at hg
  change g ∈ (depotLocker env marketSystemEnabled (inboxOf d)).flatMap (inboxItem d) at hg
  rw [flatMap_inboxItem hinbox] at hg
  obtain ⟨t, ht, rfl⟩ := List.mem_map.mp hg
  exact ⟨d, hmem, rfl, ht⟩

/-- Two lockers show the same if their inboxes do. -/
theorem view_depotLocker (hinbox : HasInbox env inbox) (items items' : List ItemTree) :
    (depotLocker env marketSystemEnabled items).map (view env) =
        (depotLocker env marketSystemEnabled items').map (view env) ↔
      Rose.mapAll (shape env) items = Rose.mapAll (shape env) items' := by
  rw [depotLocker_eq hinbox, depotLocker_eq hinbox]
  simp [view, Rose.map]

theorem getDepotLocker_eq {lockers : DepotLockers} {inboxOf : Nat → List ItemTree}
    (h : LockersOf env marketSystemEnabled lockers inboxOf) (depotId : Nat) :
    getDepotLocker env marketSystemEnabled lockers depotId =
      depotLocker env marketSystemEnabled (if depotId ∈ lockers then inboxOf depotId else []) := by
  rw [getDepotLocker]
  split
  · rename_i hmem
    rw [h.locker depotId hmem, Option.getD_some]
  · rename_i hmem
    rw [AList.lookup_eq_none.mpr hmem, Option.getD_none]

theorem inboxItems_pid_le (hinbox : HasInbox env inbox) {lockers : DepotLockers} {inboxOf : Nat → List ItemTree}
    (h : LockersOf env marketSystemEnabled lockers inboxOf) (hsmall : ∀ d ∈ lockers, d < 100 ∨ inboxOf d = []) :
    ∀ g ∈ inboxItems lockers, g.1 ≤ 100 := by
  intro g hg
  obtain ⟨d, hmem, hpid, ht⟩ := mem_inboxItems hinbox h hg
  have hd : d < 100 := (hsmall d hmem).resolve_right (List.ne_nil_of_mem ht)
  rw [hpid, (lockerPid_eq_iff (h.id d hmem) hd).mpr rfl]
  omega

/-- Where a hundred items are not all, some locker gets less than it had. -/
theorem exists_fewer (hinbox : HasInbox env inbox) {lockers : DepotLockers} {inboxOf : Nat → List ItemTree}
    (h : LockersOf env marketSystemEnabled lockers inboxOf) (hsmall : ∀ d ∈ lockers, d < 100 ∨ inboxOf d = [])
    (hmany : 100 < (inboxItems lockers).length) :
    ∃ d ∈ lockers, d < 100 ∧ (rootsAt (inboxList lockers) d).length < (inboxOf d).length := by
  obtain ⟨g, rest, hdrop⟩ := List.exists_cons_of_ne_nil fun hnil : (inboxItems lockers).drop 100 = [] =>
    absurd (List.drop_eq_nil_iff.mp hnil) (not_le.mpr hmany)
  have hg : g ∈ inboxItems lockers := List.mem_of_mem_drop (hdrop ▸ List.mem_cons_self)
  obtain ⟨d, hmem, hpid, ht⟩ := mem_inboxItems hinbox h hg
  have hd : d < 100 := (hsmall d hmem).resolve_right (List.ne_nil_of_mem ht)
  have hpid' : g.1 = d := hpid.trans ((lockerPid_eq_iff (h.id d hmem) hd).mpr rfl)
  have hsplit : inboxOf d = rootsAt (inboxList lockers) d ++ rootsAt ((inboxItems lockers).drop 100) d := by
    have hroots := rootsAt_inboxItems hinbox h hd
    rw [if_pos hmem, ← List.take_append_drop 100 (inboxItems lockers), rootsAt_append] at hroots
    exact hroots.symm
  have hlast : 0 < (rootsAt ((inboxItems lockers).drop 100) d).length := by
    rw [hdrop, rootsAt, List.filter_cons_of_pos (by simpa using hpid'), List.map_cons]
    exact Nat.succ_pos _
  refine ⟨d, hmem, hd, ?_⟩
  rw [hsplit, List.length_append]
  exact Nat.lt_add_of_pos_right hlast

/-- The lockers are as they were if and only if the inboxes have at most a hundred items, each locker that
has one has an id below 100, and every item keeps its sub type. -/
theorem inboxes_loaded_iff (hinbox : HasInbox env inbox) {lockers : DepotLockers} {inboxOf : Nat → List ItemTree}
    (h : LockersOf env marketSystemEnabled lockers inboxOf) :
    (∀ depotId < 2 ^ 32, (getDepotLocker env marketSystemEnabled
        (saveAndLoad env (inboxBlock env marketSystemEnabled) (inboxList lockers) ∅) depotId).map (view env) =
          (getDepotLocker env marketSystemEnabled lockers depotId).map (view env)) ↔
      (inboxItems lockers).length ≤ 100 ∧ (∀ d ∈ lockers, d < 100 ∨ inboxOf d = []) ∧
        ∀ d ∈ lockers, Rose.AllOf (fun o _ => o.KeepsSubType env) (inboxOf d) := by
  have hroot : ∀ sid : Nat, 100 < sid → (inboxBlock env marketSystemEnabled).root sid = none := by
    intro sid hsid
    exact if_neg (by omega)
  obtain ⟨st, ⟨hst, hloaded⟩, hcontents⟩ := saveAndLoad_shows env (shows_inboxes hinbox) hroot ∅
    ⟨fun _ _ => rfl, fun d hd => absurd hd (AList.notMem_empty d)⟩
  have hlarge {d : Nat} (hd : ¬ d < 100) : getDepotLocker env marketSystemEnabled
      (saveAndLoad env (inboxBlock env marketSystemEnabled) (inboxList lockers) ∅) d =
        depotLocker env marketSystemEnabled [] := by
    rw [getDepotLocker, AList.lookup_eq_none.mpr fun hmem => hd (hloaded d hmem), Option.getD_none]
  have hroots (hsmall : ∀ d ∈ lockers, d < 100 ∨ inboxOf d = []) {d : Nat} (hd : d < 100) :
      st d = Rose.rereadAll (keptObject env (inboxBlock env marketSystemEnabled)) (rootsAt (inboxList lockers) d) :=
    hcontents (fun g hg => inboxItems_pid_le hinbox h hsmall g (List.mem_of_mem_take hg)) d (by omega)
  have hfaithful : Faithful (keptObject env (inboxBlock env marketSystemEnabled)) (shape env) (shape env)
      (Object.Made env) fun o _ => o.KeepsSubType env := faithful_all fun _ => rfl
  constructor
  · intro hsame
    have hsmall : ∀ d ∈ lockers, d < 100 ∨ inboxOf d = [] := by
      intro d hmem
      refine or_iff_not_imp_left.mpr fun hd => ?_
      have hview := hsame d (h.id d hmem)
      rw [hlarge hd, getDepotLocker_eq h, if_pos hmem, view_depotLocker hinbox, Rose.mapAll_eq, Rose.mapAll_eq] at hview
      exact List.map_eq_nil_iff.mp hview.symm
    have hinboxes {d : Nat} (hmem : d ∈ lockers) (hd : d < 100) :
        Rose.mapAll (shape env) (Rose.rereadAll (keptObject env (inboxBlock env marketSystemEnabled))
          (rootsAt (inboxList lockers) d)) = Rose.mapAll (shape env) (inboxOf d) := by
      have hview := hsame d (h.id d hmem)
      rwa [hst d hd, getDepotLocker_eq h, if_pos hmem, view_depotLocker hinbox, hroots hsmall hd] at hview
    have hfew : (inboxItems lockers).length ≤ 100 := by
      by_contra hmany
      obtain ⟨d, hmem, hd, hfewer⟩ := exists_fewer hinbox h hsmall (not_le.mp hmany)
      have hlength := congrArg List.length (hinboxes hmem hd)
      rw [Rose.mapAll_eq, Rose.mapAll_eq, List.length_map, List.length_map] at hlength
      have hle := length_rereadAll_le (keptObject env (inboxBlock env marketSystemEnabled)) (rootsAt (inboxList lockers) d)
      omega
    refine ⟨hfew, hsmall, fun d hmem => ?_⟩
    rcases hsmall d hmem with hd | hnil
    · have hboth := hinboxes hmem hd
      rw [inboxList, List.take_of_length_le hfew, rootsAt_inboxItems hinbox h hd, if_pos hmem,
        map_rereadAll hfaithful _ (h.made d hmem)] at hboth
      exact hboth
    · rw [hnil]
      trivial
  · rintro ⟨hfew, hsmall, hkeeps⟩ d _
    rw [getDepotLocker_eq h]
    by_cases hd : d < 100
    · rw [hst d hd, hroots hsmall hd, inboxList, List.take_of_length_le hfew, rootsAt_inboxItems hinbox h hd,
        view_depotLocker hinbox]
      split
      · rename_i hmem
        exact (map_rereadAll hfaithful _ (h.made d hmem)).mpr (hkeeps d hmem)
      · rfl
    · rw [hlarge hd]
      split
      · rename_i hmem
        rw [(hsmall d hmem).resolve_left hd]
      · rfl

/-! ## The store inbox -/

/-- All items that are loaded go to one list, which is that of the `pid` 0 if no other is used. -/
def ShowsStore (st : Int → List ItemTree) (storeInbox : List ItemTree) : Prop :=
  (∀ pid, pid ≠ 0 → 0 ≤ pid → pid < 100 → st pid = []) → storeInbox = st 0

theorem shows_store : Shows storeInboxBlock ShowsStore where
  place {st storeInbox pid f item} hst hroot _ := by
    simp only [storeInboxBlock] at hroot
    split at hroot
    · rename_i hpid
      obtain rfl := Option.some.inj hroot
      intro hother
      by_cases hzero : pid = 0
      · subst hzero
        rw [Function.update_self, hst fun pid hne hle hlt => ?_]
        exact (Function.update_of_ne hne _ _).symm.trans (hother pid hne hle hlt)
      · have hcons := hother pid hzero hpid.1 hpid.2
        rw [Function.update_self] at hcons
        cases hcons
    · cases hroot
  other {st storeInbox pid list} hst hroot := by
    simp only [storeInboxBlock] at hroot
    split at hroot
    · cases hroot
    · rename_i hpid
      have hne {pid' : Int} (hle : 0 ≤ pid') (hlt : pid' < 100) : pid' ≠ pid := fun heq => hpid (heq ▸ ⟨hle, hlt⟩)
      intro hother
      rw [Function.update_of_ne (hne le_rfl (by decide))]
      exact hst fun pid' hpid' hle hlt =>
        (Function.update_of_ne (hne hle hlt) _ _).symm.trans (hother pid' hpid' hle hlt)

theorem storeInbox_loaded (env : ObjectEnv) (storeInbox : List ItemTree) :
    saveAndLoad env storeInboxBlock (storeInboxList storeInbox) [] =
      Rose.rereadAll (keptObject env storeInboxBlock) storeInbox := by
  have hroot : ∀ sid : Nat, 100 < sid → storeInboxBlock.root sid = none := by
    intro sid hsid
    exact if_neg (by omega)
  have hpids : ∀ g ∈ storeInboxList storeInbox, g.1 ≤ 100 := by
    intro g hg
    obtain ⟨t, _, rfl⟩ := List.mem_map.mp hg
    exact Int.zero_le_ofNat 100
  obtain ⟨st, hst, hcontents⟩ := saveAndLoad_shows env shows_store hroot [] (fun _ => rfl)
  rw [hst fun pid hne _ hlt => ?_, hcontents hpids 0 (by decide), storeInboxList, rootsAt_map, if_pos rfl]
  rw [hcontents hpids pid (by omega), storeInboxList, rootsAt_map, if_neg (Ne.symm hne)]
  rfl

theorem faithful_storeInbox (env : ObjectEnv) : Faithful (keptObject env storeInboxBlock) (shape env) (shape env)
    (Object.Made env) fun o _ => o.KeepsSubType env := faithful_all fun _ => rfl

/-! ## Both inboxes -/

/-- Every locker and the store inbox show the same. -/
def SameInboxes (env : ObjectEnv) (marketSystemEnabled : Bool) (lockers lockers' : DepotLockers)
    (storeInbox storeInbox' : List ItemTree) : Prop :=
  (∀ depotId < 2 ^ 32, (getDepotLocker env marketSystemEnabled lockers' depotId).map (view env) =
    (getDepotLocker env marketSystemEnabled lockers depotId).map (view env)) ∧
  storeInbox'.map (view env) = storeInbox.map (view env)

/-- The inboxes and the store inbox survive if and only if there are at most a hundred items in the
inboxes, each locker that has one has an id below 100, and every item keeps its sub type. -/
theorem inboxes_same_iff (hinbox : HasInbox env inbox) {lockers : DepotLockers} {inboxOf : Nat → List ItemTree}
    {storeInbox : List ItemTree} (h : LockersOf env marketSystemEnabled lockers inboxOf)
    (hstore : Rose.AllOf (Object.Made env) storeInbox) :
    SameInboxes env marketSystemEnabled
        lockers (saveAndLoad env (inboxBlock env marketSystemEnabled) (inboxList lockers) ∅)
        storeInbox (saveAndLoad env storeInboxBlock (storeInboxList storeInbox) []) ↔
      ((inboxItems lockers).length ≤ 100 ∧ (∀ d ∈ lockers, d < 100 ∨ inboxOf d = []) ∧
        ∀ d ∈ lockers, Rose.AllOf (fun o _ => o.KeepsSubType env) (inboxOf d)) ∧
      Rose.AllOf (fun o _ => o.KeepsSubType env) storeInbox := by
  refine and_congr (inboxes_loaded_iff hinbox h) ?_
  rw [storeInbox_loaded]
  have hboth := map_rereadAll (faithful_storeInbox env) storeInbox hstore
  rwa [Rose.mapAll_eq, Rose.mapAll_eq] at hboth

/-! ## An inbox with coins -/

/-- The inbox is the only container. -/
def inboxEnv : ObjectEnv where
  items id := if id = ITEM_INBOX then { id, group := .container } else { id }

def inboxCoin : ItemTree := .leaf ⟨{ id := 3031 }, .none⟩

def coinLockers (n : Nat) : DepotLockers := AList.singleton 1 (depotLocker inboxEnv false (List.replicate n inboxCoin))

theorem inboxEnv_hasInbox : HasInbox inboxEnv ⟨Item.create inboxEnv.items ITEM_INBOX 0 0, .none⟩ where
  created := rfl
  id := rfl
  stash t ht := by
    rw [List.mem_singleton.mp ht]
    decide
  market t ht := by
    rw [List.mem_singleton.mp ht]
    decide

theorem allOf_replicate {p : Object → Bool → Prop} {t : ItemTree} (h : t.All p) (n : Nat) :
    Rose.AllOf p (List.replicate n t) := by
  refine (Rose.allOf_iff p _).mpr fun t' ht' => ?_
  rw [List.eq_of_mem_replicate ht']
  exact h

theorem mem_coinLockers {n d : Nat} (h : d ∈ coinLockers n) : d = 1 := List.mem_singleton.mp h

theorem made_inboxCoin : inboxCoin.All (Object.Made inboxEnv) := ⟨⟨by decide, fun map h => by cases h⟩, by decide⟩

theorem keeps_inboxCoin : inboxCoin.All fun o _ => o.KeepsSubType inboxEnv := by
  exact (rfl : (1 : BitVec 8) = 1)

theorem lockersOf_coinLockers (n : Nat) :
    LockersOf inboxEnv false (coinLockers n) fun _ => List.replicate n inboxCoin where
  id d hd := by
    rw [mem_coinLockers hd]
    decide
  locker d hd := by
    rw [mem_coinLockers hd]
    rfl
  made d _ := allOf_replicate made_inboxCoin n

/-- A hundred coins are all there. -/
theorem coinLockers_hundred : SameInboxes inboxEnv false
    (coinLockers 100) (saveAndLoad inboxEnv (inboxBlock inboxEnv false) (inboxList (coinLockers 100)) ∅)
    [inboxCoin] (saveAndLoad inboxEnv storeInboxBlock (storeInboxList [inboxCoin]) []) := by
  have hstore : Rose.AllOf (Object.Made inboxEnv) [inboxCoin] := ⟨made_inboxCoin, trivial⟩
  refine (inboxes_same_iff inboxEnv_hasInbox (lockersOf_coinLockers 100) hstore).mpr ⟨⟨by decide +kernel, ?_, ?_⟩, ?_⟩
  · intro d hd
    rw [mem_coinLockers hd]
    exact .inl (by decide)
  · exact fun _ _ => allOf_replicate keeps_inboxCoin 100
  · exact ⟨keeps_inboxCoin, trivial⟩

/-- Of a hundred and one coins one is lost. -/
theorem coinLockers_lost : ¬ SameInboxes inboxEnv false
    (coinLockers 101) (saveAndLoad inboxEnv (inboxBlock inboxEnv false) (inboxList (coinLockers 101)) ∅)
    [] (saveAndLoad inboxEnv storeInboxBlock (storeInboxList []) []) := by
  intro h
  have hfew := ((inboxes_loaded_iff inboxEnv_hasInbox (lockersOf_coinLockers 101)).mp h.1).1
  exact absurd hfew (by decide +kernel)

end IOLoginData

end ForgottenServer
