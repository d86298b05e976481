import ForgottenServer.Login.Items

/-! # The reward chest

The block `player_rewarditems`. The saver writes what is in the reward containers with a `pid` for
each container. The loader does not read the `pid`: it puts every row, also that of an item in a
bag, into a container for the date that the item itself carries. -/

open BreadthFirst

namespace ForgottenServer

def Item.removeAttribute (item : Item) (a : IntAttr) : Item := { item with ints := Function.update item.ints a none }

namespace IOLoginData

/-- The items in the chest with their `pid`s. -/
def rewardList : Nat → List ItemTree → List (Int × ItemTree)
  | _, [] => []
  | pidCounter, .node _ itemlist :: chest =>
    itemlist.map (fun subItem => ((pidCounter : Int), subItem)) ++ rewardList (pidCounter + 1) chest
  | pidCounter, .leaf item :: chest => (0, .leaf item) :: rewardList pidCounter chest

/-- The containers of the loader by date. Every item in them stands with the `sid` of its row, so that it
can be told from others that look the same. -/
abbrev RewardContainers := AList fun _ : BitVec 64 => Object × List (Nat × ItemTree)

def newRewardContainer (env : ObjectEnv) (rewardDate : BitVec 64) : Option (Object × List (Nat × ItemTree)) :=
  match Object.create env ITEM_REWARD_CONTAINER 0 with
  | some (container, true) => some ({ container with item := container.item.setIntAttr .date rewardDate }, [])
  | _ => none

/-- `Container::internalAddThing`: in a reward container a stackable item loses its date. -/
def asRewardItem (env : ObjectEnv) (container : Object) (item : Object) : Object :=
  if container.item.id = ITEM_REWARD_CONTAINER ∧ (env.items item.item.id).stackable then
    { item with item := item.item.removeAttribute .date }
  else item

def relabel (f : Object → Object) : ItemTree → ItemTree
  | .leaf o => .leaf (f o)
  | .node o itemlist => .node (f o) itemlist

/-- The item goes to the front of the container of the date, which is made if there is none. -/
def addReward (env : ObjectEnv) (rewardContainers : RewardContainers) (rewardDate : BitVec 64) (sid : Nat)
    (item : ItemTree) : RewardContainers :=
  match (rewardContainers.lookup rewardDate).or (newRewardContainer env rewardDate) with
  | none => rewardContainers
  | some (container, itemlist) =>
    rewardContainers.insert rewardDate (container, (sid, relabel (asRewardItem env container) item) :: itemlist)

/-- One turn of the loop. -/
def rewardStep (env : ObjectEnv) (expireCutoff : BitVec 64) (itemMap : ItemMap) (rewardContainers : RewardContainers)
    (sid : Nat) : RewardContainers :=
  match itemMap sid with
  | none => rewardContainers
  | some (item, _) =>
    let rewardDate := item.label.item.getDate
    if rewardDate.slt expireCutoff then rewardContainers
    else addReward env rewardContainers rewardDate sid item

def loadRewards (env : ObjectEnv) (expireCutoff : BitVec 64) (result : List ItemRow) : RewardContainers :=
  (result.map (·.number)).foldl (rewardStep env expireCutoff (loadItems env result)) ∅

def saveAndLoadRewards (env : ObjectEnv) (expireCutoff : BitVec 64) (chest : List ItemTree) : RewardContainers :=
  loadRewards env expireCutoff (orderBySid (saveItems env (rewardList 1 chest)))

/-! ## What a date has -/

/-- The dates of the containers in a chest. -/
def rewardDates (chest : List ItemTree) : List (BitVec 64) := chest.map (·.label.item.getDate)

/-- The items in the containers, each with the date of its container, in the order of their rows. -/
def datedItems (chest : List ItemTree) : List (BitVec 64 × ItemTree) :=
  chest.flatMap fun reward => reward.children.map fun item => (reward.label.item.getDate, item)

/-- The items of a date before, with the number that `saveItems` gives to each. -/
def itemsOfDate (env : ObjectEnv) (chest : List ItemTree) (date : BitVec 64) : List (Nat × Rose (UInt16 × BitVec 16)) :=
  ((datedItems chest).zipIdx 101).filterMap fun x => if x.1.1 = date then some (x.2, view env x.1.2) else none

def contents (rewardContainers : RewardContainers) (date : BitVec 64) : List (Nat × ItemTree) :=
  ((rewardContainers.lookup date).map (·.2)).getD []

/-- The loaded chest has one container for each date of the old one, and in it the items of that date, each
with all that is in it. -/
def SameRewards (env : ObjectEnv) (chest : List ItemTree) (rewardContainers : RewardContainers) : Prop :=
  (∀ date, date ∈ rewardContainers ↔ date ∈ rewardDates chest) ∧
    ∀ date, (contents rewardContainers date).map (fun x => (x.1, view env x.2)) = itemsOfDate env chest date

/-- The item table has the reward container. -/
structure HasRewardContainer (env : ObjectEnv) (container : Object) : Prop where
  created : Object.create env ITEM_REWARD_CONTAINER 0 = some (container, true)

variable {env : ObjectEnv} {container : Object} {expireCutoff : BitVec 64}

/-- A row whose item has this date and has not expired. -/
def entryOf (env : ObjectEnv) (expireCutoff date : BitVec 64) (row : ItemRow) :
    Option (Nat × Rose (UInt16 × BitVec 16)) :=
  match reloadColumns env row.label with
  | some (o, isContainer) => if o.item.getDate = date ∧ ¬ date.slt expireCutoff then
      some (row.number, view env (Rose.build o isContainer [])) else none
  | none => none

theorem view_relabel (c : Object) (item : ItemTree) : view env (relabel (asRewardItem env c) item) = view env item := by
  have hshape (o : Object) : shape env (asRewardItem env c o) = shape env o := by
    rw [asRewardItem]
    split
    · rw [shape, shape, Item.getSubType_kind, Item.getSubType_kind]
      rfl
    · rfl
  cases item with
  | leaf o => rw [relabel, view, view, Rose.map, Rose.map, hshape]
  | node o ts => rw [relabel, view, view, Rose.map, Rose.map, hshape]

/-- The containers after the last rows went through the loop. -/
def Regrouped (env : ObjectEnv) (expireCutoff : BitVec 64) (done : List ItemRow) (rewardContainers : RewardContainers) :
    Prop :=
  ∀ date, (contents rewardContainers date).map (fun x => (x.1, view env x.2)) =
      done.filterMap (entryOf env expireCutoff date) ∧
    (date ∈ rewardContainers ↔ contents rewardContainers date ≠ [])

theorem contents_insert (rewardContainers : RewardContainers) (date date' : BitVec 64)
    (entry : Object × List (Nat × ItemTree)) : contents (rewardContainers.insert date' entry) date =
      if date = date' then entry.2 else contents rewardContainers date := by
  rw [contents]
  split
  · rename_i heq
    subst heq
    rw [AList.lookup_insert]
    rfl
  · rename_i hne
    rw [AList.lookup_insert_ne hne, contents]

theorem addReward_eq (hcontainer : HasRewardContainer env container) (rewardContainers : RewardContainers)
    (rewardDate : BitVec 64) (sid : Nat) (item : ItemTree) :
    ∃ c, addReward env rewardContainers rewardDate sid item = rewardContainers.insert rewardDate
      (c, (sid, relabel (asRewardItem env c) item) :: contents rewardContainers rewardDate) := by
  rw [addReward, contents, newRewardContainer, hcontainer.created]
  cases rewardContainers.lookup rewardDate with
  | none => exact ⟨_, rfl⟩
  | some entry => exact ⟨entry.1, rfl⟩

theorem rewardStep_regrouped (hcontainer : HasRewardContainer env container) {itemMap : ItemMap} {row : ItemRow}
    {done : List ItemRow} {rewardContainers : RewardContainers}
    (hentry : itemMap row.number = (reloadColumns env row.label).map fun n => (Rose.build n.1 n.2 [], row.parent))
    (h : Regrouped env expireCutoff done rewardContainers) : Regrouped env expireCutoff (row :: done)
      (rewardStep env expireCutoff itemMap rewardContainers row.number) := by
  intro date
  obtain ⟨hitems, hmem⟩ := h date
  rw [List.filterMap_cons, entryOf, rewardStep, hentry]
  rcases reloadColumns env row.label with _ | ⟨o, isContainer⟩
  · exact ⟨hitems, hmem⟩
  · simp only [Option.map_some, label_build]
    cases hslt : o.item.getDate.slt expireCutoff with
    | true =>
      have hno : ¬ (o.item.getDate = date ∧ ¬ date.slt expireCutoff = true) := fun hand => hand.2 (hand.1 ▸ hslt)
      rw [if_neg hno]
      exact ⟨hitems, hmem⟩
    | false =>
      obtain ⟨c, hadd⟩ := addReward_eq hcontainer rewardContainers o.item.getDate row.number
        (Rose.build o isContainer [])
      simp only [Bool.false_eq_true, if_false, hadd, contents_insert, AList.mem_insert]
      by_cases heq : date = o.item.getDate
      · subst heq
        rw [if_pos rfl, if_pos ⟨rfl, by rw [hslt]; decide⟩, List.map_cons, view_relabel, ← hitems]
        exact ⟨rfl, iff_of_true (.inl rfl) (List.cons_ne_nil _ _)⟩
      · rw [if_neg heq, if_neg fun hand => heq hand.1.symm]
        exact ⟨hitems, ⟨fun hor => hmem.mp (hor.resolve_left heq), fun hne => .inr (hmem.mpr hne)⟩⟩

/-- The whole loop. -/
theorem rewardLoop_regrouped (hcontainer : HasRewardContainer env container) {itemMap : ItemMap} (todo : List ItemRow) :
    ∀ {done : List ItemRow} {rewardContainers : RewardContainers},
    (∀ row ∈ todo, itemMap row.number = (reloadColumns env row.label).map fun n => (Rose.build n.1 n.2 [], row.parent)) →
    Regrouped env expireCutoff done rewardContainers → Regrouped env expireCutoff (todo ++ done)
      ((todo.reverse.map (·.number)).foldl (rewardStep env expireCutoff itemMap) rewardContainers) := by
  induction todo using List.reverseRecOn with
  | nil => exact fun _ h => h
  | append_singleton todo row ih =>
    intro done rewardContainers hentry h
    have hstep := rewardStep_regrouped hcontainer (hentry row (by simp)) h
    rw [List.append_assoc, List.singleton_append, List.reverse_append, List.reverse_singleton, List.singleton_append,
      List.map_cons, List.foldl_cons]
    exact ih (fun row' hrow' => hentry row' (List.mem_append_left _ hrow')) hstep

theorem saveItems_pairwise (env : ObjectEnv) (itemList : List (Int × ItemTree)) :
    (saveItems env itemList).Pairwise (·.number < ·.number) :=
  List.pairwise_map.mpr (flatten_number_gt Int.ofNat (totalTurns itemList []) itemList [] 100).2

/-- What is in the loaded chest: every row by the date of its own item. -/
theorem rewards_loaded (hcontainer : HasRewardContainer env container) (expireCutoff : BitVec 64) (chest : List ItemTree) :
    Regrouped env expireCutoff (saveItems env (rewardList 1 chest)) (saveAndLoadRewards env expireCutoff chest) := by
  have hpair := saveItems_pairwise env (rewardList 1 chest)
  obtain ⟨hentry, _⟩ := mapOf_loadItems env (⟨fun _ => false, fun _ => none⟩ : Block Unit) hpair
  have hstart : Regrouped env expireCutoff [] ∅ := fun date =>
    ⟨rfl, iff_of_false (AList.notMem_empty date) fun hne => hne rfl⟩
  have hloop := rewardLoop_regrouped hcontainer (saveItems env (rewardList 1 chest)) hentry hstart
  rw [List.append_nil] at hloop
  rw [saveAndLoadRewards, orderBySid_eq hpair]
  exact hloop

/-! ## When nothing is lost -/

/-- A chest with reward containers, none of which has expired. -/
structure RewardChestOf (env : ObjectEnv) (expireCutoff : BitVec 64) (chest : List ItemTree) : Prop where
  containers : ∀ reward ∈ chest, ∃ o itemlist, reward = .node o itemlist
  unexpired : ∀ date ∈ rewardDates chest, date.slt expireCutoff = false
  made : ∀ x ∈ datedItems chest, x.2.All (Object.Made env)

/-- The item has its own date that of its container, has nothing in it and keeps its sub type. -/
def RewardKept (env : ObjectEnv) (x : BitVec 64 × ItemTree) : Prop :=
  x.2.label.savedDate = x.1 ∧ x.2.children = [] ∧ x.2.label.KeepsSubType env

theorem rewardList_items {chest : List ItemTree} (h : ∀ reward ∈ chest, ∃ o itemlist, reward = .node o itemlist) :
    ∀ pidCounter, (rewardList pidCounter chest).map (·.2) = (datedItems chest).map (·.2) := by
  induction chest with
  | nil => exact fun _ => rfl
  | cons reward chest ih =>
    intro pidCounter
    obtain ⟨o, itemlist, rfl⟩ := h _ List.mem_cons_self
    rw [rewardList, datedItems, List.flatMap_cons, List.map_append, List.map_append, ← datedItems,
      ih fun reward hreward => h reward (List.mem_cons_of_mem _ hreward), List.map_map, List.map_map]
    rfl

/-- The row of an item, by the date that the item carries. -/
theorem entryOf_columns {t : ItemTree} (h : t.All (Object.Made env)) (expireCutoff : BitVec 64) :
    ∃ v, (v = view env t ↔ t.children = [] ∧ t.label.KeepsSubType env) ∧ ∀ date pid sid,
      entryOf env expireCutoff date ⟨pid, sid, t.label.columns env⟩ =
        if t.label.savedDate = date ∧ ¬ date.slt expireCutoff then some (sid, v) else none := by
  have hlabel : ∃ isContainer, t.label.Made env isContainer ∧ ∀ o, view env (Rose.build o isContainer []) = view env t ↔
      shape env o = shape env t.label ∧ t.children = [] := by
    cases t with
    | leaf o => exact ⟨false, h, fun o' => by simp [Rose.build, view, Rose.map, Rose.label, Rose.children]⟩
    | node o ts =>
      refine ⟨true, h.1, fun o' => ?_⟩
      have hnil : Rose.mapAll (shape env) [] = Rose.mapAll (shape env) ts ↔ ts = [] := by
        rw [Rose.mapAll_eq, Rose.mapAll_eq, eq_comm]
        exact List.map_eq_nil_iff
      simp only [Rose.build, if_true, view, Rose.map, Rose.node.injEq, hnil, Rose.label, Rose.children]
  obtain ⟨isContainer, hmade, hview⟩ := hlabel
  obtain ⟨o', hreload, hid, hdate, hsub⟩ := Object.reload_of_made hmade
  have hcolumns : reloadColumns env (t.label.columns env) = some (o', isContainer) := hreload
  refine ⟨view env (Rose.build o' isContainer []), ?_, fun date pid sid => ?_⟩
  · rw [hview, shape, shape, Prod.mk.injEq, hsub]
    exact ⟨fun hboth => ⟨hboth.2, hboth.1.2⟩, fun hboth => ⟨⟨hid, hboth.2⟩, hboth.1⟩⟩
  · simp only [entryOf, hcolumns, hdate]

/-- The row that an item gets with a number. -/
def rewardRow (env : ObjectEnv) (x : (BitVec 64 × ItemTree) × Nat) : ItemRow := ⟨0, x.2, x.1.2.label.columns env⟩

/-- The rows of the items in the containers come first. -/
theorem saveItems_rewards (env : ObjectEnv) (expireCutoff : BitVec 64) {chest : List ItemTree}
    (h : ∀ reward ∈ chest, ∃ o itemlist, reward = .node o itemlist) :
    ∃ rest, (∀ date, (saveItems env (rewardList 1 chest)).filterMap (entryOf env expireCutoff date) =
        ((datedItems chest).zipIdx 101).filterMap (fun x => entryOf env expireCutoff date (rewardRow env x)) ++
          rest.filterMap (entryOf env expireCutoff date)) ∧
      (∀ row ∈ rest, ∀ x ∈ (datedItems chest).zipIdx 101, x.2 < row.number) ∧
      ((∀ x ∈ datedItems chest, x.2.children = []) → rest = []) := by
  have hitems := rewardList_items h 1
  obtain ⟨rest, hrest, hnil⟩ := flatten_roots Int.ofNat (rewardList 1 chest) (n := 100) (le_refl (totalTurns _ []))
  have hsave : saveItems env (rewardList 1 chest) = ((rewardList 1 chest).zipIdx 101).map
      (fun g => (⟨g.1.1, g.2, g.1.2.label.columns env⟩ : ItemRow)) ++
        rest.map fun row => ⟨row.parent, row.number, row.label.columns env⟩ := by
    rw [saveItems, rows, hrest, List.map_append, List.map_map]
    rfl
  have hzip : ((rewardList 1 chest).zipIdx 101).map (fun g => (g.1.2, g.2)) =
      ((datedItems chest).zipIdx 101).map (fun x => (x.1.2, x.2)) := by
    have hzip' := congrArg (fun l : List ItemTree => l.zipIdx 101) hitems
    simp only [List.zipIdx_map] at hzip'
    exact hzip'
  refine ⟨rest.map fun row => ⟨row.parent, row.number, row.label.columns env⟩, fun date => ?_, fun row hrow x hx => ?_,
    fun hchildren => ?_⟩
  · rw [hsave, List.filterMap_append, List.filterMap_map]
    congr 1
    have hboth := congrArg (List.filterMap fun g : ItemTree × Nat =>
      entryOf env expireCutoff date ⟨0, g.2, g.1.label.columns env⟩) hzip
    rw [List.filterMap_map, List.filterMap_map] at hboth
    exact hboth
  · have hpair := saveItems_pairwise env (rewardList 1 chest)
    rw [hsave] at hpair
    have hx' : (x.1.2, x.2) ∈ ((rewardList 1 chest).zipIdx 101).map (fun g => (g.1.2, g.2)) := by
      rw [hzip]
      exact List.mem_map_of_mem hx
    obtain ⟨g, hg, hgx⟩ := List.mem_map.mp hx'
    have hlt := (List.pairwise_append.mp hpair).2.2 _ (List.mem_map_of_mem hg) row hrow
    rwa [show g.2 = x.2 from (Prod.mk.inj hgx).2] at hlt
  · rw [hnil (fun g hg => absurd hg List.not_mem_nil) fun g hg => ?_, List.map_nil]
    have hmem : g.2 ∈ (datedItems chest).map (·.2) := hitems ▸ List.mem_map_of_mem hg
    obtain ⟨x, hx, hxg⟩ := List.mem_map.mp hmem
    rw [← hxg]
    exact hchildren x hx

theorem mem_rewardDates {chest : List ItemTree} {x : BitVec 64 × ItemTree} (h : x ∈ datedItems chest) :
    x.1 ∈ rewardDates chest := by
  obtain ⟨reward, hreward, hx⟩ := List.mem_flatMap.mp h
  obtain ⟨t, _, rfl⟩ := List.mem_map.mp hx
  exact List.mem_map_of_mem hreward

/-- The number of a row belongs to one item. -/
theorem zipIdx_inj {α : Type} {l : List α} {n : Nat} {x y : α × Nat} (hx : x ∈ l.zipIdx n) (hy : y ∈ l.zipIdx n)
    (h : x.2 = y.2) : x = y := by
  have hx' := List.mem_zipIdx hx
  have hy' := List.mem_zipIdx hy
  obtain ⟨a, i⟩ := x
  obtain ⟨b, j⟩ := y
  obtain rfl : i = j := h
  exact Prod.ext (hx'.2.2.trans hy'.2.2.symm) rfl

theorem entryOf_number {date : BitVec 64} {row : ItemRow} {p : Nat × Rose (UInt16 × BitVec 16)}
    (h : entryOf env expireCutoff date row = some p) : p.1 = row.number := by
  rw [entryOf] at h
  split at h
  · split at h
    · rw [← Option.some.inj h]
    · cases h
  · cases h

theorem itemsOfDate_ne_nil {chest : List ItemTree} {date : BitVec 64} :
    itemsOfDate env chest date ≠ [] ↔ ∃ x ∈ datedItems chest, x.1 = date := by
  constructor
  · intro hne
    obtain ⟨p, hp⟩ := List.exists_mem_of_ne_nil _ hne
    obtain ⟨x, hx, hp⟩ := List.mem_filterMap.mp hp
    split at hp
    · rename_i hdate
      exact ⟨x.1, List.fst_mem_of_mem_zipIdx hx, hdate⟩
    · cases hp
  · rintro ⟨x, hx, rfl⟩
    rw [← List.zipIdx_map_fst 101 (datedItems chest)] at hx
    obtain ⟨y, hy, rfl⟩ := List.mem_map.mp hx
    exact List.ne_nil_of_mem (List.mem_filterMap.mpr ⟨y, hy, if_pos rfl⟩)

/-- The chest survives if and only if every date has an item, and every item in a container carries the
date of the container, has nothing in it and keeps its sub type. -/
theorem rewards_same_iff (hcontainer : HasRewardContainer env container) {chest : List ItemTree}
    (h : RewardChestOf env expireCutoff chest) :
    SameRewards env chest (saveAndLoadRewards env expireCutoff chest) ↔
      (∀ date ∈ rewardDates chest, ∃ x ∈ datedItems chest, x.1 = date) ∧ ∀ x ∈ datedItems chest, RewardKept env x := by
  have hloaded := rewards_loaded hcontainer expireCutoff chest
  obtain ⟨rest, hrows, hlater, hnil⟩ := saveItems_rewards env expireCutoff h.containers
  have hsome {date : BitVec 64} : contents (saveAndLoadRewards env expireCutoff chest) date ≠ [] ↔
      (contents (saveAndLoadRewards env expireCutoff chest) date).map (fun x => (x.1, view env x.2)) ≠ [] := by
    rw [ne_eq, ne_eq, List.map_eq_nil_iff]
  constructor
  · rintro ⟨hdates, hitems⟩
    refine ⟨fun date hdate => ?_, fun x hx => ?_⟩
    · have hne := (hloaded date).2.mp ((hdates date).mpr hdate)
      rw [hsome, hitems] at hne
      exact itemsOfDate_ne_nil.mp hne
    · have hx' := hx
      rw [← List.zipIdx_map_fst 101 (datedItems chest)] at hx'
      obtain ⟨⟨x, n⟩, hxn, rfl⟩ := List.mem_map.mp hx'
      have hmem : (n, view env x.2) ∈ itemsOfDate env chest x.1 :=
        List.mem_filterMap.mpr ⟨(x, n), hxn, if_pos rfl⟩
      rw [← hitems, (hloaded x.1).1, hrows, List.mem_append] at hmem
      obtain ⟨v, hv, hentry⟩ := entryOf_columns (h.made x hx) expireCutoff
      rcases hmem with hroot | hrest
      · obtain ⟨y, hy, hfound⟩ := List.mem_filterMap.mp hroot
        obtain rfl : (x, n) = y := zipIdx_inj hxn hy (entryOf_number hfound)
        rw [rewardRow, hentry] at hfound
        split at hfound
        · rename_i hdate
          exact ⟨hdate.1, hv.mp (Prod.mk.inj (Option.some.inj hfound)).2⟩
        · cases hfound
      · obtain ⟨row, hrow, hfound⟩ := List.mem_filterMap.mp hrest
        exact absurd (entryOf_number hfound) (hlater row hrow (x, n) hxn).ne
  · rintro ⟨hfull, hkept⟩
    have hitems (date : BitVec 64) : (contents (saveAndLoadRewards env expireCutoff chest) date).map
        (fun x => (x.1, view env x.2)) = itemsOfDate env chest date := by
      rw [(hloaded date).1, hrows, hnil fun x hx => (hkept x hx).2.1, List.filterMap_nil, List.append_nil, itemsOfDate]
      refine List.filterMap_congr fun x hx => ?_
      have hmem := List.fst_mem_of_mem_zipIdx hx
      obtain ⟨hdate, hkeeps⟩ := hkept x.1 hmem
      obtain ⟨v, hv, hentry⟩ := entryOf_columns (h.made x.1 hmem) expireCutoff
      have hunexpired := h.unexpired _ (mem_rewardDates hmem)
      rw [rewardRow, hentry, hdate, hv.mpr hkeeps]
      by_cases heq : x.1.1 = date
      · rw [if_pos heq, if_pos ⟨heq, by rw [← heq, hunexpired]; decide⟩]
      · rw [if_neg heq, if_neg fun hand => heq hand.1]
    refine ⟨fun date => ?_, hitems⟩
    rw [(hloaded date).2, hsome, hitems, itemsOfDate_ne_nil]
    exact ⟨fun ⟨x, hx, heq⟩ => heq ▸ mem_rewardDates hx, hfull date⟩

/-! ## A reward -/

/-- Gold coins are stackable, the reward container is a container. -/
def rewardEnv : ObjectEnv where
  items id := if id = ITEM_REWARD_CONTAINER then { id, group := .container }
    else if id = 3031 then { id, stackable := true } else { id }

def dated (id : UInt16) (date : BitVec 64) : Object := ⟨Item.setIntAttr { id } .date date, .none⟩

/-- A container of the date 1000 with one item in it. -/
def rewardChest (o : Object) : List ItemTree := [.node (dated ITEM_REWARD_CONTAINER 1000) [.leaf o]]

theorem rewardEnv_hasRewardContainer :
    HasRewardContainer rewardEnv ⟨Item.create rewardEnv.items ITEM_REWARD_CONTAINER 0 0, .none⟩ := ⟨rfl⟩

theorem rewardChestOf {o : Object} (ho : o.Made rewardEnv false) : RewardChestOf rewardEnv 500 (rewardChest o) where
  containers reward hreward := ⟨_, _, List.mem_singleton.mp hreward⟩
  unexpired date hdate := by
    rw [List.mem_singleton.mp hdate]
    show (1000 : BitVec 64).slt 500 = false
    decide
  made x hx := by
    rw [List.mem_singleton.mp hx]
    exact ho

/-- A sword with the date of its container is there again. -/
theorem rewardChest_sword :
    SameRewards rewardEnv (rewardChest (dated 3264 1000)) (saveAndLoadRewards rewardEnv 500 (rewardChest (dated 3264 1000))) := by
  have hmade : (dated 3264 1000).Made rewardEnv false := ⟨⟨by decide, fun map h => by cases h⟩, by decide⟩
  refine (rewards_same_iff rewardEnv_hasRewardContainer (rewardChestOf hmade)).mpr ⟨fun date hdate => ?_, fun x hx => ?_⟩
  · rw [List.mem_singleton.mp hdate]
    exact ⟨_, List.mem_singleton_self _, rfl⟩
  · rw [List.mem_singleton.mp hx]
    exact ⟨by decide, rfl, rfl⟩

/-- Coins that lost their date in the container are gone. -/
theorem rewardChest_coins :
    ¬ SameRewards rewardEnv (rewardChest ⟨{ id := 3031, count := 5 }, .none⟩)
      (saveAndLoadRewards rewardEnv 500 (rewardChest ⟨{ id := 3031, count := 5 }, .none⟩)) := by
  have hnone : contents (saveAndLoadRewards rewardEnv 500 (rewardChest ⟨{ id := 3031, count := 5 }, .none⟩)) 1000 = [] :=
    rfl
  intro h
  have hitems := h.2 1000
  rw [hnone] at hitems
  cases hitems

end IOLoginData

end ForgottenServer
