import ForgottenServer.Lib.BreadthFirst
import ForgottenServer.Item.Object
import Mathlib

/-! # The items of a player in the database

`saveItems` writes the items of a block with all that is in them, one row for each item
(`iologindata.cpp`). `loadItems` makes an item of each row, and the loop of the block puts them
together again, from the last row to the first.

A block is anything that has places with a `pid` of their own: the slots of the inventory, the
chests and boxes of the depots, the inboxes. -/

open BreadthFirst

namespace ForgottenServer

/-- An item with what is in it. Only a container is a node. -/
abbrev ItemTree := Rose Object

/-- The columns `itemtype`, `count` and `attributes`. -/
structure ItemColumns where
  itemtype : UInt16
  count : BitVec 16
  attributes : List UInt8

/-- A row: its `pid`, its `sid` and the columns of the item. -/
abbrev ItemRow := Row Int ItemColumns

def Object.columns (env : ObjectEnv) (o : Object) : ItemColumns where
  itemtype := o.item.id
  count := o.item.getSubType env.items
  attributes := o.serializeAttr env

namespace IOLoginData

/-- The roots come first, then the containers in the order in which they were met. -/
def saveItems (env : ObjectEnv) (itemList : List (Int × ItemTree)) : List ItemRow :=
  (rows Int.ofNat itemList 100).map fun row => ⟨row.parent, row.number, row.label.columns env⟩

/-- `std::map` from a `sid` to the item and its `pid`. An item that was moved out is as one that
is not there: the loops pass over both. -/
abbrev ItemMap := Int → Option (ItemTree × Int)

def reloadColumns (env : ObjectEnv) (c : ItemColumns) : Option (Object × Bool) :=
  Object.reload env c.itemtype c.count c.attributes

def loadItems (env : ObjectEnv) (result : List ItemRow) : ItemMap :=
  result.foldl (fun itemMap row => match reloadColumns env row.label with
    | some (item, isContainer) =>
      Function.update itemMap row.number (some (Rose.build item isContainer [], row.parent))
    | none => itemMap) fun _ => none

/-- What is special about a block: the items that its loop leaves out, and the `pid`s of its own
places with how an item is put there. -/
structure Block (σ : Type) where
  skips : Object → Bool
  root : Int → Option (ItemTree → σ → σ)

variable {σ : Type}

/-- The item goes in front of what is in the container with the number `pid`. Where there is no such
container, the item is gone. -/
def transferToParent (itemMap : ItemMap) (pid : Int) (item : ItemTree) : ItemMap := match itemMap pid with
  | some (.node container itemlist, pid') =>
    Function.update itemMap pid (some (.node container (item :: itemlist), pid'))
  | _ => itemMap

/-- One turn of the loop of a block. -/
def loadStep (b : Block σ) (st : ItemMap × σ) (sid : Int) : ItemMap × σ :=
  match st.1 sid with
  | none => st
  | some (item, pid) =>
    let itemMap := Function.update st.1 sid none
    if b.skips item.label then (itemMap, st.2)
    else match b.root pid with
      | some place => (itemMap, place item st.2)
      | none => (transferToParent itemMap pid item, st.2)

/-- `result` is ordered by `sid`, the last one first, and so is the loop. -/
def loadBlock (env : ObjectEnv) (b : Block σ) (result : List ItemRow) (s : σ) : σ :=
  ((result.map fun row => (row.number : Int)).foldl (loadStep b) (loadItems env result, s)).2

/-- `ORDER BY sid DESC`. -/
def orderBySid (table : List ItemRow) : List ItemRow := table.insertionSort fun row row' => row'.number ≤ row.number

/-- A block is written to an empty table and read from it into `s`. -/
def saveAndLoad (env : ObjectEnv) (b : Block σ) (itemList : List (Int × ItemTree)) (s : σ) : σ :=
  loadBlock env b (orderBySid (saveItems env itemList)) s

/-- `transferLoadedItem`: the item goes to the front of the container, if it is one. -/
def transferLoadedItem (item : ItemTree) : ItemTree → ItemTree
  | .node container itemlist => .node container (item :: itemlist)
  | .leaf o => .leaf o

/-- The item goes into the first item of the list with this id. -/
def addToFirst (id : UInt16) (item : ItemTree) : List ItemTree → List ItemTree
  | [] => []
  | found :: list =>
    if found.label.item.id = id then transferLoadedItem item found :: list else found :: addToFirst id item list

theorem addToFirst_append {id : UInt16} {item : ItemTree} {list list' : List ItemTree}
    (h : ∀ t ∈ list, t.label.item.id ≠ id) : addToFirst id item (list ++ list') = list ++ addToFirst id item list' := by
  induction list with
  | nil => rfl
  | cons t list ih =>
    rw [List.cons_append, addToFirst, if_neg (h t List.mem_cons_self), ih fun t' ht' => h t' (List.mem_cons_of_mem t ht'),
      List.cons_append]

/-! ## The loop and the forest -/

/-- What is left of the columns of a row after the loop. -/
def kept (env : ObjectEnv) (b : Block σ) (c : ItemColumns) : Option (Object × Bool) :=
  (reloadColumns env c).filter fun n => !b.skips n.1

theorem orderedInsert_last {α : Type} {r : α → α → Prop} [DecidableRel r] {a : α} {l : List α} (h : ∀ x ∈ l, ¬ r a x) :
    l.orderedInsert r a = l ++ [a] := by
  induction l with
  | nil => rfl
  | cons x l ih =>
    rw [List.orderedInsert, if_neg (h x List.mem_cons_self), ih fun y hy => h y (List.mem_cons_of_mem x hy),
      List.cons_append]

theorem orderBySid_eq {table : List ItemRow} (h : table.Pairwise (·.number < ·.number)) :
    orderBySid table = table.reverse := by
  induction table with
  | nil => rfl
  | cons row table ih =>
    obtain ⟨hrow, htable⟩ := List.pairwise_cons.mp h
    rw [orderBySid, List.insertionSort_cons, ← orderBySid, ih htable, List.reverse_cons]
    exact orderedInsert_last fun row' hrow' => not_le.mpr (hrow row' (List.mem_reverse.mp hrow'))

/-- The map after the rows in `done` went through the loop. `done` are the last rows. -/
def MapOf (env : ObjectEnv) (b : Block σ) (todo done : List ItemRow) (itemMap : ItemMap) : Prop :=
  (∀ row ∈ todo, itemMap row.number = (reloadColumns env row.label).map fun n =>
    (Rose.build n.1 n.2 (rebuild Int.ofNat (kept env b) done row.number), row.parent)) ∧
  ∀ sid : Int, (∀ row ∈ todo, sid ≠ row.number) → itemMap sid = none

theorem loadItems_append (env : ObjectEnv) (table : List ItemRow) (row : ItemRow) :
    loadItems env (table ++ [row]) = match reloadColumns env row.label with
      | some (item, isContainer) =>
        Function.update (loadItems env table) row.number (some (Rose.build item isContainer [], row.parent))
      | none => loadItems env table := by
  rw [loadItems, List.foldl_append]
  rfl

theorem number_ne {row row' : ItemRow} (h : row.number < row'.number) : (row.number : Int) ≠ row'.number :=
  fun heq => h.ne (Int.ofNat.inj heq)

theorem mapOf_loadItems (env : ObjectEnv) (b : Block σ) {table : List ItemRow}
    (h : table.Pairwise (·.number < ·.number)) : MapOf env b table [] (loadItems env table.reverse) := by
  induction table with
  | nil => exact ⟨fun row hrow => absurd hrow List.not_mem_nil, fun sid _ => rfl⟩
  | cons row table ih =>
    obtain ⟨hrow, htable⟩ := List.pairwise_cons.mp h
    obtain ⟨hin, hout⟩ := ih htable
    have hnone : loadItems env table.reverse row.number = none := hout _ fun row' hrow' => number_ne (hrow row' hrow')
    rw [List.reverse_cons, loadItems_append]
    cases hreload : reloadColumns env row.label with
    | none =>
      refine ⟨fun row' hrow' => ?_, fun sid hsid => hout sid fun row' hrow' => hsid row' (List.mem_cons_of_mem row hrow')⟩
      rcases List.mem_cons.mp hrow' with rfl | hrow'
      · rw [hreload]
        exact hnone
      · exact hin row' hrow'
    | some n =>
      refine ⟨fun row' hrow' => ?_, fun sid hsid => ?_⟩
      · rcases List.mem_cons.mp hrow' with rfl | hrow'
        · rw [hreload]
          exact Function.update_self ..
        · exact (Function.update_of_ne (number_ne (hrow row' hrow')).symm _ _).trans (hin row' hrow')
      · exact (Function.update_of_ne (hsid row List.mem_cons_self) _ _).trans
          (hout sid fun row' hrow' => hsid row' (List.mem_cons_of_mem row hrow'))

/-- What the places of a block show of the contents of all `pid`s, and that they go on to do so
when an item goes in front. -/
structure Shows (b : Block σ) (shows : (Int → List ItemTree) → σ → Prop) : Prop where
  place : ∀ {st s pid f item}, shows st s → b.root pid = some f → b.skips item.label = false →
    shows (Function.update st pid (item :: st pid)) (f item s)
  other : ∀ {st s pid list}, shows st s → b.root pid = none → shows (Function.update st pid list) s

variable {env : ObjectEnv} {b : Block σ} {shows : (Int → List ItemTree) → σ → Prop}

theorem kept_eq (b : Block σ) {c : ItemColumns} {o : Object} {isContainer : Bool}
    (h : reloadColumns env c = some (o, isContainer)) :
    kept env b c = if b.skips o then none else some (o, isContainer) := by
  rw [kept, h, Option.filter_some]
  cases b.skips o <;> rfl

theorem rebuild_cons (row : ItemRow) (done : List ItemRow) : rebuild Int.ofNat (kept env b) (row :: done) =
    place Int.ofNat (kept env b) row (rebuild Int.ofNat (kept env b) done) := rfl

theorem label_build (o : Object) (isContainer : Bool) (itemlist : List ItemTree) :
    (Rose.build o isContainer itemlist).label = o := by
  cases isContainer <;> rfl

theorem transferToParent_of_ne {itemMap : ItemMap} {sid pid : Int} {item : ItemTree} (h : sid ≠ pid) :
    transferToParent itemMap pid item sid = itemMap sid := by
  rw [transferToParent]
  rcases itemMap pid with _ | ⟨_ | _, _⟩
  · rfl
  · rfl
  · exact Function.update_of_ne h _ _

/-- The children that are there under the number of a row. -/
theorem mapOf_transfer {todo done : List ItemRow} {row : ItemRow} {itemMap : ItemMap} {item : ItemTree}
    (hmap : MapOf env b todo done itemMap)
    (hrebuild : rebuild Int.ofNat (kept env b) (row :: done) = Function.update (rebuild Int.ofNat (kept env b) done)
      row.parent (item :: rebuild Int.ofNat (kept env b) done row.parent)) :
    MapOf env b todo (row :: done) (transferToParent itemMap row.parent item) := by
  obtain ⟨hin, hout⟩ := hmap
  refine ⟨fun row' hrow' => ?_, fun sid hsid => ?_⟩
  · have hentry := hin row' hrow'
    by_cases hpar : (row'.number : Int) = row.parent
    · rw [hrebuild, hpar, Function.update_self]
      rw [hpar] at hentry
      rcases hreload : reloadColumns env row'.label with _ | ⟨o, isContainer⟩
      · rw [hreload] at hentry
        rw [transferToParent, hentry]
        exact hentry
      · rw [hreload] at hentry
        cases isContainer with
        | false =>
          rw [transferToParent, hentry]
          exact hentry
        | true =>
          rw [transferToParent, hentry]
          exact Function.update_self ..
    · rw [hrebuild, Function.update_of_ne hpar, ← hentry]
      exact transferToParent_of_ne hpar
  · have hnone := hout sid hsid
    by_cases hpar : sid = row.parent
    · rw [hpar] at hnone ⊢
      rw [transferToParent, hnone]
      exact hnone
    · exact (transferToParent_of_ne hpar).trans hnone

/-- The row that comes next is the last of those that are left. -/
theorem loadStep_mapOf (hshows : Shows b shows) {todo done : List ItemRow} {row : ItemRow} {st : ItemMap × σ}
    (hroot : ∀ row' ∈ todo, b.root row'.number = none) (hrow : ∀ row' ∈ todo, row'.number < row.number)
    (hmap : MapOf env b (todo ++ [row]) done st.1) (hst : shows (rebuild Int.ofNat (kept env b) done) st.2) :
    MapOf env b todo (row :: done) (loadStep b st row.number).1 ∧
      shows (rebuild Int.ofNat (kept env b) (row :: done)) (loadStep b st row.number).2 := by
  obtain ⟨hin, hout⟩ := hmap
  have hentry := hin row (by simp)
  have hother {sid : Int} (hsid : ∀ row' ∈ todo, sid ≠ row'.number) (hne : sid ≠ row.number) : st.1 sid = none :=
    hout sid fun row' hrow' => by
      rcases List.mem_append.mp hrow' with hrow' | hrow'
      · exact hsid row' hrow'
      · rw [List.mem_singleton.mp hrow']
        exact hne
  rcases hreload : reloadColumns env row.label with _ | ⟨o, isContainer⟩
  · have hnone : st.1 row.number = none := by rw [hentry, hreload]; rfl
    have hsame : rebuild Int.ofNat (kept env b) (row :: done) = rebuild Int.ofNat (kept env b) done := by
      rw [rebuild_cons, place, kept, hreload]
      rfl
    rw [loadStep, hnone, hsame]
    refine ⟨⟨fun row' hrow' => ?_, fun sid hsid => ?_⟩, hst⟩
    · rw [hsame]
      exact hin row' (List.mem_append_left _ hrow')
    · by_cases hne : sid = row.number
      · rw [hne, hnone]
      · exact hother hsid hne
  · have hsome : st.1 row.number = some (Rose.build o isContainer (rebuild Int.ofNat (kept env b) done row.number),
        row.parent) := by rw [hentry, hreload]; rfl
    have hmoved : MapOf env b todo done (Function.update st.1 row.number none) := by
      refine ⟨fun row' hrow' => ?_, fun sid hsid => ?_⟩
      · rw [Function.update_of_ne (number_ne (hrow row' hrow'))]
        exact hin row' (List.mem_append_left _ hrow')
      · by_cases hne : sid = row.number
        · rw [hne, Function.update_self]
        · rw [Function.update_of_ne hne]
          exact hother hsid hne
    have hkept := kept_eq b hreload
    rw [loadStep, hsome]
    simp only [label_build]
    cases hskip : b.skips o with
    | true =>
      have hsame : rebuild Int.ofNat (kept env b) (row :: done) = rebuild Int.ofNat (kept env b) done := by
        rw [rebuild_cons, place, hkept, hskip]
        rfl
      rw [hsame]
      exact ⟨⟨fun row' hrow' => by rw [hsame]; exact hmoved.1 row' hrow', hmoved.2⟩, hst⟩
    | false =>
      have hrebuild : rebuild Int.ofNat (kept env b) (row :: done) = Function.update (rebuild Int.ofNat (kept env b) done)
          row.parent (Rose.build o isContainer (rebuild Int.ofNat (kept env b) done row.number) ::
            rebuild Int.ofNat (kept env b) done row.parent) := by
        rw [rebuild_cons, place, hkept, hskip]
        rfl
      simp only [Bool.false_eq_true, if_false]
      cases hplace : b.root row.parent with
      | none =>
        refine ⟨mapOf_transfer hmoved hrebuild, ?_⟩
        rw [hrebuild]
        exact hshows.other hst hplace
      | some f =>
        refine ⟨⟨fun row' hrow' => ?_, hmoved.2⟩, ?_⟩
        · have hne : (row'.number : Int) ≠ row.parent := fun heq => by
            have hnoroot := hroot row' hrow'
            rw [heq, hplace] at hnoroot
            cases hnoroot
          rw [hrebuild, Function.update_of_ne hne]
          exact hmoved.1 row' hrow'
        · rw [hrebuild]
          exact hshows.place hst hplace (by rw [label_build]; exact hskip)

/-- The whole loop. -/
theorem loadLoop_shows (hshows : Shows b shows) (todo : List ItemRow) : ∀ {done : List ItemRow} {st : ItemMap × σ},
    (∀ row ∈ todo, b.root row.number = none) → todo.Pairwise (·.number < ·.number) → MapOf env b todo done st.1 →
    shows (rebuild Int.ofNat (kept env b) done) st.2 →
    shows (rebuild Int.ofNat (kept env b) (todo ++ done))
      ((todo.reverse.map fun row => (row.number : Int)).foldl (loadStep b) st).2 := by
  induction todo using List.reverseRecOn with
  | nil => exact fun _ _ _ hst => hst
  | append_singleton todo row ih =>
    intro done st hroot hpair hmap hst
    obtain ⟨hpair', _, hlast⟩ := List.pairwise_append.mp hpair
    have hroot' : ∀ row' ∈ todo, b.root row'.number = none := fun row' hrow' =>
      hroot row' (List.mem_append_left _ hrow')
    obtain ⟨hmap', hst'⟩ := loadStep_mapOf hshows hroot'
      (fun row' hrow' => hlast row' hrow' row (List.mem_singleton_self row)) hmap hst
    rw [List.append_assoc, List.singleton_append, List.reverse_append, List.reverse_singleton, List.singleton_append,
      List.map_cons, List.foldl_cons]
    exact ih hroot' hpair' hmap' hst'

/-! ## A block that is saved and loaded -/

/-- The trees that the list has under a `pid`. -/
def rootsAt (itemList : List (Int × ItemTree)) (pid : Int) : List ItemTree :=
  (itemList.filter (·.1 = pid)).map (·.2)

/-- What becomes of an object. -/
def keptObject (env : ObjectEnv) (b : Block σ) (o : Object) : Option (Object × Bool) := kept env b (o.columns env)

theorem rootsAt_append (itemList itemList' : List (Int × ItemTree)) (pid : Int) :
    rootsAt (itemList ++ itemList') pid = rootsAt itemList pid ++ rootsAt itemList' pid := by
  rw [rootsAt, List.filter_append, List.map_append]
  rfl

theorem rootsAt_flatMap {α : Type} (f : α → List (Int × ItemTree)) (l : List α) (pid : Int) :
    rootsAt (l.flatMap f) pid = l.flatMap fun x => rootsAt (f x) pid := by
  induction l with
  | nil => rfl
  | cons x l ih => rw [List.flatMap_cons, rootsAt_append, ih, List.flatMap_cons]

theorem rootsAt_map (pid pid' : Int) (ts : List ItemTree) :
    rootsAt (ts.map (pid, ·)) pid' = if pid = pid' then ts else [] := filter_pair pid pid' ts

/-- A `pid` that belongs to one entry of a map is found there. -/
theorem rootsAt_entries {f : Nat → List ItemTree → List (Int × ItemTree)} {d : Nat} {pid : Int}
    (places : AList fun _ : Nat => List ItemTree)
    (h : ∀ d' ∈ places, d' ≠ d → ∀ list, rootsAt (f d' list) pid = []) :
    rootsAt (places.entries.flatMap fun e => f e.1 e.2) pid =
      ((places.lookup d).map fun list => rootsAt (f d list) pid).getD [] := by
  rw [rootsAt_flatMap]
  induction places using AList.insertRec with
  | H0 => rfl
  | IH d' list places hd' ih =>
    rw [AList.entries_insert_of_notMem hd', List.flatMap_cons,
      ih fun d'' hd'' => h d'' ((AList.mem_insert places).mpr (.inr hd''))]
    by_cases heq : d = d'
    · subst heq
      rw [AList.lookup_insert, AList.lookup_eq_none.mpr hd']
      exact List.append_nil _
    · rw [h d' ((AList.mem_insert places).mpr (.inl rfl)) (Ne.symm heq), AList.lookup_insert_ne heq, List.nil_append]

/-- Under each `pid` of the block is what was there, as far as it is made again. -/
theorem saveAndLoad_shows (env : ObjectEnv) (hshows : Shows b shows) {itemList : List (Int × ItemTree)}
    (hroot : ∀ sid : Nat, 100 < sid → b.root sid = none) (s : σ) (hs : shows (fun _ => []) s) :
    ∃ st, shows st (saveAndLoad env b itemList s) ∧ ((∀ g ∈ itemList, g.1 ≤ 100) →
      ∀ pid, pid ≤ 100 → st pid = Rose.rereadAll (keptObject env b) (rootsAt itemList pid)) := by
  have hknown {pid : Int} (hpid : pid ≤ 100) : Known Int.ofNat 100 pid := fun m hm heq => by
    rw [heq] at hpid
    exact absurd (Int.ofNat_le.mp hpid) (not_le.mpr hm)
  obtain ⟨hgt, hpair⟩ := flatten_number_gt Int.ofNat (totalTurns itemList []) itemList [] 100
  have hpair' : (saveItems env itemList).Pairwise (·.number < ·.number) := List.pairwise_map.mpr hpair
  have hroot' : ∀ row ∈ saveItems env itemList, b.root row.number = none := by
    intro row hrow
    obtain ⟨row', hrow', rfl⟩ := List.mem_map.mp hrow
    exact hroot _ (hgt row' hrow')
  refine ⟨rebuild Int.ofNat (kept env b) (saveItems env itemList), ?_, fun hpids pid hpid => ?_⟩
  · have hstart : shows (rebuild Int.ofNat (kept env b) []) (loadItems env (saveItems env itemList).reverse, s).2 := hs
    have hload := loadLoop_shows hshows (saveItems env itemList) hroot' hpair' (mapOf_loadItems env b hpair') hstart
    rw [List.append_nil] at hload
    rw [saveAndLoad, orderBySid_eq hpair']
    exact hload
  · rw [saveItems, rebuild_map]
    refine (rebuild_flatten (fun m n h => Int.ofNat.inj h) _ le_rfl (fun g hg => hknown (hpids g hg))
      (fun g hg => absurd hg List.not_mem_nil) (hknown hpid)).trans ?_
    simp [expected, Rose.rereadAll]
    rfl

/-- What is compared: the id and the sub type. -/
def shape (env : ObjectEnv) (o : Object) : UInt16 × BitVec 16 := (o.item.id, o.item.getSubType env.items)

/-- The tree of the ids and sub types. -/
def view (env : ObjectEnv) (t : ItemTree) : Rose (UInt16 × BitVec 16) := t.map (shape env)

/-- Every item of a tree is there again as it was, but for those that the block leaves out. -/
theorem faithful_kept (hskips : ∀ o o' : Object, o'.item.id = o.item.id → b.skips o' = b.skips o) :
    Faithful (keptObject env b) (shape env) (shape env) (Object.Made env)
      fun o _ => b.skips o = false ∧ Object.KeepsSubType env o := by
  intro o isContainer hmade
  obtain ⟨o', hreload, hid, _, hsub⟩ := Object.reload_of_made hmade
  have hkept : keptObject env b o = if b.skips o' then none else some (o', isContainer) := kept_eq b hreload
  rw [hskips o o' hid] at hkept
  cases hskip : b.skips o with
  | true =>
    rw [hskip] at hkept
    exact .inr ⟨hkept, fun hok => absurd (hskip.symm.trans hok.1) (by decide)⟩
  | false =>
    rw [hskip] at hkept
    refine .inl ⟨o', hkept, ?_⟩
    rw [shape, shape, Prod.mk.injEq, hsub]
    exact ⟨fun h => ⟨hskip, h.2⟩, fun h => ⟨hid, h.2⟩⟩

/-- A block that leaves no item out gives every item back. -/
theorem faithful_all (hskips : ∀ o, b.skips o = false) : Faithful (keptObject env b) (shape env) (shape env)
    (Object.Made env) fun o _ => o.KeepsSubType env := by
  intro o isContainer hmade
  have hboth := faithful_kept (fun o o' _ => (hskips o').trans (hskips o).symm) o isContainer hmade
  simpa only [hskips o, true_and] using hboth

end IOLoginData

end ForgottenServer
