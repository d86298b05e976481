import ForgottenServer.Lib.Page
import ForgottenServer.Lib.Runs

/-! # The windows of open containers

A player has up to sixteen containers open, and his client a window for each. The client is one of those that are told
the pages of a container: a window shows the items from its first index on, as many as a page holds. -/

namespace ForgottenServer.OpenContainers
open Page (page page_cons page_append page_set page_eraseIdx page_eraseIdx_of_le getElem?_page length_page
  take_insertIdx set_eq_self_iff)

/-- `paginate`: this client sees it in pages. The container of a browse field gets its items at the back. -/
structure Container (α : Type) where
  items : List α
  capacity : Nat
  paginate : Bool := false
  browse : Bool := false

structure OpenContainer where
  container : Nat
  index : Nat

/-- Every message is for one window. -/
inductive Message (α : Type) where
  | container (limit firstIndex : Nat) (items : List α)
  | addContainerItem (slot : Nat) (item : α)
  | updateContainerItem (slot : Nat) (item : α)
  | removeContainerItem (slot : Nat) (lastItem : Option α)
  | closeContainer

structure Window (α : Type) where
  firstIndex : Nat
  limit : Nat
  items : List α

variable {α : Type}

/-- What the client does. A slot that the window does not show is nothing to it, and `lastItem` is what comes in at the
end of the page. -/
def Message.receive (window : Option (Window α)) : Message α → Option (Window α)
  | .container limit firstIndex items => some ⟨firstIndex, limit, items⟩
  | .addContainerItem slot item => window.map fun w =>
    { w with items := (w.items.insertIdx (slot - w.firstIndex) item).take w.limit }
  | .updateContainerItem slot item => window.map fun w => { w with items := w.items.set (slot - w.firstIndex) item }
  | .removeContainerItem slot lastItem => window.map fun w =>
    if slot - w.firstIndex < w.items.length then
      { w with items := (w.items.eraseIdx (slot - w.firstIndex) ++ lastItem.toList).take w.limit }
    else w
  | .closeContainer => none

namespace Container

variable (container : Container α)

def limit : Nat := if container.paginate then container.capacity else 0xFF

def sendContainer (firstIndex : Nat) : Message α :=
  let itemCount :=
    if container.items.length ≤ firstIndex then 0 else min container.limit (container.items.length - firstIndex)
  .container container.limit firstIndex ((container.items.drop firstIndex).take itemCount)

/-- The item is in the container already. -/
def sendAddContainerItem (item : α) (index : Nat) : List (Message α) :=
  let (slot, itemToSend) :=
    if container.browse && !container.items.isEmpty then
      let containerSize := container.items.length - 1
      let pageEnd := index + container.capacity - 1
      if pageEnd < containerSize then (pageEnd, container.items[pageEnd]?) else (containerSize, some item)
    else if container.capacity ≤ index then (index, container.items[index]?) else (index, some item)
  (itemToSend.map fun item => .addContainerItem slot item).toList

def sendUpdateContainerItem (slot : Nat) (newItem : α) (index : Nat) : List (Message α) :=
  if slot < index ∨ index + container.capacity ≤ slot then [] else [.updateContainerItem slot newItem]

/-- A page whose only item goes gives way to the page before. -/
def indexAfter (index : Nat) : Nat :=
  if 0 < index ∧ container.items.length - 1 ≤ index then index - container.capacity else index

def lastItem (firstIndex : Nat) : Option α :=
  if 0 < container.capacity then container.items[firstIndex + (container.capacity - 1)]? else none

/-- The item is still in the container. -/
def sendRemoveContainerItem (slot index : Nat) : List (Message α) :=
  let firstIndex := container.indexAfter index
  (if 0 < index ∧ container.items.length - 1 ≤ index then [container.sendContainer firstIndex] else []) ++
    [.removeContainerItem (max slot firstIndex) (container.lastItem firstIndex)]

/-- What a window on the container is to show. -/
def window (index : Nat) : Window α := ⟨index, container.limit, page index container.limit container.items⟩

end Container

structure Player (α : Type) where
  containers : Nat → Container α
  openContainers : Nat → Option OpenContainer := fun _ => none
  windows : Nat → Option (Window α) := fun _ => none

inductive Event (α : Type) where
  /-- The player uses a container, or goes up to it. -/
  | openContainer (cid container : Nat)
  | closeContainer (cid : Nat)
  | updateContainer (cid : Nat)
  | seekInContainer (cid index : Nat)
  | addThing (container index : Nat) (item : α)
  | addItemBack (container : Nat) (item : α)
  | updateThing (container index : Nat) (item : α)
  | removeThing (container index : Nat)

namespace Player

variable (s : Player α)

def getContainerID (container : Nat) : Option Nat :=
  (List.range 16).find? fun cid => (s.openContainers cid).any fun o => o.container == container

def setOpen (cid : Nat) (o : Option OpenContainer) : Player α :=
  { s with openContainers := Function.update s.openContainers cid o }

def send (cid : Nat) (message : Message α) : Player α :=
  { s with windows := Function.update s.windows cid (message.receive (s.windows cid)) }

/-- The container becomes another, and the windows on it hear of that, and may go to another page. -/
def change (c : Nat) (container : Container α) (index : Nat → Nat) (messages : Nat → List (Message α)) : Player α where
  containers := Function.update s.containers c container
  openContainers cid := (s.openContainers cid).map fun o =>
    if o.container = c then { o with index := index o.index } else o
  windows cid :=
    match s.openContainers cid with
    | some o => if o.container = c then (messages o.index).foldl Message.receive (s.windows cid) else s.windows cid
    | none => s.windows cid

/-- `onSendContainer` and `onCloseContainer`: the container stays as it is. -/
def tell (c : Nat) (messages : Nat → List (Message α)) : Player α := s.change c (s.containers c) id messages

def step : Event α → Player α
  | .openContainer cid c =>
    match s.getContainerID c with
    | none =>
      if cid ≤ 0xF then (s.setOpen cid (some ⟨c, 0⟩)).tell c fun index => [(s.containers c).sendContainer index] else s
    | some old => (s.tell c fun _ => [.closeContainer]).setOpen old none
  | .closeContainer cid => (s.setOpen cid none).send cid .closeContainer
  | .updateContainer cid =>
    match s.openContainers cid with
    | none => s
    | some o => s.send cid ((s.containers o.container).sendContainer o.index)
  | .seekInContainer cid index =>
    match s.openContainers cid with
    | none => s
    | some o =>
      let container := s.containers o.container
      if container.capacity = 0 ∨ !container.paginate ∨ index % container.capacity ≠ 0 ∨
          container.items.length ≤ index then s
      else (s.setOpen cid (some { o with index := index })).send cid (container.sendContainer index)
  | .addThing c index item =>
    let container := s.containers c
    if container.browse ∨ container.capacity ≤ index then s
    else
      let container' := { container with items := item :: container.items }
      s.change c container' id (container'.sendAddContainerItem item)
  | .addItemBack c item =>
    let container := s.containers c
    if container.browse then
      let container' := { container with items := container.items ++ [item] }
      s.change c container' id (container'.sendAddContainerItem item)
    else s
  | .updateThing c index item =>
    let container := s.containers c
    if container.items.length ≤ index then s
    else
      s.change c { container with items := container.items.set index item } id
        (container.sendUpdateContainerItem index item)
  | .removeThing c index =>
    let container := s.containers c
    if container.items.length ≤ index then s
    else
      s.change c { container with items := container.items.eraseIdx index } container.indexAfter
        (container.sendRemoveContainerItem index)

end Player

/-! ## What one message makes of a window -/

namespace Container

variable {container : Container α} {index : Nat}

/-- Where a page may start. -/
def Starts (container : Container α) (index : Nat) : Prop :=
  index = 0 ∨
    container.paginate ∧ 0 < container.capacity ∧ index % container.capacity = 0 ∧ index < container.items.length

namespace Starts

variable (h : container.Starts index)
include h

theorem eq_zero (hindex : index < container.capacity) : index = 0 := by
  rcases h with hzero | ⟨_, _, hmod, _⟩
  · exact hzero
  · rwa [Nat.mod_eq_of_lt hindex] at hmod

theorem le_length : index ≤ container.items.length := by
  rcases h with hzero | ⟨_, _, _, hlt⟩
  · omega
  · exact hlt.le

/-- Items that come or change leave it so. -/
theorem of_le {items : List α} (hlength : container.items.length ≤ items.length) :
    { container with items := items }.Starts index := by
  rcases h with hzero | hpage
  · exact .inl hzero
  · obtain ⟨hpaginate, hcapacity, hmod, hlt⟩ := hpage
    exact .inr ⟨hpaginate, hcapacity, hmod, hlt.trans_le hlength⟩

/-- Some item stands before the page. -/
theorem exists_first (item : α) : ∃ b, (item :: container.items)[index]? = some b :=
  ⟨_, List.getElem?_eq_getElem (Nat.lt_succ_of_le h.le_length)⟩

end Starts

theorem receive_sendContainer (window : Option (Window α)) (index : Nat) :
    (container.sendContainer index).receive window = some (container.window index) := by
  simp only [sendContainer, Message.receive, Container.window, page]
  congr 2
  split
  · next hle => rw [List.drop_eq_nil_of_le hle, List.take_nil, List.take_nil]
  · next hlt => rw [← List.length_drop, ← List.take_eq_take_min]

theorem receive_sendAddContainerItem (hstarts : container.Starts index) (hbrowse : container.browse = false)
    (item : α) :
    ({ container with items := item :: container.items }.sendAddContainerItem item index).foldl Message.receive
      (some (container.window index)) = some ({ container with items := item :: container.items }.window index) := by
  have hfirst (b : α) (hb : (item :: container.items)[index]? = some b) :
      Message.receive (some (container.window index)) (.addContainerItem index b) =
        some ({ container with items := item :: container.items }.window index) := by
    simp only [Message.receive, Option.map_some, Container.window, Nat.sub_self, List.insertIdx_zero, Container.limit,
      page_cons item hb]
  simp only [sendAddContainerItem, hbrowse, Bool.false_and, Bool.false_eq_true, if_false]
  split
  · obtain ⟨b, hb⟩ := hstarts.exists_first item
    rw [hb]
    exact hfirst b hb
  · next hlt =>
    obtain rfl := hstarts.eq_zero (Nat.lt_of_not_le hlt)
    exact hfirst item rfl

theorem receive_addItemBack (hstarts : container.Starts index) (hbrowse : container.browse = true)
    (hpaginate : container.paginate = true) (hcapacity : 0 < container.capacity) (item : α) :
    ({ container with items := container.items ++ [item] }.sendAddContainerItem item index).foldl Message.receive
      (some (container.window index)) = some ({ container with items := container.items ++ [item] }.window index) := by
  have hle := hstarts.le_length
  have hnonempty : (!(container.items ++ [item]).isEmpty) = true := by simp
  have hlimit : container.limit = container.capacity := by rw [limit, if_pos hpaginate]
  have hpage : page index container.capacity (container.items ++ [item]) =
      (page index container.capacity container.items ++ [item]).take container.capacity := page_append hle item
  have hlength : (page index container.capacity container.items).length =
      min container.capacity (container.items.length - index) := length_page
  simp only [sendAddContainerItem, hbrowse, hnonempty, Bool.and_true, if_true, List.length_append,
    List.length_singleton, Nat.add_sub_cancel]
  split
  · next hfull =>
    -- The page is full: its last item is sent again, and nothing changes.
    obtain ⟨x, hx⟩ : ∃ x, container.items[index + container.capacity - 1]? = some x :=
      ⟨_, List.getElem?_eq_getElem hfull⟩
    have hlast : (page index container.capacity container.items)[container.capacity - 1]? = some x := by
      rw [getElem?_page, if_pos (by omega), ← Nat.add_sub_assoc hcapacity, hx]
    have hsame := take_insertIdx hlast (by omega)
    rw [Nat.sub_add_cancel hcapacity] at hsame
    rw [List.take_append_of_le_length (by omega), List.take_of_length_le (by omega)] at hpage
    rw [List.getElem?_append_left hfull, hx]
    simp only [Option.map_some, Option.toList_some, List.foldl_cons, List.foldl_nil, Message.receive, Container.window,
      hlimit]
    rw [Nat.add_sub_assoc hcapacity, Nat.add_sub_cancel_left, hsame, ← hpage]
    simp only [limit, hpaginate, if_true]
  · next hroom =>
    have hend : container.items.length - index = (page index container.capacity container.items).length := by omega
    simp only [Option.map_some, Option.toList_some, List.foldl_cons, List.foldl_nil, Message.receive, Container.window,
      hlimit]
    rw [hend, List.insertIdx_length_self, ← hpage]
    simp only [limit, hpaginate, if_true]

theorem receive_sendUpdateContainerItem_iff {slot : Nat} (hslot : slot < container.items.length) (item : α) :
    (container.sendUpdateContainerItem slot item index).foldl Message.receive (some (container.window index)) =
      some ({ container with items := container.items.set slot item }.window index) ↔
    slot < index + container.capacity ∨ index + container.limit ≤ slot ∨ container.items[slot]? = some item := by
  have hwindow : { container with items := container.items.set slot item }.window index =
      ⟨index, container.limit, page index container.limit (container.items.set slot item)⟩ := rfl
  rw [hwindow, page_set]
  unfold sendUpdateContainerItem
  split
  · next hunsent =>
    simp only [List.foldl_nil, Container.window, Option.some.injEq, Window.mk.injEq, true_and]
    split
    · next hbefore => simp [Nat.lt_add_right container.capacity hbefore]
    · next hafter =>
      have hbeyond : ¬ slot < index + container.capacity := by omega
      rw [eq_comm, set_eq_self_iff, length_page]
      by_cases hlt : slot < index + container.limit
      · rw [getElem?_page, if_pos (by omega), Nat.add_sub_cancel' (by omega)]
        simp only [hbeyond, Nat.not_le_of_lt hlt, false_or, or_iff_right_iff_imp]
        omega
      · simp only [Nat.le_of_not_lt hlt, true_or, or_true, iff_true]
        exact Or.inl (by omega)
  · next hsent =>
    have hinside : ¬ slot < index := fun hlt => hsent (.inl hlt)
    have hreach : slot < index + container.capacity := Nat.lt_of_not_le fun hle => hsent (.inr hle)
    simp only [List.foldl_cons, List.foldl_nil, Message.receive, Option.map_some, Container.window, if_neg hinside,
      hreach, true_or]

/-- After the first message, the window shows the page from which the item is taken. -/
theorem receive_indexAfter (slot : Nat) :
    (container.sendRemoveContainerItem slot index).foldl Message.receive (some (container.window index)) =
      (Message.removeContainerItem (max slot (container.indexAfter index))
        (container.lastItem (container.indexAfter index))).receive
          (some (container.window (container.indexAfter index))) := by
  simp only [sendRemoveContainerItem]
  by_cases hback : 0 < index ∧ container.items.length - 1 ≤ index
  · rw [if_pos hback, List.singleton_append, List.foldl_cons, receive_sendContainer, List.foldl_cons, List.foldl_nil]
  · rw [if_neg hback, List.nil_append, List.foldl_cons, List.foldl_nil]
    simp only [indexAfter, if_neg hback]

theorem indexAfter_le (container : Container α) (index : Nat) : container.indexAfter index ≤ index := by
  unfold indexAfter
  split <;> omega

theorem Starts.indexAfter (h : container.Starts index) {slot : Nat} (hslot : slot < container.items.length) :
    { container with items := container.items.eraseIdx slot }.Starts (container.indexAfter index) := by
  have hlength := List.length_eraseIdx_of_lt hslot
  rcases h with rfl | ⟨hpaginate, hcapacity, hmod, hlt⟩
  · exact .inl (by simp [Container.indexAfter])
  · unfold Container.indexAfter
    split
    · next hback =>
      have hpage : container.capacity ≤ index := Nat.le_of_dvd hback.1 (Nat.dvd_of_mod_eq_zero hmod)
      rw [Nat.mod_eq_sub_mod hpage] at hmod
      exact .inr ⟨hpaginate, hcapacity, hmod, by simp only [hlength]; omega⟩
    · next hstay =>
      rcases Nat.eq_zero_or_pos index with hzero | hpos
      · exact .inl hzero
      · exact .inr ⟨hpaginate, hcapacity, hmod, by simp only [hlength]; omega⟩

theorem receive_sendRemoveContainerItem_iff (hstarts : container.Starts index) {slot : Nat}
    (hslot : slot < container.items.length) :
    (container.sendRemoveContainerItem slot index).foldl Message.receive (some (container.window index)) =
      some ({ container with items := container.items.eraseIdx slot }.window (container.indexAfter index)) ↔
    container.limit = 0 ∨ container.indexAfter index + container.limit ≤ slot ∨
      container.lastItem (container.indexAfter index) =
        container.items[container.indexAfter index + container.limit]? := by
  have hfirst : container.indexAfter index < container.items.length := by
    have hle := indexAfter_le container index
    rcases hstarts with rfl | ⟨_, _, _, hlt⟩ <;> omega
  rw [receive_indexAfter]
  generalize container.indexAfter index = first at hfirst ⊢
  have hwindow : { container with items := container.items.eraseIdx slot }.window first =
      ⟨first, container.limit, page first container.limit (container.items.eraseIdx slot)⟩ := rfl
  have hlength : (page first container.limit container.items).length =
      min container.limit (container.items.length - first) := length_page
  rw [hwindow]
  simp only [Message.receive, Option.map_some, Container.window]
  by_cases hempty : container.limit = 0
  · rw [if_neg (by omega)]
    simp [hempty, page]
  by_cases hreach : first + container.limit ≤ slot
  · rw [if_neg (by omega), page_eraseIdx_of_le hreach]
    simp [hreach]
  · have hroom : ((page first container.limit container.items).eraseIdx (max slot first - first)).length + 1 ≤
        container.limit := by
      rw [List.length_eraseIdx_of_lt (by omega)]
      omega
    have htake (o : Option α) (l : List α) (hl : l.length + 1 ≤ container.limit) :
        (l ++ o.toList).take container.limit = l ++ o.toList := by
      apply List.take_of_length_le
      cases o <;> simp <;> omega
    rw [if_pos (by omega), htake _ _ hroom, page_eraseIdx (by omega) (by omega) hslot hfirst]
    simp only [Option.some.injEq, Window.mk.injEq, true_and, List.append_cancel_left_eq, Page.toList_inj, hempty,
      hreach, false_or]

end Container

/-! ## All windows -/

namespace Player
open Container

structure Wf (s : Player α) : Prop where
  few : ∀ cid o, s.openContainers cid = some o → cid ≤ 0xF
  single : ∀ cid cid' o o', s.openContainers cid = some o → s.openContainers cid' = some o' →
    o.container = o'.container → cid = cid'
  starts : ∀ cid o, s.openContainers cid = some o → (s.containers o.container).Starts o.index
  browse : ∀ c, (s.containers c).browse = true → (s.containers c).paginate = true ∧ 0 < (s.containers c).capacity

/-- The client shows a window for each open container, and its page. -/
def InStep (s : Player α) : Prop :=
  ∀ cid, s.windows cid = (s.openContainers cid).map fun o => (s.containers o.container).window o.index

/-- A changed item is on the first `capacity` places of the page, or not on the page. When an item goes, the item that
the client is sent for the end of the page is the one that comes there. -/
def Good (s : Player α) : Event α → Prop
  | .updateThing c slot item => slot < (s.containers c).items.length → ∀ cid o, s.openContainers cid = some o →
    o.container = c → slot < o.index + (s.containers c).capacity ∨ o.index + (s.containers c).limit ≤ slot ∨
      (s.containers c).items[slot]? = some item
  | .removeThing c slot => slot < (s.containers c).items.length → ∀ cid o, s.openContainers cid = some o →
    o.container = c → (s.containers c).limit = 0 ∨
      (s.containers c).indexAfter o.index + (s.containers c).limit ≤ slot ∨
      (s.containers c).lastItem ((s.containers c).indexAfter o.index) =
        (s.containers c).items[(s.containers c).indexAfter o.index + (s.containers c).limit]?
  | _ => True

variable {s : Player α} {c cid : Nat}

theorem inStep_change_iff (h : s.InStep) (container : Container α) (index : Nat → Nat)
    (messages : Nat → List (Message α)) : (s.change c container index messages).InStep ↔
      ∀ cid o, s.openContainers cid = some o → o.container = c →
        (messages o.index).foldl Message.receive (some ((s.containers c).window o.index)) =
          some (container.window (index o.index)) := by
  refine forall_congr' fun cid => ?_
  have hwindow := h cid
  cases hopen : s.openContainers cid with
  | none => simp [change, hopen, hwindow]
  | some o =>
    rw [hopen, Option.map_some] at hwindow
    by_cases heq : o.container = c
    · subst heq
      simp [change, hopen, hwindow]
    · simp [change, hopen, hwindow, heq]

theorem Wf.change (h : s.Wf) {container : Container α} {index : Nat → Nat} (messages : Nat → List (Message α))
    (hpaginate : container.paginate = (s.containers c).paginate)
    (hcapacity : container.capacity = (s.containers c).capacity)
    (hbrowse : container.browse = (s.containers c).browse)
    (hstarts : ∀ i, (s.containers c).Starts i → container.Starts (index i)) :
    (s.change c container index messages).Wf where
  few cid o hopen := by
    obtain ⟨o', hopen', _⟩ := Option.map_eq_some_iff.mp hopen
    exact h.few cid o' hopen'
  single cid cid' o o' hopen hopen' heq := by
    obtain ⟨p, hp, rfl⟩ := Option.map_eq_some_iff.mp hopen
    obtain ⟨p', hp', rfl⟩ := Option.map_eq_some_iff.mp hopen'
    refine h.single cid cid' p p' hp hp' ?_
    have hsame (q : OpenContainer) : (if q.container = c then { q with index := index q.index } else q).container =
        q.container := by split <;> rfl
    rwa [hsame, hsame] at heq
  starts cid o hopen := by
    obtain ⟨p, hp, rfl⟩ := Option.map_eq_some_iff.mp hopen
    by_cases heq : p.container = c
    · subst heq
      simpa [Player.change] using hstarts p.index (h.starts cid p hp)
    · simpa [Player.change, heq] using h.starts cid p hp
  browse c' hb := by
    by_cases heq : c' = c
    · subst heq
      simp only [Player.change, Function.update_self] at hb ⊢
      rw [hpaginate, hcapacity]
      exact h.browse c' (hbrowse ▸ hb)
    · simp only [Player.change, Function.update_of_ne heq] at hb ⊢
      exact h.browse c' hb

theorem getContainerID_eq_none (h : s.Wf) (hnone : s.getContainerID c = none) {o : OpenContainer}
    (hopen : s.openContainers cid = some o) : o.container ≠ c := by
  have hcid : cid ∈ List.range 16 := List.mem_range.mpr (Nat.lt_succ_of_le (h.few cid o hopen))
  simpa [hopen] using List.find?_eq_none.mp hnone cid hcid

theorem getContainerID_eq_some {old : Nat} (hsome : s.getContainerID c = some old) :
    ∃ o, s.openContainers old = some o ∧ o.container = c := by
  simpa [Option.any_eq_true] using List.find?_some hsome

/-! ## What one event keeps -/

theorem setOpen_apply (o : Option OpenContainer) (cid' : Nat) :
    (s.setOpen cid o).openContainers cid' = if cid' = cid then o else s.openContainers cid' :=
  Function.update_apply ..

theorem send_apply (message : Message α) (cid' : Nat) :
    (s.send cid message).windows cid' = if cid' = cid then message.receive (s.windows cid) else s.windows cid' :=
  Function.update_apply ..

theorem Wf.setOpen (h : s.Wf) (o : Option OpenContainer) (ho : ∀ p, o = some p → cid ≤ 0xF ∧
    (s.containers p.container).Starts p.index ∧
    ∀ cid' p', cid' ≠ cid → s.openContainers cid' = some p' → p'.container ≠ p.container) : (s.setOpen cid o).Wf where
  few cid' p hopen := by
    rw [setOpen_apply] at hopen
    split at hopen
    · next heq => exact heq ▸ (ho p hopen).1
    · exact h.few cid' p hopen
  single cid₁ cid₂ p₁ p₂ h₁ h₂ heq := by
    rw [setOpen_apply] at h₁ h₂
    split at h₁ <;> split at h₂
    · next heq₁ heq₂ => rw [heq₁, heq₂]
    · next hne => exact absurd heq.symm ((ho p₁ h₁).2.2 cid₂ p₂ hne h₂)
    · next hne _ => exact absurd heq ((ho p₂ h₂).2.2 cid₁ p₁ hne h₁)
    · exact h.single cid₁ cid₂ p₁ p₂ h₁ h₂ heq
  starts cid' p hopen := by
    rw [setOpen_apply] at hopen
    split at hopen
    · exact (ho p hopen).2.1
    · exact h.starts cid' p hopen
  browse := h.browse

theorem Wf.send (h : s.Wf) (message : Message α) : (s.send cid message).Wf := ⟨h.few, h.single, h.starts, h.browse⟩

theorem Wf.tell (h : s.Wf) (messages : Nat → List (Message α)) : (s.tell c messages).Wf :=
  h.change messages rfl rfl rfl fun _ hi => hi

theorem Wf.step (h : s.Wf) (e : Event α) : (s.step e).Wf := by
  cases e with
  | openContainer cid c =>
    simp only [Player.step]
    split
    · next hnone =>
      split
      · next hcid =>
        refine Wf.tell (h.setOpen (some ⟨c, 0⟩) fun p heq => ?_) _
        obtain rfl := Option.some.inj heq
        exact ⟨hcid, .inl rfl, fun cid' p' _ hopen => getContainerID_eq_none h hnone hopen⟩
      · exact h
    · exact (h.tell _).setOpen none fun p heq => by cases heq
  | closeContainer cid => exact (h.setOpen none fun p heq => by cases heq).send _
  | updateContainer cid =>
    simp only [Player.step]
    split
    · exact h
    · exact h.send _
  | seekInContainer cid index =>
    simp only [Player.step]
    split
    · exact h
    · next o hopen =>
      split
      · exact h
      · next hguard =>
        simp only [not_or, Nat.not_le, ne_eq, not_not, Bool.not_eq_true, Bool.not_eq_false'] at hguard
        obtain ⟨hcapacity, hpaginate, hmod, hlt⟩ := hguard
        refine Wf.send (h.setOpen _ fun p heq => ?_) _
        obtain rfl := Option.some.inj heq
        have hstarts : (s.containers o.container).Starts index :=
          .inr ⟨by simpa using hpaginate, Nat.pos_of_ne_zero hcapacity, hmod, hlt⟩
        refine ⟨h.few cid o hopen, hstarts, fun cid' p' hne hopen' heq => ?_⟩
        exact hne (h.single cid' cid p' o hopen' hopen heq)
  | addThing c index item =>
    simp only [Player.step]
    split
    · exact h
    · exact h.change _ rfl rfl rfl fun i hi => hi.of_le (Nat.le_succ _)
  | addItemBack c item =>
    simp only [Player.step]
    split
    · refine h.change _ rfl rfl rfl fun i hi => hi.of_le ?_
      rw [List.length_append]
      exact Nat.le_add_right _ _
    · exact h
  | updateThing c slot item =>
    simp only [Player.step]
    split
    · exact h
    · refine h.change _ rfl rfl rfl fun i hi => hi.of_le ?_
      rw [List.length_set]
  | removeThing c slot =>
    simp only [Player.step]
    split
    · exact h
    · next hslot => exact h.change _ rfl rfl rfl fun i hi => hi.indexAfter (Nat.lt_of_not_le hslot)

theorem InStep.openContainer (h : s.InStep) (hwf : s.Wf) (cid c : Nat) : (s.step (.openContainer cid c)).InStep := by
  simp only [step]
  split
  · next hnone =>
    split
    · next hcid =>
      intro cid'
      have hwindow := h cid'
      have hother (o : OpenContainer) (hopen : s.openContainers cid' = some o) : o.container ≠ c :=
        getContainerID_eq_none hwf hnone hopen
      simp only [tell, change, setOpen_apply]
      by_cases heq : cid' = cid
      · simp [heq, Player.setOpen, receive_sendContainer]
      · cases hopen : s.openContainers cid' with
        | none => simp [heq, hopen, hwindow, Player.setOpen]
        | some o => simp [heq, hopen, hother o hopen, hwindow, Player.setOpen]
    · exact h
  · next old hsome =>
    obtain ⟨o, hold, hc⟩ := getContainerID_eq_some hsome
    intro cid'
    have hwindow := h cid'
    simp only [setOpen_apply]
    by_cases heq : cid' = old
    · simp [heq, Player.setOpen, tell, change, hold, hc, Message.receive]
    · cases hopen : s.openContainers cid' with
      | none => simp [heq, Player.setOpen, tell, change, hopen, hwindow]
      | some o' =>
        have hother : o'.container ≠ c := fun hsame => heq (hwf.single cid' old o' o hopen hold (hsame.trans hc.symm))
        simp [heq, Player.setOpen, tell, change, hopen, hother, hwindow]

/-- A container that is sent again is shown as it is. -/
theorem InStep.sendContainer (h : s.InStep) {o : OpenContainer} {index : Nat} :
    ((s.setOpen cid (some { o with index := index })).send cid
      ((s.containers o.container).sendContainer index)).InStep := by
  intro cid'
  rw [send_apply]
  simp only [Player.send, setOpen_apply]
  by_cases heq : cid' = cid
  · simp [heq, receive_sendContainer, Player.setOpen]
  · simp [heq, Player.setOpen, h cid']

theorem step_inStep_iff (h : s.InStep) (hwf : s.Wf) (e : Event α) : (s.step e).InStep ↔ s.Good e := by
  cases e with
  | openContainer cid c => exact iff_of_true (h.openContainer hwf cid c) trivial
  | closeContainer cid =>
    refine iff_of_true (fun cid' => ?_) trivial
    simp only [step, send_apply]
    by_cases heq : cid' = cid
    · simp [heq, Player.send, setOpen_apply, Message.receive]
    · simpa [heq, Player.send, setOpen_apply, Player.setOpen] using h cid'
  | updateContainer cid =>
    refine iff_of_true ?_ trivial
    simp only [step]
    split
    · exact h
    · next o hopen =>
      intro cid'
      rw [send_apply]
      by_cases heq : cid' = cid
      · simp [heq, receive_sendContainer, Player.send, hopen]
      · simp [heq, Player.send, h cid']
  | seekInContainer cid index =>
    refine iff_of_true ?_ trivial
    simp only [step]
    split
    · exact h
    · split
      · exact h
      · exact h.sendContainer
  | addThing c index item =>
    refine iff_of_true ?_ trivial
    simp only [step]
    split
    · exact h
    · next hguard =>
      refine (inStep_change_iff h _ _ _).mpr ?_
      rintro cid o hopen rfl
      exact receive_sendAddContainerItem (hwf.starts cid o hopen) (by simpa using fun hb => hguard (.inl hb)) item
  | addItemBack c item =>
    refine iff_of_true ?_ trivial
    simp only [step]
    split
    · next hbrowse =>
      refine (inStep_change_iff h _ _ _).mpr ?_
      rintro cid o hopen rfl
      obtain ⟨hpaginate, hcapacity⟩ := hwf.browse _ hbrowse
      exact receive_addItemBack (hwf.starts cid o hopen) hbrowse hpaginate hcapacity item
    · exact h
  | updateThing c slot item =>
    simp only [step, Good]
    split
    · next hout => exact iff_of_true h fun hslot => absurd hslot (Nat.not_lt_of_le hout)
    · next hslot =>
      have hslot := Nat.lt_of_not_le hslot
      rw [inStep_change_iff h]
      constructor
      · rintro hall _ cid o hopen rfl
        exact (receive_sendUpdateContainerItem_iff hslot item).mp (hall cid o hopen rfl)
      · rintro hgood cid o hopen rfl
        exact (receive_sendUpdateContainerItem_iff hslot item).mpr (hgood hslot cid o hopen rfl)
  | removeThing c slot =>
    simp only [step, Good]
    split
    · next hout => exact iff_of_true h fun hslot => absurd hslot (Nat.not_lt_of_le hout)
    · next hslot =>
      have hslot := Nat.lt_of_not_le hslot
      rw [inStep_change_iff h]
      constructor
      · rintro hall _ cid o hopen rfl
        exact (receive_sendRemoveContainerItem_iff (hwf.starts cid o hopen) hslot).mp (hall cid o hopen rfl)
      · rintro hgood cid o hopen rfl
        exact (receive_sendRemoveContainerItem_iff (hwf.starts cid o hopen) hslot).mpr (hgood hslot cid o hopen rfl)

/-- The client is in step after every event exactly when every event is good. -/
theorem run_inStep_iff (s : Player α) (hwf : s.Wf) (hstart : s.InStep) (es : List (Event α)) :
    Runs.Along step (fun s e => (s.step e).InStep) s es ↔ Runs.Along step Good s es :=
  Runs.Along.iff_of_invariant (fun s => s.Wf ∧ s.InStep) (fun _ e hs hnext => ⟨hs.1.step e, hnext⟩)
    (fun _ e hs => step_inStep_iff hs.2 hs.1 e) es s ⟨hwf, hstart⟩

/-- Out of a container without pages, which the player has open, an item goes well exactly when the container is not
full. -/
theorem good_removeThing_iff {o : OpenContainer} (hwf : s.Wf) (hopen : s.openContainers cid = some o)
    (hpages : (s.containers o.container).paginate = false) (hcapacity : 0 < (s.containers o.container).capacity)
    (hlength : (s.containers o.container).items.length ≤ 0xFF) {slot : Nat}
    (hslot : slot < (s.containers o.container).items.length) :
    s.Good (.removeThing o.container slot) ↔
      (s.containers o.container).items.length < (s.containers o.container).capacity := by
  have hlimit : (s.containers o.container).limit = 0xFF := by rw [limit, hpages]; rfl
  have hstart (cid' : Nat) (o' : OpenContainer) (hopen' : s.openContainers cid' = some o')
      (heq : o'.container = o.container) : (s.containers o.container).indexAfter o'.index = 0 := by
    rcases hwf.starts cid' o' hopen' with hzero | ⟨hp, _⟩
    · simp [indexAfter, hzero]
    · rw [heq, hpages] at hp
      cases hp
  have hnone : (s.containers o.container).items[0xFF]? = none := List.getElem?_eq_none hlength
  have hlast : (s.containers o.container).lastItem 0 = none ↔
      (s.containers o.container).items.length < (s.containers o.container).capacity := by
    rw [lastItem, if_pos hcapacity, List.getElem?_eq_none_iff]
    omega
  simp only [Good, hlimit, ← hlast]
  constructor
  · intro hgood
    have hthis := hgood hslot cid o hopen rfl
    rw [hstart cid o hopen rfl, Nat.zero_add, hnone] at hthis
    exact (hthis.resolve_left (by omega)).resolve_left (by omega)
  · intro hroom _ cid' o' hopen' heq
    rw [hstart cid' o' hopen' heq, Nat.zero_add, hnone]
    exact .inr (.inr hroom)

/-- A bag with room for two items, and a pouch with pages of two. -/
def bagAndPouch : Player Nat where
  containers c := if c = 0 then ⟨[7], 2, false, false⟩ else ⟨[1, 2, 3, 4, 5], 2, true, false⟩

theorem wf_bagAndPouch : bagAndPouch.Wf where
  few cid o hopen := by cases hopen
  single cid cid' o o' hopen := by cases hopen
  starts cid o hopen := by cases hopen
  browse c hbrowse := by
    simp only [bagAndPouch] at hbrowse
    split at hbrowse <;> cases hbrowse

/-- The bag is full with the second item. What is taken out of it then is not all that the window loses. -/
theorem run_inStep_iff_bagAndPouch :
    Runs.Along step (fun s e => (s.step e).InStep) bagAndPouch
        [.openContainer 0 0, .openContainer 1 1, .seekInContainer 1 2, .addThing 1 0 6, .addThing 0 0 8] ∧
      ¬ Runs.Along step (fun s e => (s.step e).InStep) bagAndPouch
        [.openContainer 0 0, .addThing 0 0 8, .removeThing 0 1] := by
  constructor
  · exact (run_inStep_iff bagAndPouch wf_bagAndPouch (fun _ => rfl) _).mpr
      ⟨trivial, trivial, trivial, trivial, trivial, trivial⟩
  · intro hrun
    obtain ⟨_, _, hgood, _⟩ := (run_inStep_iff bagAndPouch wf_bagAndPouch (fun _ => rfl) _).mp hrun
    rcases hgood (by decide) 0 ⟨0, 0⟩ rfl rfl with hnone | hfar | hlast
    · revert hnone
      decide
    · revert hfar
      decide
    · revert hlast
      decide

end Player

end ForgottenServer.OpenContainers
