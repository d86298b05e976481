import ForgottenServer.Item.SubType
import ForgottenServer.Item.Thing

/-! # Objects of the item classes

The attributes that `Door`, `BedItem` and `Teleport` write and read on their own (`house.cpp`,
`bed.cpp`, `teleport.cpp`), and an item as `CreateItem` makes it and `unserializeAttr` fills it. -/

open Reader LittleEndian

namespace ForgottenServer

/-- The members of a derived class that are saved. -/
inductive OwnMembers where
  | none
  | door
  | bed (sleeperGUID : BitVec 32) (sleepStart : BitVec 64)
  | teleport (x y : BitVec 16) (z : BitVec 8)
  deriving DecidableEq

structure Object where
  item : Item
  own : OwnMembers := .none

/-- `newDuration` is what `setDefaultDuration` draws for a type, `getNameByGuid` looks up a
player. -/
structure ObjectEnv extends ItemEnv where
  newDuration : UInt16 → BitVec 32 := fun _ => 0
  getNameByGuid : BitVec 32 → List UInt8 := fun _ => []

def ObjectEnv.game (env : ObjectEnv) : GameEnv where
  items := env.items
  now := env.now
  newDuration := env.newDuration

namespace OwnMembers

/-- The members of a new object. -/
def create (it : ItemType) : OwnMembers := match it.type with
  | .door => door
  | .bed => bed 0 0
  | .teleport => teleport 0 0 0
  | _ => none

/-- The members of a new object of the same class. -/
def cls : OwnMembers → OwnMembers
  | none => none
  | door => door
  | bed .. => bed 0 0
  | teleport .. => teleport 0 0 0

end OwnMembers

namespace Object

variable (env : ObjectEnv)

/-- `Item::CreateItem`: the object, and whether it is a container. -/
def create (type : UInt16) (count : BitVec 16) : Option (Object × Bool) := do
  let (cls, item) ← Thing.createItem env.game type count
  pure ({ item, own := if cls.isSome then .none else OwnMembers.create (env.items type) }, cls.isSome)

def bedBytes (sleeperGUID : BitVec 32) (sleepStart : BitVec 64) : List UInt8 :=
  (if sleeperGUID ≠ 0 then ATTR_SLEEPERGUID :: writeBits sleeperGUID else []) ++
  (if sleepStart ≠ 0 then ATTR_SLEEPSTART :: writeBits (sleepStart.setWidth 32) else [])

def teleportBytes (x y : BitVec 16) (z : BitVec 8) : List UInt8 :=
  ATTR_TELE_DEST :: (writeBits x ++ writeBits y ++ writeBits z)

/-- A door writes nothing, a bed nothing of an item. -/
def serializeAttr (o : Object) : List UInt8 := match o.own with
  | .none => o.item.serializeAttr env.toItemEnv
  | .door => []
  | .bed sleeperGUID sleepStart => bedBytes sleeperGUID sleepStart
  | .teleport x y z => o.item.serializeAttr env.toItemEnv ++ teleportBytes x y z

/-- A reader of the item in the object. -/
def inItem {α : Type} (m : Reader Item α) : Reader Object α where
  run o i := ((m.run o.item i).1, { o with item := (m.run o.item i).2.1 }, (m.run o.item i).2.2)
  short o i := m.short o.item i

def setSleeper (guid : BitVec 32) (o : Object) : Object :=
  let name := env.getNameByGuid guid
  if guid = 0 ∨ name = [] then o
  else match o.own with
    | .bed _ sleepStart =>
      { item := o.item.setStrAttr .description (name ++ " is sleeping there.".toUTF8.toList), own := .bed guid sleepStart }
    | _ => o

def setSleepStart (start : BitVec 32) (o : Object) : Object := match o.own with
  | .bed guid _ => { o with own := .bed guid (start.setWidth 64) }
  | _ => o

/-- `readAttr` of the class of the object. -/
def readAttr (attr : UInt8) : Reader Object Unit := inspect fun o => match o.own with
  | .none => inItem (Item.readAttr env.toItemEnv attr)
  | .door =>
    if attr = ATTR_HOUSEDOORID then do
      let doorId ← readBits 8
      modify fun o => { o with item := o.item.setIntAttr .doorId (doorId.setWidth 64) }
    else inItem (Item.readAttr env.toItemEnv attr)
  | .bed .. =>
    if attr = ATTR_SLEEPERGUID then do
      let guid ← readBits 32
      modify (setSleeper env guid)
    else if attr = ATTR_SLEEPSTART then do
      let start ← readBits 32
      modify (setSleepStart start)
    else inItem (Item.readAttr env.toItemEnv attr)
  | .teleport .. =>
    if attr = ATTR_TELE_DEST then do
      let x ← readBits 16
      let y ← readBits 16
      let z ← readBits 8
      modify fun o => { o with own := .teleport x y z }
    else inItem (Item.readAttr env.toItemEnv attr)

def unserializeAttr : Reader Object Unit := tagged 0 (readAttr env)

/-! ## What is read again -/

variable {env}

theorem reads_inItem {α : Type} {m : Reader Item α} {bytes : List UInt8} {o : Object} {a : α} {s' : Item}
    (h : Reads m bytes o.item a s') : Reads (inItem m) bytes o a { o with item := s' } := by
  intro rest
  simp only [inItem, h rest]

/-- The tags of an item are read by every class as by `Item`. -/
theorem readAttr_written {tag : UInt8} (htag : tag ∈ Item.writtenTags) {bytes : List UInt8} {o : Object} {s' : Item}
    (h : Reads (Item.readAttr env.toItemEnv tag) bytes o.item () s') :
    Reads (readAttr env tag) bytes o () { o with item := s' } := by
  have hne {other : UInt8} (hother : other ∉ Item.writtenTags) : tag ≠ other := ne_of_mem_of_not_mem htag hother
  have h1 : tag ≠ ATTR_HOUSEDOORID := hne (by decide)
  have h2 : tag ≠ ATTR_SLEEPERGUID := hne (by decide)
  have h3 : tag ≠ ATTR_SLEEPSTART := hne (by decide)
  have h4 : tag ≠ ATTR_TELE_DEST := hne (by decide)
  obtain ⟨item, own⟩ := o
  refine Reads.inspect ?_
  cases own with
  | none => exact reads_inItem h
  | door =>
    simp only [if_neg h1]
    exact reads_inItem h
  | bed guid start =>
    simp only [if_neg h2, if_neg h3]
    exact reads_inItem h
  | teleport x y z =>
    simp only [if_neg h4]
    exact reads_inItem h

/-- The loop of any object. -/
def loop (env : ObjectEnv) : Item.Loop env.toItemEnv Object where
  Turn := Turns 0 (readAttr env)
  item := Object.item
  nil := Turns.nil
  append h h' := h.append h'
  tag tag htag _ o s' h := by
    have hne : tag ≠ 0 := ne_of_mem_of_not_mem htag (by decide)
    exact ⟨_, Turns.tag tag hne (readAttr_written htag h), rfl⟩

/-- What is left of the sub type and the date when the members of an object are read into another
one. -/
def restored (env : ObjectEnv) (o : Object) (s : Item) : Item := match o.own with
  | .none | .teleport .. => Item.restoreDate o.item (Item.restoreSubType env.toItemEnv o.item s)
  | .door | .bed .. => s

theorem sameSub_setSleeper (guid : BitVec 32) (o : Object) : Item.SameSub o.item (setSleeper env guid o).item := by
  simp only [setSleeper]
  split
  · exact Item.SameSub.refl _
  · split
    · exact Item.SameSub.setStrAttr _ _ _
    · exact Item.SameSub.refl _

/-- A tag of a derived class, which every other class skips. -/
theorem passes_own {tag : UInt8} (htag : tag ≠ 0) {bytes : List UInt8}
    (h : ∀ o : Object, ∃ o', Reads (readAttr env tag) bytes o () o' ∧ Item.SameSub o.item o'.item) :
    Item.Passes (loop env) (tag :: bytes) := by
  intro o
  obtain ⟨o', hreads, hsame⟩ := h o
  exact ⟨o', Turns.tag tag htag hreads, hsame⟩

theorem reads_skip {n : Nat} {bytes : List UInt8} (h : bytes.length = n) (s : Item) :
    Reads (Item.skip n) bytes s () s := (Reads.take bytes h s).bindNil (Reads.pure () s)

theorem passes_sleeper (guid : BitVec 32) : Item.Passes (loop env) (ATTR_SLEEPERGUID :: writeBits guid) := by
  refine passes_own (by decide) fun o => ?_
  have hskip : Reads (Item.readAttr env.toItemEnv ATTR_SLEEPERGUID) (writeBits guid) o.item () o.item :=
    reads_skip (length_writeBits guid) o.item
  obtain ⟨item, own⟩ := o
  cases own with
  | bed g t =>
    refine ⟨setSleeper env guid ⟨item, .bed g t⟩, Reads.inspect ?_, sameSub_setSleeper guid _⟩
    exact (Reads.readBits guid rfl _).bindNil (Reads.modify _ _)
  | _ => exact ⟨_, Reads.inspect (reads_inItem hskip), Item.SameSub.refl _⟩

theorem passes_sleepStart (start : BitVec 32) : Item.Passes (loop env) (ATTR_SLEEPSTART :: writeBits start) := by
  refine passes_own (by decide) fun o => ?_
  have hskip : Reads (Item.readAttr env.toItemEnv ATTR_SLEEPSTART) (writeBits start) o.item () o.item :=
    reads_skip (length_writeBits start) o.item
  obtain ⟨item, own⟩ := o
  cases own with
  | bed g t =>
    refine ⟨setSleepStart start ⟨item, .bed g t⟩, Reads.inspect ?_, Item.SameSub.refl _⟩
    exact (Reads.readBits start rfl _).bindNil (Reads.modify _ _)
  | _ => exact ⟨_, Reads.inspect (reads_inItem hskip), Item.SameSub.refl _⟩

theorem passes_teleport (x y : BitVec 16) (z : BitVec 8) : Item.Passes (loop env) (teleportBytes x y z) := by
  refine passes_own (by decide) fun o => ?_
  have hskip : Reads (Item.readAttr env.toItemEnv ATTR_TELE_DEST) (writeBits x ++ writeBits y ++ writeBits z) o.item ()
      o.item := reads_skip (by simp) o.item
  obtain ⟨item, own⟩ := o
  cases own with
  | teleport x0 y0 z0 =>
    refine ⟨⟨item, .teleport x y z⟩, Reads.inspect ?_, Item.SameSub.refl _⟩
    rw [List.append_assoc]
    exact (Reads.readBits x rfl _).bind ((Reads.readBits y rfl _).bind
      ((Reads.readBits z rfl _).bindNil (Reads.modify _ _)))
  | _ => exact ⟨_, Reads.inspect (reads_inItem hskip), Item.SameSub.refl _⟩

/-- All bytes of an object are read. Only an item and a teleport write their sub type. -/
theorem readsTo_serializeAttr {o : Object} (h : o.item.Representable) (n : Object) :
    Item.ReadsTo (loop env) (o.serializeAttr env) n (restored env o n.item) := by
  rw [serializeAttr, restored]
  cases o.own with
  | none => exact Item.readsTo_serializeAttr h n
  | door => exact Item.passes_nil n
  | bed guid start =>
    exact (Item.passes_ite (fun _ => passes_sleeper guid) n).append (Item.passes_ite fun _ => passes_sleepStart _)
  | teleport x y z => exact (Item.readsTo_serializeAttr h n).append (passes_teleport x y z)

/-! ## An object that is made again -/

/-- `loadItems` makes an object of the columns of a row. Where its attributes cannot be read,
what was read of them stays. -/
def reload (env : ObjectEnv) (type : UInt16) (count : BitVec 16) (attributes : List UInt8) : Option (Object × Bool) := do
  let (item, isContainer) ← create env type count
  pure (((unserializeAttr env).run item attributes).2.1, isContainer)

/-- An object of the class that `CreateItem` makes for its id, where the id is not one of those
that become another. -/
structure Made (env : ObjectEnv) (o : Object) (isContainer : Bool) : Prop where
  representable : o.item.Representable
  created : (create env o.item.id 0).map (fun n => (n.1.item.id, n.1.own.cls, n.2)) =
    some (o.item.id, o.own.cls, isContainer)

/-- The sub type survives. It does where it is written in its eight bits, or where the new
object has it from the start, unless charges are read into its place. -/
def KeepsSubType (env : ObjectEnv) (o : Object) : Prop :=
  let it := env.items o.item.id
  let item := o.item
  match o.own with
  | .none | .teleport .. => match Item.kindOf it with
    | .fluid => if item.getCharges = 0 then item.getFluidType < 256 else item.getCharges = item.getFluidType
    | .stackable => item.getCharges = 0 ∨ item.getCharges.setWidth 8 = item.count
    | .charged => item.getCharges ≠ 0 ∨ it.charges.toBitVec.setWidth 16 = 0
    | .plain => item.count = if item.getCharges = 0 then 1 else item.getCharges.setWidth 8
  | .door | .bed .. => match Item.kindOf it with
    | .fluid => item.getFluidType = 0
    | .stackable => item.count = if it.charges = 0 then 1 else it.charges.toBitVec.setWidth 8
    | .charged => item.getCharges = it.charges.toBitVec.setWidth 16
    | .plain => item.count = 1

/-- What `CreateItem` does with an id: the class of the object, its id, and whether the argument
goes to the constructor. -/
def createPlan (it : ItemType) (type : UInt16) : Option (Option ContainerClass × UInt16 × Bool) :=
  if it.group = .deprecated ∨ it.id = 0 then none
  else if it.type = .depot then some (some .depotLocker, type, false)
  else if it.type = .rewardChest then some (some .rewardChest, type, false)
  else if ITEM_DEPOT_BOX_1 ≤ it.id ∧ it.id ≤ ITEM_DEPOT_BOX_17 then some (some .depotBox, type, false)
  else if it.id = ITEM_INBOX then some (some .inbox, type, false)
  else if it.isContainer then some (some .container, type, false)
  else if it.type = .teleport ∨ it.type = .magicField ∨ it.type = .door ∨ it.type = .trashHolder ∨
      it.type = .mailbox ∨ it.type = .bed then some (none, type, false)
  else if 3094 ≤ it.id ∧ it.id ≤ 3096 then some (none, type - 3, true)
  else if it.id = 3099 ∨ it.id = 3100 then some (none, type - 2, true)
  else if 3086 ≤ it.id ∧ it.id ≤ 3090 then some (none, type - 37, true)
  else if it.id = 3549 then some (none, 6529, true)
  else if it.id = 6299 then some (none, 6300, true)
  else some (none, type, true)

theorem createItem_eq (env : GameEnv) (type : UInt16) (count : BitVec 16) :
    Thing.createItem env type count = (createPlan (env.items type) type).map fun (cls, id, keeps) =>
      (cls, Item.create env.items id (if keeps then
        if (env.items type).stackable && count == 0 then 1 else count else 0) (env.newDuration id)) := by
  simp only [createPlan, apply_ite (Option.map _), Option.map_some, Option.map_none]
  rfl

/-- The classes with members of their own drop the argument. -/
theorem createPlan_keeps {it : ItemType} {type id : UInt16} {cls : Option ContainerClass}
    (h : createPlan it type = some (cls, id, true)) : it.type ≠ .door ∧ it.type ≠ .bed := by
  rw [← not_or]
  intro htype
  have hspecial : it.type = .teleport ∨ it.type = .magicField ∨ it.type = .door ∨ it.type = .trashHolder ∨
      it.type = .mailbox ∨ it.type = .bed := by tauto
  have hdrop : ∀ {c : Prop} [Decidable c] {cls' id'} {rest : Option (Option ContainerClass × UInt16 × Bool)},
      (if c then some (cls', id', false) else rest) = some (cls, id, true) → rest = some (cls, id, true) := by
    intro c _ cls' id' rest hite
    split at hite
    · cases hite
    · exact hite
  rw [createPlan] at h
  by_cases hnone : it.group = .deprecated ∨ it.id = 0
  · rw [if_pos hnone] at h
    cases h
  · rw [if_neg hnone] at h
    have hlast := hdrop (hdrop (hdrop (hdrop (hdrop h))))
    rw [if_pos hspecial] at hlast
    cases hlast

/-- An object that is made for an id with any argument, and one that is made without. -/
theorem create_of_made {o : Object} {isContainer : Bool} (h : Made env o isContainer) (count : BitVec 16) :
    ∃ n c, create env o.item.id count = some (n, isContainer) ∧
      n.item = Item.create env.items o.item.id c (env.newDuration o.item.id) ∧ n.own.cls = o.own.cls ∧
      (c = 0 ∨ c = (if (env.items o.item.id).stackable && count == 0 then 1 else count) ∧
        (o.own.cls = .none ∨ o.own.cls = .teleport 0 0 0)) := by
  have hmade := h.created
  simp only [create, createItem_eq, Option.pure_def, Option.bind_eq_bind] at hmade ⊢
  show ∃ n c, Option.bind ((createPlan (env.items o.item.id) o.item.id).map _) _ = _ ∧ _
  change Option.map _ (Option.bind ((createPlan (env.items o.item.id) o.item.id).map _) _) = _ at hmade
  rcases hplan : createPlan (env.items o.item.id) o.item.id with _ | ⟨cls, id, keeps⟩
  · rw [hplan] at hmade
    cases hmade
  · rw [hplan] at hmade
    simp only [Option.map_some, Option.bind_some, Option.some.injEq, Prod.mk.injEq, Item.create_id] at hmade
    obtain ⟨rfl, hcls, rfl⟩ := hmade
    refine ⟨_, _, rfl, rfl, hcls, ?_⟩
    cases keeps with
    | false => exact .inl rfl
    | true =>
      refine .inr ⟨rfl, ?_⟩
      obtain ⟨hdoor, hbed⟩ := createPlan_keeps hplan
      rw [← hcls]
      by_cases hc : cls.isSome = true
      · exact .inl (by rw [if_pos hc]; rfl)
      · rw [if_neg hc, OwnMembers.create]
        cases htype : (env.items o.item.id).type <;> simp_all [OwnMembers.cls]

/-- The sub type that the constructor gives. -/
theorem getSubType_create (items : Items) (id : UInt16) (c : BitVec 16) (duration : BitVec 32) :
    (Item.create items id c duration).getSubType items = match Item.kindOf (items id) with
      | .fluid => c
      | .stackable => (if c ≠ 0 then c.setWidth 8 else if (items id).charges ≠ 0 then
          (items id).charges.toBitVec.setWidth 8 else 1).setWidth 16
      | .charged => if c ≠ 0 then c else (items id).charges.toBitVec.setWidth 16
      | .plain => 1 := by
  obtain ⟨hid, hcount, hints⟩ := Item.create_frame items id c duration
  rw [Item.getSubType_kind, hid, Item.getFluidType, Item.getIntAttr, hints .fluidType (by decide), Item.getCharges,
    Item.getIntAttr, hints .charges (by decide), hcount]
  simp only [Item.initSubType, Item.kindOf]
  split_ifs <;> simp_all [Item.setFluidType, Item.setCharges, Item.setItemCount, Item.setIntAttr]

theorem setSubType_id (items : Items) (s : Item) (n : BitVec 16) : (s.setSubType items n).id = s.id := by
  rw [Item.setSubType_kind]
  split <;> rfl

/-- A sub type that is set. Where the count keeps it, that is eight bits of it. -/
theorem getSubType_setSubType (items : Items) (s : Item) (n : BitVec 16) :
    (s.setSubType items n).getSubType items = match Item.kindOf (items s.id) with
      | .fluid | .charged => n
      | .stackable | .plain => (n.setWidth 8).setWidth 16 := by
  rw [Item.getSubType_kind, setSubType_id, Item.setSubType_kind]
  cases Item.kindOf (items s.id) with
  | fluid => exact Item.getFluidType_setFluidType s n
  | charged => exact Item.getCharges_setCharges s n
  | stackable => rfl
  | plain => rfl

/-- What is left of the sub type of an item that writes it, in an object with the same id. -/
theorem getSubType_restoreSubType {env : ItemEnv} {item s : Item} (hid : s.id = item.id) :
    (Item.restoreSubType env item s).getSubType env.items = match Item.kindOf (env.items item.id) with
      | .fluid => if item.getCharges = 0 then (item.getFluidType.setWidth 8).setWidth 16 else item.getCharges
      | .stackable => (if item.getCharges = 0 then item.count else item.getCharges.setWidth 8).setWidth 16
      | .charged => if item.getCharges = 0 then s.getSubType env.items else item.getCharges
      | .plain => if item.getCharges = 0 then s.getSubType env.items else (item.getCharges.setWidth 8).setWidth 16 := by
  have hsub : item.getSubType env.items = _ := Item.getSubType_kind env.items
  simp only [Item.restoreSubType, Item.writesCount_kind]
  by_cases hc : item.getCharges = 0
  · simp only [hc, ne_eq, not_true_eq_false, if_false, if_true]
    cases hk : Item.kindOf (env.items item.id) <;> simp [getSubType_setSubType, hid, hk, hsub]
  · simp only [hc, ne_eq, not_false_eq_true, if_true, if_false]
    rw [getSubType_setSubType]
    cases hk : Item.kindOf (env.items item.id) <;> simp [setSubType_id, hid, hk]

theorem restoreSubType_id {env : ItemEnv} {item s : Item} : (Item.restoreSubType env item s).id = s.id := by
  simp only [Item.restoreSubType]
  split_ifs <;> simp only [setSubType_id]

theorem getSubType_restoreDate {items : Items} {item s : Item} :
    (Item.restoreDate item s).getSubType items = s.getSubType items := by
  rw [Item.restoreDate]
  split <;> rfl

theorem restored_id {o : Object} {s : Item} : (restored env o s).id = s.id := by
  have hdate {item t : Item} : (Item.restoreDate item t).id = t.id := by
    rw [Item.restoreDate]
    split <;> rfl
  rw [restored]
  split
  · exact hdate.trans restoreSubType_id
  · exact hdate.trans restoreSubType_id
  · rfl
  · rfl

/-- The date of the object that is made again. A door and a bed do not write it. -/
def savedDate (o : Object) : BitVec 64 := match o.own with
  | .none | .teleport .. => (o.item.getDate.setWidth 32).signExtend 64
  | .door | .bed .. => 0

theorem getDate_create (items : Items) (id : UInt16) (c : BitVec 16) (duration : BitVec 32) :
    (Item.create items id c duration).getDate = 0 := by
  obtain ⟨_, _, hints⟩ := Item.create_frame items id c duration
  rw [Item.getDate, Item.getIntAttr, hints .date (by decide)]
  simp only [Item.initSubType]
  split_ifs <;> rfl

theorem getDate_setSubType (items : Items) (s : Item) (n : BitVec 16) : (s.setSubType items n).getDate = s.getDate := by
  rw [Item.setSubType_kind]
  split <;> rfl

theorem getDate_restoreSubType {env : ItemEnv} {item s : Item} :
    (Item.restoreSubType env item s).getDate = s.getDate := by
  simp only [Item.restoreSubType]
  split_ifs <;> simp only [getDate_setSubType]

theorem restored_date {o : Object} {s : Item} (hs : s.getDate = 0) : (restored env o s).getDate = savedDate o := by
  have hdate {item t : Item} (ht : t.getDate = 0) :
      (Item.restoreDate item t).getDate = (item.getDate.setWidth 32).signExtend 64 := by
    rw [Item.restoreDate]
    split
    · exact rfl
    · rename_i hzero
      rw [ht, not_not.mp hzero]
      rfl
  obtain ⟨item, own⟩ := o
  cases own with
  | none => exact hdate (getDate_restoreSubType.trans hs)
  | teleport x y z => exact hdate (getDate_restoreSubType.trans hs)
  | door => exact hs
  | bed guid start => exact hs

/-- An object that writes its sub type has it again. -/
theorem written_subType {env : ItemEnv} {item s : Item} {c : BitVec 16} {duration : BitVec 32}
    (hs : s = Item.create env.items item.id c duration)
    (hc : c = 0 ∨ c = (if (env.items item.id).stackable && item.getSubType env.items == 0 then 1
      else item.getSubType env.items)) :
    (Item.restoreSubType env item s).getSubType env.items = item.getSubType env.items ↔
      match Item.kindOf (env.items item.id) with
      | .fluid => if item.getCharges = 0 then item.getFluidType < 256 else item.getCharges = item.getFluidType
      | .stackable => item.getCharges = 0 ∨ item.getCharges.setWidth 8 = item.count
      | .charged => item.getCharges ≠ 0 ∨ (env.items item.id).charges.toBitVec.setWidth 16 = 0
      | .plain => item.count = if item.getCharges = 0 then 1 else item.getCharges.setWidth 8 := by
  have hsub : item.getSubType env.items = _ := Item.getSubType_kind env.items
  have hid : s.id = item.id := by rw [hs, Item.create_id]
  rw [getSubType_restoreSubType hid, hs, getSubType_create]
  cases hk : Item.kindOf (env.items item.id) <;> rw [hk] at hsub <;> simp only [hsub] at hc ⊢
  · by_cases hzero : item.getCharges = 0 <;> simp only [hzero, if_true, if_false]
    bv_omega
  · by_cases hzero : item.getCharges = 0 <;> simp only [hzero, if_true, if_false, true_or, false_or]
    bv_omega
  · have hstack : (env.items item.id).stackable = false := by
      rw [Item.kindOf] at hk
      split_ifs at hk with _ hstack
      simpa using hstack
    by_cases hzero : item.getCharges = 0
    · have hc' : c = 0 := by simpa [hstack, hzero] using hc
      simp [hc', hzero]
    · rw [if_neg hzero]
      exact iff_of_true rfl (.inl hzero)
  · by_cases hzero : item.getCharges = 0 <;> simp only [hzero, if_true, if_false]
    · bv_omega
    · bv_omega

/-- An object that does not write its sub type has that of a new object. -/
theorem made_subType {items : Items} {item s : Item} {duration : BitVec 32}
    (hs : s = Item.create items item.id 0 duration) :
    s.getSubType items = item.getSubType items ↔ match Item.kindOf (items item.id) with
      | .fluid => item.getFluidType = 0
      | .stackable => item.count = if (items item.id).charges = 0 then 1 else (items item.id).charges.toBitVec.setWidth 8
      | .charged => item.getCharges = (items item.id).charges.toBitVec.setWidth 16
      | .plain => item.count = 1 := by
  rw [hs, getSubType_create, Item.getSubType_kind]
  cases Item.kindOf (items item.id) with
  | fluid => exact eq_comm
  | charged => exact eq_comm
  | stackable =>
    simp only [ne_eq, not_true_eq_false, if_false]
    split_ifs <;> bv_omega
  | plain => bv_omega

/-- The sub type of the object that is made again, and whether it is the old one. -/
theorem reload_of_made {o : Object} {isContainer : Bool} (h : Made env o isContainer) :
    ∃ o', reload env o.item.id (o.item.getSubType env.items) (o.serializeAttr env) = some (o', isContainer) ∧
      o'.item.id = o.item.id ∧ o'.item.getDate = savedDate o ∧
      (o'.item.getSubType env.items = o.item.getSubType env.items ↔ KeepsSubType env o) := by
  obtain ⟨n, c, hcreate, hn, hcls, hcount⟩ := create_of_made h (o.item.getSubType env.items)
  obtain ⟨o', hturns, hsame⟩ := readsTo_serializeAttr h.representable n
  have hid : n.item.id = o.item.id := by rw [hn, Item.create_id]
  have hrun : (unserializeAttr env).run n (o.serializeAttr env) = (some (), o', []) := Turns.run_end hturns
  refine ⟨o', ?_, ?_, ?_, ?_⟩
  · simp only [reload, hcreate, Option.pure_def, Option.bind_eq_bind, Option.bind_some, hrun]
  · exact hsame.id.trans (restored_id.trans hid)
  · have hnew : n.item.getDate = 0 := hn ▸ getDate_create ..
    exact hsame.date.trans (restored_date hnew)
  · rw [show o'.item = (loop env).item o' from rfl, hsame.getSubType_eq]
    obtain ⟨item, own⟩ := o
    cases own with
    | none =>
      rw [restored, getSubType_restoreDate]
      exact written_subType hn (hcount.imp_right And.left)
    | teleport x y z =>
      rw [restored, getSubType_restoreDate]
      exact written_subType hn (hcount.imp_right And.left)
    | door => exact made_subType (hn.trans (by rw [hcount.resolve_right (by simp [OwnMembers.cls])]))
    | bed guid start => exact made_subType (hn.trans (by rw [hcount.resolve_right (by simp [OwnMembers.cls])]))

end Object

end ForgottenServer
