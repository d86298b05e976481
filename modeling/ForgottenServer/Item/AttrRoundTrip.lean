import ForgottenServer.Item.Serialize

/-! # Attributes across a save

The bytes of `serializeAttr` read into a new item of the same id. Every part of the bytes
is read by one turn of the loop of `unserializeAttr`, which sets the attribute again. -/

open Reader LittleEndian

namespace ForgottenServer

/-! ## Values -/

section Values

variable {σ : Type} {s : σ}

theorem reads_readString {str : List UInt8} (h : str.length < 65536) :
    Reads (readString : Reader σ (List UInt8)) (writeString str) s str s := by
  have hlen : (BitVec.ofNat 16 str.length).toNat = str.length := by
    rw [BitVec.toNat_ofNat]
    exact Nat.mod_eq_of_lt h
  rw [writeString, if_neg (by omega)]
  exact (Reads.readBits (BitVec.ofNat 16 str.length) rfl s).bind (Reads.take str hlen.symm s)

theorem reads_imbuement (i : Imbuement) :
    Reads (Imbuement.unserialize : Reader σ Imbuement) i.serialize s i s := by
  let packed : BitVec 32 := i.baseId.setWidth 32 <<< 16 ||| i.decaytype.setWidth 32
  have htype : (i.imbuetype.setWidth 32).setWidth 8 = i.imbuetype := by simp
  have hdecay : packed.setWidth 8 = i.decaytype := by
    ext k hk
    simp [packed]
  have hbase : (packed >>> 16).setWidth 16 = i.baseId := by
    ext k hk
    have hnone : i.decaytype.getLsbD (16 + k) = false := BitVec.getLsbD_of_ge _ _ (by omega)
    simp [packed, hnone, show 16 + k < 32 by omega, show k < 32 by omega, BitVec.getLsbD_eq_getElem hk]
  rw [Imbuement.serialize, List.append_assoc, List.append_assoc]
  refine (Reads.readBits (i.imbuetype.setWidth 32) rfl s).bind ?_
  refine (Reads.readBits i.value rfl s).bind ?_
  refine (Reads.readBits i.duration rfl s).bind ?_
  refine (Reads.readBits packed rfl s).bindNil ?_
  rw [htype, hdecay, hbase]
  exact Reads.pure i s

theorem reads_custom (c : CustomAttribute) (h : ∀ str, c = .str str → str.length < 65536) :
    Reads (CustomAttribute.unserialize : Reader σ CustomAttribute) c.serialize s c s := by
  cases c with
  | monostate => exact (Reads.readBits (0 : BitVec 8) rfl s).bindNil (Reads.pure _ s)
  | str str =>
    exact (Reads.readBits (1 : BitVec 8) rfl s).bind ((reads_readString (h str rfl)).bindNil (Reads.pure _ s))
  | int v =>
    exact (Reads.readBits (2 : BitVec 8) rfl s).bind ((Reads.readBits v rfl s).bindNil (Reads.pure _ s))
  | double v =>
    exact (Reads.readBits (3 : BitVec 8) rfl s).bind ((Reads.readBits v rfl s).bindNil (Reads.pure _ s))
  | bool b =>
    intro rest
    cases b <;> rfl

end Values

/-! ## The integers and the strings -/

/-- A value that the type of the field can hold. -/
def IntField.Holds (f : IntField) (v : BitVec 64) : Prop :=
  f.widen (f.narrow v) = v ∧ (f.attr = .attackSpeed → ¬ v.slt 100)

namespace Item

/-- An integer attribute, if there is one to set. -/
def put (a : IntAttr) (value : Option (BitVec 64)) (s : Item) : Item :=
  { s with ints := Function.update s.ints a (value.or (s.ints a)) }

def putStr (a : StrAttr) (value : Option (List UInt8)) (s : Item) : Item :=
  { s with strs := Function.update s.strs a (value.or (s.strs a)) }

@[simp] theorem put_none (a : IntAttr) (s : Item) : put a none s = s := by
  rw [put, Option.none_or, Function.update_eq_self]

@[simp] theorem putStr_none (a : StrAttr) (s : Item) : putStr a none s = s := by
  rw [putStr, Option.none_or, Function.update_eq_self]

/-- Only the attack speed has a lower bound. -/
theorem setIntAttr_eq {s : Item} {a : IntAttr} {v : BitVec 64} (h : a = .attackSpeed → ¬ v.slt 100) :
    s.setIntAttr a v = put a (some v) s := by
  rw [setIntAttr, if_neg (fun hv => h hv.1 hv.2)]
  rfl

variable (env : ItemEnv) {item s : Item}

/-- An attribute that is read by one tag when it is written. -/
theorem turns_put {a : IntAttr} {value : Option (BitVec 64)} {bytes : List UInt8} (tag : UInt8) (htag : tag ≠ 0)
    (hnone : value = none → bytes = [])
    (hsome : ∀ v, value = some v → ∃ payload, bytes = tag :: payload ∧
      Reads (readAttr env tag) payload s () (put a (some v) s)) :
    Turns 0 (readAttr env) bytes s (put a value s) := by
  cases value with
  | none =>
    rw [hnone rfl, put_none]
    exact Turns.nil s
  | some v =>
    obtain ⟨payload, rfl, hreads⟩ := hsome v rfl
    exact Turns.tag tag htag hreads

theorem turns_int (f : IntField) (htag : f.tag ≠ 0) (hbits : 256 ^ (f.bits / 8) = 2 ^ f.bits)
    (hread : readAttr env f.tag = f.read) (hholds : ∀ v, item.ints f.attr = some v → f.Holds v) :
    Turns 0 (readAttr env) (f.write item) s (put f.attr (item.ints f.attr) s) := by
  refine turns_put env f.tag htag (fun hnone => ?_) (fun v hv => ?_)
  · rw [IntField.write, hnone]
    rfl
  · obtain ⟨hvalue, hspeed⟩ := hholds v hv
    refine ⟨writeBits (f.narrow v), ?_, ?_⟩
    · rw [IntField.write, getIntAttr, hv]
      rfl
    · rw [hread, ← setIntAttr_eq hspeed]
      nth_rewrite 2 [← hvalue]
      exact (Reads.readBits (f.narrow v) hbits s).bindNil (Reads.modify _ s)

/-- A string as `setStrAttr` leaves it, and short enough to be written. -/
def Writable (str : List UInt8) : Prop := str ≠ [] ∧ str.length < 65536

theorem reads_str (f : StrField) {str : List UInt8} (h : Writable str) :
    Reads f.read (writeString str) s () (putStr f.attr (some str) s) := by
  have hset : s.setStrAttr f.attr str = putStr f.attr (some str) s := by
    rw [setStrAttr, if_neg (by rw [List.isEmpty_iff]; exact h.1)]
    rfl
  rw [← hset]
  exact (reads_readString h.2).bindNil (Reads.modify _ s)

theorem turns_str (f : StrField) (htag : f.tag ≠ 0) (hread : readAttr env f.tag = f.read)
    (h : ∀ str, item.strs f.attr = some str → Writable str) :
    Turns 0 (readAttr env) (f.writeIfPresent item) s (putStr f.attr (item.strs f.attr) s) := by
  rw [StrField.writeIfPresent, getStrAttr]
  cases hstr : item.strs f.attr with
  | none =>
    rw [putStr_none]
    exact Turns.nil s
  | some str =>
    refine Turns.tag f.tag htag ?_
    rw [hread]
    exact reads_str f (h str hstr)

theorem writeNonEmpty_eq (f : StrField) (h : ∀ str, item.strs f.attr = some str → Writable str) :
    f.writeNonEmpty item = f.writeIfPresent item := by
  rw [StrField.writeNonEmpty, StrField.writeIfPresent, getStrAttr]
  cases hstr : item.strs f.attr with
  | none => rfl
  | some str => simp [(h str hstr).1]

/-! ## The other attributes -/

/-- The action id that is written. -/
def savedActionId (item : Item) : Option (BitVec 64) :=
  if (env.items item.id).moveable ∧ item.getActionId ≠ 0 then
    some ((if item.getActionId < 100 then 100 else item.getActionId).setWidth 64)
  else none

theorem turns_actionId : Turns 0 (readAttr env) (item.writeActionId env) s (put .actionId (savedActionId env item) s) := by
  rw [writeActionId, savedActionId]
  split
  · refine Turns.tag ATTR_ACTION_ID (by decide) ?_
    rw [← setIntAttr_eq (by simp)]
    exact (Reads.readBits item.getActionId rfl s).bindNil (Reads.modify _ s)
  · rw [put_none]
    exact Turns.nil s

def savedDate (item : Item) : Option (BitVec 64) :=
  if item.getDate ≠ 0 then some ((item.getDate.setWidth 32).signExtend 64) else none

theorem turns_date : Turns 0 (readAttr env) item.writeDate s (put .date (savedDate item) s) := by
  rw [writeDate, savedDate]
  split
  · refine Turns.tag ATTR_WRITTENDATE (by decide) ?_
    rw [← setIntAttr_eq (by simp)]
    exact (Reads.readBits (item.getDate.setWidth 32) rfl s).bindNil (Reads.modify _ s)
  · rw [put_none]
    exact Turns.nil s

def savedDuration (item : Item) : Option (BitVec 64) :=
  if (item.ints .duration).isSome then some ((atLeastZero (item.getDuration env.now)).signExtend 64) else none

theorem turns_duration : Turns 0 (readAttr env) (item.writeDuration env) s (put .duration (savedDuration env item) s) := by
  rw [writeDuration, savedDuration]
  split
  · refine Turns.tag ATTR_DURATION (by decide) ?_
    rw [← setIntAttr_eq (by simp)]
    exact (Reads.readBits (item.getDuration env.now) rfl s).bindNil (Reads.modify _ s)
  · rw [put_none]
    exact Turns.nil s

/-- An item that decays, or waits for it, waits for it after a save. -/
def savedDecaying (item : Item) : Option (BitVec 64) :=
  if item.getDecaying = ItemDecayState.decayingTrue.value ∨
      item.getDecaying = ItemDecayState.decayingPending.value then
    some (ItemDecayState.decayingPending.value.setWidth 64)
  else none

theorem turns_decaying : Turns 0 (readAttr env) item.writeDecaying s (put .decayState (savedDecaying item) s) := by
  rw [writeDecaying, savedDecaying]
  split
  · rename_i hstate
    refine Turns.tag ATTR_DECAYING_STATE (by decide) ?_
    rw [← setIntAttr_eq (by simp)]
    refine (Reads.readBits item.getDecaying rfl s).bindNil ?_
    have hne : item.getDecaying ≠ ItemDecayState.decayingFalse.value := by
      rcases hstate with h | h <;> rw [h] <;> decide
    rw [if_pos hne]
    exact Reads.modify _ s
  · rw [put_none]
    exact Turns.nil s

/-! ## Imbuements -/

theorem turns_imbuementSlots : Turns 0 (readAttr env) (item.writeImbuementSlots env) s
    (if item.getImbuementSlots env ≠ 0 then { s with imbuementSlots := item.imbuementSlots } else s) := by
  refine Turns.ite fun _ => Turns.tag ATTR_IMBUESLOTS (by decide) ?_
  have hstate : { s with imbuementSlots := item.imbuementSlots } =
      { s with imbuementSlots := (item.imbuementSlots.setWidth 32).setWidth 16 } := by simp
  rw [hstate]
  exact (Reads.readBits (item.imbuementSlots.setWidth 32) rfl s).bindNil (Reads.modify _ s)

/-- Imbuements for which there is room are all added. -/
theorem foldl_addImbuement (imbuements : List Imbuement) :
    ∀ {s : Item}, s.imbuements.length + imbuements.length ≤ s.imbuementSlots.toNat →
      imbuements.foldl addImbuement s = { s with imbuements := s.imbuements ++ imbuements } := by
  induction imbuements with
  | nil => intro s _; simp
  | cons i imbuements ih =>
    intro s hroom
    rw [List.length_cons] at hroom
    have hadd : s.addImbuement i = { s with imbuements := s.imbuements ++ [i] } := by
      rw [addImbuement, if_pos (by omega)]
    rw [List.foldl_cons, hadd, ih (by simp; omega)]
    simp

theorem reads_counted {bits : Nat} (hbits : 256 ^ (bits / 8) = 2 ^ bits) {m : Reader Item Unit} {γ : Type}
    (write : γ → List UInt8) (step : Item → γ → Item) {xs : List γ} (hlen : xs.length < 2 ^ bits)
    (h : ∀ s, ∀ x ∈ xs, Reads m (write x) s () (step s x)) :
    Reads (counted bits m) (writeBits (BitVec.ofNat bits xs.length) ++ xs.flatMap write) s () (xs.foldl step s) := by
  refine (Reads.readBits (BitVec.ofNat bits xs.length) hbits s).bind ?_
  rw [BitVec.toNat_ofNat, Nat.mod_eq_of_lt hlen]
  exact Reads.times write step xs h s

theorem turns_imbuements (hempty : s.imbuements = []) (hroom : item.imbuements.length ≤ s.imbuementSlots.toNat) :
    Turns 0 (readAttr env) item.writeImbuements s { s with imbuements := item.imbuements } := by
  have hall : item.imbuements.foldl addImbuement s = { s with imbuements := item.imbuements } := by
    rw [foldl_addImbuement _ (by rw [hempty]; simpa using hroom), hempty, List.nil_append]
  have hlen : item.imbuements.length < 2 ^ 16 := Nat.lt_of_le_of_lt hroom s.imbuementSlots.isLt
  rw [writeImbuements, ← hall]
  split
  · refine Turns.tag ATTR_IMBUEMENTS (by decide) ?_
    refine reads_counted rfl Imbuement.serialize addImbuement hlen ?_
    intro s i _
    exact (reads_imbuement i).bindNil (Reads.modify _ s)
  · rename_i hnil
    rw [not_not.mp hnil]
    exact Turns.nil s

/-! ## Custom attributes -/

/-- A map as `setCustomAttribute` builds it, with strings short enough to be written. -/
structure WritableCustom (map : AList fun _ : List UInt8 => CustomAttribute) : Prop where
  size : map.entries.length < 2 ^ 64
  lower : ∀ e ∈ map.entries, e.1.map toLower = e.1
  keys : ∀ e ∈ map.entries, e.1.length < 65536
  strings : ∀ e ∈ map.entries, ∀ str, e.2 = CustomAttribute.str str → str.length < 65536

/-- The custom attributes, one after the other. -/
def putCustom (entries : List (Sigma fun _ : List UInt8 => CustomAttribute)) (s : Item) : Item :=
  entries.foldl (fun s e => s.setCustomAttribute e.1 e.2) s

theorem turns_custom (h : ∀ map, item.custom = some map → WritableCustom map) :
    Turns 0 (readAttr env) item.writeCustom s (putCustom ((item.custom.getD ∅).entries) s) := by
  rw [writeCustom]
  cases hcustom : item.custom with
  | none => exact Turns.nil s
  | some map =>
    have hmap := h map hcustom
    refine Turns.tag ATTR_CUSTOM_ATTRIBUTES (by decide) ?_
    refine reads_counted rfl (fun e : Sigma fun _ : List UInt8 => CustomAttribute =>
      writeString e.1 ++ e.2.serialize) (fun s e => s.setCustomAttribute e.1 e.2) hmap.size ?_
    intro s e he
    exact (reads_readString (hmap.keys e he)).bind
      ((reads_custom e.2 (hmap.strings e he)).bindNil (Reads.modify _ s))

/-- The entries found in a map after they were put there one by one. -/
theorem putCustom_eq (entries : List (Sigma fun _ : List UInt8 => CustomAttribute))
    (hlower : ∀ e ∈ entries, e.1.map toLower = e.1) (hnodup : entries.NodupKeys) :
    ∀ s : Item, ∃ custom, putCustom entries s = { s with custom } ∧
      ∀ key, (custom.getD ∅).lookup key = (List.dlookup key entries).or ((s.custom.getD ∅).lookup key) := by
  induction entries with
  | nil => intro s; exact ⟨s.custom, rfl, fun key => rfl⟩
  | cons e entries ih =>
    intro s
    obtain ⟨hnew, hrest⟩ := List.nodupKeys_cons.mp hnodup
    obtain ⟨custom, heq, hlookup⟩ := ih (fun e he => hlower e (List.mem_cons_of_mem _ he)) hrest
      (s.setCustomAttribute e.1 e.2)
    refine ⟨custom, heq, fun key => ?_⟩
    have hset : (s.setCustomAttribute e.1 e.2).custom = some ((s.custom.getD ∅).insert e.1 e.2) := by
      rw [setCustomAttribute, hlower e (List.mem_cons_self ..)]
    rw [hlookup, hset, Option.getD_some]
    rcases eq_or_ne key e.1 with rfl | hne
    · rw [AList.lookup_insert, List.dlookup_eq_none.mpr hnew, List.dlookup_cons_eq]
      rfl
    · rw [AList.lookup_insert_ne hne, List.dlookup_cons_ne _ _ hne]

/-- Custom attributes read into an item that has none. -/
theorem getCustomAttribute_putCustom {map : AList fun _ : List UInt8 => CustomAttribute} (h : WritableCustom map)
    {s : Item} (hs : s.custom = none) (key : List UInt8) :
    (putCustom map.entries s).getCustomAttribute key = map.lookup (key.map toLower) := by
  obtain ⟨custom, heq, hlookup⟩ := putCustom_eq map.entries h.lower map.nodupKeys s
  have hkey := hlookup (key.map toLower)
  rw [hs, Option.getD_none, AList.lookup_empty, Option.or_none] at hkey
  rw [heq, getCustomAttribute]
  cases custom with
  | none =>
    rw [Option.getD_none, AList.lookup_empty] at hkey
    exact hkey
  | some custom => exact hkey

/-! ## Count, charges and fluid type -/

inductive SubTypeKind where
  | fluid
  | stackable
  | charged
  | plain
  deriving DecidableEq

/-- The case of `getSubType` and `setSubType` that an item type is. -/
def kindOf (it : ItemType) : SubTypeKind :=
  if it.isFluidContainer || it.isSplash then .fluid
  else if it.stackable then .stackable
  else if it.charges != 0 then .charged
  else .plain

/-- Fluid containers and splashes have a fluid type of eight bits, stackable items a count,
charged ones charges; no item has what its kind does not have. -/
def OfKind (item : Item) : SubTypeKind → Prop
  | .fluid => item.count = 1 ∧ item.getCharges = 0 ∧ item.getFluidType < 256
  | .stackable => item.getCharges = 0 ∧ item.getFluidType = 0
  | .charged => item.count = 1 ∧ item.getCharges ≠ 0 ∧ item.getFluidType = 0
  | .plain => item.count = 1 ∧ item.getCharges = 0 ∧ item.getFluidType = 0

/-- What the loop starts from: an item that has nothing but a sub type, a duration and slots
for imbuements. -/
structure Blank (s : Item) : Prop where
  ints : ∀ a, a ≠ .charges → a ≠ .fluidType → a ≠ .duration → s.ints a = none
  strs : s.strs = fun _ => none
  custom : s.custom = none
  imbuements : s.imbuements = []

theorem blank_new (id : UInt16) : Blank { id } := ⟨fun _ _ _ _ => rfl, rfl, rfl, rfl⟩

theorem Blank.setIntAttr {s : Item} (h : Blank s) {a : IntAttr} (v : BitVec 64)
    (ha : a = .charges ∨ a = .fluidType ∨ a = .duration) : Blank (s.setIntAttr a v) := by
  refine ⟨fun b hc hf hd => ?_, h.strs, h.custom, h.imbuements⟩
  have hne : b ≠ a := by
    rcases ha with rfl | rfl | rfl <;> assumption
  exact (Function.update_of_ne hne _ _).trans (h.ints b hc hf hd)

theorem Blank.setItemCount {s : Item} (h : Blank s) (n : BitVec 8) : Blank (s.setItemCount n) :=
  ⟨h.ints, h.strs, h.custom, h.imbuements⟩

theorem Blank.setSubType {s : Item} (h : Blank s) (items : Items) (n : BitVec 16) :
    Blank (s.setSubType items n) := by
  simp only [Item.setSubType]
  split_ifs
  · exact h.setIntAttr _ (by decide)
  · exact h.setItemCount _
  · exact h.setIntAttr _ (by decide)
  · exact h.setItemCount _

theorem blank_initSubType (it : ItemType) (count : BitVec 16) (id : UInt16) :
    Blank (initSubType it count { id }) := by
  have hnew := blank_new id
  rw [initSubType]
  split_ifs
  · exact hnew.setIntAttr _ (by decide)
  · exact hnew.setItemCount _
  · exact hnew.setItemCount _
  · exact hnew
  · exact hnew.setIntAttr _ (by decide)
  · exact hnew.setIntAttr _ (by decide)
  · exact hnew

theorem blank_create (items : Items) (id : UInt16) (count : BitVec 16) (duration : BitVec 32) :
    Blank (create items id count duration) := by
  have h := blank_initSubType (items id) count id
  have h' : Blank (initImbuementSlots (items id) (initSubType (items id) count { id })) := by
    rw [initImbuementSlots]
    split
    · exact h
    · exact ⟨h.ints, h.strs, h.custom, h.imbuements⟩
  simp only [create, initDuration]
  split
  · exact h'.setIntAttr _ (by decide)
  · exact h'

/-- The rest of the constructor keeps the sub type. -/
theorem create_frame (items : Items) (id : UInt16) (count : BitVec 16) (duration : BitVec 32) :
    let s := create items id count duration
    let s' := initSubType (items id) count { id }
    s.id = id ∧ s.count = s'.count ∧ ∀ a, a ≠ .duration → s.ints a = s'.ints a := by
  refine ⟨create_id items id count duration, ?_⟩
  simp only [create, initDuration, initImbuementSlots]
  split_ifs <;> refine ⟨rfl, fun a ha => ?_⟩
  · exact Function.update_of_ne ha _ _
  · exact Function.update_of_ne ha _ _
  · rfl
  · rfl

/-- An item that has got its count, charges and fluid type. -/
structure SameSubType (item s : Item) : Prop where
  count : s.count = item.count
  charges : s.getCharges = item.getCharges
  fluidType : s.getFluidType = item.getFluidType

/-- What is read of the sub type, and then of the charges. -/
def restoreSubType (item s : Item) : Item :=
  let it := env.items item.id
  let s := if it.stackable || it.isFluidContainer || it.isSplash then
    s.setSubType env.items (((item.getSubType env.items).setWidth 8).setWidth 16) else s
  if item.getCharges ≠ 0 then s.setSubType env.items item.getCharges else s

theorem Blank.restoreSubType {s : Item} (h : Blank s) (item : Item) : Blank (restoreSubType env item s) := by
  simp only [Item.restoreSubType]
  split_ifs
  · exact (h.setSubType _ _).setSubType _ _
  · exact h.setSubType _ _
  · exact h.setSubType _ _
  · exact h

theorem turns_subType : Turns 0 (readAttr env) (item.writeCount env ++ item.writeCharges) s
    (restoreSubType env item s) := by
  refine Turns.append (Turns.ite fun _ => Turns.tag ATTR_COUNT (by decide) ?_)
    (Turns.ite fun _ => Turns.tag ATTR_CHARGES (by decide) ?_)
  · exact (Reads.readBits ((item.getSubType env.items).setWidth 8) rfl _).bindNil (Reads.modify _ _)
  · exact (Reads.readBits item.getCharges rfl _).bindNil (Reads.modify _ _)

theorem getFluidType_setFluidType (s : Item) (n : BitVec 16) : (s.setFluidType n).getFluidType = n := by
  simp [setFluidType, getFluidType, getIntAttr, setIntAttr]

theorem getCharges_setCharges (s : Item) (n : BitVec 16) : (s.setCharges n).getCharges = n := by
  simp [setCharges, getCharges, getIntAttr, setIntAttr]

theorem getCharges_setFluidType (s : Item) (n : BitVec 16) : (s.setFluidType n).getCharges = s.getCharges := by
  simp [setFluidType, getCharges, getIntAttr, setIntAttr]

theorem getFluidType_setCharges (s : Item) (n : BitVec 16) : (s.setCharges n).getFluidType = s.getFluidType := by
  simp [setCharges, getFluidType, getIntAttr, setIntAttr]

theorem setSubType_kind (items : Items) (n : BitVec 16) :
    s.setSubType items n = match kindOf (items s.id) with
      | .fluid => s.setFluidType n
      | .charged => s.setCharges n
      | .stackable | .plain => s.setItemCount (n.setWidth 8) := by
  simp only [Item.setSubType, kindOf]
  split_ifs <;> rfl

theorem getSubType_kind (items : Items) :
    item.getSubType items = match kindOf (items item.id) with
      | .fluid => item.getFluidType
      | .charged => item.getCharges
      | .stackable | .plain => item.count.setWidth 16 := by
  simp only [getSubType, kindOf]
  split_ifs <;> rfl

theorem writesCount_kind (it : ItemType) :
    (it.stackable || it.isFluidContainer || it.isSplash) =
      decide (kindOf it = .fluid ∨ kindOf it = .stackable) := by
  rw [Bool.or_assoc, kindOf]
  cases it.isFluidContainer || it.isSplash <;> cases it.stackable <;> cases it.charges != 0 <;> rfl

/-- What is left of the sub type when the argument of the constructor is 0. -/
theorem initSubType_kind (it : ItemType) (id : UInt16) :
    let s := initSubType it 0 { id }
    (kindOf it ≠ .stackable → s.count = 1) ∧ (kindOf it ≠ .charged → s.getCharges = 0) ∧
      (s.getFluidType = 0) := by
  simp only [initSubType, kindOf]
  split_ifs <;> simp [setFluidType, setCharges, setItemCount, getCharges, getFluidType, getIntAttr, setIntAttr]

/-- The sub type that is set again, by the kind of the item. -/
theorem restoreSubType_eq (hid : s.id = item.id) (hkind : item.OfKind (kindOf (env.items item.id))) :
    restoreSubType env item s = match kindOf (env.items item.id) with
      | .fluid => s.setFluidType item.getFluidType
      | .stackable => s.setItemCount item.count
      | .charged => s.setCharges item.getCharges
      | .plain => s := by
  rw [restoreSubType, getSubType_kind, writesCount_kind]
  cases hk : kindOf (env.items item.id) with rw [hk] at hkind
  | fluid =>
    obtain ⟨_, hzero, hbyte⟩ := hkind
    have hwidth : (item.getFluidType.setWidth 8).setWidth 16 = item.getFluidType := by bv_omega
    simp [setSubType_kind, hid, hk, hzero, hwidth]
  | stackable => simp [setSubType_kind, hid, hk, hkind.1]
  | charged =>
    obtain ⟨_, hne, _⟩ := hkind
    simp only [reduceCtorEq, or_self, decide_false, Bool.false_eq_true, if_false]
    rw [if_pos hne, setSubType_kind, hid, hk]
  | plain => simp [hkind.2.1]

/-- The sub type is there again in an item that the constructor has made. -/
theorem sameSubType_restoreSubType (duration : BitVec 32) (hkind : item.OfKind (kindOf (env.items item.id))) :
    SameSubType item (restoreSubType env item (create env.items item.id 0 duration)) := by
  obtain ⟨hid, hcount, hints⟩ := create_frame env.items item.id 0 duration
  obtain ⟨hone, hnoCharges, hnoFluid⟩ := initSubType_kind (env.items item.id) item.id
  rw [getCharges, getIntAttr, ← hints .charges (by decide)] at hnoCharges
  rw [getFluidType, getIntAttr, ← hints .fluidType (by decide)] at hnoFluid
  rw [← hcount] at hone
  rw [restoreSubType_eq env hid hkind]
  cases hk : kindOf (env.items item.id) with rw [hk] at hkind hone hnoCharges
  | fluid =>
    obtain ⟨hc, hzero, _⟩ := hkind
    refine ⟨(hone (by decide)).trans hc.symm, ?_, getFluidType_setFluidType _ _⟩
    rw [getCharges_setFluidType, hzero]
    exact hnoCharges (by decide)
  | stackable => exact ⟨rfl, (hnoCharges (by decide)).trans hkind.1.symm, hnoFluid.trans hkind.2.symm⟩
  | charged =>
    obtain ⟨hc, _, hzero⟩ := hkind
    refine ⟨(hone (by decide)).trans hc.symm, getCharges_setCharges _ _, ?_⟩
    rw [getFluidType_setCharges, hzero]
    exact hnoFluid
  | plain =>
    obtain ⟨hc, hzero, hzero'⟩ := hkind
    exact ⟨(hone (by decide)).trans hc.symm, (hnoCharges (by decide)).trans hzero.symm, hnoFluid.trans hzero'.symm⟩

/-! ## The whole item -/

section Evaluate

variable (a b : IntAttr) (c d : StrAttr) (v : Option (BitVec 64)) (str : Option (List UInt8)) (s : Item)

@[simp] theorem put_ints : (put a v s).ints b = if b = a then v.or (s.ints b) else s.ints b := by
  by_cases h : b = a
  · subst h
    simp [put]
  · simp [put, h]

@[simp] theorem putStr_strs : (putStr c str s).strs d = if d = c then str.or (s.strs d) else s.strs d := by
  by_cases h : d = c
  · subst h
    simp [putStr]
  · simp [putStr, h]

@[simp] theorem put_count : (put a v s).count = s.count := rfl
@[simp] theorem put_strs : (put a v s).strs = s.strs := rfl
@[simp] theorem put_custom : (put a v s).custom = s.custom := rfl
@[simp] theorem put_imbuements : (put a v s).imbuements = s.imbuements := rfl
@[simp] theorem put_imbuementSlots : (put a v s).imbuementSlots = s.imbuementSlots := rfl
@[simp] theorem putStr_count : (putStr c str s).count = s.count := rfl
@[simp] theorem putStr_ints : (putStr c str s).ints = s.ints := rfl
@[simp] theorem putStr_custom : (putStr c str s).custom = s.custom := rfl
@[simp] theorem putStr_imbuements : (putStr c str s).imbuements = s.imbuements := rfl
@[simp] theorem putStr_imbuementSlots : (putStr c str s).imbuementSlots = s.imbuementSlots := rfl

end Evaluate

/-- The values are in the range of their getters, the strings are not too long, the
imbuements are within the slots. -/
structure Storable (item : Item) : Prop where
  ints : ∀ f ∈ IntField.saved, ∀ v, item.ints f.attr = some v → f.Holds v
  strs : ∀ a str, item.strs a = some str → Writable str
  date : (item.getDate.setWidth 32).signExtend 64 = item.getDate
  imbuements : item.imbuements.length ≤ (item.getImbuementSlots env).toNat
  custom : ∀ map, item.custom = some map → WritableCustom map

/-- What a reader of the saved item finds in `r`. -/
structure SameAttributes (item r : Item) : Prop where
  subType : item.OfKind (kindOf (env.items item.id)) → SameSubType item r
  actionId : (env.items item.id).moveable → item.getActionId ≠ 0 →
    r.getActionId = if item.getActionId < 100 then 100 else item.getActionId
  date : r.getDate = item.getDate
  duration : (item.ints .duration).isSome → r.getDuration env.now = atLeastZero (item.getDuration env.now)
  decaying : r.getDecaying =
    if item.getDecaying = ItemDecayState.decayingTrue.value ∨
        item.getDecaying = ItemDecayState.decayingPending.value then
      ItemDecayState.decayingPending.value
    else ItemDecayState.decayingFalse.value
  ints : ∀ f ∈ IntField.saved, r.ints f.attr = item.ints f.attr
  strs : r.strs = item.strs
  imbuementSlots : item.getImbuementSlots env ≠ 0 → r.imbuementSlots = item.imbuementSlots
  imbuements : r.imbuements = item.imbuements
  custom : ∀ key, r.getCustomAttribute key = item.getCustomAttribute key

/-- The item after the attributes up to the number of slots. -/
def restoreFront (item s : Item) : Item :=
  put .defense (item.ints .defense) <| put .tier (item.ints .tier) <|
  put .classification (item.ints .classification) <| put .attackSpeed (item.ints .attackSpeed) <|
  put .attack (item.ints .attack) <| put .weight (item.ints .weight) <|
  putStr .pluralName (item.strs .pluralName) <| putStr .article (item.strs .article) <|
  putStr .name (item.strs .name) <| put .decayState (savedDecaying item) <|
  put .duration (savedDuration env item) <| putStr .description (item.strs .description) <|
  putStr .writer (item.strs .writer) <| put .date (savedDate item) <|
  putStr .text (item.strs .text) <| put .actionId (savedActionId env item) <| restoreSubType env item s

def restoreImbuements (item s : Item) : Item :=
  { s with imbuements := item.imbuements
           imbuementSlots := if item.getImbuementSlots env ≠ 0 then item.imbuementSlots else s.imbuementSlots }

def restoreBack (item s : Item) : Item :=
  put .storeItem (item.ints .storeItem) <| put .wrapId (item.ints .wrapId) <|
  put .shootRange (item.ints .shootRange) <| put .hitChance (item.ints .hitChance) <|
  put .armor (item.ints .armor) <| put .extraDefense (item.ints .extraDefense) s

/-- All but the custom attributes. -/
def restore (item s : Item) : Item := restoreBack item (restoreImbuements env item (restoreFront env item s))

/-- The fields that are written have tags of their own and whole bytes. -/
theorem tag_saved : ∀ f ∈ IntField.saved, f.tag ≠ 0 ∧ 256 ^ (f.bits / 8) = 2 ^ f.bits := by decide

theorem readAttr_saved {f : IntField} (hf : f ∈ IntField.saved) : readAttr env f.tag = f.read := by
  simp only [IntField.saved, List.mem_cons, List.not_mem_nil, or_false] at hf
  rcases hf with rfl | rfl | rfl | rfl | rfl | rfl | rfl | rfl | rfl | rfl | rfl | rfl <;> rfl

theorem turns_saved (h : Storable env item) (f : IntField) (hf : f ∈ IntField.saved) :
    Turns 0 (readAttr env) (f.write item) s (put f.attr (item.ints f.attr) s) := by
  obtain ⟨htag, hbits⟩ := tag_saved f hf
  exact turns_int env f htag hbits (readAttr_saved env hf) (h.ints f hf)

theorem turns_restoreImbuements (hs : s.imbuements = [])
    (hroom : item.imbuements.length ≤ (item.getImbuementSlots env).toNat) :
    Turns 0 (readAttr env) (item.writeImbuementSlots env ++ item.writeImbuements) s
      (restoreImbuements env item s) := by
  refine (turns_imbuementSlots env).append ?_
  rw [restoreImbuements]
  split
  · rename_i hslots
    have hslots' : item.getImbuementSlots env = item.imbuementSlots := by
      rw [getImbuementSlots, ite_ne_right_iff] at hslots
      rw [getImbuementSlots, if_pos hslots.1]
    rw [hslots'] at hroom
    exact turns_imbuements env hs hroom
  · rename_i hslots
    rw [not_not.mp hslots] at hroom
    exact turns_imbuements env hs (hroom.trans (Nat.zero_le _))

theorem turns_restoreFront (h : Storable env item) :
    Turns 0 (readAttr env)
      (item.writeCount env ++ item.writeCharges ++ item.writeActionId env ++ StrField.text.writeNonEmpty item ++
        item.writeDate ++ StrField.writtenBy.writeNonEmpty item ++ StrField.desc.writeNonEmpty item ++
        item.writeDuration env ++ item.writeDecaying ++ StrField.name.writeIfPresent item ++
        StrField.article.writeIfPresent item ++ StrField.pluralName.writeIfPresent item ++
        IntField.weight.write item ++ IntField.attack.write item ++ IntField.attackSpeed.write item ++
        IntField.classification.write item ++ IntField.tier.write item ++ IntField.defense.write item)
      s (restoreFront env item s) := by
  rw [writeNonEmpty_eq _ (h.strs _), writeNonEmpty_eq _ (h.strs _), writeNonEmpty_eq _ (h.strs _)]
  exact (turns_subType env).append (turns_actionId env)
    |>.append (turns_str env .text (by decide) rfl (h.strs _))
    |>.append (turns_date env)
    |>.append (turns_str env .writtenBy (by decide) rfl (h.strs _))
    |>.append (turns_str env .desc (by decide) rfl (h.strs _))
    |>.append (turns_duration env)
    |>.append (turns_decaying env)
    |>.append (turns_str env .name (by decide) rfl (h.strs _))
    |>.append (turns_str env .article (by decide) rfl (h.strs _))
    |>.append (turns_str env .pluralName (by decide) rfl (h.strs _))
    |>.append (turns_saved env h .weight (by decide))
    |>.append (turns_saved env h .attack (by decide))
    |>.append (turns_saved env h .attackSpeed (by decide))
    |>.append (turns_saved env h .classification (by decide))
    |>.append (turns_saved env h .tier (by decide))
    |>.append (turns_saved env h .defense (by decide))

theorem turns_restore (h : Storable env item) (hs : Blank s) :
    Turns 0 (readAttr env) (item.serializeAttr env) s
      (putCustom (item.custom.getD ∅).entries (restore env item s)) := by
  have hblank : (restoreFront env item s).imbuements = [] := by
    simp only [restoreFront, put_imbuements, putStr_imbuements]
    exact (hs.restoreSubType env item).imbuements
  have himbuements := (turns_restoreFront env h).append (turns_restoreImbuements env hblank h.imbuements)
  rw [← List.append_assoc] at himbuements
  exact himbuements
    |>.append (turns_saved env h .extraDefense (by decide))
    |>.append (turns_saved env h .armor (by decide))
    |>.append (turns_saved env h .hitChance (by decide))
    |>.append (turns_saved env h .shootRange (by decide))
    |>.append (turns_saved env h .wrapId (by decide))
    |>.append (turns_saved env h .storeItem (by decide))
    |>.append (turns_custom env h.custom)

/-- The integers that are written, as they are read. -/
def savedInts (item : Item) : IntAttr → Option (BitVec 64)
  | .actionId => savedActionId env item
  | .date => savedDate item
  | .duration => savedDuration env item
  | .decayState => savedDecaying item
  | .uniqueId | .owner | .corpseOwner | .charges | .fluidType | .doorId | .durationTimestamp
  | .reduceSkillLoss | .dropBonus => none
  | a => item.ints a

theorem restore_ints (item s : Item) (a : IntAttr) :
    (restore env item s).ints a = (savedInts env item a).or ((restoreSubType env item s).ints a) := by
  cases a <;> simp [restore, restoreBack, restoreImbuements, restoreFront, savedInts]

theorem restore_strs (item s : Item) (a : StrAttr) :
    (restore env item s).strs a = (item.strs a).or ((restoreSubType env item s).strs a) := by
  cases a <;> simp [restore, restoreBack, restoreImbuements, restoreFront]

theorem restore_count (item s : Item) : (restore env item s).count = (restoreSubType env item s).count := by
  simp [restore, restoreBack, restoreImbuements, restoreFront]

theorem restore_custom (item s : Item) : (restore env item s).custom = (restoreSubType env item s).custom := by
  simp [restore, restoreBack, restoreImbuements, restoreFront]

theorem restore_imbuements (item s : Item) : (restore env item s).imbuements = item.imbuements := by
  simp [restore, restoreBack, restoreImbuements]

theorem restore_imbuementSlots (item s : Item) (h : item.getImbuementSlots env ≠ 0) :
    (restore env item s).imbuementSlots = item.imbuementSlots := by
  simp only [restore, restoreBack, restoreImbuements, put_imbuementSlots, if_pos h]

theorem putCustom_frame (entries : List (Sigma fun _ : List UInt8 => CustomAttribute)) :
    ∀ s : Item, ∃ custom, putCustom entries s = { s with custom } := by
  induction entries with
  | nil => exact fun s => ⟨s.custom, rfl⟩
  | cons e entries ih => exact fun s => ih (s.setCustomAttribute e.1 e.2)

/-- What the loop makes of an item that has its sub type, `s`. -/
structure Restored (item s r : Item) : Prop where
  count : r.count = s.count
  ints : ∀ a, r.ints a = (savedInts env item a).or (s.ints a)
  strs : ∀ a, r.strs a = (item.strs a).or (s.strs a)
  imbuementSlots : item.getImbuementSlots env ≠ 0 → r.imbuementSlots = item.imbuementSlots
  imbuements : r.imbuements = item.imbuements
  custom : ∀ key, r.getCustomAttribute key = item.getCustomAttribute key

theorem restored (h : Storable env item) (hs : Blank s) :
    Restored env item (restoreSubType env item s)
      (putCustom (item.custom.getD ∅).entries (restore env item s)) := by
  have hnone : (restore env item s).custom = none :=
    (restore_custom env item s).trans (hs.restoreSubType env item).custom
  have hcustom (key : List UInt8) : (putCustom (item.custom.getD ∅).entries (restore env item s)).getCustomAttribute key
      = item.getCustomAttribute key := by
    cases hmap : item.custom with
    | none =>
      rw [getCustomAttribute, getCustomAttribute, hmap]
      exact congrArg (Option.bind · _) hnone
    | some map =>
      rw [Option.getD_some, getCustomAttribute_putCustom (h.custom map hmap) hnone, getCustomAttribute, hmap]
      rfl
  have hcount := restore_count env item s
  have hints := restore_ints env item s
  have hstrs := restore_strs env item s
  have hslots := restore_imbuementSlots env item s
  have himbuements := restore_imbuements env item s
  generalize restore env item s = x at *
  obtain ⟨custom, hframe⟩ := putCustom_frame (item.custom.getD ∅).entries x
  rw [hframe] at hcustom ⊢
  exact ⟨hcount, hints, hstrs, hslots, himbuements, hcustom⟩

namespace Restored

variable {env} {r : Item} (h : Restored env item s r)
include h

theorem ints_saved (hs : Blank s) {a : IntAttr} (hc : a ≠ .charges) (hf : a ≠ .fluidType)
    (hd : a ≠ .duration) : r.ints a = savedInts env item a := by
  rw [h.ints, hs.ints a hc hf hd, Option.or_none]

theorem sameSubType (hsub : SameSubType item s) : SameSubType item r := by
  refine ⟨h.count.trans hsub.count, ?_, ?_⟩
  · rw [← hsub.charges, getCharges, getCharges, getIntAttr, h.ints]
    rfl
  · rw [← hsub.fluidType, getFluidType, getFluidType, getIntAttr, h.ints]
    rfl

theorem getActionId_eq (hs : Blank s) (hmoveable : (env.items item.id).moveable) (hne : item.getActionId ≠ 0) :
    r.getActionId = if item.getActionId < 100 then 100 else item.getActionId := by
  have hid : r.ints .actionId = some ((if item.getActionId < 100 then 100 else item.getActionId).setWidth 64) := by
    rw [h.ints_saved hs (by decide) (by decide) (by decide), savedInts, savedActionId, if_pos ⟨hmoveable, hne⟩]
  rw [getActionId, getIntAttr, hid]
  simp

theorem getDate_eq (hs : Blank s) (hdate : (item.getDate.setWidth 32).signExtend 64 = item.getDate) :
    r.getDate = item.getDate := by
  rw [getDate, getIntAttr, h.ints_saved hs (by decide) (by decide) (by decide), savedInts, savedDate, hdate]
  split
  · rfl
  · rename_i hzero
    exact (not_not.mp hzero).symm

theorem getDecaying_eq (hs : Blank s) :
    r.getDecaying = if item.getDecaying = ItemDecayState.decayingTrue.value ∨
        item.getDecaying = ItemDecayState.decayingPending.value then ItemDecayState.decayingPending.value
      else ItemDecayState.decayingFalse.value := by
  rw [getDecaying, getIntAttr, h.ints_saved hs (by decide) (by decide) (by decide), savedInts, savedDecaying]
  split <;> rfl

/-- The item does not decay, so that its duration is the one that was written. -/
theorem getDuration_eq (hs : Blank s) (hsome : (item.ints .duration).isSome) :
    r.getDuration env.now = atLeastZero (item.getDuration env.now) := by
  have hrest : ¬ (r.getDecaying = ItemDecayState.decayingTrue.value ∨
      r.getDecaying = ItemDecayState.decayingStopping.value) := by
    rw [h.getDecaying_eq hs]
    split <;> decide
  have hduration : r.ints .duration = some ((atLeastZero (item.getDuration env.now)).signExtend 64) := by
    rw [h.ints, savedInts, savedDuration, if_pos hsome, Option.some_or]
  rw [getDuration, if_neg hrest, getIntAttr, hduration, Option.getD_some]
  refine BitVec.eq_of_getLsbD_eq fun k hk => ?_
  rw [BitVec.getLsbD_setWidth, BitVec.getLsbD_signExtend]
  simp [hk, show k < 64 by omega]

theorem ints_field (hs : Blank s) (f : IntField) (hf : f ∈ IntField.saved) : r.ints f.attr = item.ints f.attr := by
  have hsaved : savedInts env item f.attr = item.ints f.attr := by
    simp only [IntField.saved, List.mem_cons, List.not_mem_nil, or_false] at hf
    rcases hf with rfl | rfl | rfl | rfl | rfl | rfl | rfl | rfl | rfl | rfl | rfl | rfl <;> rfl
  refine (h.ints_saved hs ?_ ?_ ?_).trans hsaved
  all_goals
    clear hsaved
    revert f
    decide

end Restored

/-- An item that was saved and is read into a new one of the same id. -/
theorem unserializeAttr_serializeAttr (env : ItemEnv) (item : Item) (duration : BitVec 32)
    (h : Storable env item) :
    ∃ r, (unserializeAttr env).run (create env.items item.id 0 duration) (item.serializeAttr env) =
      (some (), r, []) ∧ SameAttributes env item r := by
  have hnew := blank_create env.items item.id 0 duration
  have hblank := hnew.restoreSubType env item
  have hr := restored env h hnew
  refine ⟨_, (turns_restore env h hnew).run_end, ?_⟩
  exact {
    subType := fun hkind => hr.sameSubType (sameSubType_restoreSubType env duration hkind)
    actionId := hr.getActionId_eq hblank
    date := hr.getDate_eq hblank h.date
    duration := hr.getDuration_eq hblank
    decaying := hr.getDecaying_eq hblank
    ints := hr.ints_field hblank
    strs := funext fun a => by rw [hr.strs, hblank.strs, Option.or_none]
    imbuementSlots := hr.imbuementSlots
    imbuements := hr.imbuements
    custom := hr.custom }

/-- A ring with charges left, an imbuement and a custom attribute, that decays. -/
def chargedRing : Item where
  id := 1
  ints
    | .charges => some 7
    | .actionId => some 1000
    | .attack => some (-3)
    | .tier => some 2
    | .duration => some 60000
    | .durationTimestamp => some 50000
    | .decayState => some 1
    | _ => none
  strs
    | .text => some [104, 105]
    | _ => none
  custom := some ((∅ : AList fun _ : List UInt8 => CustomAttribute).insert [107] (.str [120]))
  imbuementSlots := 1
  imbuements := [{ imbuetype := 3, value := 10, duration := 600, decaytype := 1, baseId := 2 }]

def ringEnv : ItemEnv where
  items _ := { charges := 20, moveable := true, imbuementSlot := 1 }
  now := 10000

theorem storable_chargedRing : Storable ringEnv chargedRing where
  ints f hf v hv := by
    simp only [IntField.saved, List.mem_cons, List.not_mem_nil, or_false] at hf
    rcases hf with rfl | rfl | rfl | rfl | rfl | rfl | rfl | rfl | rfl | rfl | rfl | rfl
    case inr.inl | inr.inr.inr.inr.inl =>
      obtain rfl := Option.some.inj hv
      exact ⟨by decide, nofun⟩
    all_goals exact absurd hv nofun
  strs a str hstr := by
    cases a with
    | text =>
      obtain rfl := Option.some.inj hstr
      exact ⟨by decide, by decide⟩
    | _ => exact absurd hstr nofun
  date := by decide
  imbuements := by decide
  custom map hmap := by
    obtain rfl := Option.some.inj hmap
    exact ⟨by decide, by decide, by decide, by simp⟩

theorem chargedRing_unserializeAttr : Storable ringEnv chargedRing ∧
    chargedRing.OfKind (kindOf (ringEnv.items chargedRing.id)) ∧
    ∃ r, (unserializeAttr ringEnv).run (create ringEnv.items chargedRing.id 0 0)
        (chargedRing.serializeAttr ringEnv) = (some (), r, []) ∧ SameAttributes ringEnv chargedRing r :=
  ⟨storable_chargedRing, ⟨rfl, by decide, rfl⟩, unserializeAttr_serializeAttr ringEnv chargedRing 0 storable_chargedRing⟩

/-- The ring decays when it is saved, and waits for it when it is loaded. -/
theorem chargedRing_pending :
    let r := (unserializeAttr ringEnv).run (create ringEnv.items chargedRing.id 0 0)
      (chargedRing.serializeAttr ringEnv)
    Storable ringEnv chargedRing ∧ chargedRing.writeDecaying ≠ [] ∧
      r.2.1.getDecaying ≠ chargedRing.getDecaying :=
  ⟨storable_chargedRing, by decide, by decide +kernel⟩

end Item

end ForgottenServer
