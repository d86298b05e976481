import ForgottenServer.Item.AttrRoundTrip

/-! # The sub type and the date of any item that is saved and read

Whatever attributes an item has, its bytes are read to the end. Only the count and the charges in
front of them change the sub type, and only its own bytes the date. -/

open Reader LittleEndian

namespace ForgottenServer

namespace Item

/-- What every item object has: the number of imbuements is within the slots, which are a
`uint16_t`, and the size of a map is a `uint64_t`. -/
structure Representable (item : Item) : Prop where
  imbuements : item.imbuements.length < 2 ^ 16
  custom : ∀ map, item.custom = some map → map.entries.length < 2 ^ 64

/-! ## Changes that keep the sub type -/

/-- The same id, count, charges, fluid type and date. -/
structure SameSub (s s' : Item) : Prop where
  id : s'.id = s.id
  count : s'.count = s.count
  charges : s'.getCharges = s.getCharges
  fluidType : s'.getFluidType = s.getFluidType
  date : s'.getDate = s.getDate

namespace SameSub

variable {s s' s'' : Item}

theorem refl (s : Item) : SameSub s s := ⟨rfl, rfl, rfl, rfl, rfl⟩

theorem trans (h : SameSub s s') (h' : SameSub s' s'') : SameSub s s'' :=
  ⟨h'.id.trans h.id, h'.count.trans h.count, h'.charges.trans h.charges, h'.fluidType.trans h.fluidType,
    h'.date.trans h.date⟩

theorem setIntAttr (s : Item) {a : IntAttr} (ha : a ∉ [IntAttr.charges, .fluidType, .date]) (v : BitVec 64) :
    SameSub s (s.setIntAttr a v) := by
  have hother {a' : IntAttr} (h : a' ∈ [IntAttr.charges, .fluidType, .date]) :
      (s.setIntAttr a v).getIntAttr a' = s.getIntAttr a' := by
    have hne : a' ≠ a := fun heq => ha (heq ▸ h)
    simp only [getIntAttr, Item.setIntAttr, Function.update_of_ne hne]
  refine ⟨rfl, rfl, ?_, ?_, hother (by decide)⟩
  · rw [getCharges, hother (by decide), getCharges]
  · rw [getFluidType, hother (by decide), getFluidType]

theorem setStrAttr (s : Item) (a : StrAttr) (v : List UInt8) : SameSub s (s.setStrAttr a v) := by
  rw [Item.setStrAttr]
  split <;> exact ⟨rfl, rfl, rfl, rfl, rfl⟩

theorem addImbuement (s : Item) (i : Imbuement) : SameSub s (s.addImbuement i) := by
  rw [Item.addImbuement]
  split <;> exact ⟨rfl, rfl, rfl, rfl, rfl⟩

theorem setCustomAttribute (s : Item) (key : List UInt8) (value : CustomAttribute) :
    SameSub s (s.setCustomAttribute key value) := ⟨rfl, rfl, rfl, rfl, rfl⟩

theorem foldl {γ : Type} {step : Item → γ → Item} (h : ∀ s x, SameSub s (step s x)) (xs : List γ) :
    ∀ s, SameSub s (xs.foldl step s) := by
  induction xs with
  | nil => exact refl
  | cons x xs ih => exact fun s => (h s x).trans (ih (step s x))

theorem getSubType_eq (h : SameSub s s') (items : Items) : s'.getSubType items = s.getSubType items := by
  rw [getSubType_kind, getSubType_kind, h.id, h.count, h.charges, h.fluidType]

end SameSub

/-! ## Bytes that keep the sub type -/

/-- The tags that `serializeAttr` writes. -/
def writtenTags : List UInt8 :=
  [ATTR_COUNT, ATTR_CHARGES, ATTR_ACTION_ID, ATTR_TEXT, ATTR_WRITTENDATE, ATTR_WRITTENBY, ATTR_DESC, ATTR_DURATION,
    ATTR_DECAYING_STATE, ATTR_NAME, ATTR_ARTICLE, ATTR_PLURALNAME, ATTR_WEIGHT, ATTR_ATTACK, ATTR_ATTACK_SPEED,
    ATTR_CLASSIFICATION, ATTR_TIER, ATTR_DEFENSE, ATTR_IMBUESLOTS, ATTR_IMBUEMENTS, ATTR_EXTRADEFENSE, ATTR_ARMOR,
    ATTR_HITCHANCE, ATTR_SHOOTRANGE, ATTR_WRAPID, ATTR_STOREITEM, ATTR_CUSTOM_ATTRIBUTES]

/-- A loop that reads attributes into an object of some class. `Turn bytes o o'`: it takes the
bytes, makes `o'` of `o` and goes on. It reads the tags of an item as an item does. -/
structure Loop (env : ItemEnv) (σ : Type) where
  Turn : List UInt8 → σ → σ → Prop
  item : σ → Item
  nil : ∀ o, Turn [] o o
  append : ∀ {bytes bytes' o o' o''}, Turn bytes o o' → Turn bytes' o' o'' → Turn (bytes ++ bytes') o o''
  tag : ∀ tag ∈ writtenTags, ∀ {bytes o s'}, Reads (readAttr env tag) bytes (item o) () s' →
    ∃ o', Turn (tag :: bytes) o o' ∧ item o' = s'

variable {env : ItemEnv} {σ : Type} {L : Loop env σ} {item t : Item} {o : σ} {bytes bytes' : List UInt8}

/-- The bytes are read from `o` on to an object with the sub type of `t`. -/
def ReadsTo (L : Loop env σ) (bytes : List UInt8) (o : σ) (t : Item) : Prop := ∃ o', L.Turn bytes o o' ∧ SameSub t (L.item o')

/-- From every object on the bytes are read and keep its sub type. -/
def Passes (L : Loop env σ) (bytes : List UInt8) : Prop := ∀ o, ReadsTo L bytes o (L.item o)

theorem ReadsTo.append (h : ReadsTo L bytes o t) (h' : Passes L bytes') : ReadsTo L (bytes ++ bytes') o t := by
  obtain ⟨o', hturn, hsame⟩ := h
  obtain ⟨o'', hturn', hsame'⟩ := h' o'
  exact ⟨o'', L.append hturn hturn', hsame.trans hsame'⟩

theorem passes_nil : Passes L [] := fun o => ⟨o, L.nil o, SameSub.refl _⟩

theorem passes_ite {c : Prop} [Decidable c] (h : c → Passes L bytes) : Passes L (if c then bytes else []) := by
  split
  · rename_i hc
    exact h hc
  · exact passes_nil

theorem passes_tag (tag : UInt8) (htag : tag ∈ writtenTags)
    (h : ∀ s, ∃ s', Reads (readAttr env tag) bytes s () s' ∧ SameSub s s') : Passes L (tag :: bytes) := by
  intro o
  obtain ⟨s', hreads, hsame⟩ := h (L.item o)
  obtain ⟨o', hturn, hitem⟩ := L.tag tag htag hreads
  exact ⟨o', hturn, hitem ▸ hsame⟩

/-- A string that is too long is read as an empty one. -/
theorem reads_writeString (σ : Type) (str : List UInt8) :
    ∃ str', ∀ s : σ, Reads readString (writeString str) s str' s := by
  by_cases h : str.length < 65536
  · exact ⟨str, fun s => reads_readString h⟩
  · refine ⟨[], fun s => ?_⟩
    rw [writeString, if_pos (by omega)]
    exact (Reads.readBits (0 : BitVec 16) rfl s).bindNil (Reads.take [] rfl s)

theorem reads_customAttribute (σ : Type) (c : CustomAttribute) :
    ∃ c', ∀ s : σ, Reads CustomAttribute.unserialize c.serialize s c' s := by
  by_cases h : ∀ str, c = .str str → str.length < 65536
  · exact ⟨c, fun s => reads_custom c h⟩
  · simp only [not_forall] at h
    obtain ⟨str, rfl, _⟩ := h
    obtain ⟨str', hstr⟩ := reads_writeString σ str
    refine ⟨.str str', fun s => ?_⟩
    exact (Reads.readBits (1 : BitVec 8) rfl s).bind ((hstr s).bindNil (Reads.pure _ s))

theorem passes_str (f : StrField) (htag : f.tag ∈ writtenTags) (hread : readAttr env f.tag = f.read) (str : List UInt8) :
    Passes L (f.tag :: writeString str) := by
  obtain ⟨str', hstr⟩ := reads_writeString Item str
  refine passes_tag f.tag htag fun s => ⟨s.setStrAttr f.attr str', ?_, SameSub.setStrAttr s _ _⟩
  rw [hread]
  exact (hstr s).bindNil (Reads.modify _ s)

theorem passes_writeNonEmpty (f : StrField) (htag : f.tag ∈ writtenTags) (hread : readAttr env f.tag = f.read) :
    Passes L (f.writeNonEmpty item) := passes_ite fun _ => passes_str f htag hread _

theorem passes_writeIfPresent (f : StrField) (htag : f.tag ∈ writtenTags) (hread : readAttr env f.tag = f.read) :
    Passes L (f.writeIfPresent item) := passes_ite fun _ => passes_str f htag hread _

theorem passes_int (f : IntField) (hf : f ∈ IntField.saved) : Passes L (f.write item) := by
  have hall : ∀ f ∈ IntField.saved, f.tag ∈ writtenTags ∧ 256 ^ (f.bits / 8) = 2 ^ f.bits ∧
      f.attr ∉ [IntAttr.charges, .fluidType, .date] := by decide
  have hread : readAttr env f.tag = f.read := by
    simp only [IntField.saved, List.mem_cons, List.not_mem_nil, or_false] at hf
    rcases hf with rfl | rfl | rfl | rfl | rfl | rfl | rfl | rfl | rfl | rfl | rfl | rfl <;> rfl
  obtain ⟨htag, hbits, hattr⟩ := hall f hf
  refine passes_ite fun _ => passes_tag f.tag htag fun s =>
    ⟨s.setIntAttr f.attr (f.widen (f.narrow (item.getIntAttr f.attr))), ?_, SameSub.setIntAttr s hattr _⟩
  rw [hread]
  exact (Reads.readBits (f.narrow (item.getIntAttr f.attr)) hbits s).bindNil (Reads.modify _ s)

theorem passes_actionId : Passes L (item.writeActionId env) :=
  passes_ite fun _ => passes_tag ATTR_ACTION_ID (by decide) fun s => ⟨s.setActionId item.getActionId,
    (Reads.readBits item.getActionId rfl s).bindNil (Reads.modify _ s), SameSub.setIntAttr s (by decide) _⟩

/-- The date that is read. -/
def restoreDate (item s : Item) : Item := if item.getDate ≠ 0 then s.setDate (item.getDate.setWidth 32) else s

theorem ReadsTo.date (h : ReadsTo L bytes o t) : ReadsTo L (bytes ++ item.writeDate) o (restoreDate item t) := by
  obtain ⟨o', hturn, hsame⟩ := h
  rw [writeDate, restoreDate]
  split
  · obtain ⟨o'', hturn', hitem⟩ := L.tag ATTR_WRITTENDATE (by decide)
      ((Reads.readBits (item.getDate.setWidth 32) rfl _).bindNil (Reads.modify _ (L.item o')))
    refine ⟨o'', L.append hturn hturn', ?_⟩
    rw [hitem]
    exact ⟨hsame.id, hsame.count, hsame.charges, hsame.fluidType, rfl⟩
  · rw [List.append_nil]
    exact ⟨o', hturn, hsame⟩

theorem passes_duration : Passes L (item.writeDuration env) :=
  passes_ite fun _ => passes_tag ATTR_DURATION (by decide) fun s => ⟨s.setDuration (item.getDuration env.now),
    (Reads.readBits (item.getDuration env.now) rfl s).bindNil (Reads.modify _ s),
    SameSub.setIntAttr s (by decide) _⟩

theorem passes_decaying : Passes L item.writeDecaying := by
  refine passes_ite fun _ => passes_tag ATTR_DECAYING_STATE (by decide) fun s => ?_
  by_cases hstate : item.getDecaying ≠ ItemDecayState.decayingFalse.value
  · refine ⟨s.setDecaying .decayingPending, (Reads.readBits item.getDecaying rfl s).bindNil ?_,
      SameSub.setIntAttr s (by decide) _⟩
    rw [if_pos hstate]
    exact Reads.modify _ s
  · refine ⟨s, (Reads.readBits item.getDecaying rfl s).bindNil ?_, SameSub.refl s⟩
    rw [if_neg hstate]
    exact Reads.pure () s

theorem passes_imbuementSlots : Passes L (item.writeImbuementSlots env) :=
  passes_ite fun _ => passes_tag ATTR_IMBUESLOTS (by decide) fun s =>
    ⟨{ s with imbuementSlots := (item.imbuementSlots.setWidth 32).setWidth 16 },
      (Reads.readBits (item.imbuementSlots.setWidth 32) rfl s).bindNil (Reads.modify _ s), ⟨rfl, rfl, rfl, rfl, rfl⟩⟩

theorem passes_imbuements (h : item.Representable) : Passes L item.writeImbuements := by
  refine passes_ite fun _ => passes_tag ATTR_IMBUEMENTS (by decide) fun s =>
    ⟨item.imbuements.foldl addImbuement s, ?_, SameSub.foldl SameSub.addImbuement _ s⟩
  refine reads_counted rfl Imbuement.serialize addImbuement h.imbuements fun s i _ => ?_
  exact (reads_imbuement i).bindNil (Reads.modify _ s)

theorem passes_custom (h : item.Representable) : Passes L item.writeCustom := by
  rw [writeCustom]
  cases hcustom : item.custom with
  | none => exact passes_nil
  | some map =>
    choose key hkey using fun str : List UInt8 => reads_writeString Item str
    choose value hvalue using fun c : CustomAttribute => reads_customAttribute Item c
    refine passes_tag ATTR_CUSTOM_ATTRIBUTES (by decide) fun s =>
      ⟨map.entries.foldl (fun s e => s.setCustomAttribute (key e.1) (value e.2)) s, ?_, ?_⟩
    · refine reads_counted rfl (fun e : Sigma fun _ : List UInt8 => CustomAttribute => writeString e.1 ++ e.2.serialize)
        _ (h.custom map hcustom) fun s e _ => ?_
      exact (hkey e.1 s).bind ((hvalue e.2 s).bindNil (Reads.modify _ s))
    · exact SameSub.foldl (fun s e => SameSub.setCustomAttribute s _ _) _ s

/-- The count and the charges in front of the other attributes. -/
theorem readsTo_subType (o : σ) :
    ReadsTo L (item.writeCount env ++ item.writeCharges) o (restoreSubType env item (L.item o)) := by
  have hcount : ∃ o', L.Turn (item.writeCount env) o o' ∧
      L.item o' = if (env.items item.id).stackable || (env.items item.id).isFluidContainer ||
          (env.items item.id).isSplash then
        (L.item o).setSubType env.items (((item.getSubType env.items).setWidth 8).setWidth 16) else L.item o := by
    simp only [writeCount]
    split
    · exact L.tag ATTR_COUNT (by decide)
        ((Reads.readBits ((item.getSubType env.items).setWidth 8) rfl _).bindNil (Reads.modify _ _))
    · exact ⟨o, L.nil o, rfl⟩
  obtain ⟨o', hturn, hitem⟩ := hcount
  have hcharges : ∃ o'', L.Turn item.writeCharges o' o'' ∧
      L.item o'' = if item.getCharges ≠ 0 then (L.item o').setSubType env.items item.getCharges else L.item o' := by
    rw [writeCharges]
    split
    · exact L.tag ATTR_CHARGES (by decide) ((Reads.readBits item.getCharges rfl _).bindNil (Reads.modify _ _))
    · exact ⟨o', L.nil o', rfl⟩
  obtain ⟨o'', hturn', hitem'⟩ := hcharges
  refine ⟨o'', L.append hturn hturn', ?_⟩
  rw [hitem', hitem]
  exact SameSub.refl _

/-- All bytes of an item are read. What decides the sub type is what the count and the charges in
front made of it. -/
theorem readsTo_serializeAttr (h : item.Representable) (o : σ) :
    ReadsTo L (item.serializeAttr env) o (restoreDate item (restoreSubType env item (L.item o))) :=
  (readsTo_subType o).append passes_actionId
    |>.append (passes_writeNonEmpty .text (by decide) rfl)
    |>.date
    |>.append (passes_writeNonEmpty .writtenBy (by decide) rfl)
    |>.append (passes_writeNonEmpty .desc (by decide) rfl)
    |>.append passes_duration
    |>.append passes_decaying
    |>.append (passes_writeIfPresent .name (by decide) rfl)
    |>.append (passes_writeIfPresent .article (by decide) rfl)
    |>.append (passes_writeIfPresent .pluralName (by decide) rfl)
    |>.append (passes_int .weight (by decide))
    |>.append (passes_int .attack (by decide))
    |>.append (passes_int .attackSpeed (by decide))
    |>.append (passes_int .classification (by decide))
    |>.append (passes_int .tier (by decide))
    |>.append (passes_int .defense (by decide))
    |>.append passes_imbuementSlots
    |>.append (passes_imbuements h)
    |>.append (passes_int .extraDefense (by decide))
    |>.append (passes_int .armor (by decide))
    |>.append (passes_int .hitChance (by decide))
    |>.append (passes_int .shootRange (by decide))
    |>.append (passes_int .wrapId (by decide))
    |>.append (passes_int .storeItem (by decide))
    |>.append (passes_custom h)

end Item

end ForgottenServer
