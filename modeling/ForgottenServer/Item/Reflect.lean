import ForgottenServer.Item.AttrRoundTrip

/-! # Reflect and boost values across a save

`Item::readAttr` reads the maps of the reflect and the boost values, and `Item::serializeAttr`
writes neither. Every part that it does write is read without an error and leaves both maps
as they are, whatever the attributes of the item. -/

open Reader LittleEndian

namespace ForgottenServer

/-- What `readString` gives for a string that `writeString` has written. -/
def clip (str : List UInt8) : List UInt8 := if str.length > 65535 then [] else str

def CustomAttribute.clip : CustomAttribute → CustomAttribute
  | str s => str (ForgottenServer.clip s)
  | c => c

theorem length_clip (str : List UInt8) : (clip str).length < 65536 := by
  rw [clip]
  split
  · simp
  · omega

theorem writeString_clip (str : List UInt8) : writeString (clip str) = writeString str := by
  rw [writeString, writeString, clip]
  split
  · rfl
  · rfl

theorem reads_clip {σ : Type} {s : σ} (str : List UInt8) :
    Reads (readString : Reader σ (List UInt8)) (writeString str) s (clip str) s := by
  have hreads := reads_readString (s := s) (length_clip str)
  rwa [writeString_clip] at hreads

theorem reads_custom_clip {σ : Type} {s : σ} (c : CustomAttribute) :
    Reads (CustomAttribute.unserialize : Reader σ CustomAttribute) c.serialize s c.clip s := by
  have hsame : c.clip.serialize = c.serialize := by
    cases c with
    | str text => simp only [CustomAttribute.clip, CustomAttribute.serialize, writeString_clip]
    | _ => rfl
  rw [← hsame]
  refine reads_custom c.clip fun text htext => ?_
  cases c with
  | str text' =>
    obtain rfl := CustomAttribute.str.inj htext
    exact length_clip text'
  | _ => cases htext

namespace Item

/-! ## Getters -/

/-- `ItemAttributes::getReflect`, with `emptyReflect`. -/
def getReflect (item : Item) (combatType : BitVec 16) : Reflect := (item.reflect combatType).getD {}

/-- `ItemAttributes::getBoostPercent`. -/
def getBoostPercent (item : Item) (combatType : BitVec 16) : BitVec 16 := (item.boostPercent combatType).getD 0

/-- The two maps. -/
def combatMaps (item : Item) : (BitVec 16 → Option Reflect) × (BitVec 16 → Option (BitVec 16)) :=
  (item.reflect, item.boostPercent)

section Frame

variable (s : Item)

@[simp] theorem combatMaps_setIntAttr (a : IntAttr) (v : BitVec 64) : (s.setIntAttr a v).combatMaps = s.combatMaps := rfl

@[simp] theorem combatMaps_setItemCount (n : BitVec 8) : (s.setItemCount n).combatMaps = s.combatMaps := rfl

@[simp] theorem combatMaps_setCustomAttribute (key : List UInt8) (v : CustomAttribute) :
    (s.setCustomAttribute key v).combatMaps = s.combatMaps := rfl

@[simp] theorem combatMaps_setStrAttr (a : StrAttr) (str : List UInt8) :
    (s.setStrAttr a str).combatMaps = s.combatMaps := by
  rw [setStrAttr]
  split <;> rfl

@[simp] theorem combatMaps_addImbuement (i : Imbuement) : (s.addImbuement i).combatMaps = s.combatMaps := by
  rw [addImbuement]
  split <;> rfl

@[simp] theorem combatMaps_setSubType (items : Items) (n : BitVec 16) :
    (s.setSubType items n).combatMaps = s.combatMaps := by
  simp only [setSubType, setFluidType, setCharges]
  split_ifs <;> rfl

theorem combatMaps_foldl {γ : Type} {step : Item → γ → Item} (h : ∀ s x, (step s x).combatMaps = s.combatMaps)
    (xs : List γ) : ∀ s : Item, (xs.foldl step s).combatMaps = s.combatMaps := by
  induction xs with
  | nil => exact fun _ => rfl
  | cons x xs ih => exact fun s => (ih _).trans (h s x)

theorem combatMaps_create (items : Items) (id : UInt16) (count : BitVec 16) (duration : BitVec 32) :
    (create items id count duration).combatMaps = (fun _ => none, fun _ => none) := by
  simp only [create, initDuration, initImbuementSlots, initSubType, setDuration, setFluidType, setCharges]
  split_ifs <;> rfl

end Frame

/-! ## Every part is read -/

variable (env : ItemEnv) (item : Item)

/-- A number that is read for a setter. -/
theorem reads_bits_modify {w : ℕ} (v : BitVec w) (hw : 256 ^ (w / 8) = 2 ^ w) (f : BitVec w → Item → Item)
    (h : ∀ s, (f v s).combatMaps = s.combatMaps) (s : Item) :
    ∃ s', Reads (do let v ← readBits w; modify (f v)) (writeBits v) s () s' ∧ s'.combatMaps = s.combatMaps :=
  ⟨f v s, (Reads.readBits v hw s).bindNil (Reads.modify _ s), h s⟩

theorem keeps_str (f : StrField) (htag : f.tag ≠ 0) (hread : readAttr env f.tag = f.read) (str : List UInt8) :
    Keeps 0 (readAttr env) combatMaps (f.tag :: writeString str) := by
  refine Keeps.tag f.tag htag fun s => ⟨s.setStrAttr f.attr (clip str), ?_, combatMaps_setStrAttr _ _ _⟩
  rw [hread]
  exact (reads_clip str).bindNil (Reads.modify _ s)

theorem keeps_saved {f : IntField} (hf : f ∈ IntField.saved) : Keeps 0 (readAttr env) combatMaps (f.write item) := by
  obtain ⟨htag, hbits⟩ := tag_saved f hf
  refine Keeps.ite (Keeps.tag f.tag htag fun s => ?_)
  rw [readAttr_saved env hf]
  exact reads_bits_modify _ hbits (fun v s => s.setIntAttr f.attr (f.widen v)) (fun _ => rfl) s

theorem keeps_decaying : Keeps 0 (readAttr env) combatMaps item.writeDecaying := by
  refine Keeps.ite (Keeps.tag ATTR_DECAYING_STATE (by decide) fun s => ?_)
  by_cases hstate : item.getDecaying ≠ ItemDecayState.decayingFalse.value
  · refine ⟨s.setDecaying .decayingPending, (Reads.readBits item.getDecaying rfl s).bindNil ?_, rfl⟩
    rw [if_pos hstate]
    exact Reads.modify _ s
  · refine ⟨s, (Reads.readBits item.getDecaying rfl s).bindNil ?_, rfl⟩
    rw [if_neg hstate]
    exact Reads.pure () s

/-- The imbuements fit the number that stands in front of them. -/
theorem keeps_imbuements (h : item.imbuements.length < 2 ^ 16) :
    Keeps 0 (readAttr env) combatMaps item.writeImbuements := by
  refine Keeps.ite (Keeps.tag ATTR_IMBUEMENTS (by decide) fun s => ?_)
  refine ⟨item.imbuements.foldl addImbuement s, ?_, combatMaps_foldl combatMaps_addImbuement _ s⟩
  exact reads_counted rfl Imbuement.serialize addImbuement h fun s i _ => (reads_imbuement i).bindNil (Reads.modify _ s)

theorem keeps_custom (h : ∀ map, item.custom = some map → map.entries.length < 2 ^ 64) :
    Keeps 0 (readAttr env) combatMaps item.writeCustom := by
  rw [writeCustom]
  cases hcustom : item.custom with
  | none => exact Keeps.nil
  | some map =>
    let step (s : Item) (e : Sigma fun _ : List UInt8 => CustomAttribute) := s.setCustomAttribute (clip e.1) e.2.clip
    refine Keeps.tag ATTR_CUSTOM_ATTRIBUTES (by decide) fun s => ?_
    refine ⟨map.entries.foldl step s, ?_, combatMaps_foldl (fun s _ => combatMaps_setCustomAttribute s _ _) _ s⟩
    exact reads_counted rfl _ step (h map hcustom) fun s e _ =>
      (reads_clip e.1).bind ((reads_custom_clip e.2).bindNil (Reads.modify _ s))

/-- All that is written is read, and nothing of it is a reflect or a boost value. -/
theorem keeps_serializeAttr (himbuements : item.imbuements.length < 2 ^ 16)
    (hcustom : ∀ map, item.custom = some map → map.entries.length < 2 ^ 64) :
    Keeps 0 (readAttr env) combatMaps (item.serializeAttr env) := by
  have hcount : Keeps 0 (readAttr env) combatMaps (item.writeCount env) :=
    Keeps.ite (Keeps.tag ATTR_COUNT (by decide) (reads_bits_modify _ rfl _ fun s => combatMaps_setSubType s _ _))
  have hcharges : Keeps 0 (readAttr env) combatMaps item.writeCharges :=
    Keeps.ite (Keeps.tag ATTR_CHARGES (by decide) (reads_bits_modify _ rfl _ fun s => combatMaps_setSubType s _ _))
  have hactionId : Keeps 0 (readAttr env) combatMaps (item.writeActionId env) :=
    Keeps.ite (Keeps.tag ATTR_ACTION_ID (by decide) (reads_bits_modify _ rfl (fun v s => s.setActionId v) fun _ => rfl))
  have hdate : Keeps 0 (readAttr env) combatMaps item.writeDate :=
    Keeps.ite (Keeps.tag ATTR_WRITTENDATE (by decide) (reads_bits_modify _ rfl (fun v s => s.setDate v) fun _ => rfl))
  have hduration : Keeps 0 (readAttr env) combatMaps (item.writeDuration env) :=
    Keeps.ite (Keeps.tag ATTR_DURATION (by decide) (reads_bits_modify _ rfl (fun v s => s.setDuration v) fun _ => rfl))
  have hslots : Keeps 0 (readAttr env) combatMaps (item.writeImbuementSlots env) :=
    Keeps.ite (Keeps.tag ATTR_IMBUESLOTS (by decide)
      (reads_bits_modify _ rfl (fun v s => { s with imbuementSlots := v.setWidth 16 }) fun _ => rfl))
  exact hcount.append hcharges
    |>.append hactionId
    |>.append (.ite (keeps_str env .text (by decide) rfl _))
    |>.append hdate
    |>.append (.ite (keeps_str env .writtenBy (by decide) rfl _))
    |>.append (.ite (keeps_str env .desc (by decide) rfl _))
    |>.append hduration
    |>.append (keeps_decaying env item)
    |>.append (.ite (keeps_str env .name (by decide) rfl _))
    |>.append (.ite (keeps_str env .article (by decide) rfl _))
    |>.append (.ite (keeps_str env .pluralName (by decide) rfl _))
    |>.append (keeps_saved env item (f := .weight) (by decide))
    |>.append (keeps_saved env item (f := .attack) (by decide))
    |>.append (keeps_saved env item (f := .attackSpeed) (by decide))
    |>.append (keeps_saved env item (f := .classification) (by decide))
    |>.append (keeps_saved env item (f := .tier) (by decide))
    |>.append (keeps_saved env item (f := .defense) (by decide))
    |>.append hslots
    |>.append (keeps_imbuements env item himbuements)
    |>.append (keeps_saved env item (f := .extraDefense) (by decide))
    |>.append (keeps_saved env item (f := .armor) (by decide))
    |>.append (keeps_saved env item (f := .hitChance) (by decide))
    |>.append (keeps_saved env item (f := .shootRange) (by decide))
    |>.append (keeps_saved env item (f := .wrapId) (by decide))
    |>.append (keeps_saved env item (f := .storeItem) (by decide))
    |>.append (keeps_custom env item hcustom)

/-! ## What is left after a save -/

/-- `r` has the reflect and boost values of `item`. -/
def SameCombatValues (r : Item) : Prop :=
  ∀ combatType, r.getReflect combatType = item.getReflect combatType ∧
    r.getBoostPercent combatType = item.getBoostPercent combatType

/-- A saved item comes back with its reflect and boost values exactly if it has none but zeros. -/
theorem sameCombatValues_iff (env : ItemEnv) (item : Item) (duration : BitVec 32)
    (himbuements : item.imbuements.length < 2 ^ 16)
    (hcustom : ∀ map, item.custom = some map → map.entries.length < 2 ^ 64) :
    (∃ r, (unserializeAttr env).run (create env.items item.id 0 duration) (item.serializeAttr env) =
      (some (), r, []) ∧ item.SameCombatValues r) ↔
    ∀ combatType, item.getReflect combatType = {} ∧ item.getBoostPercent combatType = 0 := by
  obtain ⟨r, hturns, hmaps⟩ := keeps_serializeAttr env item himbuements hcustom (create env.items item.id 0 duration)
  rw [combatMaps_create] at hmaps
  have hread := hturns.run_end
  have hempty : ∀ combatType, r.getReflect combatType = {} ∧ r.getBoostPercent combatType = 0 := by
    have hreflect : r.reflect = fun _ => none := congrArg Prod.fst hmaps
    have hboost : r.boostPercent = fun _ => none := congrArg Prod.snd hmaps
    intro combatType
    rw [getReflect, getBoostPercent, hreflect, hboost]
    exact ⟨rfl, rfl⟩
  constructor
  · rintro ⟨r', hread', hsame⟩ combatType
    obtain rfl : r = r' := congrArg (fun p => p.2.1) (hread.symm.trans hread')
    rw [← (hsame combatType).1, ← (hsame combatType).2]
    exact hempty combatType
  · intro hzero
    refine ⟨r, hread, fun combatType => ?_⟩
    rw [(hzero combatType).1, (hzero combatType).2]
    exact hempty combatType

/-- A sword that reflects a tenth of the physical damage and raises the fire damage by 5 percent. -/
def reflectingSword : Item where
  id := 1
  ints
    | .attack => some 40
    | _ => none
  reflect combatType := if combatType = 1 then some ⟨10, 100⟩ else none
  boostPercent combatType := if combatType = 8 then some 5 else none

theorem sameCombatValues_iff_sword :
    (∃ r, (unserializeAttr ringEnv).run (create ringEnv.items 1 0 0) (reflectingSword.serializeAttr ringEnv) =
      (some (), r, []) ∧ reflectingSword.SameCombatValues r) ↔
    ∀ combatType, reflectingSword.getReflect combatType = {} ∧ reflectingSword.getBoostPercent combatType = 0 :=
  sameCombatValues_iff ringEnv reflectingSword 0 (by decide) nofun

theorem reflectingSword_loses :
    let r := (unserializeAttr ringEnv).run (create ringEnv.items reflectingSword.id 0 0)
      (reflectingSword.serializeAttr ringEnv)
    r.1 = some () ∧ ¬reflectingSword.SameCombatValues r.2.1 := by
  refine ⟨by decide +kernel, fun hsame => ?_⟩
  exact absurd (hsame 1).1 (by decide +kernel)

end Item

end ForgottenServer
