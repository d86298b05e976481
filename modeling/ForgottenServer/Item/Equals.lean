import ForgottenServer.Item.AttributeVector
import Mathlib

/-! # Equality of items

`Item::equals` compares the attribute words first, and then every attribute of the first item
with the one of the same type of the other item. All types that are no strings are read as
integers, the custom attributes too, and the maps of the reflect and boost values are not
looked at. -/

open Flags

namespace ForgottenServer

/-- `std::get<std::string>`. -/
def AttrValue.getStr : AttrValue → Option (List UInt8)
  | .str s => some s
  | _ => none

/-- `std::get<int64_t>`. -/
def AttrValue.getInt : AttrValue → Option (BitVec 64)
  | .int v => some v
  | _ => none

/-- The parts of an `Item` that `equals` reads. -/
structure AttributedItem where
  id : UInt16
  instanceId : UInt32 := 0
  attributes : Option ItemAttributes := none

namespace AttributedItem

/-- The inner loop, for the kind of value that `get` reads. -/
def compareWith {β : Type} [DecidableEq β] (get : AttrValue → Option β) (attr : Attribute) :
    List Attribute → Option Bool
  | [] => some true
  | otherAttr :: rest =>
    if attr.type = otherAttr.type then do
      let value ← get attr.value
      let otherValue ← get otherAttr.value
      if value ≠ otherValue then some false else compareWith get attr rest
    else compareWith get attr rest

def compareOne (attr : Attribute) (others : List Attribute) : Option Bool :=
  if isStrAttrType attr.type then compareWith AttrValue.getStr attr others
  else compareWith AttrValue.getInt attr others

def compareAttributes (others : List Attribute) : List Attribute → Option Bool
  | [] => some true
  | attr :: rest => do
    let same ← compareOne attr others
    if same then compareAttributes others rest else some false

variable (item otherItem : AttributedItem)

/-- `none` where `std::get` throws. -/
def equalsIgnoringInstance : Option Bool :=
  if item.id ≠ otherItem.id then some false
  else match item.attributes, otherItem.attributes with
    | none, none => some true
    | none, some other => some (other.attributeBits == 0)
    | some attributes, none => some (attributes.attributeBits == 0)
    | some attributes, some other =>
      if attributes.attributeBits ≠ other.attributeBits then some false
      else compareAttributes other.attributes attributes.attributes

def equals : Option Bool :=
  if item.instanceId ≠ otherItem.instanceId then some false else item.equalsIgnoringInstance otherItem

/-! ## What equality should mean -/

/-- An item without attributes has the attributes of an empty set. -/
def attrs : ItemAttributes := item.attributes.getD {}

/-- The attributes were built by the setters. -/
def Valid : Prop := item.attrs.Inv

def NoCustom : Prop := item.attrs.hasAttribute ITEM_ATTRIBUTE_CUSTOM = false

/-- The items agree in all that is no custom attribute, reflect or boost value. -/
structure SameOrdinary (x y : AttributedItem) : Prop where
  id : x.id = y.id
  instanceId : x.instanceId = y.instanceId
  values : ∀ t, Single t → t ≠ ITEM_ATTRIBUTE_CUSTOM → x.attrs.valueOf t = y.attrs.valueOf t

structure SameCombat (x y : AttributedItem) : Prop where
  reflect : x.attrs.reflect = y.attrs.reflect
  boostPercent : x.attrs.boostPercent = y.attrs.boostPercent

/-- Every attribute has the same value in both items. -/
structure Same (x y : AttributedItem) : Prop extends SameOrdinary x y, SameCombat x y where
  custom : ∀ key, x.attrs.getCustomAttribute key = y.attrs.getCustomAttribute key

/-- On the items of `S`, `equals` never throws, is an equivalence and decides `Same`. -/
structure ExactOn (S : Set AttributedItem) : Prop where
  total : ∀ x ∈ S, ∀ y ∈ S, (x.equals y).isSome
  refl : ∀ x ∈ S, x.equals x = some true
  symm : ∀ x ∈ S, ∀ y ∈ S, x.equals y = some true → y.equals x = some true
  trans : ∀ x ∈ S, ∀ y ∈ S, ∀ z ∈ S, x.equals y = some true → y.equals z = some true → x.equals z = some true
  exact : ∀ x ∈ S, ∀ y ∈ S, x.equals y = some true ↔ x.Same y

/-! ## The loops -/

section Loops

variable {a b : ItemAttributes} {attr : Attribute}

theorem compareWith_none {β : Type} [DecidableEq β] {get : AttrValue → Option β} {others : List Attribute}
    (h : VectorMap.find Attribute.type others attr.type = none) : compareWith get attr others = some true := by
  induction others with
  | nil => rfl
  | cons other others ih =>
    rw [VectorMap.find_cons] at h
    split at h
    · cases h
    · rename_i hne
      rw [compareWith, if_neg (Ne.symm hne), ih h]

/-- The attribute is compared with the one of its type. -/
theorem compareWith_some {β : Type} [DecidableEq β] {get : AttrValue → Option β} {others : List Attribute}
    (hnodup : (others.map Attribute.type).Nodup) {other : Attribute}
    (h : VectorMap.find Attribute.type others attr.type = some other) :
    compareWith get attr others = (get attr.value).bind fun v => (get other.value).map fun w => decide (v = w) := by
  induction others with
  | nil => cases h
  | cons first others ih =>
    rw [List.map_cons, List.nodup_cons] at hnodup
    rw [VectorMap.find_cons] at h
    split at h
    · rename_i heq
      obtain rfl := Option.some.inj h
      have hrest : VectorMap.find Attribute.type others attr.type = none := by
        rw [← Option.not_isSome_iff_eq_none, VectorMap.find_isSome_iff, ← heq]
        exact hnodup.1
      rw [compareWith, if_pos heq.symm]
      cases get attr.value with
      | none => rfl
      | some v =>
        cases get first.value with
        | none => rfl
        | some w =>
          show (if v ≠ w then some false else compareWith get attr others) = some (decide (v = w))
          rw [compareWith_none hrest]
          by_cases hvw : v = w <;> simp [hvw]
    · rename_i hne
      rw [compareWith, if_neg (Ne.symm hne), ih hnodup.2 h]

/-- An attribute that both items have is compared by its kind, and a map of custom attributes is
no integer. -/
theorem compareOne_eq (ha : a.Inv) (hb : b.Inv) (hattr : attr ∈ a.attributes)
    (hmem : attr.type ∈ b.attributes.map Attribute.type) :
    (attr.type = ITEM_ATTRIBUTE_CUSTOM → compareOne attr b.attributes = none) ∧
      (attr.type ≠ ITEM_ATTRIBUTE_CUSTOM → ∃ same, compareOne attr b.attributes = some same ∧
        (same = true ↔ b.valueOf attr.type = some attr.value)) := by
  obtain ⟨other, hother⟩ := Option.isSome_iff_exists.mp (VectorMap.find_isSome_iff.mpr hmem)
  have hvalue : b.valueOf attr.type = some other.value := by rw [ItemAttributes.valueOf, hother]; rfl
  have htyped := ha.typed attr hattr
  have hother' : Attribute.WellTyped ⟨other.value, attr.type⟩ := hb.wellTyped hvalue
  have hsingle := ha.single attr hattr
  rw [hvalue, compareOne]
  simp only [compareWith_some hb.nodup hother]
  rcases attr with ⟨value, type⟩
  cases value with
  | monostate => exact htyped.elim
  | custom map =>
    obtain ⟨rfl, -⟩ := htyped
    refine ⟨fun _ => ?_, fun hne => absurd rfl hne⟩
    split <;> rfl
  | str v =>
    have hstr : isStrAttrType type = true := htyped
    have hint : isIntAttrType type ≠ true := fun hint => by
      rw [not_isStrAttrType_of_int hsingle hint] at hstr
      cases hstr
    have hne : type ≠ ITEM_ATTRIBUTE_CUSTOM := by
      rintro rfl
      exact absurd hstr (by decide)
    refine ⟨fun heq => absurd heq hne, fun _ => ?_⟩
    rw [hstr]
    rcases other with ⟨_ | w | w | map, otherType⟩
    · exact hother'.elim
    · exact absurd hother' hint
    · exact ⟨decide (v = w), rfl, by simp [eq_comm]⟩
    · exact absurd hother'.1 hne
  | int v =>
    have hint : isIntAttrType type = true := htyped
    have hstr := not_isStrAttrType_of_int hsingle hint
    have hne : type ≠ ITEM_ATTRIBUTE_CUSTOM := by
      rintro rfl
      exact absurd hint (by decide)
    refine ⟨fun heq => absurd heq hne, fun _ => ?_⟩
    rw [hstr]
    rcases other with ⟨_ | w | w | map, otherType⟩
    · exact hother'.elim
    · exact ⟨decide (v = w), rfl, by simp [eq_comm]⟩
    · exact absurd (show isStrAttrType type = true from hother') (by simp [hstr])
    · exact absurd hother'.1 hne

/-- Without custom attributes the comparison ends, and says whether all values are the same. -/
theorem compareAttributes_eq (ha : a.Inv) (hb : b.Inv) {attrs : List Attribute} (hattrs : ∀ attr ∈ attrs,
      attr ∈ a.attributes ∧ attr.type ∈ b.attributes.map Attribute.type ∧ attr.type ≠ ITEM_ATTRIBUTE_CUSTOM) :
    ∃ same, compareAttributes b.attributes attrs = some same ∧
      (same = true ↔ ∀ attr ∈ attrs, b.valueOf attr.type = some attr.value) := by
  induction attrs with
  | nil => exact ⟨true, rfl, by simp⟩
  | cons attr attrs ih =>
    obtain ⟨hattr, hmem, hne⟩ := hattrs attr List.mem_cons_self
    obtain ⟨first, hfirst, hiff⟩ := (compareOne_eq ha hb hattr hmem).2 hne
    obtain ⟨rest, hrest, hiff'⟩ := ih fun attr hattr => hattrs attr (List.mem_cons_of_mem _ hattr)
    rw [compareAttributes, hfirst]
    simp only [Option.bind_eq_bind, Option.bind_some, List.forall_mem_cons, ← hiff, ← hiff']
    cases first with
    | false => exact ⟨false, rfl, by simp⟩
    | true => exact ⟨rest, hrest, by simp⟩

/-- An item with custom attributes cannot be compared with itself. -/
theorem compareAttributes_self (ha : a.Inv) {attrs : List Attribute} (hattrs : ∀ attr ∈ attrs, attr ∈ a.attributes)
    (hcustom : ITEM_ATTRIBUTE_CUSTOM ∈ attrs.map Attribute.type) : compareAttributes a.attributes attrs = none := by
  induction attrs with
  | nil => exact absurd hcustom List.not_mem_nil
  | cons attr attrs ih =>
    have hattr := hattrs attr List.mem_cons_self
    obtain ⟨hthrows, hsame⟩ := compareOne_eq ha ha hattr (List.mem_map_of_mem hattr)
    rw [compareAttributes]
    by_cases htype : attr.type = ITEM_ATTRIBUTE_CUSTOM
    · rw [hthrows htype]
      rfl
    · obtain ⟨same, hone, hiff⟩ := hsame htype
      have htrue : same = true := by
        rw [hiff, ItemAttributes.valueOf, (VectorMap.find_eq_some_iff ha.nodup).mpr ⟨hattr, rfl⟩]
        rfl
      have hrest : ITEM_ATTRIBUTE_CUSTOM ∈ attrs.map Attribute.type := by
        rcases List.mem_cons.mp hcustom with heq | hin
        · exact absurd heq.symm htype
        · exact hin
      rw [hone, htrue]
      exact ih (fun attr hattr => hattrs attr (List.mem_cons_of_mem _ hattr)) hrest

end Loops

/-! ## When the comparison is right -/

variable {x y : AttributedItem} {S : Set AttributedItem}

theorem bits_eq_zero_iff {a : ItemAttributes} (ha : a.Inv) : a.attributeBits = 0 ↔ a.attributes = [] := by
  constructor
  · intro hzero
    refine List.eq_nil_iff_forall_not_mem.mpr fun attr hattr => ?_
    have hhas := (ha.has_bits_iff (ha.single attr hattr)).mpr (List.mem_map_of_mem hattr)
    rw [hzero] at hhas
    exact not_has_zero hhas
  · intro hnil
    rw [ha.bits, hnil]
    rfl

/-- A missing set of attributes is compared like an empty one. -/
theorem equals_eq (hx : x.Valid) (hy : y.Valid) : x.equals y =
    if x.instanceId ≠ y.instanceId ∨ x.id ≠ y.id ∨ x.attrs.attributeBits ≠ y.attrs.attributeBits then some false
    else compareAttributes y.attrs.attributes x.attrs.attributes := by
  have hlists : (match x.attributes, y.attributes with
      | none, none => some true
      | none, some other => some (other.attributeBits == 0)
      | some attributes, none => some (attributes.attributeBits == 0)
      | some attributes, some other =>
        if attributes.attributeBits ≠ other.attributeBits then some false
        else compareAttributes other.attributes attributes.attributes) =
      if x.attrs.attributeBits ≠ y.attrs.attributeBits then some false
      else compareAttributes y.attrs.attributes x.attrs.attributes := by
    rcases x with ⟨_, _, _ | a⟩ <;> rcases y with ⟨_, _, _ | b⟩
    · rfl
    · show some (b.attributeBits == 0) = if (0 : BitVec 64) ≠ b.attributeBits then some false else some true
      by_cases hzero : b.attributeBits = 0
      · rw [hzero]
        rfl
      · rw [if_pos (Ne.symm hzero), beq_eq_false_iff_ne.mpr hzero]
    · show some (a.attributeBits == 0) = if a.attributeBits ≠ 0 then some false else compareAttributes [] a.attributes
      by_cases hzero : a.attributeBits = 0
      · have hnil := (bits_eq_zero_iff (show a.Inv from hx)).mp hzero
        rw [hnil, hzero]
        rfl
      · rw [if_pos hzero, beq_eq_false_iff_ne.mpr hzero]
    · rfl
  rw [equals, equalsIgnoringInstance, hlists]
  by_cases hinstance : x.instanceId = y.instanceId <;> by_cases hid : x.id = y.id <;> simp [hinstance, hid]

theorem SameOrdinary.refl (x : AttributedItem) : x.SameOrdinary x := ⟨rfl, rfl, fun _ _ _ => rfl⟩

theorem SameOrdinary.symm (h : x.SameOrdinary y) : y.SameOrdinary x :=
  ⟨h.id.symm, h.instanceId.symm, fun t ht hne => (h.values t ht hne).symm⟩

theorem SameOrdinary.trans {z : AttributedItem} (h : x.SameOrdinary y) (h' : y.SameOrdinary z) : x.SameOrdinary z :=
  ⟨h.id.trans h'.id, h.instanceId.trans h'.instanceId, fun t ht hne => (h.values t ht hne).trans (h'.values t ht hne)⟩

theorem NoCustom.valueOf_eq_none (hx : x.Valid) (hno : x.NoCustom) : x.attrs.valueOf ITEM_ATTRIBUTE_CUSTOM = none := by
  rw [NoCustom, hx.hasAttribute_eq single_custom] at hno
  simpa using hno

/-- Without custom attributes the words agree if the ordinary values do. -/
theorem SameOrdinary.bits_eq (h : x.SameOrdinary y) (hx : x.Valid) (hy : y.Valid) (hxno : x.NoCustom)
    (hyno : y.NoCustom) : x.attrs.attributeBits = y.attrs.attributeBits := by
  refine eq_of_has fun t ht => ?_
  have hvalue : x.attrs.valueOf t = y.attrs.valueOf t := by
    by_cases htype : t = ITEM_ATTRIBUTE_CUSTOM
    · rw [htype, hxno.valueOf_eq_none hx, hyno.valueOf_eq_none hy]
    · exact h.values t ht htype
  rw [hx.has_bits_iff ht, hy.has_bits_iff ht, ← hx.hasAttribute_iff ht, ← hy.hasAttribute_iff ht,
    hx.hasAttribute_eq ht, hy.hasAttribute_eq ht, hvalue]

theorem equals_of_noCustom (hx : x.Valid) (hy : y.Valid) (hxno : x.NoCustom) (hyno : y.NoCustom) :
    ∃ same, x.equals y = some same ∧ (same = true ↔ x.SameOrdinary y) := by
  rw [equals_eq hx hy]
  split
  · rename_i hdiffer
    refine ⟨false, rfl, iff_of_false (by simp) fun h => ?_⟩
    rcases hdiffer with hinstance | hid | hbits
    · exact hinstance h.instanceId
    · exact hid h.id
    · exact hbits (h.bits_eq hx hy hxno hyno)
  · rename_i hagree
    simp only [not_or, ne_eq, not_not] at hagree
    obtain ⟨hinstance, hid, hbits⟩ := hagree
    have hmem : ∀ attr ∈ x.attrs.attributes, attr ∈ x.attrs.attributes ∧
        attr.type ∈ y.attrs.attributes.map Attribute.type ∧ attr.type ≠ ITEM_ATTRIBUTE_CUSTOM := by
      intro attr hattr
      have hsingle := hx.single attr hattr
      refine ⟨hattr, ?_, fun htype => ?_⟩
      · rw [← hy.has_bits_iff hsingle, ← hbits, hx.has_bits_iff hsingle]
        exact List.mem_map_of_mem hattr
      · have hhas := (hx.hasAttribute_iff single_custom).mpr (htype ▸ List.mem_map_of_mem hattr)
        rw [hxno] at hhas
        cases hhas
    obtain ⟨same, hsame, hiff⟩ := compareAttributes_eq hx hy hmem
    refine ⟨same, hsame, hiff.trans ⟨fun hall => ⟨hid, hinstance, fun t ht hne => ?_⟩, fun h attr hattr => ?_⟩⟩
    · cases hvalue : x.attrs.valueOf t with
      | some v =>
        obtain ⟨attr, hattr, rfl⟩ := Option.map_eq_some_iff.mp hvalue
        rw [← VectorMap.key_of_find hattr]
        exact (hall attr (VectorMap.mem_of_find hattr)).symm
      | none =>
        have hno : x.attrs.hasAttribute t = false := by rw [hx.hasAttribute_eq ht, hvalue]; rfl
        have hno' : y.attrs.hasAttribute t = false := by
          rw [ItemAttributes.hasAttribute, ← hbits]
          exact hno
        rw [hy.hasAttribute_eq ht] at hno'
        have hnone : y.attrs.valueOf t = none := by simpa using hno'
        exact hnone.symm
    · obtain ⟨-, -, hne⟩ := hmem attr hattr
      rw [← h.values attr.type (hx.single attr hattr) hne, ItemAttributes.valueOf,
        (VectorMap.find_eq_some_iff hx.nodup).mpr ⟨hattr, rfl⟩]
      rfl

theorem equals_self_of_custom (hx : x.Valid) (hcustom : ¬x.NoCustom) : x.equals x = none := by
  rw [equals_eq hx hx, if_neg (by simp)]
  refine compareAttributes_self hx (fun _ h => h) ?_
  rw [← hx.hasAttribute_iff single_custom]
  simpa [NoCustom] using hcustom

/-- `equals` is right on a set of items exactly if none of them has custom attributes, and those
that agree otherwise have the same reflect and boost values. -/
theorem exactOn_iff (S : Set AttributedItem) (hS : ∀ x ∈ S, x.Valid) :
    ExactOn S ↔ (∀ x ∈ S, x.NoCustom) ∧ ∀ x ∈ S, ∀ y ∈ S, x.SameOrdinary y → x.SameCombat y := by
  constructor
  · intro h
    have hno : ∀ x ∈ S, x.NoCustom := by
      intro x hx
      by_contra hcustom
      have hself := h.refl x hx
      rw [equals_self_of_custom (hS x hx) hcustom] at hself
      cases hself
    refine ⟨hno, fun x hx y hy hsame => ?_⟩
    obtain ⟨same, heq, hiff⟩ := equals_of_noCustom (hS x hx) (hS y hy) (hno x hx) (hno y hy)
    rw [hiff.mpr hsame] at heq
    exact ((h.exact x hx y hy).mp heq).toSameCombat
  · rintro ⟨hno, hcombat⟩
    have hiff : ∀ x ∈ S, ∀ y ∈ S, x.equals y = some true ↔ x.SameOrdinary y := by
      intro x hx y hy
      obtain ⟨same, heq, hiff⟩ := equals_of_noCustom (hS x hx) (hS y hy) (hno x hx) (hno y hy)
      rw [heq, Option.some_inj, hiff]
    refine ⟨fun x hx y hy => ?_, fun x hx => ?_, fun x hx y hy h => ?_, fun x hx y hy z hz h h' => ?_, fun x hx y hy => ?_⟩
    · obtain ⟨same, heq, -⟩ := equals_of_noCustom (hS x hx) (hS y hy) (hno x hx) (hno y hy)
      rw [heq]
      rfl
    · exact (hiff x hx x hx).mpr (SameOrdinary.refl x)
    · exact (hiff y hy x hx).mpr ((hiff x hx y hy).mp h).symm
    · exact (hiff x hx z hz).mpr (((hiff x hx y hy).mp h).trans ((hiff y hy z hz).mp h'))
    · rw [hiff x hx y hy]
      refine ⟨fun h => ⟨h, hcombat x hx y hy h, fun key => ?_⟩, fun h => h.toSameOrdinary⟩
      rw [(hS x hx).getCustomAttribute_eq, (hS y hy).getCustomAttribute_eq, (hno x hx).valueOf_eq_none (hS x hx),
        (hno y hy).valueOf_eq_none (hS y hy)]

/-- Two stacks of coins with a text and charges, set in different orders. -/
def writtenCoins : Set AttributedItem :=
  {⟨3031, 0, some ((({} : ItemAttributes).setStrAttr ITEM_ATTRIBUTE_TEXT [104]).setIntAttr ITEM_ATTRIBUTE_CHARGES 2)⟩,
    ⟨3031, 0, some ((({} : ItemAttributes).setIntAttr ITEM_ATTRIBUTE_CHARGES 2).setStrAttr ITEM_ATTRIBUTE_TEXT [104])⟩}

theorem exactOn_writtenCoins : ExactOn writtenCoins ↔ (∀ x ∈ writtenCoins, x.NoCustom) ∧
    ∀ x ∈ writtenCoins, ∀ y ∈ writtenCoins, x.SameOrdinary y → x.SameCombat y := by
  have htext : Single ITEM_ATTRIBUTE_TEXT := ⟨3, by decide, by decide⟩
  have hcharges : Single ITEM_ATTRIBUTE_CHARGES := ⟨20, by decide, by decide⟩
  refine exactOn_iff writtenCoins fun x hx => ?_
  rcases hx with rfl | rfl
  · have hfirst := ItemAttributes.inv_empty.sets_setStrAttr htext (by decide) (List.cons_ne_nil 104 [])
    exact (hfirst.inv.sets_setIntAttr hcharges (by decide) 2).inv
  · have hfirst := ItemAttributes.inv_empty.sets_setIntAttr hcharges (by decide) 2
    exact (hfirst.inv.sets_setStrAttr htext (by decide) (List.cons_ne_nil 104 [])).inv

/-- A stack of coins with one custom attribute, compared with itself. -/
theorem not_exactOn_customCoin : ¬∀ S : Set AttributedItem, (∀ x ∈ S, x.Valid) → ExactOn S := by
  let coin : AttributedItem := ⟨3031, 0, some (({} : ItemAttributes).setCustomAttribute [107] (.int 1))⟩
  intro h
  obtain ⟨_, hsets, -⟩ := ItemAttributes.inv_empty.sets_setCustomAttribute [107] (.int 1)
  have hvalid : coin.Valid := hsets.inv
  have hexact := h {coin} fun x hx => by rwa [hx]
  have hself := hexact.refl coin rfl
  have hcustom : ¬coin.NoCustom := by
    rw [NoCustom]
    decide
  rw [equals_self_of_custom hvalid hcustom] at hself
  cases hself

end AttributedItem

end ForgottenServer
