import ForgottenServer.Item.ItemAttributes
import ForgottenServer.Lib.Flags

/-! # The attribute word and the attribute vector agree

The invariant of `ItemAttributes`, what the getters return by the value of an attribute, and
which value every setter sets. -/

open Flags

namespace ForgottenServer

/-! ## Types -/

section Types

variable {type : AttrType}

theorem isIntAttrType_iff (ht : Single type) : isIntAttrType type = true ↔ Has type intAttributeTypes := by
  rw [isIntAttrType, beq_iff_eq, ht.and_eq_self_iff]

theorem isStrAttrType_iff (ht : Single type) :
    isStrAttrType type = true ↔ Has type (stringAttributeTypes.setWidth 64) := by
  rw [isStrAttrType, beq_iff_eq, ht.and_eq_self_iff]

/-- No type is one of an integer and of a string. -/
theorem not_isStrAttrType_of_int (ht : Single type) (hint : isIntAttrType type = true) :
    isStrAttrType type = false := by
  rw [Bool.eq_false_iff]
  intro hstr
  have hdisjoint : intAttributeTypes &&& stringAttributeTypes.setWidth 64 = 0 := by decide
  rw [isIntAttrType, beq_iff_eq] at hint
  rw [isStrAttrType, beq_iff_eq] at hstr
  have hzero : type = 0 := by
    rw [← hstr, ← hint, BitVec.and_assoc, hdisjoint]
    exact BitVec.and_zero
  have hself := ht.has_self
  rw [hzero] at hself
  exact not_has_zero hself

theorem single_custom : Single ITEM_ATTRIBUTE_CUSTOM := ⟨34, by decide, by decide⟩

end Types

/-- The value is the one that the getter of the type reads, and the map of the custom
attributes has keys, all in lower case. -/
def Attribute.WellTyped (attr : Attribute) : Prop :=
  match attr.value with
  | .monostate => False
  | .int _ => isIntAttrType attr.type = true
  | .str _ => isStrAttrType attr.type = true
  | .custom map => attr.type = ITEM_ATTRIBUTE_CUSTOM ∧ map.entries ≠ [] ∧ ∀ key ∈ map, asLowerCaseString key = key

namespace ItemAttributes

/-- The word has the bits of the types in the vector, each of which occurs once. -/
structure Shape (s : ItemAttributes) : Prop where
  bits : s.attributeBits = union (s.attributes.map Attribute.type)
  nodup : (s.attributes.map Attribute.type).Nodup
  single : ∀ attr ∈ s.attributes, Single attr.type

structure Inv (s : ItemAttributes) : Prop extends Shape s where
  typed : ∀ attr ∈ s.attributes, attr.WellTyped

/-- The value of the type, if it has one. -/
def valueOf (s : ItemAttributes) (type : AttrType) : Option AttrValue :=
  (VectorMap.find Attribute.type s.attributes type).map (·.value)

variable {s : ItemAttributes} {type t : AttrType} {f : AttrValue → AttrValue}

/-! ## Looking up -/

namespace Shape

theorem has_bits_iff (h : s.Shape) (ht : Single type) :
    Has type s.attributeBits ↔ type ∈ s.attributes.map Attribute.type := by
  rw [h.bits, ht.has_union]
  intro u hu
  obtain ⟨attr, hattr, rfl⟩ := List.mem_map.mp hu
  exact h.single attr hattr

theorem hasAttribute_iff (h : s.Shape) (ht : Single type) :
    s.hasAttribute type = true ↔ type ∈ s.attributes.map Attribute.type := by
  rw [← h.has_bits_iff ht, hasAttribute, bne_iff_ne]
  rfl

theorem getExistingAttr_eq (h : s.Shape) (ht : Single type) :
    s.getExistingAttr type = VectorMap.find Attribute.type s.attributes type := by
  rw [getExistingAttr]
  split
  · rfl
  · rename_i hno
    rw [h.hasAttribute_iff ht, ← VectorMap.find_isSome_iff] at hno
    exact (Option.not_isSome_iff_eq_none.mp hno).symm

theorem hasAttribute_eq (h : s.Shape) (ht : Single type) : s.hasAttribute type = (s.valueOf type).isSome := by
  rw [Bool.eq_iff_iff, h.hasAttribute_iff ht, ← VectorMap.find_isSome_iff, valueOf, Option.isSome_map]

/-- The attribute that is assigned stands where it stood, or at the end. -/
theorem assign_eq (h : s.Shape) (ht : Single type) : (∃ i,
      (s.attributes.findIdx? fun attr => attr.type = type) = some i ∧ s.assign type f =
        { s with attributes := s.attributes.modify i fun attr => { attr with value := f attr.value } }) ∨
    (VectorMap.find Attribute.type s.attributes type = none ∧ s.assign type f =
      { s with attributeBits := s.attributeBits ||| type
               attributes := s.attributes ++ [{ value := f .monostate, type }] }) := by
  have hfind : ∀ i, (s.attributes.findIdx? fun attr => attr.type = type) = some i → s.hasAttribute type = true := by
    intro i hi
    obtain ⟨hlt, heq, -⟩ := List.findIdx?_eq_some_iff_getElem.mp hi
    rw [h.hasAttribute_iff ht]
    exact List.mem_map.mpr ⟨_, List.getElem_mem hlt, by simpa using heq⟩
  cases hi : s.attributes.findIdx? fun attr => attr.type = type with
  | some i =>
    refine .inl ⟨i, rfl, ?_⟩
    simp only [assign, getAttr, if_pos (hfind i hi), hi]
  | none =>
    refine .inr ⟨?_, ?_⟩
    · rw [VectorMap.find_eq_none_iff]
      intro attr hattr
      simpa using List.findIdx?_eq_none_iff.mp hi attr hattr
    · have hplace : (if s.hasAttribute type then s.attributes.findIdx? fun attr => attr.type = type else none) = none := by
        rw [hi]
        split <;> rfl
      simp only [assign, getAttr, hplace, VectorMap.modify_append_new]

theorem of_mem (hbits : ∀ u, Single u → (Has u s.attributeBits ↔ u ∈ s.attributes.map Attribute.type))
    (hnodup : (s.attributes.map Attribute.type).Nodup) (hsingle : ∀ attr ∈ s.attributes, Single attr.type) : s.Shape := by
  refine ⟨eq_of_has fun u hu => ?_, hnodup, hsingle⟩
  rw [hbits u hu, hu.has_union]
  intro v hv
  obtain ⟨attr, hattr, rfl⟩ := List.mem_map.mp hv
  exact hsingle attr hattr

theorem valueOf_assign (h : s.Shape) (ht : Single type) : (s.assign type f).valueOf t =
    if t = type then some (f ((s.valueOf type).getD .monostate)) else s.valueOf t := by
  rcases h.assign_eq (f := f) ht with ⟨i, hi, heq⟩ | ⟨hnew, heq⟩
  · have hkey : ∀ attr : Attribute, ({ attr with value := f attr.value } : Attribute).type = attr.type := fun _ => rfl
    have hsome : (VectorMap.find Attribute.type s.attributes type).isSome := by
      obtain ⟨hlt, htype, -⟩ := List.findIdx?_eq_some_iff_getElem.mp hi
      exact VectorMap.find_isSome_iff.mpr (List.mem_map.mpr ⟨_, List.getElem_mem hlt, by simpa using htype⟩)
    obtain ⟨attr, hattr⟩ := Option.isSome_iff_exists.mp hsome
    simp only [heq, valueOf, VectorMap.find_modify hkey hi]
    split
    · rename_i heq
      rw [heq, hattr]
      rfl
    · rfl
  · have hfind : ∀ t, VectorMap.find Attribute.type (s.attributes ++ [⟨f .monostate, type⟩]) t =
        if t = type then some ⟨f .monostate, type⟩ else VectorMap.find Attribute.type s.attributes t :=
      fun t => VectorMap.find_append_new hnew
    simp only [heq, valueOf, hfind, hnew]
    split <;> rfl

theorem assign (h : s.Shape) (ht : Single type) : (s.assign type f).Shape := by
  rcases h.assign_eq (f := f) ht with ⟨i, hi, heq⟩ | ⟨hnew, heq⟩
  · have hkey : ∀ attr : Attribute, ({ attr with value := f attr.value } : Attribute).type = attr.type := fun _ => rfl
    have htypes : (s.attributes.modify i fun attr => { attr with value := f attr.value }).map Attribute.type =
        s.attributes.map Attribute.type := VectorMap.map_key_modify hkey
    rw [heq]
    refine ⟨htypes ▸ h.bits, htypes ▸ h.nodup, fun attr hattr => ?_⟩
    have hmem := List.mem_map_of_mem (f := Attribute.type) hattr
    rw [htypes] at hmem
    obtain ⟨old, hold, hsame⟩ := List.mem_map.mp hmem
    exact hsame ▸ h.single old hold
  · rw [heq]
    refine of_mem (fun u hu => ?_) (VectorMap.nodup_append_new hnew h.nodup) fun attr hattr => ?_
    · rw [hu.has_or, h.has_bits_iff hu, hu.has_iff_eq ht, List.map_append, List.mem_append]
      simp
    · rcases List.mem_append.mp hattr with hold | hlast
      · exact h.single attr hold
      · rw [List.mem_singleton.mp hlast]
        exact ht

theorem removeAttribute (h : s.Shape) (ht : Single type) : (s.removeAttribute type).Shape := by
  rw [ItemAttributes.removeAttribute]
  split
  · refine of_mem (fun u hu => ?_) (VectorMap.nodup_swapRemove h.nodup) fun attr hattr => ?_
    · rw [hu.has_and_not ht, h.has_bits_iff hu]
      simp only [List.mem_map, VectorMap.mem_swapRemove h.nodup]
      constructor
      · rintro ⟨⟨attr, hattr, rfl⟩, hne⟩
        exact ⟨attr, ⟨hattr, hne⟩, rfl⟩
      · rintro ⟨attr, ⟨hattr, hne⟩, rfl⟩
        exact ⟨⟨attr, hattr, rfl⟩, hne⟩
    · exact h.single attr ((VectorMap.mem_swapRemove h.nodup).mp hattr).1
  · exact h

theorem valueOf_removeAttribute (h : s.Shape) (ht : Single type) :
    (s.removeAttribute type).valueOf t = if t = type then none else s.valueOf t := by
  rw [ItemAttributes.removeAttribute]
  split
  · simp only [valueOf, VectorMap.find_swapRemove h.nodup]
    split <;> rfl
  · rename_i hno
    rw [h.hasAttribute_eq ht, Option.not_isSome_iff_eq_none] at hno
    split
    · rename_i heq
      rw [heq, hno]
    · rfl

/-- The values alone decide whether the shape is an invariant. -/
theorem inv_of_values (h : s.Shape) (hvalues : ∀ t v, s.valueOf t = some v → Attribute.WellTyped ⟨v, t⟩) : s.Inv := by
  refine ⟨h, fun attr hattr => hvalues attr.type attr.value ?_⟩
  rw [valueOf, (VectorMap.find_eq_some_iff h.nodup).mpr ⟨hattr, rfl⟩, Option.map_some]

end Shape

theorem Inv.wellTyped (h : s.Inv) {v : AttrValue} (hv : s.valueOf t = some v) : Attribute.WellTyped ⟨v, t⟩ := by
  obtain ⟨attr, hattr, rfl⟩ := Option.map_eq_some_iff.mp hv
  have htyped := h.typed attr (VectorMap.mem_of_find hattr)
  rwa [← VectorMap.key_of_find hattr]

theorem inv_empty : ({} : ItemAttributes).Inv := ⟨⟨rfl, List.nodup_nil, by simp⟩, by simp⟩

variable {s' : ItemAttributes}

/-! ## What the getters return -/

/-- The result of `getIntAttr` for the value of an integer type. -/
def readInt : Option AttrValue → Option (BitVec 64)
  | none => some 0
  | some (.int v) => some v
  | some _ => none

def readStr : Option AttrValue → Option (List UInt8)
  | none => some []
  | some (.str v) => some v
  | some _ => none

def readCustom : Option AttrValue → Option CustomAttributeMap
  | some (.custom map) => some map
  | _ => none

theorem Shape.getIntAttr_eq (h : s.Shape) (ht : Single type) :
    s.getIntAttr type = if isIntAttrType type then readInt (s.valueOf type) else some 0 := by
  rw [getIntAttr, h.getExistingAttr_eq ht, valueOf]
  split
  · rcases VectorMap.find Attribute.type s.attributes type with _ | ⟨_ | _ | _ | _, _⟩ <;> rfl
  · rfl

theorem Shape.getStrAttr_eq (h : s.Shape) (ht : Single type) :
    s.getStrAttr type = if isStrAttrType type then readStr (s.valueOf type) else some [] := by
  rw [getStrAttr, h.getExistingAttr_eq ht, valueOf]
  split
  · rcases VectorMap.find Attribute.type s.attributes type with _ | ⟨_ | _ | _ | _, _⟩ <;> rfl
  · rfl

theorem Shape.getCustomAttributeMap_eq (h : s.Shape) :
    s.getCustomAttributeMap = readCustom (s.valueOf ITEM_ATTRIBUTE_CUSTOM) := by
  rw [getCustomAttributeMap, h.getExistingAttr_eq single_custom, valueOf]
  rcases VectorMap.find Attribute.type s.attributes ITEM_ATTRIBUTE_CUSTOM with _ | ⟨_ | _ | _ | _, _⟩ <;> rfl

/-- No getter throws. -/
theorem Inv.getIntAttr_isSome (h : s.Inv) (ht : Single type) : (s.getIntAttr type).isSome := by
  rw [h.getIntAttr_eq ht]
  split
  · rename_i hint
    have hstr := not_isStrAttrType_of_int ht hint
    cases hv : s.valueOf type with
    | none => rfl
    | some v =>
      have htyped := h.wellTyped hv
      cases v with
      | int v => rfl
      | monostate => exact htyped.elim
      | str v => simp [Attribute.WellTyped, hstr] at htyped
      | custom map =>
        obtain ⟨rfl, -⟩ := htyped
        exact absurd hint (by decide)
  · rfl

theorem Inv.getStrAttr_isSome (h : s.Inv) (ht : Single type) : (s.getStrAttr type).isSome := by
  rw [h.getStrAttr_eq ht]
  split
  · rename_i hstr
    cases hv : s.valueOf type with
    | none => rfl
    | some v =>
      have htyped := h.wellTyped hv
      cases v with
      | str v => rfl
      | monostate => exact htyped.elim
      | int v => exact absurd (not_isStrAttrType_of_int ht htyped) (by simp [hstr])
      | custom map =>
        obtain ⟨rfl, -⟩ := htyped
        exact absurd hstr (by decide)
  · rfl

/-! ## What the setters do -/

/-- A setter that changes the value of one type, and the maps outside the vector not at all. -/
structure Sets (s s' : ItemAttributes) (type : AttrType) (v : Option AttrValue) : Prop where
  inv : s'.Inv
  valueOf : ∀ t, s'.valueOf t = if t = type then v else s.valueOf t
  reflect : s'.reflect = s.reflect
  boostPercent : s'.boostPercent = s.boostPercent

theorem frame_getAttr : (s.getAttr type).2.reflect = s.reflect ∧ (s.getAttr type).2.boostPercent = s.boostPercent := by
  rw [getAttr]
  split <;> exact ⟨rfl, rfl⟩

theorem frame_assign : (s.assign type f).reflect = s.reflect ∧ (s.assign type f).boostPercent = s.boostPercent := by
  have hframe := @frame_getAttr s type
  rcases hget : s.getAttr type with ⟨i, s'⟩
  rw [hget] at hframe
  simp only [assign, hget]
  exact hframe

theorem frame_removeAttribute :
    (s.removeAttribute type).reflect = s.reflect ∧ (s.removeAttribute type).boostPercent = s.boostPercent := by
  rw [removeAttribute]
  split <;> exact ⟨rfl, rfl⟩

theorem Inv.sets_self (h : s.Inv) (hv : s.valueOf type = v) : Sets s s type v := by
  refine ⟨h, fun t => ?_, rfl, rfl⟩
  split
  · rename_i heq
    rw [heq, hv]
  · rfl

theorem Inv.sets_assign (h : s.Inv) (ht : Single type)
    (htyped : Attribute.WellTyped ⟨f ((s.valueOf type).getD .monostate), type⟩) :
    Sets s (s.assign type f) type (some (f ((s.valueOf type).getD .monostate))) := by
  have hvalue : ∀ t, (s.assign type f).valueOf t = _ := fun t => h.valueOf_assign ht
  refine ⟨(h.toShape.assign ht).inv_of_values fun t v hv => ?_, hvalue, frame_assign.1, frame_assign.2⟩
  rw [hvalue] at hv
  split at hv
  · rename_i heq
    rw [← Option.some.inj hv, heq]
    exact htyped
  · exact h.wellTyped hv

theorem Inv.sets_removeAttribute (h : s.Inv) (ht : Single type) : Sets s (s.removeAttribute type) type none := by
  have hvalue : ∀ t, (s.removeAttribute type).valueOf t = _ := fun t => h.valueOf_removeAttribute ht
  refine ⟨(h.toShape.removeAttribute ht).inv_of_values fun t v hv => ?_, hvalue, frame_removeAttribute.1,
    frame_removeAttribute.2⟩
  rw [hvalue] at hv
  split at hv
  · cases hv
  · exact h.wellTyped hv

theorem Inv.sets_setIntAttr (h : s.Inv) (ht : Single type) (hint : isIntAttrType type = true) (v : BitVec 64) :
    Sets s (s.setIntAttr type v) type
      (some (.int (if type = ITEM_ATTRIBUTE_ATTACK_SPEED ∧ v.slt 100 then 100 else v))) := by
  rw [setIntAttr, hint]
  exact h.sets_assign (f := fun _ => .int _) ht hint

theorem Inv.sets_setStrAttr (h : s.Inv) (ht : Single type) (hstr : isStrAttrType type = true) {v : List UInt8}
    (hv : v ≠ []) : Sets s (s.setStrAttr type v) type (some (.str v)) := by
  rw [setStrAttr, hstr, if_neg (by simp), if_neg (by simpa using hv)]
  exact h.sets_assign (f := fun _ => .str v) ht hstr

/-! ## Custom attributes -/

variable {key : List UInt8} {value : CustomAttribute}

theorem toLower_toLower (b : UInt8) : toLower (toLower b) = toLower b := by
  rw [toLower, toLower]
  split
  · rename_i hupper
    have hlow : ¬b + 32 ≤ 90 := by
      rw [UInt8.le_iff_toNat_le, UInt8.le_iff_toNat_le] at hupper
      rw [UInt8.le_iff_toNat_le, UInt8.toNat_add]
      simp only [UInt8.reduceToNat] at hupper ⊢
      omega
    rw [if_neg (fun h => hlow h.2)]
  · rfl

theorem asLowerCaseString_idem (key : List UInt8) : asLowerCaseString (asLowerCaseString key) = asLowerCaseString key := by
  simp [asLowerCaseString, toLower_toLower]

/-- The entries that are looked up in `map`. -/
def lookupIn (map : Option CustomAttributeMap) (key : List UInt8) : Option CustomAttribute :=
  map.bind fun map => map.lookup key

theorem Shape.getCustomAttribute_eq (h : s.Shape) (key : List UInt8) :
    s.getCustomAttribute key = lookupIn (readCustom (s.valueOf ITEM_ATTRIBUTE_CUSTOM)) (asLowerCaseString key) := by
  rw [getCustomAttribute, h.getCustomAttributeMap_eq, lookupIn]

theorem Sets.trans {s'' : ItemAttributes} {v v' : Option AttrValue} (h : Sets s s' type v) (h' : Sets s' s'' type v') :
    Sets s s'' type v' := by
  refine ⟨h'.inv, fun t => ?_, h'.reflect.trans h.reflect, h'.boostPercent.trans h.boostPercent⟩
  rw [h'.valueOf, h.valueOf]
  split <;> rfl

theorem readCustom_eq_some {v : Option AttrValue} {map : CustomAttributeMap} (h : readCustom v = some map) :
    v = some (.custom map) := by
  rcases v with _ | ⟨_ | _ | _ | map'⟩ <;> simp_all [readCustom]

theorem Inv.sets_removeCustomAttribute (h : s.Inv) (key : List UInt8) :
    ∃ v, Sets s (s.removeCustomAttribute key).2 ITEM_ATTRIBUTE_CUSTOM v ∧
      ∀ key', lookupIn (readCustom v) key' = if key' = asLowerCaseString key then none
        else lookupIn (readCustom (s.valueOf ITEM_ATTRIBUTE_CUSTOM)) key' := by
  rw [removeCustomAttribute, h.getCustomAttributeMap_eq]
  cases hmap : readCustom (s.valueOf ITEM_ATTRIBUTE_CUSTOM) with
  | none =>
    refine ⟨_, h.sets_self rfl, fun key' => ?_⟩
    rw [hmap]
    split <;> rfl
  | some map =>
    have hvalue := readCustom_eq_some hmap
    obtain ⟨-, -, hlower⟩ := h.wellTyped hvalue
    have herase : ∀ key', (map.erase (asLowerCaseString key)).lookup key' =
        if key' = asLowerCaseString key then none else map.lookup key' := by
      intro key'
      split
      · rename_i heq
        rw [heq, AList.lookup_erase]
      · rename_i hne
        rw [AList.lookup_erase_ne hne]
    by_cases hkey : asLowerCaseString key ∈ map
    · simp only [if_pos hkey]
      by_cases hempty : (map.erase (asLowerCaseString key)).entries = []
      · -- The last key: the map goes with it.
        have hshape := h.toShape.assign (f := fun _ => .custom (map.erase (asLowerCaseString key))) single_custom
        rw [if_pos (by rw [hempty]; rfl)]
        refine ⟨none, ⟨(hshape.removeAttribute single_custom).inv_of_values fun t v hv => ?_, fun t => ?_, ?_, ?_⟩, ?_⟩
        · rw [hshape.valueOf_removeAttribute single_custom, h.valueOf_assign single_custom] at hv
          split at hv
          · cases hv
          · exact h.wellTyped hv
        · rw [hshape.valueOf_removeAttribute single_custom, h.valueOf_assign single_custom]
          split <;> rfl
        · rw [frame_removeAttribute.1, frame_assign.1]
        · rw [frame_removeAttribute.2, frame_assign.2]
        · intro key'
          have hnone : (map.erase (asLowerCaseString key)).lookup key' = none := by
            rw [AList.lookup, hempty]
            rfl
          exact hnone.symm.trans (herase key')
      · rw [if_neg (by simpa using hempty)]
        refine ⟨_, h.sets_assign single_custom ⟨rfl, hempty, fun key' hkey' => ?_⟩, herase⟩
        exact hlower key' (AList.mem_erase.mp hkey').2
    · simp only [if_neg hkey]
      refine ⟨_, h.sets_self hvalue, fun key' => ?_⟩
      rw [← AList.lookup_eq_none] at hkey
      split
      · rename_i heq
        rw [heq]
        exact hkey
      · rfl

/-- The value with one more custom attribute. -/
def withCustom (key : List UInt8) (value : CustomAttribute) : AttrValue → AttrValue
  | .custom map => .custom (emplace map (asLowerCaseString key) value)
  | _ => .custom (emplace ∅ (asLowerCaseString key) value)

theorem Inv.sets_setCustomAttribute (h : s.Inv) (key : List UInt8) (value : CustomAttribute) :
    ∃ v, Sets s (s.setCustomAttribute key value) ITEM_ATTRIBUTE_CUSTOM v ∧
      ∀ key', lookupIn (readCustom v) key' = if key' = asLowerCaseString key then some value
        else lookupIn (readCustom (s.valueOf ITEM_ATTRIBUTE_CUSTOM)) key' := by
  have hremoved : ∃ v, Sets s (if s.hasAttribute ITEM_ATTRIBUTE_CUSTOM then (s.removeCustomAttribute key).2 else s)
      ITEM_ATTRIBUTE_CUSTOM v ∧ ∀ key', lookupIn (readCustom v) key' = if key' = asLowerCaseString key then none
        else lookupIn (readCustom (s.valueOf ITEM_ATTRIBUTE_CUSTOM)) key' := by
    split
    · exact h.sets_removeCustomAttribute key
    · rename_i hno
      rw [h.hasAttribute_eq single_custom, Option.not_isSome_iff_eq_none] at hno
      refine ⟨none, h.sets_self hno, fun key' => ?_⟩
      rw [hno]
      split <;> rfl
  obtain ⟨v, hsets, hlookup⟩ := hremoved
  change ∃ v, Sets s (assign (if s.hasAttribute ITEM_ATTRIBUTE_CUSTOM then (s.removeCustomAttribute key).2 else s)
    ITEM_ATTRIBUTE_CUSTOM (withCustom key value)) ITEM_ATTRIBUTE_CUSTOM v ∧ _
  generalize (if s.hasAttribute ITEM_ATTRIBUTE_CUSTOM then (s.removeCustomAttribute key).2 else s) = s' at hsets ⊢
  have hv : s'.valueOf ITEM_ATTRIBUTE_CUSTOM = v := by rw [hsets.valueOf, if_pos rfl]
  -- The entry holds a map without the key, or there is no entry.
  have hmap : ∃ map : CustomAttributeMap, asLowerCaseString key ∉ map ∧
      (∀ key' ∈ map, asLowerCaseString key' = key') ∧ (∀ key', map.lookup key' = lookupIn (readCustom v) key') ∧
      (v = none ∧ map = ∅ ∨ v = some (.custom map)) := by
    have hnone := hlookup (asLowerCaseString key)
    rw [if_pos rfl] at hnone
    cases hread : v with
    | none => exact ⟨∅, by simp, by simp, fun _ => rfl, .inl ⟨rfl, rfl⟩⟩
    | some w =>
      have htyped := hsets.inv.wellTyped (hv.trans hread)
      cases w with
      | custom map =>
        rw [hread] at hnone
        exact ⟨map, AList.lookup_eq_none.mp hnone, htyped.2.2, fun _ => rfl, .inr rfl⟩
      | monostate => exact htyped.elim
      | int _ => exact absurd (show isIntAttrType ITEM_ATTRIBUTE_CUSTOM = true from htyped) (by decide)
      | str _ => exact absurd (show isStrAttrType ITEM_ATTRIBUTE_CUSTOM = true from htyped) (by decide)
  obtain ⟨map, hnew, hlower, hread, hcases⟩ := hmap
  have hplace : emplace map (asLowerCaseString key) value = map.insert (asLowerCaseString key) value := if_neg hnew
  have hset := hsets.inv.sets_assign (f := withCustom key value) single_custom
  rw [hv] at hset
  have hvalue : withCustom key value (v.getD .monostate) = .custom (map.insert (asLowerCaseString key) value) := by
    rcases hcases with ⟨rfl, rfl⟩ | rfl
    · exact congrArg AttrValue.custom hplace
    · exact congrArg AttrValue.custom hplace
  simp only [hvalue] at hset
  refine ⟨_, hsets.trans (hset ⟨rfl, ?_, fun key' hkey' => ?_⟩), fun key' => ?_⟩
  · rw [AList.entries_insert]
    exact List.cons_ne_nil _ _
  · rcases (AList.mem_insert _).mp hkey' with rfl | hold
    · exact asLowerCaseString_idem key
    · exact hlower key' hold
  · show (map.insert (asLowerCaseString key) value).lookup key' = _
    split
    · rename_i heq
      rw [heq, AList.lookup_insert]
    · rename_i hne
      rw [AList.lookup_insert_ne hne, hread, hlookup, if_neg hne]

end ItemAttributes

end ForgottenServer
