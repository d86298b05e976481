import ForgottenServer.Item.AttributeVector
import ForgottenServer.Lib.Runs

/-! # Attributes over whole runs

Every run of the setters keeps the invariant of `ItemAttributes`, and the getters return what
was set last. -/

open Flags

namespace ForgottenServer

namespace ItemAttributes

/-! ## What was set last -/

/-- What a reader expects after some calls. -/
structure Values where
  ints : AttrType → ℤ := fun _ => 0
  strs : AttrType → List UInt8 := fun _ => []
  custom : List UInt8 → Option CustomAttribute := fun _ => none

namespace Values

variable (m : Values)

/-- An attack speed is at least 100, and only an integer attribute is set. -/
def setInt (type : AttrType) (n : ℤ) : Values :=
  if isIntAttrType type then
    { m with ints := Function.update m.ints type (if type = ITEM_ATTRIBUTE_ATTACK_SPEED then max 100 n else n) }
  else m

/-- An empty string is not set. -/
def setStr (type : AttrType) (value : List UInt8) : Values :=
  if isStrAttrType type ∧ value ≠ [] then { m with strs := Function.update m.strs type value } else m

def after : Call → Values
  | .setStrAttr type value => m.setStr type value
  | .setIntAttr type value => m.setInt type value.toInt
  | .increaseIntAttr type value => m.setInt type (m.ints type + value.toInt)
  | .removeAttribute type =>
    { ints := Function.update m.ints type 0
      strs := Function.update m.strs type []
      custom := if type = ITEM_ATTRIBUTE_CUSTOM then fun _ => none else m.custom }
  | .setCustomAttribute key value => { m with custom := Function.update m.custom (asLowerCaseString key) (some value) }
  | .removeCustomAttribute key => { m with custom := Function.update m.custom (asLowerCaseString key) none }

/-- The types are single bits, and no sum overflows. -/
def Allowed : Call → Prop
  | .setStrAttr type _ | .setIntAttr type _ | .removeAttribute type => Single type
  | .increaseIntAttr type value => Single type ∧ (isIntAttrType type = true →
      -2 ^ 63 ≤ m.ints type + value.toInt ∧ m.ints type + value.toInt < 2 ^ 63)
  | .setCustomAttribute _ _ | .removeCustomAttribute _ => True

end Values

/-- The getters return the values of `m`. -/
structure Reads (s : ItemAttributes) (m : Values) : Prop where
  ints : ∀ t, Single t → ∃ v, s.getIntAttr t = some v ∧ v.toInt = m.ints t
  strs : ∀ t, Single t → s.getStrAttr t = some (m.strs t)
  custom : ∀ key, s.getCustomAttribute key = m.custom (asLowerCaseString key)

namespace Call

/-- The attribute that a call is about. -/
def about : Call → AttrType
  | .setStrAttr type _ | .setIntAttr type _ | .increaseIntAttr type _ | .removeAttribute type => type
  | .setCustomAttribute _ _ | .removeCustomAttribute _ => ITEM_ATTRIBUTE_CUSTOM

/-- The call is about the custom attribute `key`. -/
def Touches (key : List UInt8) : Call → Prop
  | .setCustomAttribute key' _ | .removeCustomAttribute key' => asLowerCaseString key = asLowerCaseString key'
  | .removeAttribute type => type = ITEM_ATTRIBUTE_CUSTOM
  | _ => False

end Call

/-- Every other attribute and custom key is as it was. -/
structure Frame (c : Call) (s s' : ItemAttributes) : Prop where
  attr : ∀ t, Single t → t ≠ c.about → s'.hasAttribute t = s.hasAttribute t ∧
    s'.getIntAttr t = s.getIntAttr t ∧ s'.getStrAttr t = s.getStrAttr t
  custom : ∀ key, ¬c.Touches key → s'.getCustomAttribute key = s.getCustomAttribute key
  reflect : s'.reflect = s.reflect
  boostPercent : s'.boostPercent = s.boostPercent

variable {s s' : ItemAttributes} {type : AttrType} {m m' : Values} {v : Option AttrValue}

theorem Sets.frame (h : s.Inv) (hsets : Sets s s' type v) {c : Call} (habout : c.about = type)
    (hcustom : ∀ key, ¬c.Touches key → s'.getCustomAttribute key = s.getCustomAttribute key) : Frame c s s' := by
  refine ⟨fun t ht hne => ?_, hcustom, hsets.reflect, hsets.boostPercent⟩
  have hsame : s'.valueOf t = s.valueOf t := by rw [hsets.valueOf, if_neg (by rwa [← habout])]
  refine ⟨?_, ?_, ?_⟩
  · rw [hsets.inv.hasAttribute_eq ht, h.hasAttribute_eq ht, hsame]
  · rw [hsets.inv.getIntAttr_eq ht, h.getIntAttr_eq ht, hsame]
  · rw [hsets.inv.getStrAttr_eq ht, h.getStrAttr_eq ht, hsame]

/-- A type that is not the one of the custom attributes. -/
theorem Sets.getCustomAttribute_eq (h : s.Inv) (hsets : Sets s s' type v) (hne : type ≠ ITEM_ATTRIBUTE_CUSTOM)
    (key : List UInt8) : s'.getCustomAttribute key = s.getCustomAttribute key := by
  rw [hsets.inv.getCustomAttribute_eq, h.getCustomAttribute_eq, hsets.valueOf, if_neg (Ne.symm hne)]

theorem Sets.reads (h : s.Inv) (hr : Reads s m) (hsets : Sets s s' type v)
    (hints : ∀ t ≠ type, m'.ints t = m.ints t) (hstrs : ∀ t ≠ type, m'.strs t = m.strs t)
    (hint : ∃ w, (if isIntAttrType type then readInt v else some 0) = some w ∧ w.toInt = m'.ints type)
    (hstr : (if isStrAttrType type then readStr v else some []) = some (m'.strs type))
    (hcustom : ∀ key, s'.getCustomAttribute key = m'.custom (asLowerCaseString key)) : Reads s' m' := by
  refine ⟨fun t ht => ?_, fun t ht => ?_, hcustom⟩
  · rw [hsets.inv.getIntAttr_eq ht, hsets.valueOf]
    by_cases heq : t = type
    · subst heq
      simpa using hint
    · rw [if_neg heq, hints t heq, ← h.getIntAttr_eq ht]
      exact hr.ints t ht
  · rw [hsets.inv.getStrAttr_eq ht, hsets.valueOf]
    by_cases heq : t = type
    · subst heq
      simpa using hstr
    · rw [if_neg heq, hstrs t heq, ← h.getStrAttr_eq ht]
      exact hr.strs t ht

/-- The integer that is set is the one that is expected, whatever the type. -/
theorem perform_setInt (h : s.Inv) (hr : Reads s m) (ht : Single type) {value : BitVec 64} {n : ℤ}
    (hn : isIntAttrType type = true → value.toInt = n) :
    ∃ v, Sets s (s.setIntAttr type value) type v ∧ Reads (s.setIntAttr type value) (m.setInt type n) := by
  cases hint : isIntAttrType type with
  | false =>
    have hsame : s.setIntAttr type value = s := by rw [setIntAttr, hint]; rfl
    rw [hsame, Values.setInt, hint]
    exact ⟨_, h.sets_self rfl, hr⟩
  | true =>
    have hsets := h.sets_setIntAttr ht hint value
    have hcustom : type ≠ ITEM_ATTRIBUTE_CUSTOM := by
      rintro rfl
      exact absurd hint (by decide)
    have hslow : value.slt 100 = true ↔ n < 100 := by
      rw [BitVec.slt_iff_toInt_lt, hn hint]
      rfl
    refine ⟨_, hsets, hsets.reads h hr (fun t hne => ?_) (fun t _ => ?_) ?_ ?_ fun key => ?_⟩
    · rw [Values.setInt, hint]
      exact Function.update_of_ne hne _ _
    · rw [Values.setInt, hint]
      rfl
    · rw [Values.setInt, hint]
      refine ⟨_, rfl, ?_⟩
      simp only [if_true, Function.update_self, hslow]
      by_cases hspeed : type = ITEM_ATTRIBUTE_ATTACK_SPEED
      · by_cases hlow : n < 100
        · have hleast : (100 : BitVec 64).toInt = 100 := rfl
          rw [if_pos ⟨hspeed, hlow⟩, if_pos hspeed, hleast]
          omega
        · rw [if_neg (fun hboth => hlow hboth.2), if_pos hspeed, hn hint]
          omega
      · rw [if_neg (fun hboth => hspeed hboth.1), if_neg hspeed, hn hint]
    · have hstrs := hr.strs type ht
      rw [h.getStrAttr_eq ht, not_isStrAttrType_of_int ht hint] at hstrs
      rw [not_isStrAttrType_of_int ht hint, Values.setInt, hint]
      exact hstrs
    · rw [hsets.getCustomAttribute_eq h hcustom, hr.custom, Values.setInt, hint]
      rfl

theorem perform_setStr (h : s.Inv) (hr : Reads s m) (ht : Single type) (value : List UInt8) :
    ∃ v, Sets s (s.setStrAttr type value) type v ∧ Reads (s.setStrAttr type value) (m.setStr type value) := by
  by_cases hset : isStrAttrType type = true ∧ value ≠ []
  · have hsets := h.sets_setStrAttr ht hset.1 hset.2
    have hcustom : type ≠ ITEM_ATTRIBUTE_CUSTOM := by
      rintro rfl
      exact absurd hset.1 (by decide)
    have hint : isIntAttrType type = false := by
      by_contra hint
      exact absurd (not_isStrAttrType_of_int ht (by simpa using hint)) (by simp [hset.1])
    refine ⟨_, hsets, hsets.reads h hr (fun t _ => ?_) (fun t hne => ?_) ?_ ?_ fun key => ?_⟩
    · rw [Values.setStr, if_pos hset]
    · rw [Values.setStr, if_pos hset]
      exact Function.update_of_ne hne _ _
    · have hints := hr.ints type ht
      rw [h.getIntAttr_eq ht, hint] at hints
      rw [hint, Values.setStr, if_pos hset]
      exact hints
    · rw [hset.1, Values.setStr, if_pos hset]
      simp [readStr]
    · rw [hsets.getCustomAttribute_eq h hcustom, hr.custom, Values.setStr, if_pos hset]
  · have hsame : s.setStrAttr type value = s := by
      rw [setStrAttr]
      by_cases hstr : isStrAttrType type = true
      · have hempty : value = [] := by
          by_contra hne
          exact hset ⟨hstr, hne⟩
        simp [hstr, hempty]
      · simp [hstr]
    rw [hsame, Values.setStr, if_neg hset]
    exact ⟨_, h.sets_self rfl, hr⟩

theorem perform_remove (h : s.Inv) (hr : Reads s m) (ht : Single type) :
    Reads (s.removeAttribute type) (m.after (.removeAttribute type)) := by
  have hsets := h.sets_removeAttribute ht
  refine hsets.reads h hr (fun t hne => Function.update_of_ne hne _ _) (fun t hne => Function.update_of_ne hne _ _)
    ⟨0, ?_, ?_⟩ ?_ fun key => ?_
  · split <;> rfl
  · simp [Values.after]
  · simp only [Values.after, Function.update_self]
    split <;> rfl
  · by_cases hcustom : type = ITEM_ATTRIBUTE_CUSTOM
    · rw [hsets.inv.getCustomAttribute_eq, hsets.valueOf, if_pos hcustom.symm, Values.after, if_pos hcustom]
      rfl
    · rw [hsets.getCustomAttribute_eq h hcustom, hr.custom, Values.after, if_neg hcustom]

/-- The custom attributes are set to `v`, in which one key has changed. -/
theorem perform_custom (h : s.Inv) (hr : Reads s m) (hsets : Sets s s' ITEM_ATTRIBUTE_CUSTOM v) {key : List UInt8}
    {new : Option CustomAttribute} (hlookup : ∀ key', lookupIn (readCustom v) key' =
      if key' = asLowerCaseString key then new else lookupIn (readCustom (s.valueOf ITEM_ATTRIBUTE_CUSTOM)) key') :
    Reads s' { m with custom := Function.update m.custom (asLowerCaseString key) new } ∧
      ∀ key', asLowerCaseString key' ≠ asLowerCaseString key → s'.getCustomAttribute key' = s.getCustomAttribute key' := by
  have hget : ∀ key', s'.getCustomAttribute key' =
      if asLowerCaseString key' = asLowerCaseString key then new else s.getCustomAttribute key' := by
    intro key'
    rw [hsets.inv.getCustomAttribute_eq, hsets.valueOf, if_pos rfl, hlookup, ← h.getCustomAttribute_eq]
  refine ⟨hsets.reads h hr (fun _ _ => rfl) (fun _ _ => rfl) ?_ ?_ fun key' => ?_, fun key' hne => ?_⟩
  · have hints := hr.ints _ single_custom
    rwa [h.getIntAttr_eq single_custom] at hints
  · have hstrs := hr.strs _ single_custom
    rwa [h.getStrAttr_eq single_custom] at hstrs
  · rw [hget]
    split
    · rename_i heq
      rw [heq]
      show new = Function.update m.custom (asLowerCaseString key) new (asLowerCaseString key)
      rw [Function.update_self]
    · rename_i hne
      exact (hr.custom key').trans (Function.update_of_ne hne _ _).symm
  · rw [hget, if_neg hne]

theorem toInt_add_of_fits {a b : BitVec 64} (h : -2 ^ 63 ≤ a.toInt + b.toInt ∧ a.toInt + b.toInt < 2 ^ 63) :
    (a + b).toInt = a.toInt + b.toInt := by
  rw [BitVec.toInt_add]
  exact Int.bmod_eq_of_le (by omega) (by omega)

@[simp] theorem Values.custom_setInt (m : Values) (type : AttrType) (n : ℤ) : (m.setInt type n).custom = m.custom := by
  rw [setInt]
  split <;> rfl

@[simp] theorem Values.custom_setStr (m : Values) (type : AttrType) (value : List UInt8) :
    (m.setStr type value).custom = m.custom := by
  rw [setStr]
  split <;> rfl

/-- A call that the reader sees no change of the custom attributes of. -/
theorem Reads.getCustomAttribute_eq (hr : Reads s m) (hr' : Reads s' m') (hsame : m'.custom = m.custom)
    (key : List UInt8) : s'.getCustomAttribute key = s.getCustomAttribute key := by
  rw [hr'.custom, hr.custom, hsame]

/-- One call. -/
theorem perform_spec (h : s.Inv) (hr : Reads s m) (c : Call) (hc : m.Allowed c) :
    ∃ s', s.perform c = some s' ∧ s'.Inv ∧ Reads s' (m.after c) ∧ Frame c s s' := by
  cases c with
  | setStrAttr type value =>
    obtain ⟨v, hsets, hreads⟩ := perform_setStr h hr hc value
    have hcustom := hr.getCustomAttribute_eq hreads (Values.custom_setStr _ _ _)
    exact ⟨_, rfl, hsets.inv, hreads, hsets.frame h rfl fun key _ => hcustom key⟩
  | setIntAttr type value =>
    obtain ⟨v, hsets, hreads⟩ := perform_setInt h hr hc (fun _ => rfl)
    have hcustom := hr.getCustomAttribute_eq hreads (Values.custom_setInt _ _ _)
    exact ⟨_, rfl, hsets.inv, hreads, hsets.frame h rfl fun key _ => hcustom key⟩
  | increaseIntAttr type value =>
    obtain ⟨ht, hfits⟩ := hc
    obtain ⟨old, hold, hvalue⟩ := hr.ints type ht
    have hsum : isIntAttrType type = true → (old + value).toInt = m.ints type + value.toInt := by
      intro hint
      rw [← hvalue] at hfits ⊢
      exact toInt_add_of_fits (hfits hint)
    obtain ⟨v, hsets, hreads⟩ := perform_setInt h hr ht hsum
    have hcustom := hr.getCustomAttribute_eq hreads (Values.custom_setInt _ _ _)
    refine ⟨_, ?_, hsets.inv, hreads, hsets.frame h rfl fun key _ => hcustom key⟩
    rw [perform, increaseIntAttr, hold]
    rfl
  | removeAttribute type =>
    have hsets := h.sets_removeAttribute hc
    refine ⟨_, rfl, hsets.inv, perform_remove h hr hc, hsets.frame h rfl fun key hno => ?_⟩
    exact hsets.getCustomAttribute_eq h hno key
  | setCustomAttribute key value =>
    obtain ⟨v, hsets, hlookup⟩ := h.sets_setCustomAttribute key value
    obtain ⟨hreads, hothers⟩ := perform_custom h hr hsets hlookup
    exact ⟨_, rfl, hsets.inv, hreads, hsets.frame h rfl hothers⟩
  | removeCustomAttribute key =>
    obtain ⟨v, hsets, hlookup⟩ := h.sets_removeCustomAttribute key
    obtain ⟨hreads, hothers⟩ := perform_custom h hr hsets hlookup
    exact ⟨_, rfl, hsets.inv, hreads, hsets.frame h rfl hothers⟩

theorem reads_empty : Reads {} {} := by
  have hnone : ∀ t, ({} : ItemAttributes).valueOf t = none := fun _ => rfl
  refine ⟨fun t ht => ⟨0, ?_, rfl⟩, fun t ht => ?_, fun key => ?_⟩
  · rw [inv_empty.getIntAttr_eq ht, hnone]
    split <;> rfl
  · rw [inv_empty.getStrAttr_eq ht, hnone]
    split <;> rfl
  · rw [inv_empty.getCustomAttribute_eq, hnone]
    rfl

/-- A run of allowed calls throws nowhere. -/
theorem runs_spec (calls : List Call) : ∀ {s m}, s.Inv → Reads s m → Runs.Along Values.after Values.Allowed m calls →
    ∃ s', calls.foldlM perform s = some s' ∧ s'.Inv ∧ Reads s' (calls.foldl Values.after m) := by
  induction calls with
  | nil => exact fun h hr _ => ⟨_, rfl, h, hr⟩
  | cons c calls ih =>
    intro s m h hr ⟨hc, hrest⟩
    obtain ⟨s', hperform, h', hr', -⟩ := perform_spec h hr c hc
    obtain ⟨s'', hrun, h'', hr''⟩ := ih h' hr' hrest
    refine ⟨s'', ?_, h'', hr''⟩
    rw [List.foldlM_cons, hperform]
    exact hrun

/-- The invariant holds after every run, the getters return what was set last, and every
further call leaves the other attributes as they are. -/
theorem runs_from_empty (calls : List Call) (h : Runs.Along Values.after Values.Allowed {} calls) :
    ∃ s, calls.foldlM perform {} = some s ∧ s.Inv ∧ Reads s (calls.foldl Values.after {}) ∧
      ∀ c, (calls.foldl Values.after {}).Allowed c → ∃ s', s.perform c = some s' ∧ Frame c s s' := by
  obtain ⟨s, hrun, hinv, hreads⟩ := runs_spec calls inv_empty reads_empty h
  refine ⟨s, hrun, hinv, hreads, fun c hc => ?_⟩
  obtain ⟨s', hperform, -, -, hframe⟩ := perform_spec hinv hreads c hc
  exact ⟨s', hperform, hframe⟩

/-- The attack speed is raised to 100, and the key is replaced in another letter case. -/
def bladeCalls : List Call :=
  [.setIntAttr ITEM_ATTRIBUTE_ATTACK_SPEED 40, .setStrAttr ITEM_ATTRIBUTE_TEXT [104, 105],
    .increaseIntAttr ITEM_ATTRIBUTE_CHARGES 3, .setCustomAttribute [75, 101, 121] (.int 1),
    .setCustomAttribute [107, 69, 89] (.int 2), .removeAttribute ITEM_ATTRIBUTE_ATTACK_SPEED]

theorem runs_from_empty_blade : ∃ s, bladeCalls.foldlM perform {} = some s ∧ s.Inv ∧
    Reads s (bladeCalls.foldl Values.after {}) ∧ ∀ c, (bladeCalls.foldl Values.after {}).Allowed c →
      ∃ s', s.perform c = some s' ∧ Frame c s s' := by
  refine runs_from_empty bladeCalls ⟨?_, ?_, ⟨?_, fun _ => ?_⟩, trivial, trivial, ?_, trivial⟩
  · exact ⟨26, by decide, by decide⟩
  · exact ⟨3, by decide, by decide⟩
  · exact ⟨20, by decide, by decide⟩
  · decide
  · exact ⟨26, by decide, by decide⟩

end ItemAttributes

end ForgottenServer
