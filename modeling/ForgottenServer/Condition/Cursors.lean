import ForgottenServer.Condition.RoundTrip

/-! # The cursors of `ConditionAttributes`

Every value of an array is read under the tag of the array into the place where a cursor stands, and moves the cursor
on. Here a load keeps the places that it uses, in and out of the arrays. -/

open Reader LittleEndian

namespace ForgottenServer.Condition

/-- The arrays that are read one value after another. -/
inductive Member where
  | skills
  | specialSkills
  | stats
  | experienceRate
  deriving DecidableEq, Repr

namespace Member

def all : List Member := [skills, specialSkills, stats, experienceRate]

def size : Member → Nat
  | skills => skillCount
  | specialSkills => specialSkillCount
  | stats => statCount
  | experienceRate => experienceRateCount

def tag : Member → UInt8
  | skills => CONDITIONATTR_SKILLS
  | specialSkills => CONDITIONATTR_SPECIALSKILLS
  | stats => CONDITIONATTR_STATS
  | experienceRate => CONDITIONATTR_EXPERIENCERATE

end Member

def Attributes.cursor (a : Attributes) : Member → Nat
  | .skills => a.currentSkill
  | .specialSkills => a.currentSpecialSkill
  | .stats => a.currentStat
  | .experienceRate => a.currentExperienceRate

/-- A condition that is being loaded, and the places that were used. -/
structure Loading where
  condition : Condition
  used : List (Member × Nat) := []

def onCondition {α : Type} (m : Reader Condition α) : Reader Loading α where
  run l i := ((m.run l.condition i).1, { l with condition := (m.run l.condition i).2.1 }, (m.run l.condition i).2.2)
  short l i := m.short l.condition i

/-- `propStream.read<int32_t>(array[current++])`: the cursor moves before the stream is asked. `next` is the object
after the move. A value for a place outside the array goes nowhere. -/
def readElement {n : Nat} (member : Member) (array : Vector (BitVec 32) n) (current : Nat) (next : Attributes)
    (set : Vector (BitVec 32) n → Attributes) : Reader Loading Unit := do
  modify fun l =>
    { condition := { l.condition with kind := .attributes next }, used := l.used ++ [(member, current)] }
  let v ← readBits 32
  modify fun l =>
    if h : current < n then { l with condition := { l.condition with kind := .attributes (set (array.set current v h)) } }
    else l

/-- `ConditionAttributes::unserializeProp`. -/
def unserializeAttributesProp (a : Attributes) (attr : UInt8) : Reader Loading Unit :=
  if attr = CONDITIONATTR_SKILLS then
    let next := { a with currentSkill := a.currentSkill + 1 }
    readElement .skills a.skills a.currentSkill next fun v => { next with skills := v }
  else if attr = CONDITIONATTR_SPECIALSKILLS then
    let next := { a with currentSpecialSkill := a.currentSpecialSkill + 1 }
    readElement .specialSkills a.specialSkills a.currentSpecialSkill next fun v => { next with specialSkills := v }
  else if attr = CONDITIONATTR_STATS then
    let next := { a with currentStat := a.currentStat + 1 }
    readElement .stats a.stats a.currentStat next fun v => { next with stats := v }
  else if attr = CONDITIONATTR_EXPERIENCERATE then
    let next := { a with currentExperienceRate := a.currentExperienceRate + 1 }
    readElement .experienceRate a.experienceRate a.currentExperienceRate next fun v => { next with experienceRate := v }
  else if attr = CONDITIONATTR_DISABLEDEFENSE then do
    let v ← readFlag
    modify fun l => { l with condition := { l.condition with kind := .attributes { a with disableDefense := v } } }
  else onCondition (unserializeBaseProp attr)

/-- The call of `unserializeProp`, which the class of the object chooses. -/
def readAttribute (attr : UInt8) : Reader Loading Unit :=
  inspect fun l => match l.condition.kind with
    | .attributes a => unserializeAttributesProp a attr
    | _ => onCondition (unserializeBaseProp attr)

/-- `Condition::unserialize` on a `ConditionAttributes`. -/
def unserializeAttributes : Reader Loading Unit := tagged CONDITIONATTR_END readAttribute

/-- The places that a load uses. -/
def placesUsed (c : Condition) (bytes : List UInt8) : List (Member × Nat) :=
  (unserializeAttributes.run { condition := c } bytes).2.1.used

/-- A new object of the class: the arrays are zero and the cursors at their starts. -/
def newAttributes (c : Condition) : Condition := { c with kind := Class.attributes.construct 0 }

def InBounds (c : Condition) (bytes : List UInt8) : Prop :=
  ∀ u ∈ placesUsed (newAttributes c) bytes, u.2 < u.1.size

/-! ## The tags of a stream -/

/-- The width of the value behind a tag. -/
def width (attr : UInt8) : Option Nat :=
  if attr ∈ [CONDITIONATTR_SKILLS, CONDITIONATTR_SPECIALSKILLS, CONDITIONATTR_STATS, CONDITIONATTR_EXPERIENCERATE,
      CONDITIONATTR_TYPE, CONDITIONATTR_ID, CONDITIONATTR_TICKS, CONDITIONATTR_SUBID] then some 4
  else if attr ∈ [CONDITIONATTR_TYPE64, CONDITIONATTR_ENDTIME] then some 8
  else if attr ∈ [CONDITIONATTR_DISABLEDEFENSE, CONDITIONATTR_ISBUFF, CONDITIONATTR_ISAGGRESSIVE,
      CONDITIONATTR_CONSTANT] then some 1
  else none

/-- The tags that stand in a stream before the one that ends it, up to the first without a whole value. -/
def tagsLoop : Nat → List UInt8 → List UInt8
  | 0, _ => []
  | _ + 1, [] => []
  | fuel + 1, tag :: i =>
    if tag = CONDITIONATTR_END then []
    else tag :: match width tag with
      | none => []
      | some n => if i.length < n then [] else tagsLoop fuel (i.drop n)

def tags (bytes : List UInt8) : List UInt8 := tagsLoop bytes.length bytes

/-! ## One tag -/

section Runs

variable {σ α β : Type}

theorem run_bind (m : Reader σ α) (f : α → Reader σ β) (s : σ) (i : List UInt8) :
    (m >>= f).run s i = match m.run s i with
      | (some a, s', i') => (f a).run s' i'
      | (none, s', i') => (none, s', i') := rfl

theorem run_readBits (w : Nat) (s : σ) (i : List UInt8) :
    (readBits w : Reader σ (BitVec w)).run s i =
      if i.length < w / 8 then (none, s, i)
      else (some (BitVec.ofNat w (leNat (i.take (w / 8)))), s, i.drop (w / 8)) := by
  unfold readBits
  rw [run_bind]
  by_cases hi : i.length < w / 8
  · simp only [take, if_pos hi]
  · simp only [take, if_neg hi]
    rfl

end Runs

/-- `m` takes `n` bytes, or none and fails where there are fewer; the object is then as `P` says. -/
def Eats {σ : Type} (m : Reader σ Unit) (n : Nat) (s : σ) (P : σ → Prop) : Prop :=
  ∀ i, (i.length < n → ∃ s', m.run s i = (none, s', i) ∧ P s') ∧
    (n ≤ i.length → ∃ s', m.run s i = (some (), s', i.drop n) ∧ P s')

theorem eats_readBits {σ : Type} (w : Nat) (f : BitVec w → σ → σ) {s : σ} {P : σ → Prop} (hs : P s)
    (hf : ∀ v, P (f v s)) : Eats (do let v ← readBits w; modify (f v)) (w / 8) s P := by
  intro i
  rw [run_bind, run_readBits]
  refine ⟨fun hi => ⟨s, by rw [if_pos hi], hs⟩, fun hi => ?_⟩
  rw [if_neg (by omega)]
  exact ⟨_, rfl, hf _⟩

theorem eats_readFlag {σ : Type} (f : Bool → σ → σ) {s : σ} {P : σ → Prop} (hs : P s) (hf : ∀ v, P (f v s)) :
    Eats (do let v ← readFlag; modify (f v)) 1 s P := by
  intro i
  unfold readFlag
  rw [run_bind, run_bind, run_readBits]
  refine ⟨fun hi => ⟨s, by rw [if_pos hi], hs⟩, fun hi => ?_⟩
  rw [if_neg (by omega)]
  exact ⟨_, rfl, hf _⟩

theorem Eats.onCondition {m : Reader Condition Unit} {n : Nat} {l : Loading} {P : Condition → Prop}
    (h : Eats m n l.condition P) : Eats (onCondition m) n l fun l' => P l'.condition ∧ l'.used = l.used := by
  intro i
  obtain ⟨hshort, hlong⟩ := h i
  refine ⟨fun hi => ?_, fun hi => ?_⟩
  · obtain ⟨c', hrun, hc'⟩ := hshort hi
    refine ⟨{ l with condition := c' }, ?_, hc', rfl⟩
    simp only [Condition.onCondition, hrun]
  · obtain ⟨c', hrun, hc'⟩ := hlong hi
    refine ⟨{ l with condition := c' }, ?_, hc', rfl⟩
    simp only [Condition.onCondition, hrun]

theorem Eats.ite {σ : Type} {p : Prop} [Decidable p] {m m' : Reader σ Unit} {n : Nat} {s : σ} {P : σ → Prop}
    (hthen : p → Eats m n s P) (helse : ¬ p → Eats m' n s P) : Eats (if p then m else m') n s P := by
  split
  · exact hthen ‹_›
  · exact helse ‹_›

theorem run_ite {σ α : Type} {p : Prop} [Decidable p] {m m' : Reader σ α} {s : σ} {i : List UInt8}
    {r : Option α × σ × List UInt8} (hthen : p → m.run s i = r) (helse : ¬ p → m'.run s i = r) :
    (if p then m else m').run s i = r := by
  split
  · exact hthen ‹_›
  · exact helse ‹_›

/-- A tag with a value is one of the tags that are compared. -/
theorem mem_of_width {attr : UInt8} {n : Nat} (hn : width attr = some n) :
    attr ∈ [CONDITIONATTR_SKILLS, CONDITIONATTR_SPECIALSKILLS, CONDITIONATTR_STATS, CONDITIONATTR_EXPERIENCERATE,
      CONDITIONATTR_TYPE, CONDITIONATTR_ID, CONDITIONATTR_TICKS, CONDITIONATTR_SUBID, CONDITIONATTR_TYPE64,
      CONDITIONATTR_ENDTIME, CONDITIONATTR_DISABLEDEFENSE, CONDITIONATTR_ISBUFF, CONDITIONATTR_ISAGGRESSIVE,
      CONDITIONATTR_CONSTANT] := by
  unfold width at hn
  split at hn
  · rename_i h
    exact List.mem_append_left [_, _, _, _, _, _] h
  split at hn
  · rename_i h
    exact List.mem_append_right [_, _, _, _, _, _, _, _] (List.mem_append_left [_, _, _, _] h)
  split at hn
  · rename_i h
    exact List.mem_append_right [_, _, _, _, _, _, _, _, _, _] h
  · cases hn

/-- The base class reads its own members only. -/
theorem eats_unserializeBaseProp {attr : UInt8} {n : Nat} (hn : width attr = some n)
    (hattr : ∀ m : Member, attr ≠ m.tag) (hdefense : attr ≠ CONDITIONATTR_DISABLEDEFENSE) (c : Condition) :
    Eats (unserializeBaseProp attr) n c fun c' => c'.kind = c.kind := by
  have hmem := mem_of_width hn
  unfold unserializeBaseProp
  refine .ite (fun h => ?_) fun htype => ?_
  · subst h; cases hn; exact eats_readBits _ _ rfl fun _ => rfl
  refine .ite (fun h => ?_) fun htype64 => ?_
  · subst h; cases hn; exact eats_readBits _ _ rfl fun _ => rfl
  refine .ite (fun h => ?_) fun hid => ?_
  · subst h; cases hn; exact eats_readBits _ _ rfl fun _ => rfl
  refine .ite (fun h => ?_) fun hticks => ?_
  · subst h; cases hn; exact eats_readBits _ _ rfl fun _ => rfl
  refine .ite (fun h => ?_) fun hbuff => ?_
  · subst h; cases hn; exact eats_readFlag _ rfl fun _ => rfl
  refine .ite (fun h => ?_) fun hsub => ?_
  · subst h; cases hn; exact eats_readBits _ _ rfl fun _ => rfl
  refine .ite (fun h => ?_) fun haggressive => ?_
  · subst h; cases hn; exact eats_readFlag _ rfl fun _ => rfl
  refine .ite (fun h => ?_) fun hconstant => ?_
  · subst h; cases hn; exact eats_readFlag _ rfl fun _ => rfl
  refine .ite (fun h => ?_) fun htime => ?_
  · subst h; cases hn; exact eats_readBits _ _ rfl fun _ => rfl
  have hskills : attr ≠ CONDITIONATTR_SKILLS := hattr .skills
  have hspecial : attr ≠ CONDITIONATTR_SPECIALSKILLS := hattr .specialSkills
  have hstats : attr ≠ CONDITIONATTR_STATS := hattr .stats
  have hrate : attr ≠ CONDITIONATTR_EXPERIENCERATE := hattr .experienceRate
  simp only [List.mem_cons, List.not_mem_nil, or_false] at hmem
  tauto

theorem fails_unserializeBaseProp {attr : UInt8} (hattr : width attr = none) (hend : attr ≠ CONDITIONATTR_END)
    (c : Condition) (i : List UInt8) : (unserializeBaseProp attr).run c i = (none, c, i) := by
  unfold unserializeBaseProp
  iterate 9 refine run_ite (fun h => by subst h; cases hattr) fun _ => ?_
  rw [if_neg hend]
  rfl

/-- What is used under a tag. -/
def usedUnder (a : Attributes) (tag : UInt8) : List (Member × Nat) :=
  (Member.all.filter (·.tag = tag)).map fun m => (m, a.cursor m)

/-- What reading a tag makes of the cursors and of the places used. -/
structure Moves (a : Attributes) (tag : UInt8) (l l' : Loading) : Prop where
  kind : ∃ a', l'.condition.kind = .attributes a' ∧ ∀ m, a'.cursor m = a.cursor m + if tag = m.tag then 1 else 0
  used : l'.used = l.used ++ usedUnder a tag

theorem Eats.mono {σ : Type} {m : Reader σ Unit} {n : Nat} {s : σ} {P Q : σ → Prop} (h : Eats m n s P)
    (hPQ : ∀ s', P s' → Q s') : Eats m n s Q := by
  intro i
  obtain ⟨hshort, hlong⟩ := h i
  refine ⟨fun hi => ?_, fun hi => ?_⟩
  · obtain ⟨s', hrun, hs'⟩ := hshort hi
    exact ⟨s', hrun, hPQ s' hs'⟩
  · obtain ⟨s', hrun, hs'⟩ := hlong hi
    exact ⟨s', hrun, hPQ s' hs'⟩

/-- An element is read at the cursor of its array, which no value that is stored moves again. -/
theorem eats_readElement {n : Nat} (member : Member) {a next : Attributes} (array : Vector (BitVec 32) n)
    {set : Vector (BitVec 32) n → Attributes} (l : Loading)
    (hnext : ∀ m, next.cursor m = a.cursor m + if member.tag = m.tag then 1 else 0)
    (hset : ∀ v m, (set v).cursor m = next.cursor m)
    (hused : usedUnder a member.tag = [(member, a.cursor member)]) :
    Eats (readElement member array (a.cursor member) next set) 4 l (Moves a member.tag l) := by
  intro i
  unfold readElement
  rw [run_bind]
  refine eats_readBits 32 _ ⟨⟨next, rfl, hnext⟩, by rw [hused]⟩ (fun v => ?_) i
  split
  · exact ⟨⟨_, rfl, fun m => (hset _ m).trans (hnext m)⟩, by rw [hused]⟩
  · exact ⟨⟨next, rfl, hnext⟩, by rw [hused]⟩

theorem eats_unserializeAttributesProp (a : Attributes) {attr : UInt8} {n : Nat} (hn : width attr = some n)
    {l : Loading} (hkind : l.condition.kind = .attributes a) :
    Eats (unserializeAttributesProp a attr) n l (Moves a attr l) := by
  unfold unserializeAttributesProp
  split_ifs with hskills hspecial hstats hrate hdefense
  · subst hskills
    cases hn
    exact eats_readElement .skills _ l (by intro m; cases m <;> rfl) (by intro v m; rfl) rfl
  · subst hspecial
    cases hn
    exact eats_readElement .specialSkills _ l (by intro m; cases m <;> rfl)
      (by intro v m; rfl) rfl
  · subst hstats
    cases hn
    exact eats_readElement .stats _ l (by intro m; cases m <;> rfl) (by intro v m; rfl) rfl
  · subst hrate
    cases hn
    exact eats_readElement .experienceRate _ l (by intro m; cases m <;> rfl)
      (by intro v m; rfl) rfl
  · subst hdefense
    cases hn
    have hsame : ∀ m : Member, a.cursor m = a.cursor m + if CONDITIONATTR_DISABLEDEFENSE = m.tag then 1 else 0 := by
      intro m
      cases m <;> rfl
    exact eats_readFlag _ ⟨⟨a, hkind, hsame⟩, (List.append_nil _).symm⟩
      fun v => ⟨⟨_, rfl, by intro m; cases m <;> rfl⟩, (List.append_nil _).symm⟩
  · have hattr : ∀ m : Member, attr ≠ m.tag := by
      intro m
      cases m <;> assumption
    have hnone : usedUnder a attr = [] := by
      simp [usedUnder, Member.all, fun m => Ne.symm (hattr m)]
    refine (eats_unserializeBaseProp hn hattr hdefense l.condition).onCondition.mono ?_
    intro l' hl'
    refine ⟨⟨a, hl'.1.trans hkind, fun m => by rw [if_neg (hattr m), Nat.add_zero]⟩, ?_⟩
    rw [hl'.2, hnone, List.append_nil]

theorem fails_unserializeAttributesProp (a : Attributes) {attr : UInt8} (hattr : width attr = none)
    (hend : attr ≠ CONDITIONATTR_END) (l : Loading) (i : List UInt8) :
    (unserializeAttributesProp a attr).run l i = (none, l, i) := by
  unfold unserializeAttributesProp
  split_ifs with h h h h h
  all_goals first
    | subst h; cases hattr
    | simp only [onCondition, fails_unserializeBaseProp hattr hend]

/-! ## The loop -/

/-- The places of one array that were used. -/
def places (m : Member) (used : List (Member × Nat)) : List Nat := (used.filter (·.1 = m)).map (·.2)

theorem places_append (m : Member) (used used' : List (Member × Nat)) :
    places m (used ++ used') = places m used ++ places m used' := by
  simp [places]

theorem places_usedUnder (a : Attributes) (m : Member) (tag : UInt8) :
    places m (usedUnder a tag) = List.range' (a.cursor m) (if tag = m.tag then 1 else 0) := by
  by_cases htag : tag = m.tag
  · subst htag
    cases m <;> rfl
  · rw [if_neg htag]
    simp only [places, usedUnder, List.range'_zero, List.map_eq_nil_iff, List.filter_eq_nil_iff, List.mem_map,
      List.mem_filter, decide_eq_true_eq]
    rintro u ⟨m', ⟨-, hm'⟩, rfl⟩ rfl
    exact htag hm'.symm

theorem readAttribute_eq {l : Loading} {a : Attributes} (hkind : l.condition.kind = .attributes a) (attr : UInt8)
    (i : List UInt8) : (readAttribute attr).run l i = (unserializeAttributesProp a attr).run l i := by
  simp only [readAttribute, inspect, hkind]

/-- Every array is used from its cursor on, once for each of its tags. -/
theorem taggedLoop_places (fuel : Nat) : ∀ (l : Loading) (a : Attributes) (i : List UInt8),
    l.condition.kind = .attributes a → ∀ m,
      places m (taggedLoop CONDITIONATTR_END readAttribute fuel l i).2.1.used =
        places m l.used ++ List.range' (a.cursor m) ((tagsLoop fuel i).count m.tag) := by
  induction fuel with
  | zero => intro l a i _ m; simp [taggedLoop, tagsLoop]
  | succ fuel ih =>
    intro l a i hkind m
    cases i with
    | nil => simp [taggedLoop, tagsLoop]
    | cons tag i =>
      by_cases hend : tag = CONDITIONATTR_END
      · simp [taggedLoop, tagsLoop, hend]
      cases hwidth : width tag with
      | none =>
        have hrun := fails_unserializeAttributesProp a hwidth hend l i
        have hm : m.tag ≠ tag := by
          rintro rfl
          cases m <;> cases hwidth
        simp [taggedLoop, tagsLoop, hend, readAttribute_eq hkind, hrun, hwidth, hm.symm]
      | some n =>
        obtain ⟨hshort, hlong⟩ := eats_unserializeAttributesProp a hwidth hkind i
        by_cases hi : i.length < n
        · obtain ⟨l', hrun, hmoves⟩ := hshort hi
          simp only [taggedLoop, tagsLoop, if_neg hend, readAttribute_eq hkind, hrun, hwidth, if_pos hi,
            hmoves.used, places_append, places_usedUnder, List.count_singleton, beq_iff_eq]
        · obtain ⟨l', hrun, hmoves⟩ := hlong (Nat.not_lt.mp hi)
          obtain ⟨a', hkind', hcursor⟩ := hmoves.kind
          have hrest := ih l' a' (i.drop n) hkind' m
          simp only [taggedLoop, tagsLoop, if_neg hend, readAttribute_eq hkind, hrun, hwidth, if_neg hi]
          rw [hrest, hmoves.used, places_append, places_usedUnder, List.append_assoc, hcursor m, List.count_cons,
            Nat.add_comm (List.count _ _)]
          simp only [beq_iff_eq, List.range'_append_1]

theorem places_placesUsed (c : Condition) (bytes : List UInt8) (m : Member) :
    places m (placesUsed (newAttributes c) bytes) = List.range' 0 ((tags bytes).count m.tag) := by
  have hloop := taggedLoop_places bytes.length { condition := newAttributes c } {} bytes rfl m
  have hcursor : ({} : Attributes).cursor m = 0 := by cases m <;> rfl
  rw [hcursor] at hloop
  exact hloop

theorem mem_placesUsed (c : Condition) (bytes : List UInt8) (u : Member × Nat) :
    u ∈ placesUsed (newAttributes c) bytes ↔ u.2 < (tags bytes).count u.1.tag := by
  have hmem : u ∈ placesUsed (newAttributes c) bytes ↔ u.2 ∈ places u.1 (placesUsed (newAttributes c) bytes) := by
    simp only [places, List.mem_map, List.mem_filter, decide_eq_true_eq]
    constructor
    · exact fun h => ⟨u, ⟨h, rfl⟩, rfl⟩
    · rintro ⟨u', ⟨h, hmember⟩, hplace⟩
      rwa [← Prod.ext hmember hplace]
  rw [hmem, places_placesUsed, List.mem_range'_1]
  omega

theorem InBounds.count_le {c : Condition} {bytes : List UInt8} (h : InBounds c bytes) (m : Member) :
    (tags bytes).count m.tag ≤ m.size := by
  by_contra hlt
  have hused := h (m, m.size) ((mem_placesUsed c bytes _).mpr (Nat.not_le.mp hlt))
  exact Nat.lt_irrefl _ hused

/-- A new object is filled within its arrays exactly when no tag comes more often than its array has places. -/
theorem load_inBounds_iff (c : Condition) (bytes : List UInt8) :
    InBounds c bytes ↔ ∀ m : Member, (tags bytes).count m.tag ≤ m.size := by
  constructor
  · exact fun h m => h.count_le m
  · intro h u hu
    exact Nat.lt_of_lt_of_le ((mem_placesUsed c bytes u).mp hu) (h u.1)

/-! ## Loads within the arrays

There the load is the one that keeps no places. -/

/-- Both ask the stream for the same, and have the same object where they do not fail. -/
structure Agrees (r : Option Unit × Condition × List UInt8) (r' : Option Unit × Loading × List UInt8) : Prop where
  result : r.1 = r'.1
  rest : r.2.2 = r'.2.2
  condition : r.1 = some () → r.2.1 = r'.2.1.condition

theorem agrees_readElement {n : Nat} (member : Member) {array : Vector (BitVec 32) n} {current : Nat} (next : Attributes)
    (set : Vector (BitVec 32) n → Attributes) (hcurrent : current < n) (l : Loading) (i : List UInt8) :
    Agrees ((storeNext array current fun v => .attributes (set v)).run l.condition i)
      ((readElement member array current next set).run l i) := by
  unfold storeNext readElement
  rw [run_bind, run_readBits, run_bind]
  dsimp only [Reader.modify]
  rw [run_bind, run_readBits]
  by_cases hi : i.length < 32 / 8
  · simp only [if_pos hi]
    exact ⟨rfl, rfl, (fun h => by cases h)⟩
  · simp only [if_neg hi, dif_pos hcurrent]
    exact ⟨rfl, rfl, fun _ => rfl⟩

theorem agrees_prop (now : BitVec 64) {a : Attributes} {l : Loading} (hkind : l.condition.kind = .attributes a)
    {attr : UInt8} (hroom : ∀ m : Member, attr = m.tag → a.cursor m < m.size) (i : List UInt8) :
    Agrees ((unserializeProp now attr).run l.condition i) ((readAttribute attr).run l i) := by
  rw [readAttribute_eq hkind]
  simp only [unserializeProp, inspect, hkind]
  unfold unserializeAttributesProp
  split_ifs with hskills hspecial hstats hrate hdefense
  · exact agrees_readElement .skills _ _ (hroom .skills hskills) l i
  · unfold storeSpecialSkill
    have hcurrent : a.currentSpecialSkill < specialSkillCount := hroom .specialSkills hspecial
    simp only [if_pos hcurrent]
    exact agrees_readElement .specialSkills _ _ hcurrent l i
  · exact agrees_readElement .stats _ _ (hroom .stats hstats) l i
  · exact agrees_readElement .experienceRate _ _ (hroom .experienceRate hrate) l i
  · unfold readFlag
    simp only [run_bind, run_readBits]
    by_cases hi : i.length < 8 / 8
    · simp only [if_pos hi]
      exact ⟨rfl, rfl, (fun h => by cases h)⟩
    · simp only [if_neg hi]
      exact ⟨rfl, rfl, fun _ => rfl⟩
  · exact ⟨rfl, rfl, fun _ => rfl⟩

section Turn

variable {now : BitVec 64} {tag : UInt8} {l l' : Loading} {i i' : List UInt8} {fuel : Nat}

theorem agrees_stops (hend : tag ≠ CONDITIONATTR_END)
    (h : Agrees ((unserializeProp now tag).run l.condition i) (none, l', i'))
    (hrun : (readAttribute tag).run l i = (none, l', i')) :
    Agrees (taggedLoop CONDITIONATTR_END (unserializeProp now) (fuel + 1) l.condition (tag :: i))
      (taggedLoop CONDITIONATTR_END readAttribute (fuel + 1) l (tag :: i)) := by
  obtain ⟨hresult, hrest, -⟩ := h
  cases hturn : (unserializeProp now tag).run l.condition i with
  | mk r s =>
    rw [hturn] at hresult hrest
    dsimp only at hresult hrest
    subst hresult
    simp only [taggedLoop, if_neg hend, hrun, hturn]
    exact ⟨rfl, hrest, (fun h => by cases h)⟩

theorem agrees_goes_on (hend : tag ≠ CONDITIONATTR_END)
    (h : Agrees ((unserializeProp now tag).run l.condition i) (some (), l', i'))
    (hrun : (readAttribute tag).run l i = (some (), l', i'))
    (hrest : Agrees (taggedLoop CONDITIONATTR_END (unserializeProp now) fuel l'.condition i')
      (taggedLoop CONDITIONATTR_END readAttribute fuel l' i')) :
    Agrees (taggedLoop CONDITIONATTR_END (unserializeProp now) (fuel + 1) l.condition (tag :: i))
      (taggedLoop CONDITIONATTR_END readAttribute (fuel + 1) l (tag :: i)) := by
  have hturn : (unserializeProp now tag).run l.condition i = (some (), l'.condition, i') :=
    Prod.ext h.result (Prod.ext (h.condition h.result) h.rest)
  simp only [taggedLoop, if_neg hend, hrun, hturn]
  exact hrest

end Turn

theorem agrees_taggedLoop (now : BitVec 64) (fuel : Nat) : ∀ (l : Loading) (a : Attributes) (i : List UInt8),
    l.condition.kind = .attributes a → (∀ m : Member, a.cursor m + (tagsLoop fuel i).count m.tag ≤ m.size) →
      Agrees (taggedLoop CONDITIONATTR_END (unserializeProp now) fuel l.condition i)
        (taggedLoop CONDITIONATTR_END readAttribute fuel l i) := by
  induction fuel with
  | zero => exact fun l a i _ _ => ⟨rfl, rfl, fun _ => rfl⟩
  | succ fuel ih =>
    intro l a i hkind hroom
    cases i with
    | nil => exact ⟨rfl, rfl, fun _ => rfl⟩
    | cons tag i =>
      by_cases hend : tag = CONDITIONATTR_END
      · simp only [taggedLoop, if_pos hend]
        exact ⟨rfl, rfl, fun _ => rfl⟩
      have htag : ∀ m : Member, tag = m.tag → a.cursor m < m.size := by
        rintro m rfl
        have hm := hroom m
        simp only [tagsLoop, if_neg hend, List.count_cons_self] at hm
        omega
      have hturn := agrees_prop now hkind htag i
      cases hwidth : width tag with
      | none =>
        have hrun : (readAttribute tag).run l i = (none, l, i) := by
          rw [readAttribute_eq hkind, fails_unserializeAttributesProp a hwidth hend]
        rw [hrun] at hturn
        exact agrees_stops hend hturn hrun
      | some n =>
        obtain ⟨hshort, hlong⟩ := eats_unserializeAttributesProp a hwidth hkind i
        rw [← readAttribute_eq hkind] at hshort hlong
        by_cases hi : i.length < n
        · obtain ⟨l', hrun, -⟩ := hshort hi
          rw [hrun] at hturn
          exact agrees_stops hend hturn hrun
        · obtain ⟨l', hrun, hmoves⟩ := hlong (Nat.not_lt.mp hi)
          obtain ⟨a', hkind', hcursor⟩ := hmoves.kind
          rw [hrun] at hturn
          refine agrees_goes_on hend hturn hrun (ih l' a' (i.drop n) hkind' fun m => ?_)
          have hm := hroom m
          simp only [tagsLoop, if_neg hend, hwidth, if_neg hi, List.count_cons, beq_iff_eq] at hm
          rw [hcursor m]
          omega

/-- As long as the arrays are not left, loading is what `unserialize` does. -/
theorem InBounds.unserialize {c : Condition} {bytes : List UInt8} (h : InBounds c bytes) (now : BitVec 64) :
    Agrees ((Condition.unserialize now).run (newAttributes c) bytes)
      (unserializeAttributes.run { condition := newAttributes c } bytes) := by
  refine agrees_taggedLoop now bytes.length { condition := newAttributes c } {} bytes rfl fun m => ?_
  have hcursor : ({} : Attributes).cursor m = 0 := by cases m <;> rfl
  rw [hcursor, Nat.zero_add]
  exact h.count_le m

/-! ## The streams of the class itself -/

/-- The bytes give these tags, whatever follows. -/
def GivesTags (bytes ts : List UInt8) : Prop := ∀ rest, tags (bytes ++ rest) = ts ++ tags rest

theorem tagsLoop_fuel (fuel : Nat) : ∀ {fuel' : Nat} {i : List UInt8}, i.length ≤ fuel → i.length ≤ fuel' →
    tagsLoop fuel i = tagsLoop fuel' i := by
  induction fuel with
  | zero =>
    intro fuel' i h _
    obtain rfl := List.length_eq_zero_iff.mp (Nat.le_zero.mp h)
    cases fuel' <;> rfl
  | succ fuel ih =>
    intro fuel' i h h'
    cases i with
    | nil => cases fuel' <;> rfl
    | cons tag i =>
      cases fuel' with
      | zero => exact absurd h' (Nat.not_succ_le_zero _)
      | succ fuel' =>
        simp only [List.length_cons, Nat.add_le_add_iff_right] at h h'
        have hdrop : ∀ n, tagsLoop fuel (i.drop n) = tagsLoop fuel' (i.drop n) := by
          intro n
          apply ih
          · rw [List.length_drop]; omega
          · rw [List.length_drop]; omega
        simp only [tagsLoop, hdrop]

namespace GivesTags

theorem nil : GivesTags [] [] := fun _ => rfl

theorem append {bytes bytes' ts ts' : List UInt8} (h : GivesTags bytes ts) (h' : GivesTags bytes' ts') :
    GivesTags (bytes ++ bytes') (ts ++ ts') := by
  intro rest
  rw [List.append_assoc, h, h', List.append_assoc]

theorem value {tag : UInt8} {bytes : List UInt8} (hend : tag ≠ CONDITIONATTR_END) (hn : width tag = some bytes.length) :
    GivesTags (tag :: bytes) [tag] := by
  intro rest
  have hrest : tagsLoop (bytes ++ rest).length rest = tags rest := tagsLoop_fuel _ (by simp) le_rfl
  show tagsLoop ((bytes ++ rest).length + 1) (tag :: (bytes ++ rest)) = _
  simp only [tagsLoop, if_neg hend, hn, List.length_append, Nat.not_lt.mpr (Nat.le_add_right _ _), if_false,
    List.drop_left]
  rw [List.length_append] at hrest
  rw [hrest]
  rfl

theorem field {w : Nat} {tag : UInt8} (hend : tag ≠ CONDITIONATTR_END) (hn : width tag = some (w / 8)) (v : BitVec w) :
    GivesTags (Condition.field tag v) [tag] := value hend (by rw [hn, length_writeBits])

theorem flag (tag : UInt8) (hend : tag ≠ CONDITIONATTR_END) (hn : width tag = some 1) (b : Bool) :
    GivesTags (Condition.flag tag b) [tag] := value hend hn

theorem ite {c : Prop} [Decidable c] {bytes bytes' ts ts' : List UInt8} (h : GivesTags bytes ts)
    (h' : GivesTags bytes' ts') : GivesTags (if c then bytes else bytes') (if c then ts else ts') := by
  split
  · exact h
  · exact h'

theorem flatMap {w : Nat} (tag : UInt8) (hend : tag ≠ CONDITIONATTR_END) (hn : width tag = some (w / 8))
    (vs : List (BitVec w)) : GivesTags (vs.flatMap (Condition.field tag)) (List.replicate vs.length tag) := by
  induction vs with
  | nil => exact nil
  | cons v vs ih =>
    rw [List.flatMap_cons, List.length_cons, List.replicate_succ]
    exact (field hend hn v).append ih

end GivesTags

/-- What `Condition::serialize` writes are no tags of the arrays. -/
theorem givesTags_serializeBase (c : Condition) :
    ∃ ts, GivesTags c.serializeBase ts ∧ ∀ m : Member, ts.count m.tag = 0 := by
  refine ⟨_, (((((((GivesTags.ite (.field (by decide) rfl _) (.field (by decide) rfl _)).append
    (.field (by decide) rfl _)).append (.field (by decide) rfl _)).append (.flag _ (by decide) rfl _)).append
    (.field (by decide) rfl _)).append (.flag _ (by decide) rfl _)).append (.flag _ (by decide) rfl _)).append
    (GivesTags.ite (.field (by decide) rfl _) .nil), ?_⟩
  intro m
  split <;> split <;> cases m <;> rfl

/-- The experience rates are written under the tag of the special skills, behind them. -/
theorem givesTags_serialize {c : Condition} {a : Attributes} (hkind : c.kind = .attributes a) :
    ∃ ts, GivesTags c.serialize ts ∧ ts.count CONDITIONATTR_SPECIALSKILLS = specialSkillCount + 4 := by
  obtain ⟨ts, hts, hcount⟩ := givesTags_serializeBase c
  have harrays := ((((GivesTags.flatMap CONDITIONATTR_SKILLS (by decide) rfl a.skills.toList).append
    (.flatMap CONDITIONATTR_STATS (by decide) rfl a.stats.toList)).append
    (.flag CONDITIONATTR_DISABLEDEFENSE (by decide) rfl a.disableDefense)).append
    (.flatMap CONDITIONATTR_SPECIALSKILLS (by decide) rfl a.specialSkills.toList)).append
    (.flatMap CONDITIONATTR_SPECIALSKILLS (by decide) rfl (a.experienceRate.toList.drop 1))
  have hserialize : c.serialize = c.serializeBase ++ (Kind.attributes a).serialize := by rw [serialize, hkind]
  refine ⟨_, by rw [hserialize]; exact hts.append harrays, ?_⟩
  rw [List.count_append, show ts.count CONDITIONATTR_SPECIALSKILLS = 0 from hcount .specialSkills]
  simp only [List.length_drop, Vector.length_toList]
  rfl

/-- No object of the class writes a stream that can be loaded. -/
theorem serialize_overruns (c : Condition) {d : Condition} {a : Attributes} (hkind : d.kind = .attributes a) :
    ¬ InBounds c d.serialize := by
  obtain ⟨ts, hts, hcount⟩ := givesTags_serialize hkind
  have htags : tags d.serialize = ts := by
    have hwhole := hts []
    rwa [List.append_nil, show tags [] = [] from rfl, List.append_nil] at hwhole
  intro h
  have hle := h.count_le .specialSkills
  rw [htags] at hle
  change ts.count CONDITIONATTR_SPECIALSKILLS ≤ specialSkillCount at hle
  omega

/-- A new object of the class, as the column of a player has it. -/
def strengthened : Condition where
  conditionType := ConditionType.attributes.value
  id := CONDITIONID_COMBAT
  ticks := 10000
  subId := 0
  endTime := 0
  isBuff := true
  aggressive := false
  kind := .attributes {}

theorem strengthened_overruns : ¬ InBounds strengthened strengthened.serialize :=
  serialize_overruns strengthened rfl

end ForgottenServer.Condition
