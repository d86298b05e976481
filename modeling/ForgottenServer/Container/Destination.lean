import ForgottenServer.Container.Forest
import ForgottenServer.Container.Move

/-! # Where an item goes

The answers of `queryDestination` in a forest. The object found at the destination is in the
container, and the index is below the capacity unless a stack was looked up. -/

namespace ForgottenServer

namespace Heap

variable {env : GameEnv} {s : Heap}

/-! ## Parents -/

theorem Valid.climb (h : Valid env s) {r : Ref} (hr : r < s.size) (hends : Climb.Ends s.parent r) :
    ∃ l, Climb.climb s.parent s.size r = some l ∧ Climb.Above s.parent r l := h.forest.climb hr hends

theorem Valid.above (h : Valid env s) {c : Ref} (hc : (s.box c).isSome) :
    Climb.Above s.parent c (c :: s.parents c) := h.forest.above hc

theorem Forest.parents_of_listed (h : Forest s) {c r : Ref} (hr : r ∈ s.items c) :
    s.parents r = c :: s.parents c := by
  have habove := Climb.Above.step (h.parent_iff.mpr hr) (h.above (h.holder hr))
  obtain ⟨l, hl, habove'⟩ := h.climb (h.item_lt hr) ⟨_, habove⟩
  rw [parents, hl, habove'.unique habove]
  rfl

/-- An object is where its container is. -/
theorem Forest.placeOf_of_listed (h : Forest s) {c r : Ref} (hr : r ∈ s.items c) : s.placeOf r = s.placeOf c := by
  have hroot : s.root r = s.root c := by
    rw [root, root, h.parents_of_listed hr, List.getLastD_cons]
  rw [placeOf, placeOf, hroot]

theorem Forest.getDestinationInstanceId_of_listed (h : Forest s) {c r : Ref} (hr : r ∈ s.items c) (source : UInt32) :
    s.getDestinationInstanceId r source = s.getDestinationInstanceId c source := by
  rw [getDestinationInstanceId, getDestinationInstanceId, isCarriedByCreature, isCarriedByCreature, hasTile, hasTile,
    h.placeOf_of_listed hr]

/-! ## One container -/

theorem mem_of_getItemByIndex {c r : Ref} {index : Int} (h : s.getItemByIndex c index = some r) : r ∈ s.items c := by
  rw [getItemByIndex] at h
  split at h
  · cases h
  · exact List.mem_of_getElem? h

theorem firstM_eq_some {p : Ref → Option Bool} {l : List Ref} {i : Nat} :
    ∀ {n r}, firstM p n l = some (some (i, r)) → n ≤ i ∧ l[i - n]? = some r ∧ p r = some true := by
  induction l with
  | nil => intro n r h; cases h
  | cons x l ih =>
    intro n r h
    rw [firstM] at h
    cases hx : p x with
    | none => rw [hx] at h; cases h
    | some b =>
      rw [hx] at h
      cases b with
      | true =>
        cases h
        exact ⟨le_rfl, by simp, hx⟩
      | false =>
        obtain ⟨hle, hget, hp⟩ := ih h
        refine ⟨Nat.le_of_succ_le hle, ?_, hp⟩
        obtain ⟨k, hk⟩ : ∃ k, i - n = k + 1 := ⟨i - n - 1, by omega⟩
        rw [hk, List.getElem?_cons_succ, ← hget]
        congr 1
        omega

/-- A stack of the destination that the item can join was looked up. -/
structure AutoStacked (env : GameEnv) (s : Heap) (item : Ref) (inst : UInt32) (d : Dest) (r : Ref) : Prop where
  stackable : s.isStackable env item = true
  elsewhere : s.parent item ≠ some d.toCylinder
  destItem : d.destItem = some r
  at_index : s.getItemByIndex d.toCylinder d.index = some r
  ne : r ≠ item
  joins : s.autoStacks env inst r item = some true

/-- What is known of an answer: the object is in the container, and an index that is too large
comes from a stack that was looked up. -/
structure Found (env : GameEnv) (s : Heap) (item : Ref) (inst : UInt32) (d : Dest) : Prop where
  isBox : (s.box d.toCylinder).isSome
  mem : ∀ {r}, d.destItem = some r → r ∈ s.items d.toCylinder
  index : (s.capacity d.toCylinder : Int) ≤ d.index → ∃ r, AutoStacked env s item inst d r

theorem Found.whereever {item : Ref} {inst : UInt32} {c : Ref} (hc : (s.box c).isSome) :
    Found env s item inst { toCylinder := c, index := INDEX_WHEREEVER } where
  isBox := hc
  mem := nofun
  index h := absurd h (by simp [INDEX_WHEREEVER]; omega)

/-- The instance matters only where a stack was looked up. -/
theorem Found.instance {item : Ref} {inst inst' : UInt32} {d : Dest} (h : Found env s item inst d)
    (hd : inst' = inst ∨ d.index = INDEX_WHEREEVER) : Found env s item inst' d := by
  rcases hd with rfl | hd
  · exact h
  · refine ⟨h.isBox, h.mem, fun hle => absurd hle ?_⟩
    rw [hd]
    simp only [INDEX_WHEREEVER]
    omega

theorem found_autoStack {item : Ref} {flags : BitVec 32} {inst : UInt32} {d d' : Dest} (hd : Found env s item inst d)
    (h : s.autoStack env d item flags inst = some d') :
    Found env s item inst d' ∧ d'.toCylinder = d.toCylinder := by
  rw [autoStack] at h
  split at h
  · obtain rfl := Option.some.inj h
    exact ⟨hd, rfl⟩
  · rename_i hcond
    simp only [not_or] at hcond
    obtain ⟨_, hstackable, helse⟩ := hcond
    obtain ⟨there, _, h⟩ := Option.bind_eq_some_iff.mp h
    split at h
    · obtain rfl := Option.some.inj h
      exact ⟨hd, rfl⟩
    · obtain ⟨found, hfound, h⟩ := Option.bind_eq_some_iff.mp h
      cases found with
      | none =>
        obtain rfl := Option.some.inj h
        exact ⟨hd, rfl⟩
      | some nr =>
        obtain ⟨n, r⟩ := nr
        obtain rfl := Option.some.inj h
        obtain ⟨_, hget, hp⟩ := firstM_eq_some hfound
        rw [Nat.sub_zero] at hget
        have hne : r ≠ item := by
          rintro rfl
          rw [if_pos rfl] at hp
          cases hp
        rw [if_neg hne] at hp
        refine ⟨⟨hd.isBox, fun hr => ?_, fun _ => ⟨r, ?_⟩⟩, rfl⟩
        · obtain rfl := Option.some.inj hr
          exact List.mem_of_getElem? hget
        · exact { stackable := by simpa using hstackable
                  elsewhere := helse
                  destItem := rfl
                  at_index := by simpa [getItemByIndex] using hget
                  ne := hne
                  joins := hp }

theorem found_containerQueryDestination (h : Forest s) {item : Ref} {flags : BitVec 32} {inst : UInt32}
    {d d' : Dest} (hbox : (s.box d.toCylinder).isSome) (hmem : ∀ {r}, d.destItem = some r → r ∈ s.items d.toCylinder)
    (hd' : s.containerQueryDestination env d item flags inst = some d') :
    Found env s item inst d' ∧ (d'.toCylinder = d.toCylinder ∨ d'.index = INDEX_WHEREEVER) := by
  rw [containerQueryDestination] at hd'
  split at hd'
  · obtain rfl := Option.some.inj hd'
    refine ⟨.whereever ?_, .inr rfl⟩
    cases hp : s.parent d.toCylinder with
    | none => exact hbox
    | some c => exact h.holder (h.parent_iff.mp hp)
  · -- the destination with the index in its range
    obtain ⟨e, he, hto, hlow, hemem⟩ : ∃ e : Dest, (if d.index = 255 ∨ (s.capacity d.toCylinder : Int) ≤ d.index then
        { toCylinder := d.toCylinder, index := INDEX_WHEREEVER } else d) = e ∧ e.toCylinder = d.toCylinder ∧
        ¬ (s.capacity d.toCylinder : Int) ≤ e.index ∧ ∀ {r}, e.destItem = some r → r ∈ s.items d.toCylinder := by
      refine ⟨_, rfl, ?_⟩
      split
      · exact ⟨rfl, by simp [INDEX_WHEREEVER]; omega, nofun⟩
      · rename_i hcond
        exact ⟨rfl, fun hle => hcond (.inr hle), hmem⟩
    simp only [he] at hd'
    rw [← hto] at hbox hlow hemem
    have hfound (destItem : Option Ref) (hdest : ∀ {r}, destItem = some r → r ∈ s.items e.toCylinder) :
        Found env s item inst { e with destItem } := ⟨hbox, hdest, fun hle => absurd hle hlow⟩
    split at hd'
    · obtain ⟨hfound', hsame⟩ := found_autoStack (hfound e.destItem hemem) hd'
      exact ⟨hfound', .inl (hsame.trans hto)⟩
    · have hdest : ∀ {r}, (s.getItemByIndex e.toCylinder e.index).or e.destItem = some r → r ∈ s.items e.toCylinder := by
        intro r hr
        cases hget : s.getItemByIndex e.toCylinder e.index with
        | none => rw [hget] at hr; exact hemem hr
        | some x =>
          rw [hget] at hr
          obtain rfl := Option.some.inj hr
          exact mem_of_getItemByIndex hget
      split at hd'
      · rename_i r _
        split at hd'
        · rename_i hsub
          obtain rfl := Option.some.inj hd'
          exact ⟨.whereever hsub, .inr rfl⟩
        · obtain ⟨hfound', hsame⟩ := found_autoStack (hfound _ hdest) hd'
          exact ⟨hfound', .inl (hsame.trans hto)⟩
      · obtain ⟨hfound', hsame⟩ := found_autoStack (hfound _ hdest) hd'
        exact ⟨hfound', .inl (hsame.trans hto)⟩

/-- A redirection to a box of a depot chest stays in the chest, any other one forgets the index. -/
theorem found_queryDestination (h : Forest s) {item : Ref} {flags : BitVec 32} {source : UInt32} (fuel : Nat) :
    ∀ {d d' : Dest}, (s.box d.toCylinder).isSome → (∀ {r}, d.destItem = some r → r ∈ s.items d.toCylinder) →
      s.queryDestination env fuel d item flags (s.getDestinationInstanceId d.toCylinder source) = some d' →
      Found env s item (s.getDestinationInstanceId d.toCylinder source) d' ∧
        (s.getDestinationInstanceId d'.toCylinder source = s.getDestinationInstanceId d.toCylinder source ∨
          d'.index = INDEX_WHEREEVER) := by
  have hlast {d d' : Dest} (hbox : (s.box d.toCylinder).isSome)
      (hmem : ∀ {r}, d.destItem = some r → r ∈ s.items d.toCylinder)
      (hd' : s.containerQueryDestination env d item flags (s.getDestinationInstanceId d.toCylinder source) = some d') :
      Found env s item (s.getDestinationInstanceId d.toCylinder source) d' ∧
        (s.getDestinationInstanceId d'.toCylinder source = s.getDestinationInstanceId d.toCylinder source ∨
          d'.index = INDEX_WHEREEVER) := by
    obtain ⟨hfound, hsame⟩ := found_containerQueryDestination h hbox hmem hd'
    exact ⟨hfound, hsame.imp_left fun heq => by rw [heq]⟩
  induction fuel with
  | zero => exact fun hbox hmem hd' => hlast hbox hmem hd'
  | succ fuel ih =>
    intro d d' hbox hmem hd'
    rw [queryDestination] at hd'
    split at hd'
    · split at hd'
      · rename_i r hr
        have hmem' := List.mem_of_find?_eq_some hr
        have hprop := List.find?_some hr
        simp only [Bool.and_eq_true] at hprop
        have hsame := h.getDestinationInstanceId_of_listed hmem' source
        rw [← hsame] at hd' ⊢
        exact ih (d := { toCylinder := r, index := INDEX_WHEREEVER }) hprop.1.2 nofun hd'
      · exact hlast hbox hmem hd'
    · exact hlast hbox hmem hd'

/-- What the loop finds. -/
theorem found_resolve (h : Forest s) {item : Ref} {source : UInt32} (hops : Nat) :
    ∀ {d d' : Dest} {flags flags' : BitVec 32}, (s.box d.toCylinder).isSome →
      (∀ {r}, d.destItem = some r → r ∈ s.items d.toCylinder) →
      s.resolve env item source hops d flags = some (d', flags') →
      Found env s item (s.getDestinationInstanceId d'.toCylinder source) d' := by
  induction hops with
  | zero =>
    intro d d' flags flags' hbox hmem hd'
    rw [resolve] at hd'
    obtain ⟨next, hnext, hd'⟩ := Option.bind_eq_some_iff.mp hd'
    obtain ⟨hfound, hsame⟩ := found_queryDestination h _ hbox hmem hnext
    split at hd' <;> cases hd' <;> exact hfound.instance hsame
  | succ hops ih =>
    intro d d' flags flags' hbox hmem hd'
    rw [resolve] at hd'
    obtain ⟨next, hnext, hd'⟩ := Option.bind_eq_some_iff.mp hd'
    obtain ⟨hfound, hsame⟩ := found_queryDestination h _ hbox hmem hnext
    split at hd'
    · cases hd'
      exact hfound.instance hsame
    · exact ih hfound.isBox hfound.mem hd'

end Heap

end ForgottenServer
