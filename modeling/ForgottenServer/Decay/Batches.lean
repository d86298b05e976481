import ForgottenServer.Decay.Buckets

/-! # Decaying items are in the map

While a batch is processed, the items that still wait in it decay too, although they are not in the map. -/

namespace ForgottenServer.Decay

open Runs

variable {types : Nat → ItemType} {waiting : List Nat} {g : Game} {ref : Nat}

theorem getDecaying_eq_true {item : Item} (h : item.getDecaying = .DECAYING_TRUE) :
    item.decayState = some .DECAYING_TRUE := by
  rw [Item.getDecaying] at h
  cases hstate : item.decayState with
  | none =>
    rw [hstate] at h
    cases h
  | some state =>
    rw [hstate] at h
    exact congrArg some h

/-- What holds while the items of `waiting` wait in a batch. -/
structure Inv (waiting : List Nat) (g : Game) : Prop where
  sorted : g.decayMap.Sorted
  nodup : g.decayMap.refs.Nodup
  timestamps : ∀ timestamp ref item, g.decayMap.Holds timestamp ref → g.items ref = some item →
    item.durationTimestamp = some timestamp ∧ item.decayState ≠ none
  decaying : ∀ ref item, g.items ref = some item → item.decayState = some .DECAYING_TRUE →
    ref ∈ g.decayMap.refs ∨ ref ∈ waiting
  started : ∀ ref, ref ∈ g.decayMap.refs ∨ ref ∈ waiting → stopped ref g.calls = false
  obeys : Obeys g.calls

/-- The keys of the map come soon. -/
def Soon (g : Game) : Prop := ∀ entry ∈ g.decayMap, entry.1 < g.time + 2 ^ 31

/-- No bucket of the map has expired. -/
def Unexpired (g : Game) : Prop := ∀ entry ∈ g.decayMap, g.time < entry.1

/-- The check is early enough for every bucket. -/
def Covered (g : Game) : Prop :=
  g.decayMap = [] ∨ ∃ e ∈ g.events, e.id = g.eventId ∧
    ∀ entry ∈ g.decayMap, e.scheduledAt + e.delay ≤ max entry.1 (e.scheduledAt + MIN_TASK_INTERVAL)

/-! ## Items -/

@[simp] theorem setItem_decayMap (f : Item → Item) : (g.setItem ref f).decayMap = g.decayMap := rfl
@[simp] theorem setItem_calls (f : Item → Item) : (g.setItem ref f).calls = g.calls := rfl
@[simp] theorem setItem_time (f : Item → Item) : (g.setItem ref f).time = g.time := rfl

theorem items_setItem {f : Item → Item} {ref' : Nat} {item' : Item}
    (h : (g.setItem ref f).items ref' = some item') :
    (ref' ≠ ref ∧ g.items ref' = some item') ∨ ref' = ref ∧ ∃ item, g.items ref = some item ∧ item' = f item := by
  change Function.update g.items ref ((g.items ref).map f) ref' = some item' at h
  by_cases href : ref' = ref
  · subst href
    rw [Function.update_self] at h
    obtain ⟨item, hitem, rfl⟩ := Option.map_eq_some_iff.mp h
    exact .inr ⟨rfl, item, hitem, rfl⟩
  · rw [Function.update_of_ne href] at h
    exact .inl ⟨href, h⟩

/-- An item may change that keeps its timestamp and is not made to decay. -/
theorem Inv.setItem (h : Inv waiting g) {f : Item → Item}
    (hmap : ref ∈ g.decayMap.refs → ∀ item, (f item).durationTimestamp = item.durationTimestamp ∧
      (item.decayState ≠ none → (f item).decayState ≠ none))
    (hstate : ∀ item, (f item).decayState = some .DECAYING_TRUE → item.decayState = some .DECAYING_TRUE) :
    Inv waiting (g.setItem ref f) := by
  refine ⟨h.sorted, h.nodup, fun timestamp ref' item' hholds hitem' => ?_, fun ref' item' hitem' htrue => ?_, h.started,
    h.obeys⟩
  · rcases items_setItem hitem' with ⟨-, hitem⟩ | ⟨rfl, item, hitem, rfl⟩
    · exact h.timestamps timestamp ref' item' hholds hitem
    · obtain ⟨htimestamp, hsome⟩ := h.timestamps timestamp ref' item hholds hitem
      obtain ⟨hkeeps, hkeepsome⟩ := hmap (DecayMap.mem_refs.mpr ⟨timestamp, hholds⟩) item
      exact ⟨hkeeps.trans htimestamp, hkeepsome hsome⟩
  · rcases items_setItem hitem' with ⟨-, hitem⟩ | ⟨rfl, item, hitem, rfl⟩
    · exact h.decaying ref' item' hitem htrue
    · exact h.decaying ref' item hitem (hstate item htrue)

theorem Inv.release (h : Inv waiting g) : Inv waiting { g with items := Function.update g.items ref none } := by
  have hitems {ref' : Nat} {item : Item} (hitem : Function.update g.items ref none ref' = some item) :
      g.items ref' = some item := by
    by_cases href : ref' = ref
    · subst href
      rw [Function.update_self] at hitem
      cases hitem
    · rwa [Function.update_of_ne href] at hitem
  exact ⟨h.sorted, h.nodup, fun timestamp ref' item hholds hitem => h.timestamps timestamp ref' item hholds (hitems hitem),
    fun ref' item hitem htrue => h.decaying ref' item (hitems hitem) htrue, h.started, h.obeys⟩

/-! ## Calls -/

theorem stopDecay_call (c : Call) (timestamp : Int) :
    stopDecay (g.call c) ref timestamp = (stopDecay g ref timestamp).call c := by
  unfold stopDecay
  simp only [Game.call]
  split
  · rfl
  · split
    · rfl
    · split
      · rfl
      · rfl

theorem Inv.call_startDecay (h : Inv waiting g) : Inv waiting (g.call (.startDecay ref)) := by
  refine ⟨h.sorted, h.nodup, h.timestamps, h.decaying, fun ref' href => ?_, h.obeys⟩
  change (if ref' = ref then false else stopped ref' g.calls) = false
  split
  · rfl
  · exact h.started ref' href

theorem Inv.call_stopDecay (h : Inv waiting g) (hmap : ref ∉ g.decayMap.refs) (hwaiting : ref ∉ waiting) :
    Inv waiting (g.call (.stopDecay ref)) := by
  refine ⟨h.sorted, h.nodup, h.timestamps, h.decaying, fun ref' href => ?_, h.obeys⟩
  change (if ref' = ref then true else stopped ref' g.calls) = false
  rw [if_neg]
  · exact h.started ref' href
  · rintro rfl
    exact href.elim hmap hwaiting

theorem Inv.internalDecayItem (h : Inv waiting g) (hstarted : stopped ref g.calls = false) :
    Inv waiting (g.internalDecayItem ref) :=
  ⟨h.sorted, h.nodup, h.timestamps, h.decaying, h.started, hstarted, h.obeys⟩

/-! ## `stopDecay` -/

/-- An item with another timestamp or with no state is not in the map. -/
theorem Inv.notMem_refs (h : Inv waiting g) {item : Item} (hitem : g.items ref = some item)
    (hnone : item.durationTimestamp = none ∨ item.decayState = none) : ref ∉ g.decayMap.refs := by
  intro href
  obtain ⟨timestamp, hholds⟩ := DecayMap.mem_refs.mp href
  obtain ⟨htimestamp, hsome⟩ := h.timestamps timestamp ref item hholds hitem
  rcases hnone with hnone | hnone
  · rw [hnone] at htimestamp
    cases htimestamp
  · exact hsome hnone

/-- The item is taken out of the map. -/
theorem Inv.stopDecay (h : Inv waiting g) {item : Item} {timestamp : Int} (hitem : g.items ref = some item)
    (htimestamp : item.durationTimestamp = some timestamp) :
    Inv waiting (stopDecay g ref timestamp) ∧ ref ∉ (stopDecay g ref timestamp).decayMap.refs := by
  have hfind (href : ref ∈ g.decayMap.refs) :
      ∃ bucket, g.decayMap.lookup timestamp = some bucket ∧ ref ∈ bucket := by
    obtain ⟨timestamp', bucket, hmem, href⟩ := DecayMap.mem_refs.mp href
    obtain ⟨heq, -⟩ := h.timestamps timestamp' ref item ⟨bucket, hmem, href⟩ hitem
    cases htimestamp.symm.trans heq
    exact ⟨bucket, h.sorted.lookup_eq hmem, href⟩
  rw [Decay.stopDecay, hitem]
  dsimp only
  split
  · rename_i hnone
    refine ⟨h, fun href => ?_⟩
    obtain ⟨bucket, hlookup, -⟩ := hfind href
    rw [hnone] at hlookup
    cases hlookup
  · rename_i bucket hlookup
    split
    · rename_i href
      have hperm := DecayMap.refs_erase hlookup href
      obtain ⟨hnotMem, hnodup⟩ := List.nodup_cons.mp (hperm.nodup_iff.mp h.nodup)
      refine ⟨⟨h.sorted.erase, hnodup, fun timestamp' ref' item' hholds hitem' => ?_,
        fun ref' item' hitem' htrue => ?_, fun ref' href' => ?_, h.obeys⟩, hnotMem⟩
      · rcases items_setItem hitem' with ⟨-, hitem'⟩ | ⟨rfl, -, -, -⟩
        · exact h.timestamps timestamp' ref' item' (DecayMap.holds_erase hlookup href hholds) hitem'
        · exact absurd (DecayMap.mem_refs.mpr ⟨timestamp', hholds⟩) hnotMem
      · rcases items_setItem hitem' with ⟨hne, hitem'⟩ | ⟨-, item, -, rfl⟩
        · refine (h.decaying ref' item' hitem' htrue).imp (fun hmem => ?_) id
          exact (List.mem_cons.mp (hperm.mem_iff.mp hmem)).resolve_left hne
        · cases htrue
      · exact h.started ref' (href'.imp (fun hmem => hperm.mem_iff.mpr (List.mem_cons_of_mem _ hmem)) id)
    · rename_i hnotMem
      refine ⟨h, fun href => ?_⟩
      obtain ⟨bucket', hlookup', href'⟩ := hfind href
      cases hlookup.symm.trans hlookup'
      exact hnotMem href'

theorem Inv.game_stopDecay (h : Inv waiting g) (hwaiting : (g.items ref).isSome → ref ∉ waiting) :
    Inv waiting (g.stopDecay ref) := by
  rw [Game.stopDecay]
  split
  · exact h
  · rename_i item hitem
    have hwaiting := hwaiting (by rw [hitem]; rfl)
    dsimp only
    split
    · split
      · rename_i timestamp htimestamp
        obtain ⟨hinv, hnotMem⟩ := h.stopDecay hitem htimestamp
        rw [stopDecay_call]
        exact (hinv.call_stopDecay hnotMem hwaiting).setItem (fun href => absurd href hnotMem) fun _ htrue => htrue
      · rename_i htimestamp
        have hnotMem := h.notMem_refs hitem (.inl htimestamp)
        refine (h.call_stopDecay hnotMem hwaiting).setItem (fun href => absurd href hnotMem) fun _ htrue => ?_
        cases htrue
    · rename_i hstate
      exact h.call_stopDecay (h.notMem_refs hitem (.inr (Option.not_isSome_iff_eq_none.mp hstate))) hwaiting

/-! ## `startDecay` -/

theorem Inv.restart (h : Inv waiting g) {item : Item} (hitem : g.items ref = some item) :
    Inv waiting (restart g ref item) ∧ ref ∉ (restart g ref item).decayMap.refs := by
  rw [Decay.restart]
  split
  · rename_i timestamp htimestamp
    exact h.stopDecay hitem htimestamp
  · rename_i htimestamp
    exact ⟨h, h.notMem_refs hitem (.inl htimestamp)⟩

@[simp] theorem reschedule_items (duration : Int) : (reschedule g duration).items = g.items := by
  rw [reschedule]
  split
  · rfl
  · split
    · rfl
    · rfl

@[simp] theorem reschedule_decayMap (duration : Int) : (reschedule g duration).decayMap = g.decayMap := by
  rw [reschedule]
  split
  · rfl
  · split
    · rfl
    · rfl

@[simp] theorem reschedule_calls (duration : Int) : (reschedule g duration).calls = g.calls := by
  rw [reschedule]
  split
  · rfl
  · split
    · rfl
    · rfl

/-- Scheduling changes nothing else. -/
theorem Inv.reschedule (h : Inv waiting g) (duration : Int) : Inv waiting (reschedule g duration) := by
  obtain ⟨hsorted, hnodup, htimestamps, hdecaying, hstarted, hobeys⟩ := h
  constructor
  · rwa [reschedule_decayMap]
  · rwa [reschedule_decayMap]
  · rwa [reschedule_decayMap, reschedule_items]
  · rwa [reschedule_decayMap, reschedule_items]
  · rwa [reschedule_decayMap, reschedule_calls]
  · rwa [reschedule_calls]

/-- An item that is in the map nowhere is put in. -/
theorem Inv.insert (h : Inv waiting g) (hnotMem : ref ∉ g.decayMap.refs) (hstarted : stopped ref g.calls = false)
    (timestamp : Int) : Inv waiting (insert g ref timestamp) := by
  have hperm := @DecayMap.refs_emplaceBack g.decayMap timestamp ref
  have hmem {ref' : Nat} : ref' ∈ (g.decayMap.emplaceBack timestamp ref).refs ↔ ref' = ref ∨ ref' ∈ g.decayMap.refs :=
    hperm.mem_iff.trans List.mem_cons
  refine ⟨h.sorted.emplaceBack, hperm.nodup_iff.mpr (List.nodup_cons.mpr ⟨hnotMem, h.nodup⟩),
    fun timestamp' ref' item' hholds hitem' => ?_, fun ref' item' hitem' htrue => ?_, fun ref' href' => ?_, h.obeys⟩
  · rcases items_setItem hitem' with ⟨hne, hitem'⟩ | ⟨rfl, item, -, rfl⟩
    · rcases DecayMap.holds_emplaceBack hholds with hholds | ⟨-, href⟩
      · exact h.timestamps timestamp' ref' item' hholds hitem'
      · exact absurd href hne
    · rcases DecayMap.holds_emplaceBack hholds with hholds | ⟨rfl, -⟩
      · exact absurd (DecayMap.mem_refs.mpr ⟨timestamp', hholds⟩) hnotMem
      · exact ⟨rfl, Option.some_ne_none _⟩
  · rcases items_setItem hitem' with ⟨-, hitem'⟩ | ⟨rfl, -, -, -⟩
    · exact (h.decaying ref' item' hitem' htrue).imp (fun href => hmem.mpr (.inr href)) id
    · exact .inl (hmem.mpr (.inl rfl))
  · rcases href' with href' | href'
    · rcases hmem.mp href' with rfl | href'
      · exact hstarted
      · exact h.started ref' (.inl href')
    · exact h.started ref' (.inr href')

@[simp] theorem stopDecay_calls (timestamp : Int) : (stopDecay g ref timestamp).calls = g.calls := by
  rw [stopDecay]
  split
  · rfl
  · split
    · rfl
    · split
      · rfl
      · rfl

@[simp] theorem restart_calls (item : Item) : (restart g ref item).calls = g.calls := by
  rw [restart]
  split
  · exact stopDecay_calls _
  · rfl

theorem Inv.startDecay (h : Inv waiting g) (hstarted : stopped ref g.calls = false) (duration : Int) :
    Inv waiting (startDecay g ref duration) := by
  rw [Decay.startDecay]
  split
  · exact h
  · rename_i item hitem
    obtain ⟨hinv, hnotMem⟩ := h.restart hitem
    refine (hinv.reschedule duration).insert ?_ ?_ _
    · rwa [reschedule_decayMap]
    · rwa [reschedule_calls, restart_calls]

theorem stopped_startDecay (calls : List Call) : stopped ref (.startDecay ref :: calls) = false := if_pos rfl

theorem Inv.game_startDecay (h : Inv waiting g)
    (hwaiting : ∀ item, g.items ref = some item → Game.startStops types item = true → ref ∉ waiting) :
    Inv waiting (g.startDecay types ref) := by
  rw [Game.startDecay]
  split
  · exact h
  · rename_i item hitem
    split
    · rename_i hstops
      exact h.game_stopDecay fun _ => hwaiting item hitem hstops
    · split
      · exact h
      · dsimp only
        split
        · exact h.call_startDecay.startDecay (stopped_startDecay _) _
        · exact h.call_startDecay.internalDecayItem (stopped_startDecay _)

/-! ## Commands -/

theorem setID_spec (item : Item) (newid random : Nat) :
    (item.setID types newid random).durationTimestamp = item.durationTimestamp ∧
      (item.decayState ≠ none → (item.setID types newid random).decayState ≠ none) ∧
      ((item.setID types newid random).decayState = some .DECAYING_TRUE → item.decayState = some .DECAYING_TRUE) := by
  cases hstate : item.decayState with
  | none => grind [Item.setID, Item.clearDuration, Item.setDecaying, Item.setDuration]
  | some state => grind [Item.setID, Item.clearDuration, Item.setDecaying, Item.setDuration]

/-- What no waiting item is stopped by keeps the invariant. -/
theorem Inv.run (h : Inv waiting g) (c : Command) (hstops : ∀ ref ∈ waiting, ¬ stops types g c ref) :
    Inv waiting (run types g c) := by
  cases c with
  | startDecay ref =>
    exact h.game_startDecay fun item hitem hstarts hmem => hstops ref hmem ⟨rfl, item, hitem, hstarts⟩
  | stopDecay ref => exact h.game_stopDecay fun hsome hmem => hstops ref hmem ⟨rfl, hsome⟩
  | setDuration ref duration =>
    refine Inv.game_startDecay (h.setItem (fun _ _ => ⟨rfl, fun _ => Option.some_ne_none _⟩) fun _ htrue => ?_) ?_
    · cases htrue
    · -- the item is pending, which `startDecay` does not stop
      intro item hitem hstarts
      rcases items_setItem hitem with ⟨hne, -⟩ | ⟨-, item, -, rfl⟩
      · exact absurd rfl hne
      · simp [Game.startStops, Item.getDecaying, Item.setDuration, Item.setDecaying] at hstarts
  | setID ref newid random =>
    exact h.setItem (fun _ item => ⟨(setID_spec item newid random).1, (setID_spec item newid random).2.1⟩)
      fun item => (setID_spec item newid random).2.2
  | change ref isRemoved hasUniqueId durationMin durationMax =>
    exact h.setItem (fun _ _ => ⟨rfl, id⟩) fun _ => id
  | release ref => exact h.release

/-! ## Scheduling -/

/-- The clock stands still, new keys come soon but have not expired, and the check is early enough. -/
structure Keeps (g g' : Game) : Prop where
  time : g'.time = g.time
  soon : Soon g → Soon g'
  unexpired : Unexpired g → Unexpired g'
  covered : Covered g → Covered g'

theorem Keeps.refl (g : Game) : Keeps g g := ⟨rfl, id, id, id⟩

theorem Keeps.trans {g g' g'' : Game} (h : Keeps g g') (h' : Keeps g' g'') : Keeps g g'' :=
  ⟨h'.time.trans h.time, h'.soon ∘ h.soon, h'.unexpired ∘ h.unexpired, h'.covered ∘ h.covered⟩

/-- The map may lose keys. -/
theorem Keeps.of_keys {g g' : Game} (htime : g'.time = g.time) (hevents : g'.events = g.events)
    (heventId : g'.eventId = g.eventId) (hkeys : ∀ entry ∈ g'.decayMap, ∃ old ∈ g.decayMap, old.1 = entry.1) :
    Keeps g g' := by
  refine ⟨htime, fun hsoon entry hentry => ?_, fun hunexpired entry hentry => ?_, fun hcovered => ?_⟩
  · obtain ⟨old, hold, heq⟩ := hkeys entry hentry
    rw [htime, ← heq]
    exact hsoon old hold
  · obtain ⟨old, hold, heq⟩ := hkeys entry hentry
    rw [htime, ← heq]
    exact hunexpired old hold
  · rcases hcovered with hempty | ⟨e, he, hid, hdue⟩
    · refine .inl (List.eq_nil_iff_forall_not_mem.mpr fun entry hentry => ?_)
      obtain ⟨old, hold, -⟩ := hkeys entry hentry
      rw [hempty] at hold
      cases hold
    · refine .inr ⟨e, by rwa [hevents], by rwa [heventId], fun entry hentry => ?_⟩
      obtain ⟨old, hold, heq⟩ := hkeys entry hentry
      rw [← heq]
      exact hdue old hold

theorem keeps_same {g g' : Game} (htime : g'.time = g.time) (hevents : g'.events = g.events)
    (heventId : g'.eventId = g.eventId) (hmap : g'.decayMap = g.decayMap) : Keeps g g' :=
  Keeps.of_keys htime hevents heventId fun entry hentry => ⟨entry, hmap ▸ hentry, rfl⟩

theorem keeps_setItem (f : Item → Item) : Keeps g (g.setItem ref f) := keeps_same rfl rfl rfl rfl

theorem keeps_call (c : Call) : Keeps g (g.call c) := keeps_same rfl rfl rfl rfl

theorem keeps_stopDecay (timestamp : Int) : Keeps g (stopDecay g ref timestamp) := by
  rw [stopDecay]
  split
  · exact Keeps.refl g
  · split
    · exact Keeps.refl g
    · split
      · exact Keeps.of_keys rfl rfl rfl fun entry hentry => DecayMap.key_erase hentry
      · exact Keeps.refl g

theorem keeps_game_stopDecay : Keeps g (g.stopDecay ref) := by
  rw [Game.stopDecay]
  split
  · exact Keeps.refl g
  · dsimp only
    split
    · split
      · exact ((keeps_call _).trans (keeps_stopDecay _)).trans (keeps_setItem _)
      · exact (keeps_call _).trans (keeps_setItem _)
    · exact keeps_call _

theorem keeps_restart (item : Item) : Keeps g (restart g ref item) := by
  rw [restart]
  split
  · exact keeps_stopDecay _
  · exact Keeps.refl g

theorem clamp_le (time duration : Int) :
    time + clampSchedulerDuration duration ≤ max (time + duration) (time + MIN_TASK_INTERVAL) := by
  rw [clampSchedulerDuration]
  omega

/-- The check covers the new timestamp also. -/
theorem covered_reschedule (hsorted : g.decayMap.Sorted) (hcovered : Covered g) (duration : Int) :
    ∃ e ∈ (reschedule g duration).events, e.id = (reschedule g duration).eventId ∧
      e.scheduledAt + e.delay ≤ max (g.time + duration) (e.scheduledAt + MIN_TASK_INTERVAL) ∧
      ∀ entry ∈ g.decayMap, e.scheduledAt + e.delay ≤ max entry.1 (e.scheduledAt + MIN_TASK_INTERVAL) := by
  rw [reschedule]
  split
  · rename_i hempty
    refine ⟨⟨g.lastEventId + 1, g.time, clampSchedulerDuration duration⟩, List.mem_append_right _ List.mem_cons_self, rfl,
      clamp_le _ _, ?_⟩
    rw [hempty]
    exact fun entry hentry => absurd hentry List.not_mem_nil
  · rename_i first bucket decayMap heq
    split
    · refine ⟨⟨g.lastEventId + 1, g.time, clampSchedulerDuration duration⟩, List.mem_append_right _ List.mem_cons_self,
        rfl, clamp_le _ _, fun entry hentry => ?_⟩
      have hle := hsorted.first_le heq hentry
      have hclamp := clamp_le g.time duration
      change g.time + clampSchedulerDuration duration ≤ max entry.1 (g.time + MIN_TASK_INTERVAL)
      omega
    · rcases hcovered with hempty | ⟨e, he, hid, hdue⟩
      · rw [hempty] at heq
        cases heq
      · have hle := hdue (first, bucket) (by rw [heq]; exact List.mem_cons_self)
        refine ⟨e, he, hid, ?_, hdue⟩
        dsimp only at hle
        omega

@[simp] theorem reschedule_time (duration : Int) : (reschedule g duration).time = g.time := by
  rw [reschedule]
  split
  · rfl
  · split
    · rfl
    · rfl

theorem keeps_insert (hsorted : g.decayMap.Sorted) {duration : Int} (hpos : 0 < duration) (hlt : duration < 2 ^ 31) :
    Keeps g (insert (reschedule g duration) ref (g.time + duration)) := by
  have hkey {entry : Int × List Nat}
      (hentry : entry ∈ (insert (reschedule g duration) ref (g.time + duration)).decayMap) :
      entry.1 = g.time + duration ∨ ∃ old ∈ g.decayMap, old.1 = entry.1 := by
    change _ ∈ (reschedule g duration).decayMap.emplaceBack _ _ at hentry
    rw [reschedule_decayMap] at hentry
    exact DecayMap.key_emplaceBack hentry
  have htime : (insert (reschedule g duration) ref (g.time + duration)).time = g.time := reschedule_time duration
  refine ⟨htime, fun hsoon entry hentry => ?_, fun hunexpired entry hentry => ?_, fun hcovered => .inr ?_⟩
  · rw [htime]
    rcases hkey hentry with heq | ⟨old, hold, heq⟩
    · omega
    · rw [← heq]
      exact hsoon old hold
  · rw [htime]
    rcases hkey hentry with heq | ⟨old, hold, heq⟩
    · omega
    · rw [← heq]
      exact hunexpired old hold
  · obtain ⟨e, he, hid, hnew, hold⟩ := covered_reschedule hsorted hcovered duration
    refine ⟨e, he, hid, fun entry hentry => ?_⟩
    rcases hkey hentry with heq | ⟨old, hold', heq⟩
    · rw [heq]
      exact hnew
    · rw [← heq]
      exact hold old hold'

theorem keeps_startDecay (h : Inv waiting g) {duration : Int} (hpos : 0 < duration) (hlt : duration < 2 ^ 31) :
    Keeps g (startDecay g ref duration) := by
  rw [startDecay]
  split
  · exact Keeps.refl g
  · rename_i item hitem
    exact (keeps_restart item).trans (keeps_insert (h.restart hitem).1.sorted hpos hlt)

theorem int32_lt (n : Int) : int32 n < 2 ^ 31 := Int.bmod_lt (by decide)

theorem int32_of_lt {n : Int} (hpos : 0 ≤ n) (hlt : n < 2 ^ 31) : int32 n = n :=
  Int.bmod_eq_of_le (by omega) (by omega)

theorem keeps_game_startDecay (h : Inv waiting g) : Keeps g (g.startDecay types ref) := by
  rw [Game.startDecay]
  split
  · exact Keeps.refl g
  · split
    · exact keeps_game_stopDecay
    · split
      · exact Keeps.refl g
      · dsimp only
        split
        · rename_i hpos
          exact (keeps_call _).trans (keeps_startDecay h.call_startDecay hpos (int32_lt _))
        · exact (keeps_call _).trans (keeps_call _)

theorem keeps_run (h : Inv waiting g) (c : Command) : Keeps g (run types g c) := by
  cases c with
  | startDecay ref => exact keeps_game_startDecay h
  | stopDecay ref => exact keeps_game_stopDecay
  | setDuration ref duration =>
    have hinv : Inv waiting (g.setItem ref fun item => (item.setDecaying .DECAYING_PENDING).setDuration duration) :=
      h.setItem (fun _ _ => ⟨rfl, fun _ => Option.some_ne_none _⟩) fun _ htrue => by cases htrue
    exact (keeps_setItem _).trans (keeps_game_startDecay hinv)
  | setID ref newid random => exact keeps_setItem _
  | change ref isRemoved hasUniqueId durationMin durationMax => exact keeps_setItem _
  | release ref => exact keeps_same rfl rfl rfl rfl

/-! ## Batches -/

/-- An item that is gone or does not decay need not wait. -/
theorem Inv.tail {batch : List Nat} (h : Inv (ref :: batch) g)
    (hdone : ∀ item, g.items ref = some item → item.decayState ≠ some .DECAYING_TRUE) : Inv batch g := by
  refine ⟨h.sorted, h.nodup, h.timestamps, fun ref' item hitem htrue => ?_,
    fun ref' href => h.started ref' (href.imp id (List.mem_cons_of_mem _)), h.obeys⟩
  rcases h.decaying ref' item hitem htrue with hmem | hmem
  · exact .inl hmem
  · rcases List.mem_cons.mp hmem with rfl | hmem
    · exact absurd htrue (hdone item hitem)
    · exact .inr hmem

theorem Inv.setItem_false {batch : List Nat} (h : Inv (ref :: batch) g) {f : Item → Item}
    (htimestamp : ∀ item, (f item).durationTimestamp = item.durationTimestamp)
    (hfalse : ∀ item, (f item).decayState = some .DECAYING_FALSE) : Inv batch (g.setItem ref f) := by
  refine @Inv.tail _ ref batch (h.setItem (fun _ item => ⟨htimestamp item, fun _ => ?_⟩) fun item htrue => ?_) ?_
  · rw [hfalse item]
    exact Option.some_ne_none _
  · rw [hfalse item] at htrue
    cases htrue
  · intro item' hitem' htrue
    rcases items_setItem hitem' with ⟨hne, -⟩ | ⟨-, item, -, rfl⟩
    · exact absurd rfl hne
    · rw [hfalse item] at htrue
      cases htrue

theorem Inv.processItem {batch : List Nat} {actions : Nat → List Command} (h : Inv (ref :: batch) g)
    (hactions : ∀ item, g.items ref = some item → item.canDecay types = true →
      Along (Decay.run types) (fun g c => ∀ ref' ∈ batch, ¬ stops types g c ref')
        ((g.setItem ref fun item => item.setDecaying .DECAYING_FALSE).internalDecayItem ref) (actions ref)) :
    Inv batch (processItem types actions g ref) ∧ Keeps g (processItem types actions g ref) := by
  rw [Decay.processItem]
  split
  · rename_i hnone
    refine ⟨h.tail fun item hitem => ?_, Keeps.refl g⟩
    rw [hnone] at hitem
    cases hitem
  · rename_i item hitem
    have hstarted : stopped ref g.calls = false := h.started ref (.inr List.mem_cons_self)
    split
    · exact ⟨h.setItem_false (fun _ => rfl) fun _ => rfl, keeps_setItem _⟩
    · rename_i hcan
      have hfalse : Inv batch (g.setItem ref fun item => item.setDecaying .DECAYING_FALSE) :=
        h.setItem_false (fun _ => rfl) fun _ => rfl
      have hinv := hfalse.internalDecayItem hstarted
      have hkeeps : Keeps g ((g.setItem ref fun item => item.setDecaying .DECAYING_FALSE).internalDecayItem ref) :=
        (keeps_setItem _).trans (keeps_call _)
      -- no command of the action stops an item that waits
      exact (Along.of_invariant (P := fun _ _ => True) (fun g' => Inv batch g' ∧ Keeps g g')
        (fun g' c ⟨h', hk⟩ hc => ⟨⟨h'.run c hc, hk.trans (keeps_run h' c)⟩, trivial⟩) (actions ref) _ ⟨hinv, hkeeps⟩
        (hactions item hitem (by simpa using hcan))).2

theorem Inv.processDecayBatch {batch : List Nat} {actions : Nat → List Command} (h : Inv batch g)
    (hallowed : AllowedBatch types actions g batch) :
    Inv [] (processDecayBatch types actions batch g) ∧ Keeps g (processDecayBatch types actions batch g) := by
  induction batch generalizing g with
  | nil => exact ⟨h, Keeps.refl g⟩
  | cons ref batch ih =>
    obtain ⟨hinv, hkeeps⟩ := h.processItem hallowed.1
    obtain ⟨hinv', hkeeps'⟩ := ih hinv hallowed.2
    exact ⟨hinv', hkeeps.trans hkeeps'⟩

/-- What holds between events. -/
structure Valid (g : Game) : Prop where
  inv : Inv [] g
  soon : Soon g
  covered : Covered g

theorem Inv.expire (h : Inv [] g) (id : Nat) : Inv (expiredItems g) (Decay.expire g id) := by
  have hrefs : g.decayMap.refs = expiredItems g ++ (Decay.expire g id).decayMap.refs := by
    change g.decayMap.flatMap Prod.snd = (g.decayMap.takeWhile _).flatMap Prod.snd ++ (g.decayMap.dropWhile _).flatMap Prod.snd
    rw [← List.flatMap_append, List.takeWhile_append_dropWhile]
  have hsub : (Decay.expire g id).decayMap.Sublist g.decayMap := List.dropWhile_sublist _
  refine ⟨h.sorted.sublist hsub, ?_, fun timestamp ref item ⟨bucket, hmem, href⟩ hitem =>
    h.timestamps timestamp ref item ⟨bucket, hsub.subset hmem, href⟩ hitem, fun ref item hitem htrue => ?_,
    fun ref href => h.started ref (.inl ?_), h.obeys⟩
  · have hnodup := h.nodup
    rw [hrefs] at hnodup
    exact (List.nodup_append.mp hnodup).2.1
  · have hmem := (h.decaying ref item hitem htrue).resolve_right List.not_mem_nil
    rw [hrefs] at hmem
    exact (List.mem_append.mp hmem).symm
  · rw [hrefs]
    exact List.mem_append.mpr href.symm

theorem unexpired_expire (hsorted : g.decayMap.Sorted) (id : Nat) : Unexpired (expire g id) := by
  change ∀ entry ∈ g.decayMap.dropWhile fun bucket => bucket.1 ≤ g.time, g.time < entry.1
  generalize g.decayMap = decayMap at hsorted
  induction decayMap with
  | nil => exact fun entry hentry => absurd hentry List.not_mem_nil
  | cons first decayMap ih =>
    obtain ⟨hfirst, hrest⟩ := List.pairwise_cons.mp hsorted
    rw [List.dropWhile_cons]
    split
    · exact ih hrest
    · rename_i hlt
      rw [decide_eq_true_eq, Int.not_le] at hlt
      exact fun entry hentry => Int.lt_of_lt_of_le hlt (hsorted.first_le rfl hentry)

theorem Inv.addEvent (h : Inv waiting g) (delay : Int) : Inv waiting (g.addEvent delay) :=
  ⟨h.sorted, h.nodup, h.timestamps, h.decaying, h.started, h.obeys⟩

theorem Inv.stopEvent (h : Inv waiting g) (id : Nat) : Inv waiting (g.stopEvent id) :=
  ⟨h.sorted, h.nodup, h.timestamps, h.decaying, h.started, h.obeys⟩

theorem covered_addEvent (hsorted : g.decayMap.Sorted) {first : Int × List Nat} {rest : DecayMap}
    (heq : g.decayMap = first :: rest) : Covered (g.addEvent (clampSchedulerDuration (first.1 - g.time))) := by
  refine .inr ⟨⟨g.lastEventId + 1, g.time, clampSchedulerDuration (first.1 - g.time)⟩,
    List.mem_append_right _ List.mem_cons_self, rfl, fun entry hentry => ?_⟩
  have hle := hsorted.first_le heq hentry
  have hclamp := clamp_le g.time (first.1 - g.time)
  change g.time + clampSchedulerDuration (first.1 - g.time) ≤ max entry.1 (g.time + MIN_TASK_INTERVAL)
  omega

theorem Valid.scheduleNextCheck (hinv : Inv [] g) (hsoon : Soon g) (hunexpired : Unexpired g) {first : Int × List Nat}
    {rest : DecayMap} (heq : g.decayMap = first :: rest) : Valid (scheduleNextCheck g first.1) := by
  have hmem : first ∈ g.decayMap := by
    rw [heq]
    exact List.mem_cons_self
  have hlt := hunexpired first hmem
  have hlt' := hsoon first hmem
  rw [Decay.scheduleNextCheck, int32_of_lt (by omega) (by omega)]
  split
  · exact ⟨(hinv.stopEvent _).addEvent _, hsoon, @covered_addEvent (g.stopEvent g.eventId) hinv.sorted _ _ heq⟩
  · exact ⟨hinv.addEvent _, hsoon, covered_addEvent hinv.sorted heq⟩

theorem Valid.checkDecay (h : Valid g) {id : Nat} {actions : Nat → List Command}
    (hallowed : AllowedBatch types actions (expire g id) (expiredItems g)) : Valid (checkDecay types id actions g) := by
  obtain ⟨hinv, hkeeps⟩ := (h.inv.expire id).processDecayBatch hallowed
  have hsoon := hkeeps.soon fun entry hentry => h.soon entry ((List.dropWhile_sublist _).subset hentry)
  have hunexpired := hkeeps.unexpired (unexpired_expire h.inv.sorted id)
  rw [Decay.checkDecay]
  generalize processDecayBatch types actions (expiredItems g) (expire g id) = g' at hinv hsoon hunexpired ⊢
  split
  · rename_i hempty
    exact ⟨hinv, hsoon, .inl hempty⟩
  · rename_i first bucket rest heq
    have hnext := Valid.scheduleNextCheck hinv hsoon hunexpired heq
    exact hnext

theorem items_clear {item : Item} (h : (clear g).items ref = some item) :
    (ref ∈ g.decayMap.refs ∧ item.decayState = none) ∨ ref ∉ g.decayMap.refs ∧ g.items ref = some item := by
  have hitems : (if ref ∈ g.decayMap.refs then (g.items ref).map fun item => { item with decayState := none }
      else g.items ref) = some item := by
    rw [clear] at h
    split at h
    · exact h
    · exact h
  split at hitems
  · rename_i href
    obtain ⟨item', -, rfl⟩ := Option.map_eq_some_iff.mp hitems
    exact .inl ⟨href, rfl⟩
  · rename_i href
    exact .inr ⟨href, hitems⟩

theorem Valid.clear (h : Valid g) : Valid (Decay.clear g) := by
  refine ⟨⟨List.Pairwise.nil, List.nodup_nil, fun timestamp ref item ⟨bucket, hmem, _⟩ => absurd hmem List.not_mem_nil,
    fun ref item hitem htrue => ?_, fun ref href => ?_, ?_⟩, fun entry hentry => absurd hentry List.not_mem_nil, .inl rfl⟩
  · rcases items_clear hitem with ⟨-, hnone⟩ | ⟨hnotMem, hitem⟩
    · rw [hnone] at htrue
      cases htrue
    · exact absurd ((h.inv.decaying ref item hitem htrue).resolve_right List.not_mem_nil) hnotMem
  · exact href.elim (fun hmem => absurd hmem List.not_mem_nil) fun hmem => absurd hmem List.not_mem_nil
  · rw [Decay.clear]
    split
    · exact h.inv.obeys
    · exact h.inv.obeys

/-! ## Runs -/

theorem Valid.wait (h : Valid g) (elapsed : Nat) : Valid (g.wait elapsed) := by
  refine ⟨⟨h.inv.sorted, h.inv.nodup, h.inv.timestamps, h.inv.decaying, h.inv.started, h.inv.obeys⟩,
    fun entry hentry => ?_, h.covered⟩
  have hlt := h.soon entry hentry
  change entry.1 < g.time + elapsed + 2 ^ 31
  omega

theorem Valid.step (h : Valid g) {e : Event} (hallowed : Allowed types g e) : Valid (step types g e) := by
  obtain ⟨elapsed, action⟩ := e
  have hwait := h.wait elapsed
  cases action with
  | command c =>
    have hkeeps := @keeps_run types _ _ hwait.inv c
    exact ⟨hwait.inv.run c fun ref hmem => absurd hmem List.not_mem_nil, hkeeps.soon hwait.soon,
      hkeeps.covered hwait.covered⟩
  | clear => exact hwait.clear
  | checkDecay id actions => exact hwait.checkDecay hallowed

theorem Valid.inMap (h : Valid g) {item : Item} (hitem : g.items ref = some item)
    (htrue : item.getDecaying = .DECAYING_TRUE) : InMap g ref item := by
  have hmem := (h.inv.decaying ref item hitem (getDecaying_eq_true htrue)).resolve_right List.not_mem_nil
  obtain ⟨timestamp, bucket, hbucket, href⟩ := DecayMap.mem_refs.mp hmem
  exact ⟨⟨timestamp, bucket, (h.inv.timestamps timestamp ref item ⟨bucket, hbucket, href⟩ hitem).1, hbucket, href⟩,
    List.count_eq_one_of_mem h.inv.nodup hmem⟩

theorem Valid.scheduled (h : Valid g) : Scheduled g := by
  intro entry hentry
  rcases h.covered with hempty | ⟨e, he, hid, hdue⟩
  · rw [hempty] at hentry
    cases hentry
  · exact ⟨e, he, hid, hdue entry (List.mem_of_mem_head? hentry)⟩

/-- No item has begun to decay. -/
structure Start (g : Game) : Prop where
  decayMap : g.decayMap = []
  calls : g.calls = []
  items : ∀ ref item, g.items ref = some item → item.decayState ≠ some .DECAYING_TRUE

theorem Start.valid (h : Start g) : Valid g := by
  refine ⟨⟨?_, ?_, ?_, fun ref item hitem htrue => absurd htrue (h.items ref item hitem), ?_, ?_⟩, ?_, .inl h.decayMap⟩
  · rw [h.decayMap]
    exact List.Pairwise.nil
  · rw [h.decayMap]
    exact List.nodup_nil
  · rintro timestamp ref item ⟨bucket, hmem, -⟩
    rw [h.decayMap] at hmem
    cases hmem
  · intro ref _
    rw [h.calls]
    rfl
  · rw [h.calls]
    trivial
  · intro entry hentry
    rw [h.decayMap] at hentry
    cases hentry

/-- As long as no decay stops an item that comes later in its batch, decaying items are in the map once, the check comes
in time, and stopped items do not decay. -/
theorem decay_of_allowed (hstart : Start g) {es : List Event} (hrun : Along (step types) (Allowed types) g es) :
    Along (step types) (Right types) g es := by
  refine (Along.of_invariant Valid (fun g e h hallowed => ?_) es g hstart.valid hrun).1
  have hvalid := h.step hallowed
  exact ⟨hvalid, fun ref item hitem htrue => hvalid.inMap hitem htrue, hvalid.scheduled, hvalid.inv.obeys⟩

/-- Two items that decay after a second. -/
def twoItems : Game where
  items := fun ref => if ref < 2 then some { id := 1, duration := some 1000 } else none
  time := 0

def decays : Nat → ItemType := fun _ => { decayTo := 0, decayTimeMin := 1 }

theorem start_twoItems : Start twoItems := by
  refine ⟨rfl, rfl, fun ref item hitem htrue => ?_⟩
  change (if ref < 2 then some { id := 1, duration := some 1000 } else none) = some item at hitem
  split at hitem
  · cases hitem
    cases htrue
  · cases hitem

/-- The first item is gone and the second decays. -/
theorem decay_of_allowed_release :
    Along (step decays) (Right decays) twoItems
      [⟨0, .command (.startDecay 0)⟩, ⟨5, .command (.startDecay 1)⟩, ⟨1000, .checkDecay 1 fun ref => [.release ref]⟩] := by
  refine decay_of_allowed start_twoItems ⟨trivial, trivial, ⟨fun _ _ _ => ⟨?_, trivial⟩, fun _ _ _ => ⟨?_, trivial⟩, trivial⟩, trivial⟩
  · exact fun _ _ hstops => hstops
  · exact fun _ _ hstops => hstops

/-- The first item stops the second, which decays nevertheless. -/
theorem not_right_checkDecay :
    ¬ Along (step decays) (Right decays) twoItems
      [⟨0, .command (.startDecay 0)⟩, ⟨0, .command (.startDecay 1)⟩,
        ⟨1000, .checkDecay 1 fun ref => if ref = 0 then [.stopDecay 1] else []⟩] := by
  intro ⟨_, _, h, _⟩
  have hobeys := h.obeys
  have hcalls : (List.foldl (step decays) twoItems
      [⟨0, .command (.startDecay 0)⟩, ⟨0, .command (.startDecay 1)⟩,
        ⟨1000, .checkDecay 1 fun ref => if ref = 0 then [.stopDecay 1] else []⟩]).calls =
      [.internalDecayItem 1, .stopDecay 1, .internalDecayItem 0, .startDecay 1, .startDecay 0] := by decide
  rw [List.foldl_cons, List.foldl_cons, List.foldl_cons, List.foldl_nil] at hcalls
  rw [hcalls] at hobeys
  cases hobeys.1

end ForgottenServer.Decay
