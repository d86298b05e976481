import Mathlib
import ForgottenServer.Decay.Decay

/-! # The map of the decay scheduler

Its keys are in order, and every reference that is put in or taken out is so once. -/

namespace ForgottenServer.Decay.DecayMap

variable {decayMap : DecayMap} {timestamp : Int} {ref : Nat}

def Sorted (decayMap : DecayMap) : Prop := decayMap.Pairwise fun a b => a.1 < b.1

/-- The bucket of the timestamp holds the reference. -/
def Holds (decayMap : DecayMap) (timestamp : Int) (ref : Nat) : Prop :=
  ∃ bucket, (timestamp, bucket) ∈ decayMap ∧ ref ∈ bucket

theorem mem_refs : ref ∈ decayMap.refs ↔ ∃ timestamp, decayMap.Holds timestamp ref := by
  rw [refs, List.mem_flatMap]
  constructor
  · intro ⟨⟨key, bucket⟩, hmem, href⟩
    exact ⟨key, bucket, hmem, href⟩
  · intro ⟨key, bucket, hmem, href⟩
    exact ⟨(key, bucket), hmem, href⟩

/-! ## `emplaceBack` -/

theorem refs_emplaceBack : (decayMap.emplaceBack timestamp ref).refs.Perm (ref :: decayMap.refs) := by
  induction decayMap with
  | nil => exact List.Perm.refl _
  | cons entry decayMap ih =>
    obtain ⟨key, bucket⟩ := entry
    rw [emplaceBack]
    split
    · exact List.Perm.refl _
    · split
      · change ((bucket ++ [ref]) ++ refs decayMap).Perm (ref :: (bucket ++ refs decayMap))
        rw [List.append_assoc]
        exact List.perm_middle
      · change (bucket ++ refs _).Perm (ref :: (bucket ++ refs decayMap))
        exact (ih.append_left bucket).trans List.perm_middle

theorem holds_emplaceBack {timestamp' : Int} {ref' : Nat}
    (h : (decayMap.emplaceBack timestamp ref).Holds timestamp' ref') :
    decayMap.Holds timestamp' ref' ∨ timestamp' = timestamp ∧ ref' = ref := by
  obtain ⟨bucket', hmem, href⟩ := h
  induction decayMap with
  | nil =>
    cases List.mem_singleton.mp hmem
    exact .inr ⟨rfl, List.mem_singleton.mp href⟩
  | cons entry decayMap ih =>
    obtain ⟨key, bucket⟩ := entry
    rw [emplaceBack] at hmem
    split at hmem
    · rcases List.mem_cons.mp hmem with heq | hmem
      · cases heq
        exact .inr ⟨rfl, List.mem_singleton.mp href⟩
      · exact .inl ⟨bucket', hmem, href⟩
    · split at hmem
      · rename_i hkey
        rcases List.mem_cons.mp hmem with heq | hmem
        · cases heq
          rcases List.mem_append.mp href with href | href
          · exact .inl ⟨_, List.mem_cons_self, href⟩
          · exact .inr ⟨hkey.symm, List.mem_singleton.mp href⟩
        · exact .inl ⟨bucket', List.mem_cons_of_mem _ hmem, href⟩
      · rcases List.mem_cons.mp hmem with heq | hmem
        · cases heq
          exact .inl ⟨_, List.mem_cons_self, href⟩
        · exact (ih hmem).imp (fun ⟨b, hb, hr⟩ => ⟨b, List.mem_cons_of_mem _ hb, hr⟩) id

theorem key_emplaceBack {entry : Int × List Nat} (h : entry ∈ decayMap.emplaceBack timestamp ref) :
    entry.1 = timestamp ∨ ∃ old ∈ decayMap, old.1 = entry.1 := by
  induction decayMap with
  | nil =>
    cases List.mem_singleton.mp h
    exact .inl rfl
  | cons first decayMap ih =>
    obtain ⟨key, bucket⟩ := first
    rw [emplaceBack] at h
    split at h
    · rcases List.mem_cons.mp h with heq | h
      · cases heq
        exact .inl rfl
      · exact .inr ⟨entry, h, rfl⟩
    · split at h
      · rcases List.mem_cons.mp h with heq | h
        · cases heq
          exact .inr ⟨_, List.mem_cons_self, rfl⟩
        · exact .inr ⟨entry, List.mem_cons_of_mem _ h, rfl⟩
      · rcases List.mem_cons.mp h with heq | h
        · cases heq
          exact .inr ⟨_, List.mem_cons_self, rfl⟩
        · exact (ih h).imp id fun ⟨old, hold, heq⟩ => ⟨old, List.mem_cons_of_mem _ hold, heq⟩

theorem Sorted.emplaceBack (h : decayMap.Sorted) : (decayMap.emplaceBack timestamp ref).Sorted := by
  induction decayMap with
  | nil => exact List.pairwise_singleton _ _
  | cons first decayMap ih =>
    obtain ⟨key, bucket⟩ := first
    obtain ⟨hfirst, hrest⟩ := List.pairwise_cons.mp h
    rw [DecayMap.emplaceBack]
    split
    · rename_i hlt
      refine List.pairwise_cons.mpr ⟨fun entry hentry => ?_, h⟩
      rcases List.mem_cons.mp hentry with rfl | hentry
      · exact hlt
      · exact Int.lt_trans hlt (hfirst entry hentry)
    · split
      · exact List.pairwise_cons.mpr ⟨hfirst, hrest⟩
      · rename_i hlt heq
        refine List.pairwise_cons.mpr ⟨fun entry hentry => ?_, ih hrest⟩
        rcases key_emplaceBack hentry with hkey | ⟨old, hold, hkey⟩
        · rw [hkey]
          change key < timestamp
          omega
        · rw [← hkey]
          exact hfirst old hold

/-! ## `erase` -/

theorem perm_swapErase {bucket : List Nat} (h : ref ∈ bucket) : bucket.Perm (ref :: swapErase ref bucket) := by
  have hlt := List.idxOf_lt_length_of_mem h
  have hne : bucket ≠ [] := List.ne_nil_of_mem h
  have hset : bucket.set (bucket.idxOf ref) (bucket.getLastD ref) ≠ [] := by
    rw [Ne, List.set_eq_nil_iff]
    exact hne
  -- the last reference stays the last when it is written to the place of the one that goes
  have hlast : (bucket.set (bucket.idxOf ref) (bucket.getLastD ref)).getLast hset = bucket.getLastD ref := by
    rw [List.getLast_eq_getElem, List.getElem_set]
    split
    · rfl
    · simp only [List.length_set]
      rw [← List.getLast_eq_getElem hne, List.getLastD_eq_getLast?, List.getLast?_eq_some_getLast hne]
      rfl
  have hperm := List.set_perm_cons_eraseIdx hlt (bucket.getLastD ref)
  have hdrop : (bucket.set (bucket.idxOf ref) (bucket.getLastD ref)).Perm (bucket.getLastD ref :: swapErase ref bucket) := by
    conv_lhs => rw [← List.dropLast_concat_getLast hset, hlast]
    exact List.perm_append_singleton _ _
  have herase : (bucket.eraseIdx (bucket.idxOf ref)).Perm (swapErase ref bucket) :=
    ((hperm.symm.trans hdrop).cons_inv)
  rw [← List.erase_eq_eraseIdx_of_idxOf rfl] at herase
  exact (List.perm_cons_erase h).trans (herase.cons ref)

theorem refs_erase {bucket : List Nat} (hlookup : decayMap.lookup timestamp = some bucket) (href : ref ∈ bucket) :
    decayMap.refs.Perm (ref :: (decayMap.erase timestamp ref).refs) := by
  induction decayMap with
  | nil => cases hlookup
  | cons first decayMap ih =>
    obtain ⟨key, first⟩ := first
    rw [List.lookup_cons] at hlookup
    rw [erase]
    split
    · rename_i hkey
      rw [beq_iff_eq.mpr hkey] at hlookup
      cases hlookup
      split
      · rename_i hlength
        obtain ⟨only, rfl⟩ := List.length_eq_one_iff.mp hlength
        obtain rfl := List.mem_singleton.mp href
        exact List.Perm.refl _
      · exact (perm_swapErase href).append_right (refs decayMap)
    · rename_i hkey
      rw [beq_eq_false_iff_ne.mpr hkey] at hlookup
      change (first ++ refs decayMap).Perm (ref :: (first ++ refs (erase timestamp ref decayMap)))
      exact ((ih hlookup).append_left first).trans List.perm_middle

theorem mem_swapErase {bucket : List Nat} {ref' : Nat} (h : ref' ∈ swapErase ref bucket) (href : ref ∈ bucket) :
    ref' ∈ bucket :=
  (perm_swapErase href).mem_iff.mpr (List.mem_cons_of_mem _ h)

theorem holds_erase {bucket : List Nat} (hlookup : decayMap.lookup timestamp = some bucket) (href : ref ∈ bucket)
    {timestamp' : Int} {ref' : Nat} (h : (decayMap.erase timestamp ref).Holds timestamp' ref') :
    decayMap.Holds timestamp' ref' := by
  obtain ⟨bucket', hmem, href'⟩ := h
  induction decayMap with
  | nil => cases hlookup
  | cons first decayMap ih =>
    obtain ⟨key, first⟩ := first
    rw [List.lookup_cons] at hlookup
    rw [erase] at hmem
    split at hmem
    · rename_i hkey
      rw [beq_iff_eq.mpr hkey] at hlookup
      cases hlookup
      split at hmem
      · exact ⟨bucket', List.mem_cons_of_mem _ hmem, href'⟩
      · rcases List.mem_cons.mp hmem with heq | hmem
        · cases heq
          exact ⟨_, List.mem_cons_self, mem_swapErase href' href⟩
        · exact ⟨bucket', List.mem_cons_of_mem _ hmem, href'⟩
    · rename_i hkey
      rw [beq_eq_false_iff_ne.mpr hkey] at hlookup
      rcases List.mem_cons.mp hmem with heq | hmem
      · cases heq
        exact ⟨_, List.mem_cons_self, href'⟩
      · obtain ⟨b, hb, hr⟩ := ih hlookup hmem
        exact ⟨b, List.mem_cons_of_mem _ hb, hr⟩

theorem key_erase {entry : Int × List Nat} (h : entry ∈ decayMap.erase timestamp ref) :
    ∃ old ∈ decayMap, old.1 = entry.1 := by
  induction decayMap with
  | nil => cases h
  | cons first decayMap ih =>
    obtain ⟨key, bucket⟩ := first
    rw [erase] at h
    split at h
    · split at h
      · exact ⟨entry, List.mem_cons_of_mem _ h, rfl⟩
      · rcases List.mem_cons.mp h with heq | h
        · cases heq
          exact ⟨_, List.mem_cons_self, rfl⟩
        · exact ⟨entry, List.mem_cons_of_mem _ h, rfl⟩
    · rcases List.mem_cons.mp h with heq | h
      · cases heq
        exact ⟨_, List.mem_cons_self, rfl⟩
      · obtain ⟨old, hold, heq⟩ := ih h
        exact ⟨old, List.mem_cons_of_mem _ hold, heq⟩

theorem Sorted.erase (h : decayMap.Sorted) : (decayMap.erase timestamp ref).Sorted := by
  induction decayMap with
  | nil => exact h
  | cons first decayMap ih =>
    obtain ⟨key, bucket⟩ := first
    obtain ⟨hfirst, hrest⟩ := List.pairwise_cons.mp h
    rw [DecayMap.erase]
    split
    · split
      · exact hrest
      · exact List.pairwise_cons.mpr ⟨hfirst, hrest⟩
    · refine List.pairwise_cons.mpr ⟨fun entry hentry => ?_, ih hrest⟩
      obtain ⟨old, hold, heq⟩ := key_erase hentry
      rw [← heq]
      exact hfirst old hold

/-! ## The first bucket -/

theorem Sorted.first_le {first : Int × List Nat} {rest : DecayMap} (h : decayMap.Sorted)
    (heq : decayMap = first :: rest) {entry : Int × List Nat} (hentry : entry ∈ decayMap) : first.1 ≤ entry.1 := by
  rw [heq] at h hentry
  rcases List.mem_cons.mp hentry with rfl | hentry
  · exact Int.le_refl _
  · exact Int.le_of_lt ((List.pairwise_cons.mp h).1 entry hentry)

/-! ## `find` -/

theorem Sorted.lookup_eq (h : decayMap.Sorted) {bucket : List Nat} (hmem : (timestamp, bucket) ∈ decayMap) :
    decayMap.lookup timestamp = some bucket := by
  induction decayMap with
  | nil => cases hmem
  | cons first decayMap ih =>
    obtain ⟨key, first⟩ := first
    obtain ⟨hfirst, hrest⟩ := List.pairwise_cons.mp h
    rw [List.lookup_cons]
    rcases List.mem_cons.mp hmem with heq | hmem
    · cases heq
      rw [beq_self_eq_true]
    · have hlt : key < timestamp := hfirst _ hmem
      rw [beq_eq_false_iff_ne.mpr (Int.ne_of_gt hlt)]
      exact ih hrest hmem

end ForgottenServer.Decay.DecayMap
