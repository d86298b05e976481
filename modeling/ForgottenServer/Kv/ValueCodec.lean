import ForgottenServer.Kv.Runs
import ForgottenServer.Kv.ValueRoundTrip

/-! # The codec of the store

Whatever bytes a row holds, the value that is read from it has no null pointers and no
collection that is too large: written again, it is read as it is. So the store may forget a
value that it has loaded from its row. -/

namespace ForgottenServer.Kv

open LittleEndian PointerDecoder

namespace Value

/-- Written and read, the value is the same. -/
def Clean (v : Value) : Prop := Fits maxCount v ∧ filled v = v

theorem Clean.array {items : List Value} (hlen : items.length ≤ maxCount) (h : ∀ v ∈ items, Clean v) :
    Clean (array items) := by
  refine ⟨.array hlen fun v hv => (h v hv).1, ?_⟩
  have hitems : items.map filled = items.map id := List.map_congr_left fun v hv => (h v hv).2
  rw [filled, filledItems_eq, hitems, List.map_id]

/-- An entry that a map of the decoder can have. -/
def CleanEntry (e : List UInt8 × Option Value) : Prop :=
  e.1.length < 2 ^ 32 ∧ ∃ v, e.2 = some v ∧ Clean v

theorem Clean.map {entries : List (List UInt8 × Option Value)} (hlen : entries.length ≤ maxCount)
    (hkeys : (entries.map Prod.fst).Nodup) (h : ∀ e ∈ entries, CleanEntry e) : Clean (map entries) := by
  have hfits : ∀ e ∈ entries, ∀ v, e.2 = some v → Fits maxCount v := by
    intro e he v hv
    obtain ⟨-, w, hw, hclean⟩ := h e he
    rw [hw, Option.some.injEq] at hv
    exact hv ▸ hclean.1
  have hfilled : (entries.map fun e => (e.1, some (filledPointer e.2))) = entries.map id := by
    refine List.map_congr_left fun e he => ?_
    obtain ⟨-, w, hw, hclean⟩ := h e he
    rw [hw, filledPointer, hclean.2, ← hw]
    rfl
  refine ⟨.map hlen hkeys (fun e he => (h e he).1) hfits, ?_⟩
  rw [filled, filledEntries_eq, hfilled, List.map_id]

theorem clean_string {s : List UInt8} (h : s.length < 2 ^ 32) : Clean (string s) := ⟨.string h, rfl⟩

theorem clean_blank : Clean blank := clean_string (by norm_num)

/-! ## Assigning the entries of a map -/

theorem map_fst_assign (entries : List (List UInt8 × Option Value)) (e : List UInt8 × Value) :
    (assign entries e).map Prod.fst =
      if e.1 ∈ entries.map Prod.fst then entries.map Prod.fst else entries.map Prod.fst ++ [e.1] := by
  have hany : (entries.any fun f => f.1 = e.1) = true ↔ e.1 ∈ entries.map Prod.fst := by
    simp [List.any_eq_true]
  rw [assign]
  by_cases hmem : e.1 ∈ entries.map Prod.fst
  · rw [if_pos (hany.mpr hmem), if_pos hmem, List.map_map]
    refine List.map_congr_left fun f _ => ?_
    by_cases hf : f.1 = e.1 <;> simp [hf]
  · rw [if_neg (mt hany.mp hmem), if_neg hmem, List.map_append]
    rfl

/-- What holds of the map after its first `n` entries. -/
structure Assigned (n : ℕ) (entries : List (List UInt8 × Option Value)) : Prop where
  length_le : entries.length ≤ n
  keys : (entries.map Prod.fst).Nodup
  clean : ∀ e ∈ entries, CleanEntry e

theorem Assigned.assign {n : ℕ} {entries : List (List UInt8 × Option Value)} (h : Assigned n entries)
    {e : List UInt8 × Value} (hkey : e.1.length < 2 ^ 32) (hval : Clean e.2) :
    Assigned (n + 1) (assign entries e) := by
  have hnew : CleanEntry (e.1, some e.2) := ⟨hkey, e.2, rfl, hval⟩
  have hfst := map_fst_assign entries e
  refine ⟨?_, ?_, ?_⟩
  · have hlen := congrArg List.length hfst
    have hle := h.length_le
    rw [List.length_map] at hlen
    split at hlen <;> simp only [List.length_append, List.length_map, List.length_singleton] at hlen <;> omega
  · rw [hfst]
    split
    · exact h.keys
    · rename_i hmem
      exact List.nodup_append.mpr ⟨h.keys, List.nodup_singleton _, by
        intro k hk k' hk' heq
        rw [List.mem_singleton] at hk'
        exact hmem (hk' ▸ heq ▸ hk)⟩
  · intro f hf
    rw [Value.assign] at hf
    split at hf
    · obtain ⟨g, hg, hgf⟩ := List.mem_map.mp hf
      split at hgf
      · rename_i heq
        rw [← hgf, heq]
        exact hnew
      · exact hgf ▸ h.clean g hg
    · rcases List.mem_append.mp hf with hold | hone
      · exact h.clean f hold
      · rw [List.mem_singleton] at hone
        exact hone ▸ hnew

theorem Assigned.foldl {es : List (List UInt8 × Value)} (hes : ∀ e ∈ es, e.1.length < 2 ^ 32 ∧ Clean e.2) :
    ∀ {n : ℕ} {entries : List (List UInt8 × Option Value)}, Assigned n entries →
      Assigned (n + es.length) (es.foldl Value.assign entries) := by
  induction es with
  | nil => exact fun h => h
  | cons e es ih =>
    intro n entries h
    rw [List.forall_mem_cons] at hes
    have hrest := ih hes.2 (h.assign hes.1.1 hes.1.2)
    rwa [List.foldl_cons, List.length_cons, Nat.add_comm es.length, ← Nat.add_assoc]

/-! ## What is read is clean -/

theorem ensures_readLEChecked (k : ℕ) : Decoder.Ensures (fun n => n < 256 ^ k) (readLEChecked k) := by
  refine (Decoder.Ensures.readChecked _ k).bind fun bytes hlen => Decoder.Ensures.pure ?_
  exact hlen ▸ leNat_lt bytes

/-- A length, and as many bytes. -/
theorem ensures_lengthThen {β : Type} {Q : β → Prop} {f : List UInt8 → Decoder Error β}
    (h : ∀ s : List UInt8, s.length < 2 ^ 32 → Decoder.Ensures Q (f s)) :
    Decoder.Ensures Q (do
      let len ← readLEChecked 4
      let s ← Decoder.readChecked .unexpectedEnd len
      f s) := by
  refine (ensures_readLEChecked 4).bind fun len hlen => (Decoder.Ensures.readChecked _ len).bind fun s hs => h s ?_
  rw [hs]
  exact hlen.trans_eq (by norm_num)

variable {self : Decoder Error Value}

theorem ensures_deserArray (h : Decoder.Ensures Clean self) : Decoder.Ensures Clean (deserArray self) := by
  refine (Decoder.Ensures.trivial _).bind fun count _ => (Decoder.Ensures.trivial _).bind fun remaining _ => ?_
  split
  · exact .throw _ _
  · refine (h.replicate count).bind fun items hitems => .pure (Clean.array ?_ hitems.2)
    omega

theorem ensures_deserEntry (h : Decoder.Ensures Clean self) :
    Decoder.Ensures (fun e => e.1.length < 2 ^ 32 ∧ Clean e.2) (deserEntry self) :=
  ensures_lengthThen fun _ hkey => h.bind fun _ hval => .pure ⟨hkey, hval⟩

theorem ensures_deserMap (h : Decoder.Ensures Clean self) : Decoder.Ensures Clean (deserMap self) := by
  refine (Decoder.Ensures.trivial _).bind fun count _ => (Decoder.Ensures.trivial _).bind fun remaining _ => ?_
  split
  · exact .throw _ _
  · refine ((ensures_deserEntry h).replicate count).bind fun entries hentries => .pure ?_
    have hempty : Assigned 0 [] := ⟨le_rfl, List.nodup_nil, by simp⟩
    have hall := hempty.foldl hentries.2
    have hle := hall.length_le
    exact Clean.map (by omega) hall.keys hall.clean

theorem ensures_deserBody (h : Decoder.Ensures Clean self) (t : Option SerType) :
    Decoder.Ensures Clean (deserBody self t) := by
  rcases t with _ | t
  · exact .pure clean_blank
  · cases t with
    | null => exact .pure clean_blank
    | bool => exact (Decoder.Ensures.trivial _).bind fun b _ => .pure ⟨.bool _, rfl⟩
    | int => exact (Decoder.Ensures.trivial _).bind fun n _ => .pure ⟨.int _, rfl⟩
    | double => exact (Decoder.Ensures.trivial _).bind fun bits _ => .pure ⟨.double _, rfl⟩
    | string => exact ensures_lengthThen fun s hs => .pure (clean_string hs)
    | array => exact ensures_deserArray h
    | map => exact ensures_deserMap h

theorem ensures_deser (fuel : ℕ) : Decoder.Ensures Clean (deser fuel) := by
  induction fuel with
  | zero =>
    intro data ptr v ptr' hrun
    cases hrun
  | succ fuel ih => exact (Decoder.Ensures.trivial _).bind fun tag _ => ensures_deserBody ih _

theorem clean_of_deserialize {data : List UInt8} {v : Value} (h : deserialize data = .ok (some v)) : Clean v := by
  rw [deserialize] at h
  split at h
  · cases h
  · split at h
    · rename_i w ptr hrun
      cases h
      exact ensures_deser _ data 0 _ _ hrun
    · cases h
    · cases h

end Value

/-- The codec of the table `kv_store`. -/
def valueCodec : Codec Value (List UInt8) where
  serialize := Value.serialize
  deserialize data := (Value.deserialize data).toOption.join
  blank := Value.blank

theorem valueCodec_survives {v : Value} (h : Value.Clean v) : valueCodec.Survives (.value v) := by
  intro w hw
  cases hw
  show ((Value.deserialize (Value.serialize v)).toOption.join) = some v
  rw [Value.deserialize_serialize h.1, h.2]
  rfl

/-- **What the store has read from a row, it may write and read again.** -/
theorem valueCodec_stable : valueCodec.Stable := by
  intro data v h
  obtain ⟨r, hr⟩ := Value.deserialize_returns data
  have hjoin : ((Value.deserialize data).toOption.join) = some v := h
  rw [hr] at hjoin
  have hsome : r = some v := hjoin
  exact valueCodec_survives (Value.clean_of_deserialize (hsome ▸ hr))

end ForgottenServer.Kv
