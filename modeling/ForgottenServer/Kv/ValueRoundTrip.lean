import ForgottenServer.Kv.ValueWrapper

/-! # Values come back from their bytes

The decoder reads back what was written when no collection is too large for it, with the
empty string for a null pointer. -/

namespace ForgottenServer.Kv.Value

open LittleEndian PointerDecoder

/-- Lengths fit their fields, collections have at most `limit` elements, the keys of a map are
distinct. -/
inductive Fits (limit : ℕ) : Value → Prop where
  | string {s : List UInt8} : s.length < 2 ^ 32 → Fits limit (string s)
  | bool (b : Bool) : Fits limit (bool b)
  | int (n : BitVec 32) : Fits limit (int n)
  | double (bits : BitVec 64) : Fits limit (double bits)
  | array {items : List Value} : items.length ≤ limit → (∀ v ∈ items, Fits limit v) → Fits limit (array items)
  | map {entries : List (List UInt8 × Option Value)} : entries.length ≤ limit →
      (entries.map Prod.fst).Nodup → (∀ e ∈ entries, e.1.length < 2 ^ 32) →
      (∀ e ∈ entries, ∀ v, e.2 = some v → Fits limit v) → Fits limit (map entries)

mutual

/-- The value with the empty string for every null pointer. -/
def filled : Value → Value
  | string s => string s
  | bool b => bool b
  | int n => int n
  | double bits => double bits
  | array items => array (filledItems items)
  | map entries => map (filledEntries entries)

def filledItems : List Value → List Value
  | [] => []
  | v :: vs => filled v :: filledItems vs

def filledEntries : List (List UInt8 × Option Value) → List (List UInt8 × Option Value)
  | [] => []
  | (key, val) :: es => (key, some (filledPointer val)) :: filledEntries es

def filledPointer : Option Value → Value
  | none => blank
  | some v => filled v

end

theorem filledItems_eq (items : List Value) : filledItems items = items.map filled := by
  induction items with
  | nil => rfl
  | cons v vs ih => rw [filledItems, ih, List.map_cons]

theorem filledEntries_eq (entries : List (List UInt8 × Option Value)) :
    filledEntries entries = entries.map fun e => (e.1, some (filledPointer e.2)) := by
  induction entries with
  | nil => rfl
  | cons e es ih => rw [filledEntries, ih, List.map_cons]

theorem serializeItems_eq (items : List Value) : serializeItems items = items.flatMap serialize := by
  induction items with
  | nil => rfl
  | cons v vs ih => rw [serializeItems, ih, List.flatMap_cons]

def serializeEntry (e : List UInt8 × Option Value) : List UInt8 :=
  writeSize e.1.length ++ (e.1 ++ serializePointer e.2)

theorem serializeEntries_eq (entries : List (List UInt8 × Option Value)) :
    serializeEntries entries = entries.flatMap serializeEntry := by
  induction entries with
  | nil => rfl
  | cons e es ih => rw [serializeEntries, ih, List.flatMap_cons, serializeEntry]

theorem length_serialize_pos (v : Value) : 0 < (serialize v).length := by
  cases v <;> simp [serialize]

theorem length_le_flatMap {α : Type} {f : α → List UInt8} {xs : List α} {x : α} (hx : x ∈ xs) :
    (f x).length ≤ (xs.flatMap f).length := by
  obtain ⟨before, after, rfl⟩ := List.append_of_mem hx
  simp only [List.flatMap_append, List.flatMap_cons, List.length_append]
  omega

theorem length_le_flatMap_of_pos {α : Type} {f : α → List UInt8} (h : ∀ x, 0 < (f x).length)
    (xs : List α) : xs.length ≤ (xs.flatMap f).length := by
  induction xs with
  | nil => exact Nat.zero_le _
  | cons x xs ih =>
    have hx := h x
    rw [List.flatMap_cons, List.length_append, List.length_cons]
    omega

/-! ## The parts of a value -/

theorem yields_readLEChecked {k n : ℕ} (h : n < 256 ^ k) :
    Decoder.Yields (readLEChecked k) (leBytes k n) n := by
  have hbytes := Decoder.Yields.readChecked Error.unexpectedEnd (leBytes k n)
  rw [length_leBytes] at hbytes
  have hpure : Decoder.Yields (pure (leNat (leBytes k n)) : Decoder Error ℕ) [] n := by
    rw [leNat_leBytes, Nat.mod_eq_of_lt h]
    exact Decoder.Yields.pure n
  exact hbytes.bindNil hpure

theorem yields_size {n : ℕ} (h : n < 2 ^ 32) : Decoder.Yields (readLEChecked 4) (writeSize n) n :=
  yields_readLEChecked (h.trans_eq (by norm_num))

theorem yields_deserString {s : List UInt8} (h : s.length < 2 ^ 32) :
    Decoder.Yields deserString (writeSize s.length ++ s) (string s) :=
  (yields_size h).bind ((Decoder.Yields.readChecked _ s).bindNil (Decoder.Yields.pure _))

variable {self : Decoder Error Value}

theorem yields_deserArray {items : List Value} (hlen : items.length ≤ maxCount)
    (h : ∀ v ∈ items, Decoder.Yields self (serialize v) (filled v)) :
    Decoder.Yields (deserArray self) (writeSize items.length ++ serializeItems items)
      (array (filledItems items)) := by
  have hcount : items.length < 2 ^ 32 := hlen.trans_lt (by norm_num [maxCount])
  refine (yields_size hcount).bind (Decoder.Yields.remaining fun r hr => ?_)
  have hle : items.length ≤ r := by
    rw [serializeItems_eq] at hr
    exact (length_le_flatMap_of_pos length_serialize_pos items).trans hr
  rw [if_neg (by omega), serializeItems_eq, filledItems_eq]
  exact (Decoder.Yields.replicate serialize filled items h).bindNil (Decoder.Yields.pure _)

/-- Distinct keys are appended one after another. -/
theorem foldl_assign {entries : List (List UInt8 × Option Value)} (hkeys : (entries.map Prod.fst).Nodup) :
    ∀ {done : List (List UInt8 × Option Value)}, (∀ e ∈ entries, e.1 ∉ done.map Prod.fst) →
      (entries.map fun e => (e.1, filledPointer e.2)).foldl assign done = done ++ filledEntries entries := by
  induction entries with
  | nil =>
    intro done _
    exact (List.append_nil done).symm
  | cons e es ih =>
    intro done hnew
    rw [List.map_cons, List.nodup_cons] at hkeys
    have hfresh : (done.any fun f => f.1 = e.1) = false := by
      rw [List.any_eq_false]
      intro f hf heq
      exact hnew e (List.mem_cons_self ..) (List.mem_map.mpr ⟨f, hf, of_decide_eq_true heq⟩)
    have hassign : assign done (e.1, filledPointer e.2) = done ++ [(e.1, some (filledPointer e.2))] := by
      rw [assign, hfresh, if_neg (by simp)]
    rw [List.map_cons, List.foldl_cons, hassign, ih hkeys.2, filledEntries, List.append_assoc]
    · rfl
    · intro f hf
      have hne : f.1 ≠ e.1 := fun heq => hkeys.1 (heq ▸ List.mem_map_of_mem hf)
      have hold := hnew f (List.mem_cons_of_mem e hf)
      simp [hold, hne]

theorem yields_deserEntry {e : List UInt8 × Option Value} (hkey : e.1.length < 2 ^ 32)
    (h : Decoder.Yields self (serializePointer e.2) (filledPointer e.2)) :
    Decoder.Yields (deserEntry self) (serializeEntry e) (e.1, filledPointer e.2) :=
  (yields_size hkey).bind ((Decoder.Yields.readChecked _ e.1).bind (h.bindNil (Decoder.Yields.pure _)))

theorem yields_deserMap {entries : List (List UInt8 × Option Value)} (hlen : entries.length ≤ maxCount)
    (hkeys : (entries.map Prod.fst).Nodup) (hkey : ∀ e ∈ entries, e.1.length < 2 ^ 32)
    (h : ∀ e ∈ entries, Decoder.Yields self (serializePointer e.2) (filledPointer e.2)) :
    Decoder.Yields (deserMap self) (writeSize entries.length ++ serializeEntries entries)
      (map (filledEntries entries)) := by
  have hcount : entries.length < 2 ^ 32 := hlen.trans_lt (by norm_num [maxCount])
  refine (yields_size hcount).bind (Decoder.Yields.remaining fun r hr => ?_)
  have hpos : ∀ e, 0 < (serializeEntry e).length := by
    intro e
    simp [serializeEntry, writeSize]
  have hle : entries.length ≤ r := by
    rw [serializeEntries_eq] at hr
    exact (length_le_flatMap_of_pos hpos entries).trans hr
  have hnew : ∀ e ∈ entries, e.1 ∉ ([] : List (List UInt8 × Option Value)).map Prod.fst := by simp
  have hdone := foldl_assign hkeys hnew
  rw [List.nil_append] at hdone
  rw [if_neg (by omega), serializeEntries_eq, ← hdone]
  exact (Decoder.Yields.replicate serializeEntry _ entries
    fun e he => yields_deserEntry (hkey e he) (h e he)).bindNil (Decoder.Yields.pure _)

/-! ## The whole value -/

/-- After its tag a value is read by the branch for its type. -/
theorem yields_tag {fuel : ℕ} {t : SerType} {bytes : List UInt8} {v : Value}
    (h : Decoder.Yields (deserBody (deser fuel) (some t)) bytes v) :
    Decoder.Yields (deser (fuel + 1)) (t.code :: bytes) v := by
  rw [← SerType.ofByte_code t] at h
  exact (Decoder.Yields.nextChecked _ t.code).bind h

theorem yields_deser {v : Value} (h : Fits maxCount v) :
    ∀ {fuel : ℕ}, (serialize v).length ≤ fuel → Decoder.Yields (deser fuel) (serialize v) (filled v) := by
  induction h with
  | @string s hs =>
    intro fuel hfuel
    obtain ⟨n, rfl⟩ := Nat.exists_eq_add_of_le' ((length_serialize_pos _).trans_le hfuel)
    exact yields_tag (yields_deserString hs)
  | bool b =>
    intro fuel hfuel
    obtain ⟨n, rfl⟩ := Nat.exists_eq_add_of_le' ((length_serialize_pos _).trans_le hfuel)
    have hbit : Decoder.Yields (pure (Value.bool ((if b then (1 : UInt8) else 0) ≠ 0)) : Decoder Error Value)
        [] (filled (.bool b)) := by
      cases b <;> exact Decoder.Yields.pure _
    exact yields_tag ((Decoder.Yields.nextChecked _ _).bindNil hbit)
  | int n =>
    intro fuel hfuel
    obtain ⟨k, rfl⟩ := Nat.exists_eq_add_of_le' ((length_serialize_pos _).trans_le hfuel)
    have hread := yields_readLEChecked (k := 4) (n.isLt.trans_eq (by norm_num))
    have hpure : Decoder.Yields (pure (Value.int (BitVec.ofNat 32 n.toNat)) : Decoder Error Value) []
        (filled (.int n)) := by
      rw [BitVec.ofNat_toNat, BitVec.setWidth_eq]
      exact Decoder.Yields.pure _
    exact yields_tag (hread.bindNil hpure)
  | double bits =>
    intro fuel hfuel
    obtain ⟨k, rfl⟩ := Nat.exists_eq_add_of_le' ((length_serialize_pos _).trans_le hfuel)
    have hread := yields_readLEChecked (k := 8) (bits.isLt.trans_eq (by norm_num))
    have hpure : Decoder.Yields (pure (Value.double (BitVec.ofNat 64 bits.toNat)) : Decoder Error Value) []
        (filled (.double bits)) := by
      rw [BitVec.ofNat_toNat, BitVec.setWidth_eq]
      exact Decoder.Yields.pure _
    exact yields_tag (hread.bindNil hpure)
  | @array items hlen _ ih =>
    intro fuel hfuel
    obtain ⟨n, rfl⟩ := Nat.exists_eq_add_of_le' ((length_serialize_pos _).trans_le hfuel)
    refine yields_tag (yields_deserArray hlen fun v hv => ih v hv ?_)
    have hle := length_le_flatMap (f := serialize) hv
    rw [serialize, serializeItems_eq, List.length_cons, List.length_append] at hfuel
    omega
  | @map entries hlen hkeys hkey _ ih =>
    intro fuel hfuel
    obtain ⟨n, rfl⟩ := Nat.exists_eq_add_of_le' ((length_serialize_pos _).trans_le hfuel)
    refine yields_tag (yields_deserMap hlen hkeys hkey fun e he => ?_)
    have hle := length_le_flatMap (f := serializeEntry) he
    rw [serialize, serializeEntries_eq, List.length_cons, List.length_append] at hfuel
    rw [serializeEntry, List.length_append, List.length_append] at hle
    cases hval : e.2 with
    | some v =>
      rw [hval, serializePointer] at hle
      exact ih e he v hval (by omega)
    | none =>
      have hsize : 0 < (writeSize e.1.length).length := by simp [writeSize]
      obtain ⟨k, rfl⟩ := Nat.exists_eq_add_of_le' (by omega : 0 < n)
      exact yields_tag (Decoder.Yields.pure blank)

theorem deserialize_serialize {v : Value} (h : Fits maxCount v) :
    deserialize (serialize v) = .ok (some (filled v)) := by
  have hpos := length_serialize_pos v
  have hle : (serialize v).length ≤ (serialize v).length + 1 := Nat.le_add_right ..
  have hrun := yields_deser h hle [] []
  rw [List.nil_append, List.append_nil, List.length_nil] at hrun
  rw [deserialize, if_neg (by omega), hrun]

/-- **Values of collections of a million elements at most come back from their bytes**, with the
empty string for null pointers, and on any bytes the decoder ends inside of them. -/
theorem value_roundTrip :
    (∀ v, Fits maxCount v → deserialize (serialize v) = .ok (some (filled v))) ∧
    ∀ data, ∃ r, deserialize data = .ok r :=
  ⟨fun _ h => deserialize_serialize h, deserialize_returns⟩

theorem value_roundTrip_nested :
    deserialize (serialize (map [([107], some (array [int 7, bool true])), ([], none)])) =
      .ok (some (map [([107], some (array [int 7, bool true])), ([], some (string []))])) := by
  refine value_roundTrip.1 _ (.map (by decide) (by decide) (by decide) ?_)
  intro e he v hv
  simp only [List.mem_cons, List.not_mem_nil, or_false] at he
  rcases he with rfl | rfl
  · rw [← Option.some.inj hv]
    refine .array (by decide) fun w hw => ?_
    simp only [List.mem_cons, List.not_mem_nil, or_false] at hw
    rcases hw with rfl | rfl
    · exact .int 7
    · exact .bool true
  · cases hv

/-- A larger array is written, and refused when it is read. -/
theorem deserialize_large_array {items : List Value} (hlarge : maxCount < items.length)
    (hlen : items.length < 2 ^ 32) : deserialize (serialize (array items)) = .ok none := by
  have hpos := length_serialize_pos (array items)
  have htag := Decoder.Yields.nextChecked Error.unexpectedEnd SerType.array.code []
    (writeSize items.length ++ serializeItems items)
  have hsize := yields_size hlen [SerType.array.code] (serializeItems items)
  have hend : ([SerType.array.code] : List UInt8).length + (writeSize items.length).length ≤
      (serialize (array items)).length := by
    simp only [serialize, List.length_cons, List.length_nil, List.length_append]
    omega
  have hdata : serialize (array items) =
      [SerType.array.code] ++ writeSize items.length ++ serializeItems items := by
    rw [serialize, List.append_assoc]
    rfl
  rw [← hdata] at hsize
  rw [List.nil_append, ← List.append_assoc, ← hdata, List.length_nil, Nat.zero_add] at htag
  have hthrown : (deser ((serialize (array items)).length + 1)).run (serialize (array items)) 0 =
      .error (.thrown .invalidArrayCount) := by
    rw [deser, Decoder.run_bind_ok _ htag, SerType.ofByte_code]
    show (deserArray _).run _ _ = _
    rw [deserArray, Decoder.run_bind_ok _ hsize, Decoder.run_bind_ok _ (Decoder.run_remaining hend), if_pos (.inr hlarge)]
    rfl
  rw [deserialize, if_neg (by omega), hthrown]

/-- An array of a million and one truth values fits its length field and does not come back. -/
theorem value_roundTrip_large : Fits (2 ^ 32 - 1) (array (List.replicate 1000001 (bool true))) ∧
    deserialize (serialize (array (List.replicate 1000001 (bool true)))) ≠
      .ok (some (filled (array (List.replicate 1000001 (bool true))))) := by
  have hlength : (List.replicate 1000001 (bool true)).length = 1000001 := List.length_replicate ..
  constructor
  · refine .array (by rw [hlength]; norm_num) fun v hv => ?_
    rw [List.eq_of_mem_replicate hv]
    exact .bool true
  · rw [deserialize_large_array (by rw [hlength]; norm_num [maxCount]) (by rw [hlength]; norm_num)]
    intro h
    cases h

end ForgottenServer.Kv.Value
