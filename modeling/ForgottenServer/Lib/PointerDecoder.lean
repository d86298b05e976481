import ForgottenServer.Lib.LittleEndian

/-! # Decoding a buffer through a pointer

A decoder reads bytes at a pointer and moves it on. A read does not look where the buffer ends:
past the end it has no result at all, which is not an error the decoder could report. So a
decoder has to check what is left before it reads.

`Yields m bytes a`: wherever `bytes` stand in a buffer, `m` takes exactly these and gives `a`.
`Inside n m`: from a pointer with less than `n` bytes left, `m` stays in the buffer and ends.
`Ensures P m`: what `m` gives has the property `P`. -/

namespace PointerDecoder

open LittleEndian

inductive Stop (ε : Type) where
  /-- An exception of the decoder. -/
  | thrown (e : ε)
  /-- A read past the end of the buffer. -/
  | outside
  /-- The recursion was not over when the fuel was. -/
  | outOfFuel
  deriving DecidableEq

/-- From a buffer and a pointer into it. -/
structure Decoder (ε α : Type) where
  run : List UInt8 → ℕ → Except (Stop ε) (α × ℕ)

namespace Decoder

variable {ε α β : Type} {data : List UInt8} {ptr ptr' : ℕ} {a : α}

instance : Monad (Decoder ε) where
  pure a := ⟨fun _ ptr => .ok (a, ptr)⟩
  bind m f := ⟨fun data ptr =>
    match m.run data ptr with
    | .ok (a, ptr') => (f a).run data ptr'
    | .error e => .error e⟩

theorem run_bind_ok {m : Decoder ε α} (f : α → Decoder ε β) (h : m.run data ptr = .ok (a, ptr')) :
    (m >>= f).run data ptr = (f a).run data ptr' := by
  simp only [bind, h]

theorem run_bind_error {m : Decoder ε α} (f : α → Decoder ε β) {e : Stop ε}
    (h : m.run data ptr = .error e) : (m >>= f).run data ptr = .error e := by
  simp only [bind, h]

def throw (e : ε) : Decoder ε α := ⟨fun _ _ => .error (.thrown e)⟩

def outOfFuel : Decoder ε α := ⟨fun _ _ => .error .outOfFuel⟩

/-- `static_cast<size_t>(end - ptr)` -/
def remaining : Decoder ε ℕ := ⟨fun data ptr =>
  .ok (if ptr ≤ data.length then data.length - ptr else 2 ^ 64 - (ptr - data.length), ptr)⟩

/-- `*ptr++` -/
def readByte : Decoder ε UInt8 := ⟨fun data ptr =>
  match data[ptr]? with
  | some b => .ok (b, ptr + 1)
  | none => .error .outside⟩

/-- `if (ptr >= end) throw`, then `*ptr++`. -/
def nextChecked (e : ε) : Decoder ε UInt8 := ⟨fun data ptr =>
  if ptr ≥ data.length then .error (.thrown e) else readByte.run data ptr⟩

/-- The same decoder `n` times. -/
def replicate : ℕ → Decoder ε α → Decoder ε (List α)
  | 0, _ => pure []
  | n + 1, m => do
    let a ← m
    let as ← replicate n m
    pure (a :: as)

/-- `n` bytes, after a check that they are there. -/
def readChecked (e : ε) (n : ℕ) : Decoder ε (List UInt8) := do
  let r ← remaining
  if r < n then throw e else replicate n readByte

theorem run_remaining (h : ptr ≤ data.length) :
    (remaining : Decoder ε ℕ).run data ptr = .ok (data.length - ptr, ptr) := by
  simp only [remaining, if_pos h]

theorem run_readByte (h : ptr < data.length) :
    (readByte : Decoder ε UInt8).run data ptr = .ok (data[ptr], ptr + 1) := by
  rw [readByte]
  simp only [List.getElem?_eq_getElem h]

/-! ## What a decoder takes -/

def Yields (m : Decoder ε α) (bytes : List UInt8) (a : α) : Prop :=
  ∀ pre post, m.run (pre ++ bytes ++ post) pre.length = .ok (a, pre.length + bytes.length)

namespace Yields

theorem pure (a : α) : Yields (Pure.pure a : Decoder ε α) [] a := fun _ _ => rfl

theorem bind {m : Decoder ε α} {f : α → Decoder ε β} {bytes bytes' : List UInt8} {a : α} {b : β}
    (h : Yields m bytes a) (h' : Yields (f a) bytes' b) : Yields (m >>= f) (bytes ++ bytes') b := by
  intro pre post
  have hfirst := h pre (bytes' ++ post)
  have hsecond := h' (pre ++ bytes) post
  have hdata : pre ++ (bytes ++ bytes') ++ post = pre ++ bytes ++ (bytes' ++ post) := by simp
  rw [hdata, run_bind_ok f hfirst, ← List.length_append]
  rw [List.append_assoc (pre ++ bytes)] at hsecond
  rw [hsecond, List.length_append, List.length_append, Nat.add_assoc]

theorem bindNil {m : Decoder ε α} {f : α → Decoder ε β} {bytes : List UInt8} {a : α} {b : β}
    (h : Yields m bytes a) (h' : Yields (f a) [] b) : Yields (m >>= f) bytes b := by
  have hboth := h.bind h'
  rwa [List.append_nil] at hboth

theorem readByte (b : UInt8) : Yields (Decoder.readByte : Decoder ε UInt8) [b] b := by
  intro pre post
  have hlt : pre.length < (pre ++ [b] ++ post).length := by simp
  rw [run_readByte hlt]
  simp

theorem nextChecked (e : ε) (b : UInt8) : Yields (Decoder.nextChecked e) [b] b := by
  intro pre post
  have hlt : ¬pre.length ≥ (pre ++ [b] ++ post).length := by simp
  simp only [Decoder.nextChecked, if_neg hlt]
  exact readByte b pre post

theorem replicate {γ : Type} {m : Decoder ε α} (write : γ → List UInt8) (f : γ → α) (xs : List γ)
    (h : ∀ x ∈ xs, Yields m (write x) (f x)) :
    Yields (Decoder.replicate xs.length m) (xs.flatMap write) (xs.map f) := by
  induction xs with
  | nil => exact pure []
  | cons x xs ih =>
    have hxs := ih fun y hy => h y (List.mem_cons_of_mem x hy)
    exact (h x (List.mem_cons_self ..)).bind (hxs.bindNil (pure _))

/-- A decoder that first looks at what is left. -/
theorem remaining {f : ℕ → Decoder ε β} {bytes : List UInt8} {b : β}
    (h : ∀ r, bytes.length ≤ r → Yields (f r) bytes b) : Yields (Decoder.remaining >>= f) bytes b := by
  intro pre post
  have hle : pre.length ≤ (pre ++ bytes ++ post).length := by simp
  rw [run_bind_ok f (run_remaining hle)]
  refine h _ ?_ pre post
  simp only [List.length_append]
  omega

theorem readChecked (e : ε) (bytes : List UInt8) :
    Yields (Decoder.readChecked e bytes.length) bytes bytes := by
  refine remaining fun r hr => ?_
  rw [if_neg (by omega)]
  have hall := replicate (ε := ε) (fun b => [b]) id bytes (fun b _ => readByte b)
  simpa [List.flatMap_singleton'] using hall

end Yields

/-! ## Where a decoder stays -/

/-- It ends in the buffer, not before where it started, or with an exception. -/
def Good (data : List UInt8) (ptr : ℕ) (r : Except (Stop ε) (α × ℕ)) : Prop :=
  (∃ a ptr', r = .ok (a, ptr') ∧ ptr ≤ ptr' ∧ ptr' ≤ data.length) ∨ ∃ e, r = .error (.thrown e)

def Inside (n : ℕ) (m : Decoder ε α) : Prop :=
  ∀ data ptr, ptr ≤ data.length → data.length - ptr < n → Good data ptr (m.run data ptr)

/-- It takes a byte at least, from any pointer into the buffer. -/
def Takes (m : Decoder ε α) : Prop :=
  ∀ data ptr, ptr ≤ data.length →
    (∃ a ptr', m.run data ptr = .ok (a, ptr') ∧ ptr < ptr' ∧ ptr' ≤ data.length) ∨
    ∃ e, m.run data ptr = .error (.thrown e)

namespace Inside

variable {n : ℕ}

theorem pure (n : ℕ) (a : α) : Inside n (Pure.pure a : Decoder ε α) :=
  fun _ ptr hptr _ => .inl ⟨a, ptr, rfl, le_rfl, hptr⟩

theorem throw (n : ℕ) (e : ε) : Inside n (Decoder.throw e : Decoder ε α) := fun _ _ _ _ => .inr ⟨e, rfl⟩

theorem bind {m : Decoder ε α} {f : α → Decoder ε β} (h : Inside n m) (h' : ∀ a, Inside n (f a)) :
    Inside n (m >>= f) := by
  intro data ptr hptr hn
  rw [Good]
  rcases h data ptr hptr hn with ⟨a, ptr', hrun, hle, hend⟩ | ⟨e, hrun⟩
  · rw [run_bind_ok f hrun]
    rcases h' a data ptr' hend (by omega) with ⟨b, ptr'', hrun', hle', hend'⟩ | ⟨e, hrun'⟩
    · exact .inl ⟨b, ptr'', hrun', hle.trans hle', hend'⟩
    · exact .inr ⟨e, hrun'⟩
  · exact .inr ⟨e, run_bind_error f hrun⟩

/-- After a byte there is less left. -/
theorem bindTakes {m : Decoder ε α} {f : α → Decoder ε β} (h : Takes m) (h' : ∀ a, Inside n (f a)) :
    Inside (n + 1) (m >>= f) := by
  intro data ptr hptr hn
  rw [Good]
  rcases h data ptr hptr with ⟨a, ptr', hrun, hlt, hend⟩ | ⟨e, hrun⟩
  · rw [run_bind_ok f hrun]
    rcases h' a data ptr' hend (by omega) with ⟨b, ptr'', hrun', hle', hend'⟩ | ⟨e, hrun'⟩
    · exact .inl ⟨b, ptr'', hrun', hlt.le.trans hle', hend'⟩
    · exact .inr ⟨e, hrun'⟩
  · exact .inr ⟨e, run_bind_error f hrun⟩

theorem replicate {m : Decoder ε α} (h : Inside n m) (k : ℕ) : Inside n (Decoder.replicate k m) := by
  induction k with
  | zero => exact pure n []
  | succ k ih => exact h.bind fun a => ih.bind fun as => pure n (a :: as)

theorem remaining (n : ℕ) : Inside n (Decoder.remaining : Decoder ε ℕ) :=
  fun _ ptr hptr _ => .inl ⟨_, ptr, rfl, le_rfl, hptr⟩

end Inside

/-- Bytes that are there are read. -/
theorem run_replicate_readByte {k : ℕ} : ∀ {ptr : ℕ}, ptr + k ≤ data.length →
    ∃ bytes, (Decoder.replicate k readByte : Decoder ε (List UInt8)).run data ptr = .ok (bytes, ptr + k) := by
  induction k with
  | zero => exact fun _ => ⟨[], rfl⟩
  | succ k ih =>
    intro ptr hk
    have hlt : ptr < data.length := by omega
    have hrest : ptr + 1 + k ≤ data.length := by omega
    obtain ⟨bytes, hrun⟩ := ih hrest
    refine ⟨data[ptr] :: bytes, ?_⟩
    rw [Decoder.replicate, run_bind_ok _ (run_readByte hlt), run_bind_ok _ hrun, Nat.add_right_comm]
    rfl

theorem readChecked_cases (e : ε) (k : ℕ) (hptr : ptr ≤ data.length) :
    (∃ bytes, (readChecked e k).run data ptr = .ok (bytes, ptr + k) ∧ ptr + k ≤ data.length) ∨
    (readChecked e k).run data ptr = .error (.thrown e) := by
  rw [readChecked, run_bind_ok _ (run_remaining hptr)]
  by_cases hk : data.length - ptr < k
  · rw [if_pos hk]
    exact .inr rfl
  · rw [if_neg hk]
    have hend : ptr + k ≤ data.length := by omega
    obtain ⟨bytes, hrun⟩ := run_replicate_readByte hend
    exact .inl ⟨bytes, hrun, hend⟩

theorem Inside.readChecked (n : ℕ) (e : ε) (k : ℕ) : Inside n (Decoder.readChecked e k) := by
  intro data ptr hptr _
  rcases readChecked_cases e k hptr with ⟨bytes, hrun, hend⟩ | hrun
  · exact .inl ⟨bytes, ptr + k, hrun, Nat.le_add_right .., hend⟩
  · exact .inr ⟨e, hrun⟩

theorem Takes.nextChecked (e : ε) : Takes (Decoder.nextChecked e) := by
  intro data ptr hptr
  by_cases hend : ptr ≥ data.length
  · exact .inr ⟨e, by simp only [Decoder.nextChecked, if_pos hend]⟩
  · refine .inl ⟨data[ptr], ptr + 1, ?_, Nat.lt_succ_self ptr, by omega⟩
    simp only [Decoder.nextChecked, if_neg hend]
    exact run_readByte (by omega)

theorem Takes.inside {m : Decoder ε α} (h : Takes m) (n : ℕ) : Inside n m := by
  intro data ptr hptr _
  rcases h data ptr hptr with ⟨a, ptr', hrun, hlt, hend⟩ | hthrown
  · exact .inl ⟨a, ptr', hrun, hlt.le, hend⟩
  · exact .inr hthrown

/-! ## What a decoder gives -/

/-- Whatever the buffer holds, a result of `m` has the property. -/
def Ensures (P : α → Prop) (m : Decoder ε α) : Prop :=
  ∀ data ptr a ptr', m.run data ptr = .ok (a, ptr') → P a

namespace Ensures

theorem pure {P : α → Prop} {a : α} (h : P a) : Ensures P (Pure.pure a : Decoder ε α) := by
  intro data ptr a' ptr' hrun
  cases hrun
  exact h

theorem throw (P : α → Prop) (e : ε) : Ensures P (Decoder.throw e : Decoder ε α) := by
  intro data ptr a ptr' hrun
  cases hrun

theorem bind {P : α → Prop} {Q : β → Prop} {m : Decoder ε α} {f : α → Decoder ε β} (h : Ensures P m)
    (h' : ∀ a, P a → Ensures Q (f a)) : Ensures Q (m >>= f) := by
  intro data ptr b ptr' hrun
  cases hm : m.run data ptr with
  | error e =>
    rw [run_bind_error f hm] at hrun
    cases hrun
  | ok r =>
    rw [run_bind_ok f hm] at hrun
    exact h' r.1 (h data ptr r.1 r.2 hm) _ _ _ _ hrun

theorem trivial (m : Decoder ε α) : Ensures (fun _ => True) m := fun _ _ _ _ _ => True.intro

theorem replicate {P : α → Prop} {m : Decoder ε α} (h : Ensures P m) (k : ℕ) :
    Ensures (fun as => as.length = k ∧ ∀ a ∈ as, P a) (Decoder.replicate k m) := by
  induction k with
  | zero => exact pure ⟨rfl, by simp⟩
  | succ k ih =>
    refine h.bind fun a ha => ih.bind fun as has => pure ⟨?_, ?_⟩
    · rw [List.length_cons, has.1]
    · rw [List.forall_mem_cons]
      exact ⟨ha, has.2⟩

theorem readChecked (e : ε) (k : ℕ) : Ensures (fun bytes => bytes.length = k) (Decoder.readChecked e k) := by
  refine (trivial _).bind fun r _ => ?_
  split
  · exact throw _ e
  · intro data ptr bytes ptr' hrun
    exact ((trivial readByte).replicate k data ptr bytes ptr' hrun).1

end Ensures

end Decoder

end PointerDecoder
