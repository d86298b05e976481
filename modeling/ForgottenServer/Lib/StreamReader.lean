import ForgottenServer.Lib.LittleEndian

/-! # Filling an object from a stream of bytes

A `Reader σ α` takes bytes off a stream, changes an object of type `σ` and gives an `α`.
When it fails, the object and the stream stay as they are at that moment. No reader puts
bytes back, so a loop that takes a byte in each turn ends.

`Reads m bytes s a s'`: whatever follows, `m` takes exactly `bytes`, gives `a` and makes
`s'` of `s`. The rules follow the way readers are built. -/

open LittleEndian

structure Reader (σ α : Type) where
  run : σ → List UInt8 → Option α × σ × List UInt8
  short : ∀ s i, (run s i).2.2.length ≤ i.length

namespace Reader

variable {σ α β : Type}

def andThen (m : Reader σ α) (f : α → Reader σ β) : Reader σ β where
  run s i := match m.run s i with
    | (some a, s', i') => (f a).run s' i'
    | (none, s', i') => (none, s', i')
  short s i := by
    have hm := m.short s i
    split <;> rename_i hrun
    · rw [hrun] at hm
      exact ((f _).short _ _).trans hm
    · rw [hrun] at hm
      exact hm

instance : Monad (Reader σ) where
  pure a := ⟨fun s i => (some a, s, i), fun _ _ => le_rfl⟩
  bind := andThen

def fail : Reader σ α := ⟨fun s i => (none, s, i), fun _ _ => le_rfl⟩

def modify (f : σ → σ) : Reader σ Unit := ⟨fun s i => (some (), f s, i), fun _ _ => le_rfl⟩

/-- The reader that a look at the object chooses. -/
def inspect (f : σ → Reader σ α) : Reader σ α := ⟨fun s i => (f s).run s i, fun s i => (f s).short s i⟩

/-- The next `n` bytes. -/
def take (n : Nat) : Reader σ (List UInt8) where
  run s i := if i.length < n then (none, s, i) else (some (i.take n), s, i.drop n)
  short s i := by
    split
    · exact le_rfl
    · simp

/-- A number of `w` bits. -/
def readBits (w : Nat) : Reader σ (BitVec w) := do
  let bytes ← take (w / 8)
  pure (BitVec.ofNat w (leNat bytes))

def writeBits {w : Nat} (v : BitVec w) : List UInt8 := leBytes (w / 8) v.toNat

@[simp] theorem length_writeBits {w : Nat} (v : BitVec w) : (writeBits v).length = w / 8 :=
  length_leBytes _ _

theorem ofNat_leNat {w : Nat} (v : BitVec w) (hw : 256 ^ (w / 8) = 2 ^ w) :
    BitVec.ofNat w (leNat (leBytes (w / 8) v.toNat)) = v := by
  rw [leNat_leBytes, hw, Nat.mod_eq_of_lt v.isLt, BitVec.ofNat_toNat, BitVec.setWidth_eq]

/-- `n` turns. -/
def times : Nat → Reader σ Unit → Reader σ Unit
  | 0, _ => pure ()
  | n + 1, m => do m; times n m

/-- `n` values, one after another. -/
def list : Nat → Reader σ α → Reader σ (List α)
  | 0, _ => pure []
  | n + 1, m => do
    let a ← m
    let as ← list n m
    pure (a :: as)

/-- The next reader runs if the condition holds. -/
def require (c : Prop) [Decidable c] : Reader σ Unit := if c then pure () else fail

/-! ## Rules -/

def Reads (m : Reader σ α) (bytes : List UInt8) (s : σ) (a : α) (s' : σ) : Prop :=
  ∀ rest, m.run s (bytes ++ rest) = (some a, s', rest)

namespace Reads

variable {s s' s'' : σ} {a : α} {b : β}

theorem pure (a : α) (s : σ) : Reads (Pure.pure a : Reader σ α) [] s a s := fun _ => rfl

theorem modify (f : σ → σ) (s : σ) : Reads (Reader.modify f) [] s () (f s) := fun _ => rfl

theorem bind {m : Reader σ α} {f : α → Reader σ β} {bytes bytes' : List UInt8}
    (h : Reads m bytes s a s') (h' : Reads (f a) bytes' s' b s'') :
    Reads (m >>= f) (bytes ++ bytes') s b s'' := by
  intro rest
  show (andThen m f).run s (bytes ++ bytes' ++ rest) = _
  simp only [andThen, List.append_assoc, h (bytes' ++ rest), h' rest]

theorem inspect {f : σ → Reader σ α} {bytes : List UInt8} (h : Reads (f s) bytes s a s') :
    Reads (Reader.inspect f) bytes s a s' := h

/-- What follows takes nothing. -/
theorem bindNil {m : Reader σ α} {f : α → Reader σ β} {bytes : List UInt8}
    (h : Reads m bytes s a s') (h' : Reads (f a) [] s' b s'') : Reads (m >>= f) bytes s b s'' := by
  have hboth := h.bind h'
  rwa [List.append_nil] at hboth

/-- What comes before takes nothing. -/
theorem nilBind {m : Reader σ α} {f : α → Reader σ β} {bytes : List UInt8} (h : Reads m [] s a s')
    (h' : Reads (f a) bytes s' b s'') : Reads (m >>= f) bytes s b s'' := h.bind h'

theorem take (bytes : List UInt8) {n : Nat} (hn : bytes.length = n) (s : σ) :
    Reads (take n) bytes s bytes s := by
  intro rest
  simp [Reader.take, ← hn]

theorem readBits {w : Nat} (v : BitVec w) (hw : 256 ^ (w / 8) = 2 ^ w) (s : σ) :
    Reads (Reader.readBits w) (writeBits v) s v s := by
  refine (take (writeBits v) (length_writeBits v) s).bindNil ?_
  rw [writeBits, ofNat_leNat v hw]
  exact pure v s

theorem times {m : Reader σ Unit} {γ : Type} (write : γ → List UInt8) (step : σ → γ → σ) (xs : List γ)
    (h : ∀ s, ∀ x ∈ xs, Reads m (write x) s () (step s x)) :
    ∀ s, Reads (Reader.times xs.length m) (xs.flatMap write) s () (xs.foldl step s) := by
  induction xs with
  | nil => intro s; exact pure () s
  | cons x xs ih =>
    intro s
    have hx := h s x (List.mem_cons_self ..)
    exact hx.bind (ih (fun s y hy => h s y (List.mem_cons_of_mem x hy)) (step s x))

theorem list {m : Reader σ α} {γ : Type} (write : γ → List UInt8) (f : γ → α) (xs : List γ)
    (h : ∀ x ∈ xs, Reads m (write x) s (f x) s) : Reads (Reader.list xs.length m) (xs.flatMap write) s (xs.map f) s := by
  induction xs with
  | nil => exact pure [] s
  | cons x xs ih =>
    have hx := h x List.mem_cons_self
    have hxs := ih fun y hy => h y (List.mem_cons_of_mem x hy)
    exact hx.bind (hxs.bindNil (pure _ s))

theorem require {c : Prop} [Decidable c] (h : c) (s : σ) : Reads (Reader.require c) [] s () s := by
  rw [Reader.require, if_pos h]
  exact pure () s

/-- A check in between takes nothing. -/
theorem thenRequire {c : Prop} [Decidable c] {m : Reader σ α} {bytes : List UInt8} (h : c)
    (hm : Reads m bytes s a s') : Reads (Reader.require c >>= fun _ => m) bytes s a s' := (require h s).nilBind hm

end Reads

/-- `m` fails on the stream. -/
def Fails (m : Reader σ α) (i : List UInt8) (s : σ) : Prop := (m.run s i).1 = none

namespace Fails

variable {s s' : σ} {i : List UInt8}

theorem require {c : Prop} [Decidable c] (h : ¬ c) : Fails (Reader.require c) i s := by
  rw [Reader.require, if_neg h]
  rfl

theorem bind {m : Reader σ α} (h : Fails m i s) (f : α → Reader σ β) : Fails (m >>= f) i s := by
  show ((andThen m f).run s i).1 = none
  rcases hrun : m.run s i with ⟨_ | a, s', i'⟩
  · simp only [andThen, hrun]
  · rw [Fails, hrun] at h
    cases h

end Fails

/-- What was read comes before the failure. -/
theorem Reads.bindFails {m : Reader σ α} {f : α → Reader σ β} {bytes i : List UInt8} {s s' : σ} {a : α}
    (h : Reads m bytes s a s') (h' : Fails (f a) i s') : Fails (m >>= f) (bytes ++ i) s := by
  show ((andThen m f).run s (bytes ++ i)).1 = none
  simp only [andThen, h i]
  exact h'

/-! ## Tagged values

A stream of tags, each followed by its value. A reader for every tag goes on until the
stream is empty or the tag `stop` is met. -/

section Tagged

variable (stop : UInt8) (readTag : UInt8 → Reader σ Unit)

def taggedLoop : Nat → σ → List UInt8 → Option Unit × σ × List UInt8
  | 0, s, i => (some (), s, i)
  | _ + 1, s, [] => (some (), s, [])
  | fuel + 1, s, tag :: i =>
    if tag = stop then (some (), s, i)
    else match (readTag tag).run s i with
      | (some (), s', i') => taggedLoop fuel s' i'
      | (none, s', i') => (none, s', i')

theorem taggedLoop_short (fuel : Nat) :
    ∀ s i, (taggedLoop stop readTag fuel s i).2.2.length ≤ i.length := by
  induction fuel with
  | zero => intro s i; exact le_rfl
  | succ fuel ih =>
    intro s i
    match i with
    | [] => exact le_rfl
    | tag :: i =>
      have hshort := (readTag tag).short s i
      rw [taggedLoop]
      split
      · exact Nat.le_succ _
      · split <;> rename_i hrun <;> rw [hrun] at hshort
        · exact (ih _ _).trans (hshort.trans (Nat.le_succ _))
        · exact hshort.trans (Nat.le_succ _)

/-- As many turns as there are bytes are enough. -/
theorem taggedLoop_fuel (fuel : Nat) :
    ∀ {fuel' s i}, i.length ≤ fuel → i.length ≤ fuel' →
      taggedLoop stop readTag fuel s i = taggedLoop stop readTag fuel' s i := by
  induction fuel with
  | zero =>
    intro fuel' s i h _
    obtain rfl := List.length_eq_zero_iff.mp (Nat.le_zero.mp h)
    cases fuel' <;> rfl
  | succ fuel ih =>
    intro fuel' s i h h'
    match i, fuel' with
    | [], 0 => rfl
    | [], _ + 1 => rfl
    | tag :: i, fuel' + 1 =>
      have hshort := (readTag tag).short s i
      rcases hrun : (readTag tag).run s i with ⟨_ | _, s', i'⟩ <;> rw [hrun] at hshort
      · simp only [taggedLoop, hrun]
      · simp only [taggedLoop, hrun]
        split
        · rfl
        · exact ih (hshort.trans (Nat.le_of_succ_le_succ h)) (hshort.trans (Nat.le_of_succ_le_succ h'))

def tagged : Reader σ Unit where
  run s i := taggedLoop stop readTag i.length s i
  short s i := taggedLoop_short stop readTag _ s i

theorem run_tagged_cons (s : σ) {tag : UInt8} (htag : tag ≠ stop) (i : List UInt8) :
    (tagged stop readTag).run s (tag :: i) = (readTag tag >>= fun _ => tagged stop readTag).run s i := by
  have hshort := (readTag tag).short s i
  show taggedLoop stop readTag (i.length + 1) s (tag :: i) = (andThen _ _).run s i
  rcases hrun : (readTag tag).run s i with ⟨_ | _, s', i'⟩ <;> rw [hrun] at hshort
  · simp only [taggedLoop, htag, if_false, andThen, hrun]
  · simp only [taggedLoop, htag, if_false, andThen, hrun]
    exact taggedLoop_fuel stop readTag _ hshort le_rfl

/-- The loop takes `bytes` off the stream, makes `s'` of `s` and goes on. -/
def Turns (bytes : List UInt8) (s s' : σ) : Prop :=
  ∀ rest, (tagged stop readTag).run s (bytes ++ rest) = (tagged stop readTag).run s' rest

namespace Turns

variable {stop readTag} {s s' s'' : σ} {bytes bytes' : List UInt8}

theorem nil (s : σ) : Turns stop readTag [] s s := fun _ => rfl

theorem append (h : Turns stop readTag bytes s s') (h' : Turns stop readTag bytes' s' s'') :
    Turns stop readTag (bytes ++ bytes') s s'' := by
  intro rest
  rw [List.append_assoc, h, h']

/-- A tag that is read with its value. -/
theorem tag (tag : UInt8) (htag : tag ≠ stop) (h : Reads (readTag tag) bytes s () s') :
    Turns stop readTag (tag :: bytes) s s' := by
  intro rest
  rw [List.cons_append, run_tagged_cons stop readTag s htag]
  show (andThen _ _).run s (bytes ++ rest) = _
  simp only [andThen, h rest]

/-- A value that is there under a condition. -/
theorem ite {c : Prop} [Decidable c] (h : c → Turns stop readTag bytes s s') :
    Turns stop readTag (if c then bytes else []) s (if c then s' else s) := by
  by_cases hc : c
  · rw [if_pos hc, if_pos hc]
    exact h hc
  · rw [if_neg hc, if_neg hc]
    exact nil s

/-- The same tag with one value after another, where the object keeps to `inv`. -/
theorem each {γ : Type} {tag : UInt8} (htag : tag ≠ stop) (write : γ → List UInt8)
    (step : σ → γ → σ) (inv : σ → Prop) {xs : List γ} (hstep : ∀ s x, inv s → inv (step s x))
    (h : ∀ s x, inv s → Reads (readTag tag) (write x) s () (step s x)) :
    ∀ s, inv s → Turns stop readTag (xs.flatMap (fun x => tag :: write x)) s (xs.foldl step s) := by
  induction xs with
  | nil => intro s _; exact nil s
  | cons x xs ih =>
    intro s hs
    exact (Turns.tag tag htag (h s x hs)).append (ih (step s x) (hstep s x hs))

/-- The loop ends with the stream. -/
theorem run_end (h : Turns stop readTag bytes s s') :
    (tagged stop readTag).run s bytes = (some (), s', []) := by
  have hend := h []
  rw [List.append_nil] at hend
  exact hend

end Turns

/-- In every state the loop takes `bytes` off the stream and keeps what `f` sees of the object. -/
def Keeps {γ : Type} (f : σ → γ) (bytes : List UInt8) : Prop := ∀ s, ∃ s', Turns stop readTag bytes s s' ∧ f s' = f s

namespace Keeps

variable {stop readTag} {γ : Type} {f : σ → γ} {bytes bytes' : List UInt8}

theorem nil : Keeps stop readTag f [] := fun s => ⟨s, Turns.nil s, rfl⟩

theorem append (h : Keeps stop readTag f bytes) (h' : Keeps stop readTag f bytes') :
    Keeps stop readTag f (bytes ++ bytes') := by
  intro s
  obtain ⟨s', hturns, hsame⟩ := h s
  obtain ⟨s'', hturns', hsame'⟩ := h' s'
  exact ⟨s'', hturns.append hturns', hsame'.trans hsame⟩

theorem tag (tag : UInt8) (htag : tag ≠ stop)
    (h : ∀ s, ∃ s', Reads (readTag tag) bytes s () s' ∧ f s' = f s) : Keeps stop readTag f (tag :: bytes) := by
  intro s
  obtain ⟨s', hreads, hsame⟩ := h s
  exact ⟨s', Turns.tag tag htag hreads, hsame⟩

theorem ite {c : Prop} [Decidable c] (h : Keeps stop readTag f bytes) :
    Keeps stop readTag f (if c then bytes else []) := by
  split
  · exact h
  · exact nil

end Keeps

end Tagged

end Reader
