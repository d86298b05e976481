import ForgottenServer.Lib.ByteMemory

/-! # Block-wise transformations of a byte range

A loop that replaces the `b`-byte blocks of a range one after another, and the
transformation of the range it amounts to. -/

namespace ByteMemory

/-- Replace `n` blocks of `b` bytes, from `pos` on. -/
def overBlocks (f : List UInt8 → List UInt8) (b : Nat) (mem : List UInt8) (pos : Nat) :
    Nat → Option (List UInt8)
  | 0 => some mem
  | n + 1 => do
    let block ← load mem pos b
    let mem' ← store mem pos (f block)
    overBlocks f b mem' (pos + b) n

def mapBlocks (f : List UInt8 → List UInt8) (b : Nat) : Nat → List UInt8 → List UInt8
  | 0, _ => []
  | n + 1, data => f (data.take b) ++ mapBlocks f b n (data.drop b)

theorem load_append (pre bytes post : List UInt8) :
    load (pre ++ bytes ++ post) pre.length bytes.length = some bytes := by
  rw [load_eq_some (by simp), List.append_assoc, List.drop_left' rfl, List.take_left' rfl]

theorem store_append (pre post : List UInt8) {bytes bytes' : List UInt8}
    (h : bytes'.length = bytes.length) :
    store (pre ++ bytes ++ post) pre.length bytes' = some (pre ++ bytes' ++ post) := by
  rw [store_eq_some (by simp [h]), List.append_assoc pre bytes, List.take_left' rfl, h,
    ← List.drop_drop, List.drop_left' rfl, List.drop_left' rfl]

/-- The range of a block of bytes that a load or store touches. -/
theorem split_range {mem : List UInt8} {pos n : Nat} (h : pos + n ≤ mem.length) :
    ∃ pre data post, mem = pre ++ data ++ post ∧ pre.length = pos ∧ data.length = n := by
  refine ⟨mem.take pos, (mem.drop pos).take n, mem.drop (pos + n), ?_, ?_, ?_⟩
  · rw [List.append_assoc, ← List.drop_drop, List.take_append_drop, List.take_append_drop]
  · rw [List.length_take]
    omega
  · rw [List.length_take, List.length_drop]
    omega

theorem length_overBlocks {f : List UInt8 → List UInt8} {b n : Nat} :
    ∀ {mem mem' : List UInt8} {pos : Nat}, overBlocks f b mem pos n = some mem' →
      mem'.length = mem.length := by
  induction n with
  | zero =>
    intro mem mem' pos h
    cases h
    rfl
  | succ n ih =>
    intro mem mem' pos h
    simp only [overBlocks, Option.bind_eq_bind, Option.bind_eq_some_iff] at h
    obtain ⟨_, _, _, hstore, h⟩ := h
    rw [ih h, length_store hstore]

section

variable {f g : List UInt8 → List UInt8} {b : Nat}
  (hf : ∀ block : List UInt8, block.length = b → (f block).length = b)

include hf

theorem length_mapBlocks {n : Nat} :
    ∀ {data : List UInt8}, data.length = n * b → (mapBlocks f b n data).length = n * b := by
  induction n with
  | zero => intro data _; simp [mapBlocks]
  | succ n ih =>
    intro data h
    rw [Nat.add_mul, Nat.one_mul] at h
    rw [mapBlocks, List.length_append, hf _ (by rw [List.length_take]; omega),
      ih (by rw [List.length_drop]; omega), Nat.add_mul, Nat.one_mul, Nat.add_comm]

theorem overBlocks_append {n : Nat} {post : List UInt8} :
    ∀ {pre data : List UInt8}, data.length = n * b →
      overBlocks f b (pre ++ data ++ post) pre.length n = some (pre ++ mapBlocks f b n data ++ post) := by
  induction n with
  | zero =>
    intro pre data h
    rw [Nat.zero_mul, List.length_eq_zero_iff] at h
    rw [h]
    rfl
  | succ n ih =>
    intro pre data h
    rw [Nat.add_mul, Nat.one_mul] at h
    have htake : (data.take b).length = b := by rw [List.length_take]; omega
    have hsplit : pre ++ data ++ post = pre ++ data.take b ++ (data.drop b ++ post) := by
      rw [List.append_assoc pre (data.take b), ← List.append_assoc (data.take b),
        List.take_append_drop, List.append_assoc]
    -- the first block, then the rest behind it
    have hload := load_append pre (data.take b) (data.drop b ++ post)
    have hstore := store_append pre (data.drop b ++ post)
      ((hf _ htake).trans htake.symm)
    rw [htake] at hload
    have hpos : pre.length + b = (pre ++ f (data.take b)).length := by
      rw [List.length_append, hf _ htake]
    rw [overBlocks, hsplit, hload, Option.bind_eq_bind, Option.bind_some, hstore, Option.bind_some,
      ← List.append_assoc, hpos, ih (by rw [List.length_drop]; omega), mapBlocks, List.append_assoc pre]

/-- Undoing each block undoes the range. -/
theorem mapBlocks_inverse (hg : ∀ block : List UInt8, block.length = b → g (f block) = block) {n : Nat} :
    ∀ {data : List UInt8}, data.length = n * b → mapBlocks g b n (mapBlocks f b n data) = data := by
  induction n with
  | zero =>
    intro data h
    rw [Nat.zero_mul, List.length_eq_zero_iff] at h
    rw [h]
    rfl
  | succ n ih =>
    intro data h
    rw [Nat.add_mul, Nat.one_mul] at h
    have htake : (data.take b).length = b := by rw [List.length_take]; omega
    have hblock := hf _ htake
    rw [mapBlocks, mapBlocks, List.take_left' hblock, List.drop_left' hblock, hg _ htake,
      ih (by rw [List.length_drop]; omega), List.take_append_drop]

end

end ByteMemory
