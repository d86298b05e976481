import ForgottenServer.Lib.ByteBlocks
import ForgottenServer.Lib.LittleEndian

/-! # XTEA

The cipher runs its 32 double rounds over the whole range: the outer loop is over the
rounds, the inner one over the 8-byte blocks. A range whose length is no multiple of
eight is rounded up to whole blocks by the inner loop. -/

namespace ForgottenServer.Xtea

open ByteMemory LittleEndian

abbrev Key := Fin 4 → UInt32

/-- `round_keys`: two keys for each of the 32 double rounds. -/
abbrev RoundKeys := Fin 64 → UInt32

def delta : UInt32 := 0x9E3779B9

/-- `sum` after `n` double rounds. -/
def roundSum (n : Nat) : UInt32 := UInt32.ofNat n * delta

def expandKey (k : Key) : RoundKeys := fun i =>
  if i.val % 2 = 0 then
    let sum := roundSum (i.val / 2)
    sum + k ⟨(sum &&& 3).toNat % 4, Nat.mod_lt _ (by decide)⟩
  else
    let nextSum := roundSum (i.val / 2 + 1)
    nextSum + k ⟨((nextSum >>> 11) &&& 3).toNat % 4, Nat.mod_lt _ (by decide)⟩

/-- The two keys of a double round. -/
def RoundKeys.pair (k : RoundKeys) (i : Fin 32) : UInt32 × UInt32 :=
  (k ⟨2 * i.val, by omega⟩, k ⟨2 * i.val + 1, by omega⟩)

def mix (x : UInt32) : UInt32 := ((x <<< 4) ^^^ (x >>> 5)) + x

def encryptRound (keys : UInt32 × UInt32) (block : UInt32 × UInt32) : UInt32 × UInt32 :=
  let left := block.1 + (mix block.2 ^^^ keys.1)
  let right := block.2 + (mix left ^^^ keys.2)
  (left, right)

def decryptRound (keys : UInt32 × UInt32) (block : UInt32 × UInt32) : UInt32 × UInt32 :=
  let right := block.2 - (mix block.1 ^^^ keys.2)
  let left := block.1 - (mix right ^^^ keys.1)
  (left, right)

/-- The two words of an 8-byte block. -/
def words (block : List UInt8) : UInt32 × UInt32 :=
  (UInt32.ofNat (leNat (block.take 4)), UInt32.ofNat (leNat (block.drop 4)))

def ofWords (block : UInt32 × UInt32) : List UInt8 :=
  leBytes 4 block.1.toNat ++ leBytes 4 block.2.toNat

def encryptBlock (k : RoundKeys) (i : Fin 32) (block : List UInt8) : List UInt8 :=
  ofWords (encryptRound (k.pair i) (words block))

def decryptBlock (k : RoundKeys) (i : Fin 32) (block : List UInt8) : List UInt8 :=
  ofWords (decryptRound (k.pair i) (words block))

/-- The number of steps of `for (it = data; it < data + length; it += 8)`. -/
def blockCount (length : Nat) : Nat := (length + 7) / 8

/-- One pass over the blocks of `mem` from `pos` on for each of the given rounds. -/
def passes (f : Fin 32 → List UInt8 → List UInt8) (rounds : List (Fin 32)) (mem : List UInt8)
    (pos length : Nat) : Option (List UInt8) :=
  rounds.foldlM (fun mem i => overBlocks (f i) 8 mem pos (blockCount length)) mem

def encrypt (mem : List UInt8) (pos length : Nat) (k : RoundKeys) : Option (List UInt8) :=
  passes (encryptBlock k) (List.finRange 32) mem pos length

def decrypt (mem : List UInt8) (pos length : Nat) (k : RoundKeys) : Option (List UInt8) :=
  passes (decryptBlock k) (List.finRange 32).reverse mem pos length

/-! ## One block -/

theorem decryptRound_encryptRound (keys block : UInt32 × UInt32) :
    decryptRound keys (encryptRound keys block) = block := by
  simp [decryptRound, encryptRound]

theorem encryptRound_decryptRound (keys block : UInt32 × UInt32) :
    encryptRound keys (decryptRound keys block) = block := by
  simp [decryptRound, encryptRound]

@[simp] theorem length_ofWords (block : UInt32 × UInt32) : (ofWords block).length = 8 := by
  simp [ofWords]

theorem words_ofWords (block : UInt32 × UInt32) : words (ofWords block) = block := by
  have hword : ∀ w : UInt32, UInt32.ofNat (leNat (leBytes 4 w.toNat)) = w := by
    intro w
    have hw := w.toNat_lt
    rw [leNat_leBytes, Nat.mod_eq_of_lt (by omega), UInt32.ofNat_toNat]
  rw [words, ofWords, List.take_left' (length_leBytes 4 _), List.drop_left' (length_leBytes 4 _),
    hword, hword]

theorem ofWords_words {block : List UInt8} (h : block.length = 8) : ofWords (words block) = block := by
  have hhalf : ∀ half : List UInt8, half.length = 4 →
      leBytes 4 (UInt32.ofNat (leNat half)).toNat = half := by
    intro half hlen
    have hlt := leNat_lt half
    rw [hlen] at hlt
    have hinv := leBytes_leNat half
    rw [hlen] at hinv
    rw [UInt32.toNat_ofNat', Nat.mod_eq_of_lt (by omega), hinv]
  rw [ofWords, words, hhalf _ (by rw [List.length_take]; omega),
    hhalf _ (by rw [List.length_drop]; omega), List.take_append_drop]

theorem decryptBlock_encryptBlock (k : RoundKeys) (i : Fin 32) {block : List UInt8}
    (h : block.length = 8) : decryptBlock k i (encryptBlock k i block) = block := by
  rw [decryptBlock, encryptBlock, words_ofWords, decryptRound_encryptRound, ofWords_words h]

theorem encryptBlock_decryptBlock (k : RoundKeys) (i : Fin 32) {block : List UInt8}
    (h : block.length = 8) : encryptBlock k i (decryptBlock k i block) = block := by
  rw [decryptBlock, encryptBlock, words_ofWords, encryptRound_decryptRound, ofWords_words h]

/-! ## A range of whole blocks -/

theorem blockCount_mul (n : Nat) : blockCount (n * 8) = n := by
  rw [blockCount]
  omega

/-- The passes of the given rounds over `n` blocks. -/
def passesData (f : Fin 32 → List UInt8 → List UInt8) (n : Nat) (rounds : List (Fin 32))
    (data : List UInt8) : List UInt8 :=
  rounds.foldl (fun data i => mapBlocks (f i) 8 n data) data

section

variable {f g : Fin 32 → List UInt8 → List UInt8} {n : Nat}
  (hf : ∀ i block, (f i block).length = 8)

include hf

theorem length_passesData (rounds : List (Fin 32)) :
    ∀ {data : List UInt8}, data.length = n * 8 → (passesData f n rounds data).length = n * 8 := by
  induction rounds with
  | nil => intro data h; exact h
  | cons i rounds ih =>
    intro data h
    exact ih (length_mapBlocks (fun block _ => hf i block) h)

theorem passes_append {pre post : List UInt8} {length : Nat} (hn : blockCount length = n)
    (rounds : List (Fin 32)) :
    ∀ {data : List UInt8}, data.length = n * 8 →
      passes f rounds (pre ++ data ++ post) pre.length length =
        some (pre ++ passesData f n rounds data ++ post) := by
  induction rounds with
  | nil => intro data _; rfl
  | cons i rounds ih =>
    intro data h
    have hlen := length_mapBlocks (fun block _ => hf i block) h
    have hrest := ih hlen
    rw [passes, hn] at hrest
    rw [passes, List.foldlM_cons, hn, overBlocks_append (fun block _ => hf i block) h,
      Option.bind_eq_bind, Option.bind_some]
    exact hrest

/-- Passes of inverse blocks in the reverse order undo the passes. -/
theorem passesData_inverse (hg : ∀ i block, block.length = 8 → g i (f i block) = block)
    (rounds : List (Fin 32)) :
    ∀ {data : List UInt8}, data.length = n * 8 →
      passesData g n rounds.reverse (passesData f n rounds data) = data := by
  induction rounds with
  | nil => intro data _; rfl
  | cons i rounds ih =>
    intro data h
    have hlen := length_mapBlocks (fun block _ => hf i block) h
    have hrest := ih hlen
    rw [passesData] at hrest
    rw [List.reverse_cons, passesData, List.foldl_append]
    simp only [passesData, List.foldl_cons, List.foldl_nil] at hrest ⊢
    rw [hrest]
    exact mapBlocks_inverse (fun block _ => hf i block) (fun block hb => hg i block hb) h

end

theorem length_passes {f : Fin 32 → List UInt8 → List UInt8} (rounds : List (Fin 32))
    {pos length : Nat} :
    ∀ {mem mem' : List UInt8}, passes f rounds mem pos length = some mem' → mem'.length = mem.length := by
  induction rounds with
  | nil =>
    intro mem mem' h
    cases h
    rfl
  | cons i rounds ih =>
    intro mem mem' h
    rw [passes, List.foldlM_cons, Option.bind_eq_bind, Option.bind_eq_some_iff] at h
    obtain ⟨mem₁, h₁, h⟩ := h
    rw [ih h, length_overBlocks h₁]

def encryptData (k : RoundKeys) (n : Nat) (data : List UInt8) : List UInt8 :=
  passesData (encryptBlock k) n (List.finRange 32) data

def decryptData (k : RoundKeys) (n : Nat) (data : List UInt8) : List UInt8 :=
  passesData (decryptBlock k) n (List.finRange 32).reverse data

theorem length_encryptBlock (k : RoundKeys) (i : Fin 32) (block : List UInt8) :
    (encryptBlock k i block).length = 8 := length_ofWords _

theorem length_decryptBlock (k : RoundKeys) (i : Fin 32) (block : List UInt8) :
    (decryptBlock k i block).length = 8 := length_ofWords _

theorem length_encryptData (k : RoundKeys) {n : Nat} {data : List UInt8} (h : data.length = n * 8) :
    (encryptData k n data).length = n * 8 := length_passesData (length_encryptBlock k) _ h

theorem length_decryptData (k : RoundKeys) {n : Nat} {data : List UInt8} (h : data.length = n * 8) :
    (decryptData k n data).length = n * 8 := length_passesData (length_decryptBlock k) _ h

theorem encrypt_append (k : RoundKeys) (pre post : List UInt8) {n length : Nat}
    (hn : blockCount length = n) {data : List UInt8} (h : data.length = n * 8) :
    encrypt (pre ++ data ++ post) pre.length length k = some (pre ++ encryptData k n data ++ post) :=
  passes_append (length_encryptBlock k) hn _ h

theorem decrypt_append (k : RoundKeys) (pre post : List UInt8) {n length : Nat}
    (hn : blockCount length = n) {data : List UInt8} (h : data.length = n * 8) :
    decrypt (pre ++ data ++ post) pre.length length k = some (pre ++ decryptData k n data ++ post) :=
  passes_append (length_decryptBlock k) hn _ h

theorem decryptData_encryptData (k : RoundKeys) {n : Nat} {data : List UInt8}
    (h : data.length = n * 8) : decryptData k n (encryptData k n data) = data :=
  passesData_inverse (length_encryptBlock k) (fun i _ hb => decryptBlock_encryptBlock k i hb) _ h

theorem encryptData_decryptData (k : RoundKeys) {n : Nat} {data : List UInt8}
    (h : data.length = n * 8) : encryptData k n (decryptData k n data) = data := by
  have hinv := passesData_inverse (length_decryptBlock k)
    (fun i _ hb => encryptBlock_decryptBlock k i hb) (List.finRange 32).reverse h
  rwa [List.reverse_reverse] at hinv

/-- **Encryption and decryption of whole blocks undo each other**, in place and with any round
keys; nothing outside the range changes on the way. -/
theorem encrypt_decrypt_inverse (k : RoundKeys) {mem : List UInt8} {pos length : Nat}
    (hwhole : 8 ∣ length) (hin : pos + length ≤ mem.length) :
    (∃ out, encrypt mem pos length k = some out ∧ decrypt out pos length k = some mem) ∧
    (∃ out, decrypt mem pos length k = some out ∧ encrypt out pos length k = some mem) := by
  obtain ⟨n, rfl⟩ := hwhole
  obtain ⟨pre, data, post, rfl, rfl, hdata⟩ := split_range hin
  rw [Nat.mul_comm] at hdata ⊢
  have hn : blockCount (n * 8) = n := blockCount_mul n
  constructor
  · refine ⟨_, encrypt_append k pre post hn hdata, ?_⟩
    rw [decrypt_append k pre post hn (length_encryptData k hdata), decryptData_encryptData k hdata]
  · refine ⟨_, decrypt_append k pre post hn hdata, ?_⟩
    rw [encrypt_append k pre post hn (length_decryptData k hdata), encryptData_decryptData k hdata]

/-- Two blocks in the middle of a buffer, with the keys of an expanded key. -/
theorem encrypt_decrypt_inverse_two_blocks :
    (∃ out, encrypt (List.replicate 20 7) 2 16 (expandKey fun i => UInt32.ofNat i) = some out ∧
      decrypt out 2 16 (expandKey fun i => UInt32.ofNat i) = some (List.replicate 20 7)) ∧
    (∃ out, decrypt (List.replicate 20 7) 2 16 (expandKey fun i => UInt32.ofNat i) = some out ∧
      encrypt out 2 16 (expandKey fun i => UInt32.ofNat i) = some (List.replicate 20 7)) :=
  encrypt_decrypt_inverse _ (by norm_num) (by simp)

theorem length_encrypt {mem mem' : List UInt8} {pos length : Nat} {k : RoundKeys}
    (h : encrypt mem pos length k = some mem') : mem'.length = mem.length := length_passes _ h

theorem length_decrypt {mem mem' : List UInt8} {pos length : Nat} {k : RoundKeys}
    (h : decrypt mem pos length k = some mem') : mem'.length = mem.length := length_passes _ h

/-- Decryption of blocks below `k` depends on the first `k` bytes only. -/
theorem decrypt_congr (key : RoundKeys) {mem mem' : List UInt8} {pos n k : Nat}
    (h : mem.take k = mem'.take k) (hk : pos + n * 8 ≤ k) (hlen : k ≤ mem.length) :
    ∃ out out', decrypt mem pos (n * 8) key = some out ∧ decrypt mem' pos (n * 8) key = some out' ∧
      out.take k = out'.take k := by
  have htake : (mem.take k).length = k := List.length_take_of_le hlen
  obtain ⟨pre, data, mid, hsplit, rfl, hdata⟩ := split_range (hk.trans_eq htake.symm)
  have hmem : ∀ rest : List UInt8, decrypt (mem.take k ++ rest) pre.length (n * 8) key =
      some (pre ++ decryptData key n data ++ (mid ++ rest)) := by
    intro rest
    rw [hsplit, List.append_assoc _ mid]
    exact decrypt_append key pre (mid ++ rest) (blockCount_mul n) hdata
  have hout : ∀ rest : List UInt8, (pre ++ decryptData key n data ++ (mid ++ rest)).take k =
      pre ++ decryptData key n data ++ mid := by
    intro rest
    rw [← List.append_assoc]
    apply List.take_left'
    rw [hsplit] at htake
    simp only [List.length_append, length_decryptData key hdata, hdata] at htake ⊢
    exact htake
  refine ⟨_, _, ?_, ?_, (hout (mem.drop k)).trans (hout (mem'.drop k)).symm⟩
  · rw [← hmem, List.take_append_drop]
  · rw [← hmem, h, List.take_append_drop]

end ForgottenServer.Xtea
