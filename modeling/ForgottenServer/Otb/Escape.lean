import ForgottenServer.Otb.Loader

/-! # Unescaping one property slice

`getProps` has a path that points into the file and a path that copies run by
run. Both give what a byte by byte scan gives, and the scan undoes the escaping
that `appendEscapedProperties` applies. -/

namespace ForgottenServer.Otb

/-- The plain scan: an ESCAPE is dropped and the byte after it is kept as it is. -/
def unescape : List Byte → List Byte
  | [] => []
  | [b] => if b = ESCAPE then [] else [b]
  | b :: c :: rest => if b = ESCAPE then c :: unescape rest else b :: unescape (c :: rest)

theorem unescape_cons_of_ne {b : Byte} (h : b ≠ ESCAPE) (bytes : List Byte) :
    unescape (b :: bytes) = b :: unescape bytes := by
  cases bytes <;> simp [unescape, h]

theorem length_unescape_le (bytes : List Byte) : (unescape bytes).length ≤ bytes.length := by
  fun_induction unescape bytes <;> grind

theorem unescape_append_of_clean {run : List Byte} (h : ∀ b ∈ run, b ≠ ESCAPE)
    (bytes : List Byte) : unescape (run ++ bytes) = run ++ unescape bytes := by
  induction run with
  | nil => rfl
  | cons b run ih =>
    rw [List.cons_append, unescape_cons_of_ne (h b (by simp)),
      ih (fun b hb => h b (by simp [hb])), List.cons_append]

theorem unescape_eq_self {bytes : List Byte} (h : ∀ b ∈ bytes, b ≠ ESCAPE) :
    unescape bytes = bytes := by
  simpa [unescape] using unescape_append_of_clean h []

theorem findEscape_none {bytes : List Byte} (h : findEscape bytes = none) :
    ∀ b ∈ bytes, b ≠ ESCAPE := by
  simpa [findEscape] using h

/-- A found escape splits the bytes into a clean run, the escape and the rest. -/
theorem findEscape_some {bytes : List Byte} {k : Nat} (h : findEscape bytes = some k) :
    bytes = bytes.take k ++ ESCAPE :: bytes.drop (k + 1) ∧ ∀ b ∈ bytes.take k, b ≠ ESCAPE := by
  obtain ⟨hk, hesc, hclean⟩ := List.findIdx?_eq_some_iff_getElem.mp h
  constructor
  · rw [← beq_iff_eq.mp hesc, ← List.drop_eq_getElem_cons hk, List.take_append_drop]
  · intro b hb
    obtain ⟨i, hi, rfl⟩ := List.mem_iff_getElem.mp hb
    simp only [List.length_take] at hi
    simpa using hclean i (by omega)

/-- The copying path appends the plain scan of what is left of the slice. -/
theorem copyUnescaped_eq (src : List Byte) (esc : Nat) (dst : List Byte)
    (h : findEscape src = some esc) : copyUnescaped src esc dst = dst ++ unescape src := by
  obtain ⟨hsplit, hclean⟩ := findEscape_some h
  have hscan : unescape src = src.take esc ++ unescape (ESCAPE :: src.drop (esc + 1)) := by
    conv_lhs => rw [hsplit]
    exact unescape_append_of_clean hclean _
  rw [hscan, copyUnescaped]
  split
  · rename_i hd
    simp [hd, unescape]
  · rename_i b hd
    simp [hd, unescape]
  · rename_i b c rest hd
    have hlt : (c :: rest).length < src.length := by
      have := congrArg List.length hd
      simp only [List.length_drop, List.length_cons] at this ⊢
      omega
    -- the next escape is adjacent, absent, or where the scan finds it
    by_cases hc : c = ESCAPE
    · rw [if_pos hc, copyUnescaped_eq (c :: rest) 0 _ (by simp [findEscape, List.findIdx?_cons, hc]), hd]
      simp [unescape]
    · rw [if_neg hc]
      split
      · rename_i hnone
        have hrest : unescape (c :: rest) = c :: rest := by
          rw [unescape_cons_of_ne hc, unescape_eq_self (findEscape_none hnone)]
        simp [hd, unescape, hrest]
      · rename_i j hsome
        have hnext : findEscape (c :: rest) = some (j + 1) := by
          simp only [findEscape] at hsome ⊢
          simp [List.findIdx?_cons, hc, hsome]
        rw [copyUnescaped_eq (c :: rest) (j + 1) _ hnext, hd]
        simp [unescape]
termination_by src.length

/-- The bytes a node's slice holds in the file. -/
def propsSlice (file : List Byte) (node : Node) : List Byte :=
  (file.drop node.propsBegin).take (node.propsEnd - node.propsBegin)

def InFile (file : List Byte) (node : Node) : Prop :=
  node.propsBegin ≤ node.propsEnd ∧ node.propsEnd ≤ file.length

/-- Both paths of `getProps` are the plain scan of the slice. -/
theorem getProps_eq {file : List Byte} {node : Node} (h : InFile file node) :
    getProps file node = .ok (if propsSlice file node = [] then none
      else some (unescape (propsSlice file node))) := by
  simp only [getProps, h.1, h.2, and_self, if_true]
  change (if (propsSlice file node).length = 0 then _ else _) = _
  by_cases hempty : propsSlice file node = []
  · simp [hempty]
  · rw [if_neg (by simpa using hempty), if_neg hempty]
    rw [propsSlice]
    split
    · rename_i hnone
      rw [unescape_eq_self (findEscape_none hnone)]
    · rename_i esc hsome
      rw [copyUnescaped_eq _ _ _ hsome, List.nil_append]

/-- What `appendEscapedProperties` writes for the property bytes `props`. -/
def escape (props : List Byte) : List Byte := props.flatMap escapeByte

theorem escape_eq_nil {props : List Byte} (h : escape props = []) : props = [] := by
  cases props with
  | nil => rfl
  | cons b props =>
    simp only [escape, List.flatMap_cons, escapeByte] at h
    split at h <;> simp at h

theorem unescape_escape (props : List Byte) : unescape (escape props) = props := by
  induction props with
  | nil => rfl
  | cons b props ih =>
    simp only [escape, List.flatMap_cons, escapeByte] at ih ⊢
    split
    · simpa [unescape] using ih
    · rename_i hb
      rw [List.singleton_append, unescape_cons_of_ne (fun h => hb (.inl h)), ih]

end ForgottenServer.Otb
