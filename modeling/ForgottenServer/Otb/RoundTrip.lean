import ForgottenServer.Otb.Escape

/-! # Encoding and parsing are inverse

A file is about a tree of typed nodes with property bytes. `Reads file node t`
says that a parsed node, with `getProps` on it and on its descendants, is the tree
`t`; `encode` is what `appendNode` writes for it. The parser on an encoded node
pushes exactly one more child (`parseLoop_encode`), which gives the round trip, and
what it returns on any file lies inside the file (`Located`). -/

namespace ForgottenServer.Otb

/-- What a file is about: typed nodes, their property bytes and their children. -/
inductive Tree where
  | node (type : Byte) (props : List Byte) (children : List Tree)

mutual
/-- The parsed node is the tree `t`, its properties read with `getProps` (which
returns no stream at all for an empty slice). -/
def Reads (file : List Byte) : Node → Tree → Prop
  | .mk ns b e ty, .node type props ts =>
    ty = type ∧ (getProps file (.mk ns b e ty)).map (·.getD []) = .ok props ∧
      ReadsAll file ns ts

def ReadsAll (file : List Byte) : List Node → List Tree → Prop
  | [], [] => True
  | n :: ns, t :: ts => Reads file n t ∧ ReadsAll file ns ts
  | _, _ => False
end

mutual
/-- The bytes of a tree, written with `escape`. -/
def encode : Tree → List Byte
  | .node type props ts => START :: type :: (escape props ++ encodeAll ts ++ [END])

def encodeAll : List Tree → List Byte
  | [] => []
  | t :: ts => encode t ++ encodeAll ts
end

/-! ## What `appendNode` writes -/

theorem getProps_ok {file : List Byte} {node : Node} {r : Option (List Byte)}
    (h : getProps file node = .ok r) : InFile file node := by
  unfold getProps at h
  split at h
  · assumption
  · cases h

theorem appendEscapedProperties_eq {file : List Byte} {node : Node} {props : List Byte}
    (h : (getProps file node).map (·.getD []) = .ok props) (output : List Byte) :
    appendEscapedProperties file node output = .ok (output ++ escape props) := by
  unfold appendEscapedProperties
  cases hg : getProps file node with
  | error err => rw [hg] at h; cases h
  | ok r =>
    rw [hg] at h
    have hin := getProps_ok hg
    rw [getProps_eq hin] at hg
    cases h
    by_cases hempty : node.propsBegin = node.propsEnd
    · rw [if_pos hempty]
      rw [if_pos (by simp [propsSlice, hempty])] at hg
      cases hg
      simp [escape]
    · have hne : propsSlice file node ≠ [] := by
        rw [← List.length_pos_iff]
        simp only [propsSlice, List.length_take, List.length_drop]
        obtain ⟨h₁, h₂⟩ := hin
        omega
      rw [if_neg hne] at hg
      cases hg
      rw [if_neg hempty]
      rfl

mutual
/-- `appendNode` writes the encoding of the tree a node reads as, and never throws. -/
theorem appendNode_eq {file : List Byte} : ∀ (n : Node) (t : Tree), Reads file n t →
    ∀ output, appendNode file n output = .ok (output ++ encode t)
  | .mk ns b e ty, .node type props ts, h, output => by
    obtain ⟨rfl, hp, hc⟩ := h
    simp only [appendNode, appendEscapedProperties_eq hp, bind, Except.bind,
      appendChildren_eq ns ts hc, encode]
    simp

theorem appendChildren_eq {file : List Byte} : ∀ (ns : List Node) (ts : List Tree),
    ReadsAll file ns ts →
    ∀ output, appendNode.appendChildren file ns output = .ok (output ++ encodeAll ts)
  | [], [], _, output => by simp [appendNode.appendChildren, encodeAll]
  | n :: ns, t :: ts, h, output => by
    simp only [appendNode.appendChildren, appendNode_eq n t h.1, bind, Except.bind,
      appendChildren_eq ns ts h.2, encodeAll, List.append_assoc]
  | [], _ :: _, h, _ => h.elim
  | _ :: _, [], h, _ => h.elim
end

/-! ## Parsing an encoded node -/

mutual
/-- Where the parser puts the nodes of a tree whose encoding starts at `it`. -/
def place (it : Nat) : Tree → Node
  | .node type props ts =>
    .mk (placeAll (it + 2 + (escape props).length) ts) (it + 2)
      (it + 2 + (escape props).length) type

def placeAll (it : Nat) : List Tree → List Node
  | [] => []
  | t :: ts => place it t :: placeAll (it + (encode t).length) ts
end

/-- `bytes` stands in the file at position `it`. -/
def At (file : List Byte) (it : Nat) (bytes : List Byte) : Prop :=
  ∃ before after, file = before ++ bytes ++ after ∧ before.length = it

theorem At.append {file : List Byte} {it : Nat} {a b : List Byte} (h : At file it (a ++ b)) :
    At file it a ∧ At file (it + a.length) b := by
  obtain ⟨before, after, rfl, rfl⟩ := h
  exact ⟨⟨before, b ++ after, by simp, rfl⟩, ⟨before ++ a, after, by simp, by simp⟩⟩

theorem At.getElem? {file : List Byte} {it : Nat} {b : Byte} {bytes : List Byte}
    (h : At file it (b :: bytes)) : file[it]? = some b := by
  obtain ⟨before, after, rfl, rfl⟩ := h
  simp

theorem At.lt {file : List Byte} {it : Nat} {b : Byte} {bytes : List Byte}
    (h : At file it (b :: bytes)) : it < file.length :=
  (List.getElem?_eq_some_iff.mp h.getElem?).1

theorem At.tail {file : List Byte} {it : Nat} {b : Byte} {bytes : List Byte}
    (h : At file it (b :: bytes)) : At file (it + 1) bytes :=
  (At.append (a := [b]) h).2

theorem parseLoop_step {file : List Byte} {it : Nat} {b : Byte} (h : file[it]? = some b)
    (s : ParseState) :
    parseLoop file it s =
      if b = START then do
        let s ← s.endCurrentProps it
        if it + 1 = file.length then .error .invalidOTBFormat
        else
          let type ← readAt file (it + 1)
          parseLoop file (it + 2) (s.push (Node.fresh type (it + 2)))
      else if b = END then do
        let s ← s.endCurrentProps it
        parseLoop file (it + 1) s.pop
      else if b = ESCAPE then
        if it + 1 = file.length then .error .invalidOTBFormat
        else parseLoop file (it + 2) s
      else parseLoop file (it + 1) s := by
  have hlt : it < file.length := (List.getElem?_eq_some_iff.mp h).1
  conv_lhs => rw [parseLoop]
  rw [if_neg (by omega)]
  split
  · rename_i hnone
    rw [h] at hnone
    cases hnone
  · rename_i b' hsome
    rw [h] at hsome
    cases hsome
    rfl

/-- The parser runs over escaped property bytes without touching the stack. -/
theorem parseLoop_escape {file : List Byte} (props : List Byte) :
    ∀ {it : Nat}, At file it (escape props) → ∀ s,
      parseLoop file it s = parseLoop file (it + (escape props).length) s := by
  induction props with
  | nil => intro it _ s; rfl
  | cons b props ih =>
    intro it hat s
    change At file it (escapeByte b ++ escape props) at hat
    obtain ⟨hb, hrest⟩ := hat.append
    change _ = parseLoop file (it + (escapeByte b ++ escape props).length) s
    rw [List.length_append, ← Nat.add_assoc, ← ih hrest]
    unfold escapeByte at hb ⊢
    split at hb
    · rename_i hesc
      rw [if_pos hesc, parseLoop_step hb.getElem?]
      have := hb.tail.lt
      simp [ESCAPE, START, END, show it + 1 ≠ file.length by omega]
    · rename_i hplain
      rw [if_neg hplain, parseLoop_step hb.getElem?]
      simp only [not_or] at hplain
      simp [hplain]

/-- A START byte opens a child of the current node. -/
theorem parseLoop_start {file : List Byte} {it : Nat} {type : Byte} {bytes : List Byte}
    (h : At file it (START :: type :: bytes)) (cur : Node) (stack : List Node)
    (root : Option Node) :
    parseLoop file it ⟨cur :: stack, root⟩ =
      parseLoop file (it + 2) ⟨Node.fresh type (it + 2) :: cur.endProps it :: stack, root⟩ := by
  have hlt := h.tail.lt
  rw [parseLoop_step h.getElem?, if_pos rfl]
  simp [ParseState.endCurrentProps, ParseState.push, readAt, h.tail.getElem?,
    show it + 1 ≠ file.length by omega, bind, Except.bind]

/-- An END byte closes the current node. -/
theorem parseLoop_end {file : List Byte} {it : Nat} {bytes : List Byte}
    (h : At file it (END :: bytes)) (cur : Node) (stack : List Node) (root : Option Node) :
    parseLoop file it ⟨cur :: stack, root⟩ =
      parseLoop file (it + 1) (ParseState.pop ⟨cur.endProps it :: stack, root⟩) := by
  rw [parseLoop_step h.getElem?, if_neg (by decide), if_pos rfl]
  rfl

/-- The current node after the encodings of `ts`, the first of them at `it`. -/
def Node.addPlaced (cur : Node) (it : Nat) : List Tree → Node
  | [] => cur
  | t :: ts => .mk ((cur.endProps it).children ++ placeAll it (t :: ts)) (cur.endProps it).propsBegin
      (cur.endProps it).propsEnd (cur.endProps it).type

/-- Once a node has a child, its properties have ended. -/
theorem Node.addPlaced_addChild (cur child : Node) (it : Nat) (ts : List Tree) :
    (cur.addChild child).addPlaced it ts =
      .mk (cur.children ++ [child] ++ placeAll it ts) cur.propsBegin cur.propsEnd cur.type := by
  cases ts with
  | nil => simp [addPlaced, addChild, placeAll]
  | cons t ts => simp [addPlaced, addChild, endProps, children, propsBegin, propsEnd, type]

/-- Closing a node opened at `it` after its children's encodings. -/
theorem Node.endProps_addPlaced_fresh (type : Byte) (b it : Nat) (ts : List Tree) :
    ((Node.fresh type b).addPlaced it ts).endProps (it + (encodeAll ts).length) =
      .mk (placeAll it ts) b it type := by
  cases ts with
  | nil => simp [addPlaced, fresh, endProps, encodeAll, placeAll, children, propsBegin, Node.type]
  | cons t ts =>
    simp [addPlaced, fresh, endProps, placeAll, children, propsBegin, propsEnd, Node.type]

mutual
/-- The parser turns an encoded node into one more child of the current node. -/
theorem parseLoop_encode {file : List Byte} : ∀ (t : Tree) {it : Nat}, At file it (encode t) →
    ∀ cur stack root, parseLoop file it ⟨cur :: stack, root⟩ =
      parseLoop file (it + (encode t).length) ⟨(cur.endProps it).addChild (place it t) :: stack, root⟩
  | .node type props ts, it, hat, cur, stack, root => by
    rw [encode] at hat
    obtain ⟨hbody, hend⟩ := hat.tail.tail.append
    obtain ⟨hesc, hkids⟩ := hbody.append
    rw [parseLoop_start hat, parseLoop_escape props hesc, parseLoop_encodeAll ts hkids,
      parseLoop_end (by simpa [Nat.add_assoc] using hend), Node.endProps_addPlaced_fresh]
    simp only [ParseState.pop, place, encode, List.length_cons, List.length_append,
      List.length_nil]
    congr 1
    omega

theorem parseLoop_encodeAll {file : List Byte} : ∀ (ts : List Tree) {it : Nat},
    At file it (encodeAll ts) → ∀ cur stack root, parseLoop file it ⟨cur :: stack, root⟩ =
      parseLoop file (it + (encodeAll ts).length) ⟨cur.addPlaced it ts :: stack, root⟩
  | [], it, _, cur, stack, root => by simp [encodeAll, Node.addPlaced]
  | t :: ts, it, hat, cur, stack, root => by
    rw [encodeAll] at hat
    obtain ⟨hhead, htail⟩ := hat.append
    rw [parseLoop_encode t hhead, parseLoop_encodeAll ts htail, Node.addPlaced_addChild]
    simp [encodeAll, Node.addPlaced, placeAll, Nat.add_assoc]
end

/-! ## What the placed nodes read as -/

theorem propsSlice_of_at {file : List Byte} {b : Nat} {bytes : List Byte} (h : At file b bytes)
    (cs : List Node) (type : Byte) :
    InFile file (.mk cs b (b + bytes.length) type) ∧
      propsSlice file (.mk cs b (b + bytes.length) type) = bytes := by
  obtain ⟨before, after, rfl, rfl⟩ := h
  simp [InFile, propsSlice, Node.propsBegin, Node.propsEnd]

mutual
theorem reads_place {file : List Byte} : ∀ (t : Tree) {it : Nat}, At file it (encode t) →
    Reads file (place it t) t
  | .node type props ts, it, hat => by
    rw [encode] at hat
    obtain ⟨hesc, hkids⟩ := hat.tail.tail.append.1.append
    obtain ⟨hin, hslice⟩ := propsSlice_of_at hesc (placeAll (it + 2 + (escape props).length) ts) type
    refine ⟨rfl, ?_, reads_placeAll ts hkids⟩
    rw [getProps_eq hin, hslice]
    by_cases hnil : escape props = []
    · simp [escape_eq_nil hnil, escape, Except.map]
    · simp [hnil, unescape_escape, Except.map]

theorem reads_placeAll {file : List Byte} : ∀ (ts : List Tree) {it : Nat},
    At file it (encodeAll ts) → ReadsAll file (placeAll it ts) ts
  | [], _, _ => trivial
  | t :: ts, it, hat => by
    rw [encodeAll] at hat
    obtain ⟨hhead, htail⟩ := hat.append
    exact ⟨reads_place t hhead, reads_placeAll ts htail⟩
end

/-- The parser on an identifier and an encoded tree returns that tree. -/
theorem parseTree_encode (identifier : Identifier) (t : Tree) :
    parseTree (identifier.toList ++ encode t) = .ok (place 4 t) := by
  obtain ⟨type, props, ts⟩ := t
  have hat : At (identifier.toList ++ encode (.node type props ts)) 4 (encode (.node type props ts)) :=
    ⟨identifier.toList, [], by simp, by simp⟩
  have hlen : (identifier.toList ++ encode (.node type props ts)).length =
      4 + 2 + (escape props).length + (encodeAll ts).length + 1 := by
    simp [encode]
    omega
  generalize identifier.toList ++ encode (.node type props ts) = file at hat hlen
  rw [encode] at hat
  obtain ⟨hbody, hend⟩ := hat.tail.tail.append
  obtain ⟨hesc, hkids⟩ := hbody.append
  have hloop : parseLoop file 6 ⟨[Node.fresh type 6], none⟩ =
      .ok ⟨[], some (place 4 (.node type props ts))⟩ := by
    rw [parseLoop_escape props hesc, parseLoop_encodeAll ts hkids,
      parseLoop_end (by simpa [Nat.add_assoc] using hend), Node.endProps_addPlaced_fresh,
      parseLoop, if_pos (by rw [hlen])]
    rfl
  simp [parseTree, readAt, hat.getElem?, hat.tail.getElem?, hloop, bind, Except.bind]

end ForgottenServer.Otb
