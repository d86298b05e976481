import Mathlib

/-! # The OTB file format

An OTB file is a four byte identifier followed by one node. A node is a START
byte, a type byte, its properties and its children, and an END byte; START, END
and ESCAPE bytes inside the properties are preceded by ESCAPE, the type byte is
never escaped. `parseTree` keeps an explicit stack of open nodes and slices the
properties out of the file by position; `getProps` unescapes one slice;
`appendNode` writes a node back.

File positions are indices into the contents. A read outside the contents is the
error `readPastEnd`, which is not an exception of the program: that it never
happens is part of what is proved about the parser. -/

namespace ForgottenServer.Otb

abbrev Byte := UInt8

/-- The reserved bytes of the format (`Node::NodeChar`). -/
def ESCAPE : Byte := 0xFD
def START : Byte := 0xFE
def END : Byte := 0xFF

abbrev Identifier := Vector Byte 4

/-- `sizeof(Identifier) + sizeof(START) + sizeof(type) + sizeof(END)`. -/
def minimalSize : Nat := 4 + 1 + 1 + 1

inductive LoadError where
  | invalidOTBFormat
  | readPastEnd
  deriving DecidableEq, Repr

/-- A parsed node. `propsBegin` and `propsEnd` are positions in the file; the
latter is set when the first child starts or when the node ends. -/
inductive Node where
  | mk (children : List Node) (propsBegin propsEnd : Nat) (type : Byte)

namespace Node

def children : Node → List Node
  | mk cs _ _ _ => cs

def propsBegin : Node → Nat
  | mk _ b _ _ => b

def propsEnd : Node → Nat
  | mk _ _ e _ => e

def type : Node → Byte
  | mk _ _ _ t => t

/-- A node just pushed on the parse stack. -/
def fresh (type : Byte) (propsBegin : Nat) : Node := mk [] propsBegin 0 type

/-- `if (currentNode.children.empty()) currentNode.propsEnd = it`. -/
def endProps (n : Node) (it : Nat) : Node :=
  if n.children.isEmpty then mk n.children n.propsBegin it n.type else n

def addChild (n child : Node) : Node :=
  mk (n.children ++ [child]) n.propsBegin n.propsEnd n.type

end Node

/-! ## Parsing -/

/-- The nodes that are still open, innermost first, and the root once it has been
closed. The program pushes pointers into the tree; here a node joins its parent's
children when it is popped, which no parent can observe earlier, since only the
innermost open node is looked at. -/
structure ParseState where
  parseStack : List Node
  root : Option Node

namespace ParseState

def push (s : ParseState) (n : Node) : ParseState :=
  { s with parseStack := n :: s.parseStack }

/-- `parseStack.pop()`. -/
def pop (s : ParseState) : ParseState :=
  match s.parseStack with
  | [] => s
  | [n] => ⟨[], some n⟩
  | n :: parent :: rest => ⟨parent.addChild n :: rest, s.root⟩

/-- The current node with its properties ended at `it`, or the exception of
`getCurrentNode` on an empty stack. -/
def endCurrentProps (s : ParseState) (it : Nat) : Except LoadError ParseState :=
  match s.parseStack with
  | [] => .error .invalidOTBFormat
  | n :: rest => .ok { s with parseStack := n.endProps it :: rest }

end ParseState

def readAt (file : List Byte) (it : Nat) : Except LoadError Byte :=
  match file[it]? with
  | some b => .ok b
  | none => .error .readPastEnd

/-- The loop of `Loader::parseTree`. The program compares `it` with the end of the
contents for equality only, so a position beyond the end keeps reading. -/
def parseLoop (file : List Byte) (it : Nat) (s : ParseState) : Except LoadError ParseState :=
  if it = file.length then .ok s
  else
    match h : file[it]? with
    | none => .error .readPastEnd
    | some b =>
      have hlt : it < file.length := (List.getElem?_eq_some_iff.mp h).1
      if b = START then do
        let s ← s.endCurrentProps it
        if it + 1 = file.length then .error .invalidOTBFormat
        else
          let type ← readAt file (it + 1)
          parseLoop file (it + 2) (s.push (Node.fresh type (it + 2)))
      else if b = END then do
        let s ← s.endCurrentProps it
        parseLoop file (it + 1) s.pop
      else if b = ESCAPE then
        if it + 1 = file.length then .error .invalidOTBFormat
        else parseLoop file (it + 2) s
      else parseLoop file (it + 1) s
termination_by file.length - it

/-- `Loader::parseTree`: the root's START and type bytes are read before the loop. -/
def parseTree (file : List Byte) : Except LoadError Node := do
  let start ← readAt file 4
  if start ≠ START then .error .invalidOTBFormat
  else
    let type ← readAt file 5
    let s ← parseLoop file 6 ⟨[Node.fresh type 6], none⟩
    match s.parseStack, s.root with
    | [], some root => .ok root
    | _, _ => .error .invalidOTBFormat

/-- The checks of the `Loader` constructor on a file it could map. -/
def acceptsFile (file : List Byte) (acceptedIdentifier : Identifier) : Bool :=
  minimalSize < file.length &&
    (file.take 4 == acceptedIdentifier.toList || file.take 4 == [0, 0, 0, 0])

/-! ## Properties -/

/-- `std::memchr` for the ESCAPE byte: its first position, if any. -/
def findEscape (bytes : List Byte) : Option Nat := bytes.findIdx? (· == ESCAPE)

/-- The copying path of `Loader::getProps`. `src` is what is left of the slice and
`esc` the distance from `src` to the next escape. -/
def copyUnescaped (src : List Byte) (esc : Nat) (dst : List Byte) : List Byte :=
  let dst := dst ++ src.take esc
  match _h : src.drop (esc + 1) with
  | [] => dst
  | [b] => dst ++ [b]
  | b :: c :: rest =>
    let dst := dst ++ [b]
    if c = ESCAPE then copyUnescaped (c :: rest) 0 dst
    else
      match findEscape rest with
      | none => dst ++ c :: rest
      | some j => copyUnescaped (c :: rest) (j + 1) dst
termination_by src.length
decreasing_by
  all_goals
    have hl := congrArg List.length _h
    simp only [List.length_drop, List.length_cons] at hl ⊢
    omega

/-- `Loader::getProps`: `none` is the program's `false` for an empty slice. -/
def getProps (file : List Byte) (node : Node) : Except LoadError (Option (List Byte)) :=
  if node.propsBegin ≤ node.propsEnd ∧ node.propsEnd ≤ file.length then
    let slice := (file.drop node.propsBegin).take (node.propsEnd - node.propsBegin)
    if slice.length = 0 then .ok none
    else
      match findEscape slice with
      | none => .ok (some slice)
      | some esc => .ok (some (copyUnescaped slice esc []))
  else .error .readPastEnd

/-! ## Writing -/

def escapeByte (b : Byte) : List Byte :=
  if b = ESCAPE ∨ b = START ∨ b = END then [ESCAPE, b] else [b]

/-- `appendEscapedProperties`. -/
def appendEscapedProperties (file : List Byte) (node : Node) (output : List Byte) :
    Except LoadError (List Byte) :=
  if node.propsBegin = node.propsEnd then .ok output
  else do
    match ← getProps file node with
    | none => .error .invalidOTBFormat
    | some props => .ok (output ++ props.flatMap escapeByte)

/-- `appendNode` and its loop over the children. -/
def appendNode (file : List Byte) : Node → List Byte → Except LoadError (List Byte)
  | .mk children b e type, output => do
    let output ← appendEscapedProperties file (.mk children b e type) (output ++ [START, type])
    let output ← appendChildren children output
    .ok (output ++ [END])
where
  appendChildren : List Node → List Byte → Except LoadError (List Byte)
    | [], output => .ok output
    | child :: rest, output => do
      let output ← appendNode file child output
      appendChildren rest output

end ForgottenServer.Otb
