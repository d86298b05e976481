import ForgottenServer.Otb.RoundTrip

/-! # Parsing arbitrary files

On any file that is long enough for the bytes read before its loop, `parseTree`
either throws `InvalidOTBFormat` or returns nodes whose slices lie in the file.
Every such node reads as a tree, so the round trip applies to it. -/

namespace ForgottenServer.Otb

/-- The slices of a node and of its descendants are ordered and inside the file. -/
inductive Located (file : List Byte) : Node → Prop where
  | mk {cs : List Node} {b e : Nat} {type : Byte} :
    b ≤ e → e ≤ file.length → (∀ c ∈ cs, Located file c) → Located file (.mk cs b e type)

/-- The innermost open node at position `it`: its properties started before `it`
and end there if no child has started, and are inside the file otherwise. -/
structure Open (file : List Byte) (it : Nat) (n : Node) : Prop where
  started : n.children = [] → n.propsBegin ≤ it
  ended : n.children ≠ [] → InFile file n
  children : ∀ c ∈ n.children, Located file c

/-- Parser invariant: only the innermost open node can still be without an end. -/
structure ParseInv (file : List Byte) (it : Nat) (s : ParseState) : Prop where
  current : ∀ n ∈ s.parseStack.head?, Open file it n
  outer : ∀ n ∈ s.parseStack.tail, Located file n
  root : ∀ n ∈ s.root, Located file n

/-- Ending the properties of the innermost node at a position of the file locates it. -/
theorem Open.endProps {file : List Byte} {it : Nat} {n : Node} (h : Open file it n)
    (hit : it ≤ file.length) : Located file (n.endProps it) := by
  obtain ⟨cs, b, e, type⟩ := n
  unfold Node.endProps
  cases cs with
  | nil => exact .mk (h.started rfl) hit (by simp [Node.children])
  | cons c cs => exact .mk (h.ended (by simp [Node.children])).1 (h.ended (by simp [Node.children])).2 h.children

theorem ParseInv.advance {file : List Byte} {it it' : Nat} {s : ParseState}
    (h : ParseInv file it s) (hle : it ≤ it') : ParseInv file it' s :=
  ⟨fun n hn => ⟨fun hc => Nat.le_trans ((h.current n hn).started hc) hle, (h.current n hn).ended,
    (h.current n hn).children⟩, h.outer, h.root⟩

theorem ParseInv.endCurrentProps {file : List Byte} {it : Nat} {s s' : ParseState}
    (h : ParseInv file it s) (hit : it ≤ file.length) (hs : s.endCurrentProps it = .ok s') :
    (∀ n ∈ s'.parseStack, Located file n) ∧ (∀ n ∈ s'.root, Located file n) := by
  obtain ⟨stack, root⟩ := s
  cases stack with
  | nil => cases hs
  | cons cur rest =>
    cases hs
    refine ⟨fun n hn => ?_, h.root⟩
    rcases List.mem_cons.mp hn with rfl | hn
    · exact (h.current cur rfl).endProps hit
    · exact h.outer n hn

theorem ParseInv.push {file : List Byte} {it : Nat} {s : ParseState}
    (hs : ∀ n ∈ s.parseStack, Located file n) (hr : ∀ n ∈ s.root, Located file n) (type : Byte) :
    ParseInv file it (s.push (Node.fresh type it)) := by
  refine ⟨fun n hn => ?_, hs, hr⟩
  cases hn
  exact ⟨fun _ => Nat.le_refl _, fun hc => (hc rfl).elim, fun c hc => by cases hc⟩

theorem Located.addChild {file : List Byte} {it : Nat} {n child : Node} (h : Located file n)
    (hc : Located file child) : Open file it (n.addChild child) := by
  obtain ⟨hbe, he, hcs⟩ := h
  refine ⟨fun hnil => by simp [Node.addChild, Node.children] at hnil, fun _ => ⟨hbe, he⟩,
    fun c hmem => ?_⟩
  rcases List.mem_append.mp hmem with hmem | hmem
  · exact hcs c hmem
  · rwa [List.mem_singleton.mp hmem]

theorem ParseInv.pop {file : List Byte} {it : Nat} {s : ParseState}
    (hs : ∀ n ∈ s.parseStack, Located file n) (hr : ∀ n ∈ s.root, Located file n) :
    ParseInv file it s.pop := by
  obtain ⟨stack, root⟩ := s
  match stack with
  | [] => exact ⟨by simp [ParseState.pop], by simp [ParseState.pop], hr⟩
  | [n] =>
    refine ⟨by simp [ParseState.pop], by simp [ParseState.pop], fun m hm => ?_⟩
    cases hm
    exact hs n (by simp)
  | n :: parent :: rest =>
    refine ⟨fun m hm => ?_, fun m hm => hs m (by simp [show m ∈ rest from hm]), hr⟩
    cases hm
    exact (hs parent (by simp)).addChild (hs n (by simp))

/-- The loop never reads past the end: it throws `InvalidOTBFormat` or ends with the
invariant. -/
theorem parseLoop_sound {file : List Byte} (it : Nat) (s : ParseState) (hit : it ≤ file.length)
    (hinv : ParseInv file it s) :
    parseLoop file it s = .error .invalidOTBFormat ∨
      ∃ s', parseLoop file it s = .ok s' ∧ ParseInv file file.length s' := by
  by_cases hend : it = file.length
  · rw [parseLoop, if_pos hend]
    exact .inr ⟨s, rfl, hinv.advance hit⟩
  have hlt : it < file.length := by omega
  rw [parseLoop_step (List.getElem?_eq_getElem hlt)]
  split
  · -- START: the byte after it is the type of the child
    cases hs : s.endCurrentProps it with
    | error err =>
      unfold ParseState.endCurrentProps at hs
      split at hs <;> cases hs
      exact .inl rfl
    | ok s' =>
      obtain ⟨hstack, hroot⟩ := hinv.endCurrentProps hit hs
      by_cases hlast : it + 1 = file.length
      · exact .inl (by simp [hlast, bind, Except.bind])
      · have hread : readAt file (it + 1) = .ok (file[it + 1]) := by
          simp [readAt, List.getElem?_eq_getElem (show it + 1 < file.length by omega)]
        simpa [hlast, hread, bind, Except.bind] using
          parseLoop_sound (it + 2) _ (by omega) (.push hstack hroot file[it + 1])
  · split
    · -- END
      cases hs : s.endCurrentProps it with
      | error err =>
        unfold ParseState.endCurrentProps at hs
        split at hs <;> cases hs
        exact .inl rfl
      | ok s' =>
        obtain ⟨hstack, hroot⟩ := hinv.endCurrentProps hit hs
        simpa [bind, Except.bind] using
          parseLoop_sound (it + 1) s'.pop (by omega) (.pop hstack hroot)
    · split
      · -- ESCAPE: the byte after it is skipped
        by_cases hlast : it + 1 = file.length
        · exact .inl (by simp [hlast])
        · rw [if_neg hlast]
          exact parseLoop_sound (it + 2) s (by omega) (hinv.advance (by omega))
      · exact parseLoop_sound (it + 1) s (by omega) (hinv.advance (by omega))
termination_by file.length - it

/-- `parseTree` on a file longer than the minimal size. -/
theorem parseTree_sound {file : List Byte} (h : minimalSize < file.length) :
    parseTree file = .error .invalidOTBFormat ∨
      ∃ root, parseTree file = .ok root ∧ Located file root := by
  have hmin : 7 < file.length := h
  have hstart : readAt file 4 = .ok file[4] := by
    simp [readAt, List.getElem?_eq_getElem (show 4 < file.length by omega)]
  have htype : readAt file 5 = .ok file[5] := by
    simp [readAt, List.getElem?_eq_getElem (show 5 < file.length by omega)]
  have hinv : ParseInv file 6 ⟨[Node.fresh file[5] 6], none⟩ :=
    .push (s := ⟨[], none⟩) (by simp) (by simp) file[5]
  simp only [parseTree, hstart, htype, bind, Except.bind]
  by_cases hs : file[4] = START
  · rw [if_neg (by simpa using hs)]
    rcases parseLoop_sound 6 _ (by omega) hinv with herr | ⟨s', hok, hinv'⟩
    · exact .inl (by rw [herr])
    · rw [hok]
      dsimp only
      split
      · rename_i root _ hroot
        exact .inr ⟨root, rfl, hinv'.root root hroot⟩
      · exact .inl rfl
  · exact .inl (by rw [if_pos (by simpa using hs)])

/-- `node` is `root` or one of its descendants. -/
inductive Within (root : Node) : Node → Prop where
  | root : Within root root
  | child {parent node : Node} : Within root parent → node ∈ parent.children → Within root node

theorem Located.within {file : List Byte} {root node : Node} (h : Located file root)
    (hnode : Within root node) : Located file node := by
  induction hnode with
  | root => exact h
  | child _ hmem ih =>
    cases ih with
    | mk _ _ hcs => exact hcs _ hmem

theorem Located.inFile {file : List Byte} {node : Node} (h : Located file node) :
    InFile file node := by
  cases h with
  | mk hbe he _ => exact ⟨hbe, he⟩

/-- **`getProps` is the plain scan.** On every node of every tree that the parser builds from a
file the loader accepts, it returns false exactly on an empty slice, and otherwise the bytes
that the scan keeps of the slice, which fit into a buffer of the slice's size. -/
theorem getProps_of_parsed {file : List Byte} {identifier : Identifier} {root node : Node}
    (hfile : acceptsFile file identifier = true) (hparse : parseTree file = .ok root)
    (hnode : Within root node) :
    getProps file node = .ok (if propsSlice file node = [] then none
      else some (unescape (propsSlice file node))) ∧
    (unescape (propsSlice file node)).length ≤ node.propsEnd - node.propsBegin := by
  have hsize : minimalSize < file.length := by
    rw [acceptsFile, Bool.and_eq_true, decide_eq_true_eq] at hfile
    exact hfile.1
  rcases parseTree_sound hsize with herr | ⟨root', hok, hloc⟩
  · rw [herr] at hparse
    cases hparse
  · rw [hok] at hparse
    cases hparse
    refine ⟨getProps_eq (hloc.within hnode).inFile, ?_⟩
    refine (length_unescape_le _).trans ?_
    rw [propsSlice, List.length_take]
    exact Nat.min_le_left _ _

/-- The root of a file, with an escaped byte at the end of its properties. -/
theorem getProps_of_parsed_escaped_last :
    getProps [0, 0, 0, 0, START, 1, 5, ESCAPE, ESCAPE, END] (.mk [] 6 9 1) =
      .ok (some [5, ESCAPE]) := by
  have hparse : parseTree [0, 0, 0, 0, START, 1, 5, ESCAPE, ESCAPE, END] = .ok (.mk [] 6 9 1) :=
    parseTree_encode (Vector.replicate 4 0) (.node 1 [5, ESCAPE] [])
  have hfile : acceptsFile [0, 0, 0, 0, START, 1, 5, ESCAPE, ESCAPE, END] (Vector.replicate 4 0) =
      true := rfl
  have h := (getProps_of_parsed hfile hparse .root).1
  have hslice : propsSlice [0, 0, 0, 0, START, 1, 5, ESCAPE, ESCAPE, END] (.mk [] 6 9 1) =
      [5, ESCAPE, ESCAPE] := rfl
  have hscan : unescape [5, ESCAPE, ESCAPE] = [5, ESCAPE] := rfl
  rw [hslice, hscan] at h
  exact h

/-- Every located node reads as a tree. -/
theorem Located.reads {file : List Byte} {n : Node} (h : Located file n) : ∃ t, Reads file n t := by
  induction h with
  | @mk cs b e type hbe he hcs ih =>
    have hall : ∀ ns : List Node, (∀ c ∈ ns, ∃ t, Reads file c t) → ∃ ts, ReadsAll file ns ts := by
      intro ns
      induction ns with
      | nil => exact fun _ => ⟨[], trivial⟩
      | cons n ns ihn =>
        intro hns
        obtain ⟨t, ht⟩ := hns n (by simp)
        obtain ⟨ts, hts⟩ := ihn (fun c hc => hns c (by simp [hc]))
        exact ⟨t :: ts, ht, hts⟩
    obtain ⟨ts, hts⟩ := hall cs ih
    have hin : InFile file (.mk cs b e type) := ⟨hbe, he⟩
    exact ⟨.node type _ ts, rfl, by rw [getProps_eq hin]; rfl, hts⟩

/-- Writing a node that reads as `t` and parsing the bytes gives `t` again. -/
theorem appendNode_parseTree {file : List Byte} {n : Node} {t : Tree} (identifier : Identifier)
    (h : Reads file n t) :
    ∃ bytes root, appendNode file n [] = .ok bytes ∧
      parseTree (identifier.toList ++ bytes) = .ok root ∧
      Reads (identifier.toList ++ bytes) root t :=
  ⟨encode t, place 4 t, by simpa using appendNode_eq n t h [], parseTree_encode identifier t,
    reads_place t ⟨identifier.toList, [], by simp, by simp⟩⟩

/-- **OTB files round trip.** Every tree is what some parsed file holds; writing
such nodes after any identifier and parsing gives the same tree; and on every file
longer than the minimal size the parser stays inside the file, throwing
`InvalidOTBFormat` or returning located nodes that survive being written and parsed
again. -/
theorem otb_roundTrip (identifier : Identifier) :
    (∀ t : Tree, ∃ file n, parseTree file = .ok n ∧ Reads file n t) ∧
    (∀ (file : List Byte) (n : Node) (t : Tree), Reads file n t →
      ∃ bytes root, appendNode file n [] = .ok bytes ∧
        parseTree (identifier.toList ++ bytes) = .ok root ∧
        Reads (identifier.toList ++ bytes) root t) ∧
    (∀ file : List Byte, minimalSize < file.length →
      parseTree file = .error .invalidOTBFormat ∨
      ∃ root, parseTree file = .ok root ∧ Located file root ∧
        ∃ t bytes root', Reads file root t ∧ appendNode file root [] = .ok bytes ∧
          parseTree (identifier.toList ++ bytes) = .ok root' ∧
          Reads (identifier.toList ++ bytes) root' t) := by
  refine ⟨fun t => ?_, fun file n t h => appendNode_parseTree identifier h, fun file hsize => ?_⟩
  · exact ⟨identifier.toList ++ encode t, place 4 t, parseTree_encode identifier t,
      reads_place t ⟨identifier.toList, [], by simp, by simp⟩⟩
  · rcases parseTree_sound hsize with herr | ⟨root, hok, hloc⟩
    · exact .inl herr
    · obtain ⟨t, ht⟩ := hloc.reads
      obtain ⟨bytes, root', hb, hp, hr⟩ := appendNode_parseTree identifier ht
      exact .inr ⟨root, hok, hloc, t, bytes, root', ht, hb, hp, hr⟩

end ForgottenServer.Otb
