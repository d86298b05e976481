import ForgottenServer.Lib.Trie

/-! # The wildcard tree of player names

Names are inserted letter by letter and removed along a stack of the nodes on their path. A
search with a query follows the tree as long as there is no choice. -/

namespace ForgottenServer.Wildcard

open Trie

inductive ReturnValue where
  | noError
  | playerWithThisNameIsNotOnline
  | nameIsTooAmbiguous
  deriving DecidableEq, Repr

/-- The mark is `breakpoint`. The children stand in any order, the search looks at the first one
only where it is the only one. -/
abbrev WildcardTreeNode := Trie UInt8

def addChild (t : WildcardTreeNode) (ch : UInt8) (breakpoint : Bool) : WildcardTreeNode :=
  match t.child ch with
  | some child => if breakpoint && !child.mark then t.modifyChild ch (setMark true) else t
  | none => node t.mark (t.children ++ [(ch, node breakpoint [])])

/-- `insert` of the name that starts with `ch`. -/
def insert (t : WildcardTreeNode) (ch : UInt8) : List UInt8 → WildcardTreeNode
  | [] => addChild t ch true
  | next :: str => (addChild t ch false).modifyChild ch fun cur => insert cur next str

/-- The second loop of `remove`. The stack of nodes is the path to the one on top, last letter
first. -/
def prune (t : WildcardTreeNode) : List UInt8 → WildcardTreeNode
  | [] => t
  | ch :: path =>
    match t.descend (path.reverse ++ [ch]) with
    | none => t
    | some cur =>
      if !cur.children.isEmpty || cur.mark then t
      else prune (t.modifyAt path.reverse (eraseChild ch)) path

def remove (t : WildcardTreeNode) (str : List UInt8) : WildcardTreeNode :=
  match t.descend str with
  | none => t
  | some _ => prune (t.modifyAt str (setMark false)) str.reverse

/-- The second loop of `findOne`, from a node and the letters read up to it. -/
def follow : WildcardTreeNode → List UInt8 → ReturnValue × List UInt8
  | node _ [], result => (.noError, result)
  | node breakpoint [(ch, cur)], result =>
    if breakpoint then (.nameIsTooAmbiguous, result) else follow cur (result ++ [ch])
  | node _ (_ :: _ :: _), result => (.nameIsTooAmbiguous, result)

/-- `findOne`, with what it leaves in `result`. -/
def findOne (t : WildcardTreeNode) (query result : List UInt8) : ReturnValue × List UInt8 :=
  match t.descend query with
  | none => (.playerWithThisNameIsNotOnline, result)
  | some cur => follow cur query

example : findOne (remove (insert (insert (node false []) 1 [2]) 1 [2, 3]) [1, 2]) [1] [] =
    (.noError, [1, 2, 3]) := by decide

variable {t : WildcardTreeNode} {ch : UInt8} {str q : List UInt8}

/-! ## Inserting -/

/-- The child that `insert` goes on with. -/
def entered (t : WildcardTreeNode) (ch : UInt8) : WildcardTreeNode := (t.child ch).getD (node false [])

theorem child_addChild (t : WildcardTreeNode) (ch d : UInt8) (breakpoint : Bool) :
    (addChild t ch breakpoint).child d =
      if d = ch then some (if breakpoint then (entered t ch).setMark true else entered t ch)
      else t.child d := by
  rw [addChild, entered]
  cases hc : t.child ch with
  | some m =>
    obtain ⟨b, cs⟩ := m
    dsimp only
    split
    · rename_i hmark
      rw [Bool.and_eq_true] at hmark
      rw [child_modifyChild, hc, hmark.1]
      rfl
    · rename_i hmark
      by_cases hd : d = ch
      · rw [if_pos hd, hd, hc]
        cases breakpoint <;> cases b <;> simp_all [mark, setMark, children]
      · rw [if_neg hd]
  | none =>
    have hnone : ∀ e ∈ t.children, e.1 ≠ ch := by
      intro e he heq
      have hmem : ch ∈ t.letters := List.mem_map.mpr ⟨e, he, heq⟩
      rw [← child_isSome_iff, hc] at hmem
      cases hmem
    rw [child, children, List.lookup_append]
    by_cases hd : d = ch
    · have hd' : t.children.lookup d = none := by rw [hd]; exact hc
      rw [hd', if_pos hd, hd]
      cases breakpoint <;> simp [setMark, children]
    · rw [if_neg hd, List.lookup_cons]
      have hne : (d == ch) = false := by simpa using hd
      rw [hne]
      simp [child]

theorem look_addChild_nil (t : WildcardTreeNode) (ch : UInt8) (breakpoint : Bool) :
    (addChild t ch breakpoint).look [] =
      some (t.mark, if ch ∈ t.letters then t.letters else t.letters ++ [ch]) := by
  rw [addChild]
  cases hc : t.child ch with
  | some m =>
    have hmem : ch ∈ t.letters := by rw [← child_isSome_iff, hc]; rfl
    dsimp only
    rw [if_pos hmem]
    split
    · rw [look_nil, letters_modifyChild]
      rfl
    · rfl
  | none =>
    have hmem : ch ∉ t.letters := by rw [← child_isSome_iff, hc]; simp
    rw [if_neg hmem, look_nil]
    simp [letters, mark, children]

theorem look_insert_nil (t : WildcardTreeNode) (ch : UInt8) (str : List UInt8) :
    (insert t ch str).look [] =
      some (t.mark, if ch ∈ t.letters then t.letters else t.letters ++ [ch]) := by
  cases str with
  | nil => exact look_addChild_nil t ch true
  | cons next str =>
    rw [← look_addChild_nil t ch false, insert, look_nil, letters_modifyChild, look_nil]
    rfl

/-- What `insert` leaves of the child it goes on with. -/
def inserted (t : WildcardTreeNode) (ch : UInt8) : List UInt8 → WildcardTreeNode
  | [] => (entered t ch).setMark true
  | next :: str => insert (entered t ch) next str

theorem look_insert_cons (t : WildcardTreeNode) (ch d : UInt8) (str q : List UInt8) :
    (insert t ch str).look (d :: q) =
      if d = ch then (inserted t ch str).look q else t.look (d :: q) := by
  cases str with
  | nil =>
    rw [insert, look_cons, child_addChild, look_cons]
    split <;> rfl
  | cons next str =>
    rw [insert, look_cons, child_modifyChild, child_addChild, child_addChild, look_cons]
    by_cases hd : d = ch
    · subst hd
      simp [inserted]
    · simp [hd]

theorem entered_look (t : WildcardTreeNode) (ch : UInt8) (q : List UInt8) :
    (entered t ch).look q = if t.child ch = none ∧ q = [] then some (false, []) else t.look (ch :: q) := by
  rw [entered, look_cons]
  cases hc : t.child ch with
  | some m => simp
  | none =>
    cases q with
    | nil => simp [look_nil, mark, letters, children]
    | cons d q => simp [look_cons, child, children]

theorem entered_holds : (entered t ch).Holds q ↔ t.Holds (ch :: q) := by
  rw [Holds, Holds, entered_look]
  split
  · rename_i h
    rw [look_cons, h.1]
    simp
  · exact Iff.rfl

theorem entered_present : (entered t ch).Present q ↔ t.Present (ch :: q) ∨ q = [] := by
  rw [Present, Present, entered_look]
  split
  · rename_i h
    simp [h.2]
  · rename_i h
    rw [not_and] at h
    constructor
    · exact .inl
    · rintro (hp | rfl)
      · exact hp
      · rw [look_cons]
        cases hc : t.child ch with
        | none => exact absurd rfl (h hc)
        | some m => rfl

theorem entered_distinct (h : t.Distinct) : (entered t ch).Distinct := by
  intro q b cs hq
  rw [entered_look] at hq
  split at hq
  · cases hq
    exact List.nodup_nil
  · exact h _ b cs hq

theorem inserted_nil_look (t : WildcardTreeNode) (ch : UInt8) (q : List UInt8) :
    (inserted t ch []).look q =
      if q = [] then some (true, (entered t ch).letters) else (entered t ch).look q := by
  cases q with
  | nil => rfl
  | cons d q =>
    rw [inserted, look_setMark_cons]
    rfl

theorem insert_holds : ∀ {t : WildcardTreeNode} {ch : UInt8} {q : List UInt8},
    (insert t ch str).Holds q ↔ t.Holds q ∨ q = ch :: str := by
  induction str with
  | nil =>
    intro t ch q
    cases q with
    | nil =>
      rw [Holds, Holds, look_insert_nil, look_nil]
      simp
    | cons d q =>
      rw [Holds, look_insert_cons]
      by_cases hd : d = ch
      · subst hd
        rw [if_pos rfl, inserted_nil_look]
        by_cases hq : q = []
        · simp [hq]
        · rw [if_neg hq, ← Holds, entered_holds]
          simp [hq]
      · rw [if_neg hd, ← Holds]
        simp [hd]
  | cons next str ih =>
    intro t ch q
    cases q with
    | nil =>
      rw [Holds, Holds, look_insert_nil, look_nil]
      simp
    | cons d q =>
      rw [Holds, look_insert_cons]
      by_cases hd : d = ch
      · subst hd
        rw [if_pos rfl, ← Holds, inserted, ih, entered_holds]
        simp
      · rw [if_neg hd, ← Holds]
        simp [hd]

theorem insert_present : ∀ {t : WildcardTreeNode} {ch : UInt8} {q : List UInt8},
    (insert t ch str).Present q ↔ t.Present q ∨ q <+: ch :: str := by
  induction str with
  | nil =>
    intro t ch q
    cases q with
    | nil => simp [Present, look_nil]
    | cons d q =>
      rw [Present, look_insert_cons, List.cons_prefix_cons]
      by_cases hd : d = ch
      · subst hd
        rw [if_pos rfl, inserted_nil_look]
        by_cases hq : q = []
        · simp [hq]
        · rw [if_neg hq, ← Present, entered_present]
          simp [hq]
      · rw [if_neg hd, ← Present]
        simp [hd]
  | cons next str ih =>
    intro t ch q
    cases q with
    | nil => simp [Present, look_nil]
    | cons d q =>
      rw [Present, look_insert_cons, List.cons_prefix_cons]
      by_cases hd : d = ch
      · subst hd
        rw [if_pos rfl, ← Present, inserted, ih, entered_present]
        have hnil : q = [] → q <+: next :: str := fun h => h ▸ List.nil_prefix
        grind
      · rw [if_neg hd, ← Present]
        simp [hd]

/-- The children are distinct if those of the root are and those below the letter. -/
theorem insert_distinct_of {t : WildcardTreeNode} {ch : UInt8} (ht : t.Distinct)
    (hbelow : (inserted t ch str).Distinct) : (insert t ch str).Distinct := by
  intro q b cs hq
  cases q with
  | nil =>
    have hletters : t.letters.Nodup := ht [] t.mark t.letters rfl
    rw [look_insert_nil] at hq
    cases hq
    split
    · exact hletters
    · rename_i hmem
      exact List.nodup_append.mpr ⟨hletters, List.nodup_singleton _, by grind⟩
  | cons d q =>
    rw [look_insert_cons] at hq
    split at hq
    · exact hbelow q b cs hq
    · exact ht _ b cs hq

theorem insert_distinct : ∀ {t : WildcardTreeNode} {ch : UInt8}, t.Distinct → (insert t ch str).Distinct := by
  induction str with
  | nil =>
    intro t ch ht
    refine insert_distinct_of ht fun q b cs hq => ?_
    rw [inserted_nil_look] at hq
    split at hq
    · cases hq
      exact entered_distinct ht [] _ _ rfl
    · exact entered_distinct ht q b cs hq
  | cons next str ih =>
    intro t ch ht
    exact insert_distinct_of ht (ih (entered_distinct ht))

theorem insert_live (h : t.Live) : (insert t ch str).Live := by
  intro q hq hpresent
  rcases insert_present.mp hpresent with hpresent | hstart
  · obtain ⟨s, hs, hstart⟩ := h q hq hpresent
    exact ⟨s, insert_holds.mpr (.inl hs), hstart⟩
  · exact ⟨ch :: str, insert_holds.mpr (.inr rfl), hstart⟩

/-! ## Removing -/

/-- Every node but those on the path `p` is on the way to a word. -/
def LiveBut (t : WildcardTreeNode) (p : List UInt8) : Prop :=
  ∀ q, q ≠ [] → t.Present q → (∃ s, t.Holds s ∧ q <+: s) ∨ q <+: p

/-- A node with a child or a mark is on the way to a word, and so is all that is above it. -/
theorem LiveBut.live {p : List UInt8} {cur : WildcardTreeNode} (h : LiveBut t p)
    (hcur : t.descend p = some cur) (hkeep : cur.children ≠ [] ∨ cur.mark = true) : t.Live := by
  have hword : ∃ s, t.Holds s ∧ p <+: s := by
    rcases hkeep with hchild | hmark
    · obtain ⟨e, he⟩ := List.exists_mem_of_ne_nil _ hchild
      have hpresent : t.Present (p ++ [e.1]) :=
        (mem_letters_iff hcur).mp (List.mem_map_of_mem he)
      rcases h _ (by simp) hpresent with ⟨s, hs, hstart⟩ | hstart
      · exact ⟨s, hs, (List.prefix_append ..).trans hstart⟩
      · have hlen := hstart.length_le
        simp at hlen
    · refine ⟨p, ⟨cur.letters, ?_⟩, List.prefix_rfl⟩
      rw [look, hcur, ← hmark]
      rfl
  intro q hq hpresent
  rcases h q hq hpresent with hlive | hstart
  · exact hlive
  · obtain ⟨s, hs, hps⟩ := hword
    exact ⟨s, hs, hstart.trans hps⟩

/-- Below a node without children there is nothing. -/
theorem present_leaf {p : List UInt8} {cur : WildcardTreeNode} (hcur : t.descend p = some cur)
    (hleaf : cur.children = []) (hq : t.Present q) (hpq : p <+: q) : q = p := by
  obtain ⟨r, rfl⟩ := hpq
  cases r with
  | nil => exact List.append_nil p
  | cons d r =>
    have hd : t.Present (p ++ [d]) := hq.of_prefix (by simp [List.prefix_append_right_inj])
    rw [← mem_letters_iff hcur, letters, hleaf] at hd
    simp at hd

/-- Pruning takes dead nodes only. -/
theorem prune_spec : ∀ {t : WildcardTreeNode}, t.Distinct → LiveBut t str.reverse →
    t.Present str.reverse →
    (prune t str).Distinct ∧ (prune t str).Live ∧ ∀ s, (prune t str).Holds s ↔ t.Holds s := by
  induction str with
  | nil =>
    intro t hdistinct hlive _
    refine ⟨hdistinct, fun q hq hpresent => ?_, fun s => Iff.rfl⟩
    rcases hlive q hq hpresent with h | h
    · exact h
    · exact absurd (List.prefix_nil.mp h) hq
  | cons ch path ih =>
    intro t hdistinct hlive hpresent
    rw [List.reverse_cons] at hlive hpresent
    obtain ⟨cur, hcur⟩ := present_iff_descend.mp hpresent
    obtain ⟨parent, hparent⟩ := present_iff_descend.mp (hpresent.of_prefix (List.prefix_append _ _))
    rw [prune, hcur]
    dsimp only
    by_cases hkeep : cur.children ≠ [] ∨ cur.mark = true
    · rw [if_pos (by simpa [List.isEmpty_iff] using hkeep)]
      exact ⟨hdistinct, hlive.live hcur hkeep, fun s => Iff.rfl⟩
    · rw [not_or, not_not, Bool.not_eq_true] at hkeep
      obtain ⟨hleaf, hunmarked⟩ := hkeep
      rw [if_neg (by simp [hleaf, hunmarked])]
      have hholds : ∀ s, (t.modifyAt path.reverse (eraseChild ch)).Holds s ↔ t.Holds s := by
        intro s
        rw [holds_eraseAt hparent]
        refine and_iff_left_of_imp fun hs hstart => ?_
        obtain rfl := present_leaf hcur hleaf hs.present hstart
        obtain ⟨cs, hcs⟩ := hs
        rw [look, hcur, Option.map_some, hunmarked] at hcs
        cases hcs
      have hlive' : LiveBut (t.modifyAt path.reverse (eraseChild ch)) path.reverse := by
        intro q hq hpresent'
        rw [present_eraseAt hparent] at hpresent'
        rcases hlive q hq hpresent'.1 with ⟨s, hs, hstart⟩ | hstart
        · exact .inl ⟨s, (hholds s).mpr hs, hstart⟩
        · rcases List.prefix_concat_iff.mp hstart with heq | hstart
          · exact absurd (heq ▸ List.prefix_rfl) hpresent'.2
          · exact .inr hstart
      have hpresent' : (t.modifyAt path.reverse (eraseChild ch)).Present path.reverse := by
        rw [present_eraseAt hparent]
        refine ⟨hpresent.of_prefix (List.prefix_append _ _), fun hstart => ?_⟩
        have hlen := hstart.length_le
        simp at hlen
      obtain ⟨hd, hl, hh⟩ := ih (hdistinct.eraseAt hparent) hlive' hpresent'
      exact ⟨hd, hl, fun s => (hh s).trans (hholds s)⟩

theorem remove_spec (str : List UInt8) (hdistinct : t.Distinct) (hlive : t.Live) :
    (remove t str).Distinct ∧ (remove t str).Live ∧
      ∀ s, (remove t str).Holds s ↔ t.Holds s ∧ s ≠ str := by
  rw [remove]
  cases hcur : t.descend str with
  | none =>
    refine ⟨hdistinct, hlive, fun s => (and_iff_left_of_imp ?_).symm⟩
    rintro hs rfl
    obtain ⟨n, hn⟩ := present_iff_descend.mp hs.present
    rw [hcur] at hn
    cases hn
  | some cur =>
    have hbut : LiveBut (t.modifyAt str (setMark false)) str := by
      intro q hq hpresent
      obtain ⟨s, hs, hstart⟩ := hlive q hq ((present_markAt false hcur).mp hpresent)
      by_cases hstr : s = str
      · exact .inr (hstr ▸ hstart)
      · exact .inl ⟨s, (holds_unmarkAt hcur).mpr ⟨hs, hstr⟩, hstart⟩
    have hpresent : (t.modifyAt str (setMark false)).Present str :=
      (present_markAt false hcur).mpr (present_iff_descend.mpr ⟨cur, hcur⟩)
    rw [← List.reverse_reverse str] at hbut hpresent
    obtain ⟨hd, hl, hh⟩ := prune_spec (by simpa using hdistinct.markAt false hcur) hbut hpresent
    rw [List.reverse_reverse] at hd hl hh
    exact ⟨hd, hl, fun s => (hh s).trans (holds_unmarkAt hcur)⟩

/-! ## Searching -/

/-- A child of a tree without dead branches leads to a word. -/
theorem exists_word {e : UInt8 × WildcardTreeNode} (h : t.Live) (he : e ∈ t.children) :
    ∃ u, t.Holds (e.1 :: u) := by
  have hpresent : t.Present [e.1] := (mem_letters_iff (p := []) rfl).mp (List.mem_map_of_mem he)
  obtain ⟨s, hs, u, rfl⟩ := h [e.1] (by simp) hpresent
  exact ⟨u, hs⟩

/-- The second loop ends at the only word of the tree, or where there are two. -/
theorem follow_spec (t : WildcardTreeNode) (result : List UInt8) (hdistinct : t.Distinct) (hlive : t.Live)
    (hword : ∃ u, t.Holds u) :
    (∃ u, follow t result = (.noError, result ++ u) ∧ ∀ v, t.Holds v ↔ v = u) ∨
    (∃ r, follow t result = (.nameIsTooAmbiguous, r)) ∧ ∃ u v, u ≠ v ∧ t.Holds u ∧ t.Holds v := by
  induction t, result using follow.induct with
  | case1 b result =>
    have hnil : ∀ v, (node b [] : WildcardTreeNode).Holds v → v = [] := by
      rintro v ⟨cs, hcs⟩
      cases v with
      | nil => rfl
      | cons d v => simp [look_cons, child, children] at hcs
    refine .inl ⟨[], by rw [follow, List.append_nil], fun v => ⟨hnil v, ?_⟩⟩
    rintro rfl
    obtain ⟨u, hu⟩ := hword
    exact hnil u hu ▸ hu
  | case2 ch cur result =>
    obtain ⟨u, hu⟩ := exists_word hlive (List.mem_singleton.mpr rfl)
    refine .inr ⟨⟨result, rfl⟩, [], ch :: u, by simp, ⟨[ch], rfl⟩, hu⟩
  | case3 b ch cur result hb ih =>
    rw [Bool.not_eq_true] at hb
    subst hb
    have hcur : (node false [(ch, cur)] : WildcardTreeNode).descend [ch] = some cur := by
      simp [descend, child, children]
    have hholds : ∀ v, (node false [(ch, cur)] : WildcardTreeNode).Holds v ↔
        ∃ w, v = ch :: w ∧ cur.Holds w := by
      intro v
      constructor
      · intro hv
        cases v with
        | nil =>
          obtain ⟨cs, hcs⟩ := hv
          cases hcs
        | cons d v =>
          by_cases hd : d = ch
          · subst hd
            exact ⟨v, rfl, (holds_append hcur).mp hv⟩
          · obtain ⟨cs, hcs⟩ := hv
            have hne : (d == ch) = false := by simpa using hd
            simp [look_cons, child, children, List.lookup_cons, hne] at hcs
      · rintro ⟨w, rfl, hw⟩
        exact (holds_append hcur).mpr hw
    obtain ⟨u, hu⟩ := exists_word hlive (List.mem_singleton.mpr rfl)
    have hfollow : follow (node false [(ch, cur)]) result = follow cur (result ++ [ch]) := rfl
    rw [hfollow]
    rcases ih (hdistinct.descend hcur) (hlive.descend hcur) ⟨u, (holds_append hcur).mp hu⟩ with
      ⟨u, hrun, honly⟩ | ⟨⟨r, hrun⟩, u, v, huv, hu, hv⟩
    · refine .inl ⟨ch :: u, by rw [hrun, List.append_assoc]; rfl, fun v => ?_⟩
      rw [hholds]
      simp [honly]
    · refine .inr ⟨⟨r, hrun⟩, ch :: u, ch :: v, by simpa using huv, ?_, ?_⟩
      · exact (hholds _).mpr ⟨u, rfl, hu⟩
      · exact (hholds _).mpr ⟨v, rfl, hv⟩
  | case4 b e e' es result =>
    obtain ⟨u, hu⟩ := exists_word (e := e) hlive (by simp [children])
    obtain ⟨v, hv⟩ := exists_word (e := e') hlive (by simp [children])
    have hletters : (node b (e :: e' :: es) : WildcardTreeNode).letters.Nodup := hdistinct [] _ _ rfl
    have hne : e.1 ≠ e'.1 := by
      simp only [letters, children, List.map_cons, List.nodup_cons, List.mem_cons, not_or] at hletters
      exact hletters.1.1
    exact .inr ⟨⟨result, rfl⟩, e.1 :: u, e'.1 :: v, by simp [hne], hu, hv⟩

/-- The three answers of a search, with what each says about the words of the tree. -/
theorem findOne_cases (hdistinct : t.Distinct) (hlive : t.Live) {query : List UInt8} (hquery : query ≠ [])
    (result : List UInt8) :
    (∃ r, findOne t query result = (.noError, r) ∧ ∀ s, t.Holds s ∧ query <+: s ↔ s = r) ∨
    (findOne t query result = (.playerWithThisNameIsNotOnline, result) ∧
      ∀ s, t.Holds s → ¬query <+: s) ∨
    (∃ r, findOne t query result = (.nameIsTooAmbiguous, r)) ∧
      ∃ u v, u ≠ v ∧ t.Holds u ∧ t.Holds v ∧ query <+: u ∧ query <+: v := by
  rw [findOne]
  cases hcur : t.descend query with
  | none =>
    refine .inr (.inl ⟨rfl, fun s hs hstart => ?_⟩)
    obtain ⟨n, hn⟩ := present_iff_descend.mp (hs.present.of_prefix hstart)
    rw [hcur] at hn
    cases hn
  | some cur =>
    have hpresent : t.Present query := present_iff_descend.mpr ⟨cur, hcur⟩
    obtain ⟨s, hs, u, rfl⟩ := hlive query hquery hpresent
    rcases follow_spec cur query (hdistinct.descend hcur) (hlive.descend hcur)
      ⟨u, (holds_append hcur).mp hs⟩ with ⟨u, hrun, honly⟩ | ⟨hrun, u, v, huv, hu, hv⟩
    · refine .inl ⟨query ++ u, hrun, fun s => ?_⟩
      constructor
      · rintro ⟨hs, w, rfl⟩
        rw [(honly w).mp ((holds_append hcur).mp hs)]
      · rintro rfl
        exact ⟨(holds_append hcur).mpr ((honly u).mpr rfl), List.prefix_append _ _⟩
    · refine .inr (.inr ⟨hrun, query ++ u, query ++ v, ?_, ?_, ?_, ?_, ?_⟩)
      · exact fun h => huv (List.append_cancel_left h)
      · exact (holds_append hcur).mpr hu
      · exact (holds_append hcur).mpr hv
      · exact List.prefix_append _ _
      · exact List.prefix_append _ _

/-! ## Runs -/

/-- A call with a non-empty name, given by its first letter and the rest. -/
inductive Call where
  | insert (ch : UInt8) (str : List UInt8)
  | remove (ch : UInt8) (str : List UInt8)

def Call.run (t : WildcardTreeNode) : Call → WildcardTreeNode
  | insert ch str => Wildcard.insert t ch str
  | remove ch str => Wildcard.remove t (ch :: str)

def Call.leave (names : Finset (List UInt8)) : Call → Finset (List UInt8)
  | insert ch str => Insert.insert (ch :: str) names
  | remove ch str => names.erase (ch :: str)

/-- The tree after the calls, from `wildcardTree{false}` on. -/
def treeAfter (calls : List Call) : WildcardTreeNode := calls.foldl Call.run (node false [])

def namesAfter (calls : List Call) : Finset (List UInt8) := calls.foldl Call.leave ∅

structure Represents (t : WildcardTreeNode) (names : Finset (List UInt8)) : Prop where
  distinct : t.Distinct
  live : t.Live
  holds : ∀ s, t.Holds s ↔ s ∈ names

theorem Represents.step {names : Finset (List UInt8)} (h : Represents t names) (call : Call) :
    Represents (call.run t) (call.leave names) := by
  cases call with
  | insert ch str =>
    refine ⟨insert_distinct h.distinct, insert_live h.live, fun s => ?_⟩
    rw [Call.run, Call.leave, insert_holds, h.holds, Finset.mem_insert, or_comm]
  | remove ch str =>
    obtain ⟨hdistinct, hlive, hholds⟩ := remove_spec (ch :: str) h.distinct h.live
    refine ⟨hdistinct, hlive, fun s => ?_⟩
    rw [Call.run, Call.leave, hholds, h.holds, Finset.mem_erase, and_comm]

theorem represents_after (calls : List Call) : Represents (treeAfter calls) (namesAfter calls) := by
  have hempty : Represents (node false []) ∅ := by
    have hlook : ∀ p b cs, (node false [] : WildcardTreeNode).look p = some (b, cs) →
        p = [] ∧ b = false ∧ cs = [] := by
      intro p b cs hp
      cases p with
      | nil =>
        cases hp
        exact ⟨rfl, rfl, rfl⟩
      | cons d p => simp [look_cons, child, children] at hp
    refine ⟨fun p b cs hp => ?_, fun p hp hpresent => ?_, fun s => ?_⟩
    · rw [(hlook p b cs hp).2.2]
      exact List.nodup_nil
    · obtain ⟨e, he⟩ := Option.isSome_iff_exists.mp hpresent
      exact absurd (hlook p e.1 e.2 he).1 hp
    · constructor
      · rintro ⟨cs, hcs⟩
        exact absurd (hlook s true cs hcs).2.1 (by simp)
      · intro hs
        cases hs
  have hrun : ∀ (calls : List Call) (t : WildcardTreeNode) (names : Finset (List UInt8)),
      Represents t names → Represents (calls.foldl Call.run t) (calls.foldl Call.leave names) := by
    intro calls
    induction calls with
    | nil => exact fun _ _ h => h
    | cons call calls ih => exact fun _ _ h => ih _ _ (h.step call)
  exact hrun calls _ _ hempty

/-- **The wildcard tree answers exactly.** After any calls, a search with a non-empty query finds
the only name that starts with it, says that there is none, or that there are several, and
each only when it is so. -/
theorem findOne_exact (calls : List Call) {query : List UInt8} (hquery : query ≠ []) (result : List UInt8) :
    (∀ r, findOne (treeAfter calls) query result = (.noError, r) ↔
      ∀ s, s ∈ namesAfter calls ∧ query <+: s ↔ s = r) ∧
    ((findOne (treeAfter calls) query result).1 = .playerWithThisNameIsNotOnline ↔
      ∀ s ∈ namesAfter calls, ¬query <+: s) ∧
    ((findOne (treeAfter calls) query result).1 = .nameIsTooAmbiguous ↔
      ∃ u ∈ namesAfter calls, ∃ v ∈ namesAfter calls, u ≠ v ∧ query <+: u ∧ query <+: v) := by
  obtain ⟨hdistinct, hlive, hholds⟩ := represents_after calls
  have hcases := findOne_cases hdistinct hlive hquery result
  simp only [hholds] at hcases
  rcases hcases with ⟨r, hrun, honly⟩ | ⟨hrun, hnone⟩ | ⟨⟨r, hrun⟩, u, v, huv, hu, hv, hqu, hqv⟩
  all_goals rw [hrun]
  · refine ⟨fun r' => ⟨?_, fun h => ?_⟩, ⟨fun h => ?_, fun h => ?_⟩, ⟨fun h => ?_, ?_⟩⟩
    · rintro h
      cases h
      exact honly
    · rw [(h r).mp ((honly r).mpr rfl)]
    · cases h
    · obtain ⟨hr, hqr⟩ := (honly r).mpr rfl
      exact absurd hqr (h r hr)
    · cases h
    · rintro ⟨u, hu, v, hv, huv, hqu, hqv⟩
      exact absurd (((honly u).mp ⟨hu, hqu⟩).trans ((honly v).mp ⟨hv, hqv⟩).symm) huv
  · refine ⟨fun r' => ⟨fun h => ?_, fun h => ?_⟩, ⟨fun _ => hnone, fun _ => rfl⟩, ⟨fun h => ?_, ?_⟩⟩
    · cases h
    · obtain ⟨hr, hqr⟩ := (h r').mpr rfl
      exact absurd hqr (hnone r' hr)
    · cases h
    · rintro ⟨u, hu, v, hv, huv, hqu, hqv⟩
      exact absurd hqu (hnone u hu)
  · refine ⟨fun r' => ⟨fun h => ?_, fun h => ?_⟩, ⟨fun h => ?_, fun h => ?_⟩,
      ⟨fun _ => ⟨u, hu, v, hv, huv, hqu, hqv⟩, fun _ => rfl⟩⟩
    · cases h
    · exact absurd (((h u).mp ⟨hu, hqu⟩).trans ((h v).mp ⟨hv, hqv⟩).symm) huv
    · cases h
    · exact absurd hqu (h u hu)

/-- A name that another one starts with: one answer for the longer query, none for the shorter. -/
theorem findOne_exact_nested :
    (findOne (treeAfter [.insert 97 [], .insert 97 [98], .remove 99 []]) [97] []).1 = .nameIsTooAmbiguous :=
  ((findOne_exact [.insert 97 [], .insert 97 [98], .remove 99 []] (List.cons_ne_nil 97 []) []).2.2).mpr
    ⟨[97], by decide, [97, 98], by decide, by decide, by decide, by decide⟩

end ForgottenServer.Wildcard
