import Mathlib

/-! # Player names

`validateAndFormatPlayerName` takes the outer spaces off a name and edits it in place while it still validates it. The
characters are bytes and classified as ASCII. -/

namespace ForgottenServer.PlayerName

abbrev Byte := UInt8

def space : Byte := 32

def apostrophe : Byte := 39

def isalpha (c : Byte) : Bool := (65 ≤ c ∧ c ≤ 90) ∨ (97 ≤ c ∧ c ≤ 122)

def toupper (c : Byte) : Byte := if 97 ≤ c ∧ c ≤ 122 then c - 32 else c

def tolower (c : Byte) : Byte := if 65 ≤ c ∧ c ≤ 90 then c + 32 else c

/-- `name.find_first_not_of(' ')`. -/
def findFirstNotOf : List Byte → Option Nat
  | [] => none
  | c :: name => if c ≠ space then some 0 else (findFirstNotOf name).map (· + 1)

/-- `name.find_last_not_of(' ')`. -/
def findLastNotOf : List Byte → Option Nat
  | [] => none
  | c :: name =>
    match findLastNotOf name with
    | some i => some (i + 1)
    | none => if c ≠ space then some 0 else none

/-- The loop over the name, with what is left of its turns: whether it is valid, and the name as it is then. -/
def editLoop : Nat → List Byte → Byte → Bool → Bool × List Byte
  | 0, name, _, _ => (true, name)
  | left + 1, name, lastChar, capitalizeNext =>
    let i := name.length - (left + 1)
    let c := name.getD i 0
    if ¬ isalpha c ∧ c ≠ space ∧ c ≠ apostrophe then (false, name)
    else if (c = space ∨ c = apostrophe) ∧ (lastChar = space ∨ lastChar = apostrophe) then (false, name)
    else if capitalizeNext ∧ isalpha c then editLoop left (name.set i (toupper c)) c false
    else if isalpha c then editLoop left (name.set i (tolower c)) c capitalizeNext
    else if c = space then editLoop left name c true
    else editLoop left name c capitalizeNext

/-- The answer, and the name as the call leaves it. -/
def validateAndFormatPlayerName (name : List Byte) : Bool × List Byte :=
  if name = [] then (false, name)
  else
    match findFirstNotOf name, findLastNotOf name with
    | some start, some last =>
      let name := (name.drop start).take (last - start + 1)
      if name.length < 3 ∨ name.length > 29 then (false, name)
      else if ¬ isalpha (name.getD 0 0) then (false, name)
      else if ¬ isalpha (name.getD (name.length - 1) 0) then (false, name)
      else editLoop name.length name space true
    | _, _ => (false, name)

/-! ## What is asked of it -/

/-- The name without leading and trailing spaces. -/
def trimmed (name : List Byte) : List Byte := (name.rdropWhile (· == space)).dropWhile (· == space)

def Separator (c : Byte) : Prop := c = space ∨ c = apostrophe

/-- Two characters that may follow one another. -/
def Apart (a b : Byte) : Prop := ¬ (Separator a ∧ Separator b)

/-- The grammar of names. -/
structure Accepted (s : List Byte) : Prop where
  length : 3 ≤ s.length ∧ s.length ≤ 29
  characters : ∀ c ∈ s, isalpha c ∨ Separator c
  begins : ∃ c, s.head? = some c ∧ isalpha c
  ends : ∃ c, s.getLast? = some c ∧ isalpha c
  apart : s.IsChain Apart

/-- The word with its first letter in upper case and the others in lower case. -/
def capitalized : List Byte → List Byte
  | [] => []
  | c :: word => if isalpha c then toupper c :: word.map tolower else c :: capitalized word

/-- The name with every word capitalized. -/
def formatted (s : List Byte) : List Byte := [space].intercalate ((s.splitOn space).map capitalized)

/-- The strings differ only in letter case. -/
def Alike (s t : List Byte) : Prop := s.map tolower = t.map tolower

/-! ## Characters -/

theorem of_bytes {P : Byte → Prop} (h : ∀ v : BitVec 8, P ⟨v⟩) (c : Byte) : P c := h c.toBitVec

-- One evaluation over the 256 bytes for all that follows.
theorem letter_cases : ∀ c,
    (isalpha (tolower c) = isalpha c ∧ (isalpha c = false → tolower c = c)) ∧
    (toupper (tolower c) = toupper c ∧ tolower (toupper c) = tolower c ∧ tolower (tolower c) = tolower c) ∧
    (tolower c = space ↔ c = space) ∧ (tolower c = apostrophe ↔ c = apostrophe) ∧
    (isalpha c = true → c ≠ space ∧ c ≠ apostrophe) :=
  of_bytes (by decide +kernel)

@[simp] theorem isalpha_tolower (c : Byte) : isalpha (tolower c) = isalpha c := (letter_cases c).1.1

@[simp] theorem toupper_tolower (c : Byte) : toupper (tolower c) = toupper c := (letter_cases c).2.1.1

@[simp] theorem tolower_toupper (c : Byte) : tolower (toupper c) = tolower c := (letter_cases c).2.1.2.1

@[simp] theorem tolower_tolower (c : Byte) : tolower (tolower c) = tolower c := (letter_cases c).2.1.2.2

theorem tolower_of_not_isalpha (c : Byte) : isalpha c = false → tolower c = c := (letter_cases c).1.2

@[simp] theorem tolower_eq_space (c : Byte) : tolower c = space ↔ c = space := (letter_cases c).2.2.1

@[simp] theorem tolower_eq_apostrophe (c : Byte) : tolower c = apostrophe ↔ c = apostrophe :=
  (letter_cases c).2.2.2.1

theorem not_separator_of_isalpha (c : Byte) : isalpha c = true → c ≠ space ∧ c ≠ apostrophe :=
  (letter_cases c).2.2.2.2

theorem separator_tolower (c : Byte) : Separator (tolower c) ↔ Separator c := by simp [Separator]

/-! ## The loop -/

/-- What the loop puts in the place of a character. -/
def edit (capitalizeNext : Bool) (c : Byte) : Byte :=
  if isalpha c then (if capitalizeNext then toupper c else tolower c) else c

/-- Whether the next letter is capitalized, after a character. -/
def next (capitalizeNext : Bool) (c : Byte) : Bool := !isalpha c && (capitalizeNext || c == space)

def edited : Bool → List Byte → List Byte
  | _, [] => []
  | capitalizeNext, c :: s => edit capitalizeNext c :: edited (next capitalizeNext c) s

/-- The loop passes over the rest, after a character. -/
structure Passes (lastChar : Byte) (rest : List Byte) : Prop where
  characters : ∀ c ∈ rest, isalpha c ∨ Separator c
  apart : (lastChar :: rest).IsChain Apart

theorem passes_cons {lastChar c : Byte} {rest : List Byte} :
    Passes lastChar (c :: rest) ↔ (isalpha c ∨ Separator c) ∧ Apart lastChar c ∧ Passes c rest := by
  constructor
  · intro ⟨hchars, hapart⟩
    rw [List.forall_mem_cons] at hchars
    rw [List.isChain_cons_cons] at hapart
    exact ⟨hchars.1, hapart.1, hchars.2, hapart.2⟩
  · intro ⟨hc, hlast, hchars, hapart⟩
    exact ⟨List.forall_mem_cons.mpr ⟨hc, hchars⟩, List.isChain_cons_cons.mpr ⟨hlast, hapart⟩⟩

section Turns

variable (done rest : List Byte) (c lastChar : Byte) (capitalizeNext : Bool)

/-- A turn that is passed edits its character. -/
theorem editLoop_passed (hc : isalpha c ∨ Separator c) (hlast : Apart lastChar c) :
    editLoop (rest.length + 1) (done ++ c :: rest) lastChar capitalizeNext =
      editLoop rest.length ((done ++ [edit capitalizeNext c]) ++ rest) c (next capitalizeNext c) := by
  have hi : (done ++ c :: rest).length - (rest.length + 1) = done.length := by simp
  have hget : (done ++ c :: rest).getD done.length 0 = c := by simp
  have hset : ∀ d, (done ++ c :: rest).set done.length d = done ++ [d] ++ rest := by simp
  have hchar : ¬ (¬ isalpha c ∧ c ≠ space ∧ c ≠ apostrophe) := by
    unfold Separator at hc
    tauto
  rw [editLoop, hi, hget, if_neg hchar, if_neg (fun h => hlast h.symm), hset, hset]
  unfold edit next
  by_cases halpha : isalpha c
  · cases capitalizeNext <;> simp [halpha]
  · have hother : isalpha c = false := by simpa using halpha
    rw [if_neg (fun h => halpha h.2), if_neg halpha]
    by_cases hspace : c = space
    · simp [hother, beq_iff_eq.mpr hspace, if_pos hspace]
    · simp [hother, beq_eq_false_iff_ne.mpr hspace, if_neg hspace]

theorem editLoop_failed (h : ¬ ((isalpha c ∨ Separator c) ∧ Apart lastChar c)) :
    (editLoop (rest.length + 1) (done ++ c :: rest) lastChar capitalizeNext).1 = false := by
  have hi : (done ++ c :: rest).length - (rest.length + 1) = done.length := by simp
  have hget : (done ++ c :: rest).getD done.length 0 = c := by simp
  rw [editLoop, hi, hget]
  unfold Apart Separator at h
  split
  · rfl
  · rw [if_pos (by tauto)]

end Turns

/-- The loop edits what it passes over, and fails otherwise. -/
theorem editLoop_eq (rest : List Byte) : ∀ done lastChar capitalizeNext,
    (Passes lastChar rest →
      editLoop rest.length (done ++ rest) lastChar capitalizeNext = (true, done ++ edited capitalizeNext rest)) ∧
    (¬ Passes lastChar rest → (editLoop rest.length (done ++ rest) lastChar capitalizeNext).1 = false) := by
  induction rest with
  | nil =>
    intro done lastChar capitalizeNext
    exact ⟨fun _ => rfl, fun h => absurd ⟨by simp, List.isChain_singleton _⟩ h⟩
  | cons c rest ih =>
    intro done lastChar capitalizeNext
    obtain ⟨hpass, hfail⟩ := ih (done ++ [edit capitalizeNext c]) c (next capitalizeNext c)
    rw [passes_cons, List.length_cons]
    constructor
    · intro ⟨hc, hlast, hrest⟩
      rw [editLoop_passed done rest c lastChar capitalizeNext hc hlast, hpass hrest, edited, List.append_assoc]
      rfl
    · intro h
      by_cases hturn : (isalpha c ∨ Separator c) ∧ Apart lastChar c
      · rw [editLoop_passed done rest c lastChar capitalizeNext hturn.1 hturn.2]
        exact hfail (fun hrest => h ⟨hturn.1, hturn.2, hrest⟩)
      · exact editLoop_failed done rest c lastChar capitalizeNext hturn

/-! ## Words -/

theorem intercalate_cons (c : Byte) (word : List Byte) (words : List (List Byte)) :
    [space].intercalate ((c :: word) :: words) = c :: [space].intercalate (word :: words) := by
  cases words <;> simp [List.intercalate_cons_cons]

/-- The loop edits what is left of a word and the words after it. -/
theorem edited_words (s : List Byte) : ∃ word words, s.splitOn space = word :: words ∧
    edited true s = [space].intercalate (capitalized word :: words.map capitalized) ∧
    edited false s = [space].intercalate (word.map tolower :: words.map capitalized) := by
  induction s with
  | nil => exact ⟨[], [], rfl, rfl, rfl⟩
  | cons c s ih =>
    obtain ⟨word, words, hsplit, hnew, hleft⟩ := ih
    by_cases hspace : c = space
    · have hsplit' : (c :: s).splitOn space = [] :: word :: words := by
        rw [← hsplit, hspace]
        exact List.splitOnP_cons_eq_if_modifyHead .. |>.trans (if_pos (beq_self_eq_true space))
      refine ⟨[], word :: words, hsplit', ?_, ?_⟩
      all_goals
        rw [hspace, edited, show next _ space = true by simp [next, isalpha, space], hnew]
        rfl
    · have hsplit' : (c :: s).splitOn space = (c :: word) :: words := by
        have hcons := List.splitOnP_cons_eq_if_modifyHead (p := (· == space)) c s
        rw [if_neg (by simpa using hspace)] at hcons
        exact hcons.trans (congrArg (List.modifyHead (List.cons c)) hsplit)
      refine ⟨c :: word, words, hsplit', ?_, ?_⟩
      · rw [edited, capitalized]
        split
        · rename_i halpha
          rw [show next true c = false by simp [next, halpha], hleft, intercalate_cons]
          simp [edit, halpha]
        · rename_i hother
          rw [show next true c = true by simpa [next] using hother, hnew, intercalate_cons]
          simp [edit, hother]
      · have hnext : next false c = false := by simp [next, hspace]
        have hedit : edit false c = tolower c := by
          unfold edit
          split
          · rfl
          · rename_i hother
            exact (tolower_of_not_isalpha c (by simpa using hother)).symm
        rw [edited, hnext, hedit, hleft, List.map_cons, intercalate_cons]

theorem edited_eq_formatted (s : List Byte) : edited true s = formatted s := by
  obtain ⟨word, words, hsplit, hnew, _⟩ := edited_words s
  rw [hnew, formatted, hsplit, List.map_cons]

/-! ## Letter case -/

theorem tolower_edit (capitalizeNext : Bool) (c : Byte) : tolower (edit capitalizeNext c) = tolower c := by
  unfold edit
  split
  · cases capitalizeNext <;> simp
  · rfl

theorem edit_tolower (capitalizeNext : Bool) (c : Byte) : edit capitalizeNext (tolower c) = edit capitalizeNext c := by
  unfold edit
  rw [isalpha_tolower]
  split
  · simp
  · rename_i hother
    exact tolower_of_not_isalpha c (by simpa using hother)

theorem next_tolower (capitalizeNext : Bool) (c : Byte) : next capitalizeNext (tolower c) = next capitalizeNext c := by
  have hspace : (tolower c == space) = (c == space) := by
    rw [Bool.eq_iff_iff]
    simp
  rw [next, next, isalpha_tolower, hspace]

theorem edited_alike (s : List Byte) : ∀ capitalizeNext, Alike (edited capitalizeNext s) s := by
  induction s with
  | nil => exact fun _ => rfl
  | cons c s ih =>
    intro capitalizeNext
    have htail := ih (next capitalizeNext c)
    unfold Alike at htail ⊢
    rw [edited, List.map_cons, List.map_cons, tolower_edit, htail]

theorem edited_map_tolower (s : List Byte) : ∀ capitalizeNext,
    edited capitalizeNext (s.map tolower) = edited capitalizeNext s := by
  induction s with
  | nil => exact fun _ => rfl
  | cons c s ih =>
    intro capitalizeNext
    rw [List.map_cons, edited, edited, edit_tolower, next_tolower, ih]

namespace Alike

variable {s t : List Byte}

theorem edited (h : Alike s t) (capitalizeNext : Bool) : edited capitalizeNext s = edited capitalizeNext t := by
  rw [← edited_map_tolower s, ← edited_map_tolower t, h]

end Alike

theorem accepted_map_tolower (s : List Byte) : Accepted (s.map tolower) ↔ Accepted s := by
  have hchars : (∀ c ∈ s.map tolower, isalpha c ∨ Separator c) ↔ ∀ c ∈ s, isalpha c ∨ Separator c := by
    simp only [List.forall_mem_map, isalpha_tolower, separator_tolower]
  have hbegins : (∃ c, (s.map tolower).head? = some c ∧ isalpha c) ↔ ∃ c, s.head? = some c ∧ isalpha c := by
    cases s <;> simp
  have hends : (∃ c, (s.map tolower).getLast? = some c ∧ isalpha c) ↔ ∃ c, s.getLast? = some c ∧ isalpha c := by
    rw [List.getLast?_map]
    cases s.getLast? <;> simp
  have hapart : (s.map tolower).IsChain Apart ↔ s.IsChain Apart := by
    rw [List.isChain_map]
    unfold Apart
    simp only [separator_tolower]
  constructor
  · intro h
    exact ⟨by simpa using h.length, hchars.mp h.characters, hbegins.mp h.begins, hends.mp h.ends, hapart.mp h.apart⟩
  · intro h
    exact ⟨by simpa using h.length, hchars.mpr h.characters, hbegins.mpr h.begins, hends.mpr h.ends, hapart.mpr h.apart⟩

theorem Alike.accepted {s t : List Byte} (h : Alike s t) (hs : Accepted s) : Accepted t := by
  rw [← accepted_map_tolower, ← h, accepted_map_tolower]
  exact hs

/-! ## Outer spaces -/

theorem findFirstNotOf_drop (name : List Byte) : ∀ start, findFirstNotOf name = some start →
    name.drop start = name.dropWhile (· == space) := by
  induction name with
  | nil =>
    intro start h
    simp [findFirstNotOf] at h
  | cons c name ih =>
    intro start h
    rw [findFirstNotOf] at h
    split at h
    · rename_i hc
      obtain rfl := Option.some.inj h
      simp [hc]
    · rename_i hc
      obtain ⟨start, hstart, rfl⟩ := Option.map_eq_some_iff.mp h
      rw [List.drop_succ_cons, List.dropWhile_cons_of_pos (by simpa using hc), ih start hstart]

theorem rdropWhile_cons (c : Byte) (name : List Byte) :
    (c :: name).rdropWhile (· == space) =
      if name.rdropWhile (· == space) = [] then (if c = space then [] else [c])
      else c :: name.rdropWhile (· == space) := by
  unfold List.rdropWhile
  rw [List.reverse_cons, List.dropWhile_append]
  by_cases hempty : name.reverse.dropWhile (· == space) = []
  · by_cases hc : c = space <;> simp [hempty, hc]
  · simp [hempty]

theorem findLastNotOf_eq_none (name : List Byte) :
    findLastNotOf name = none ↔ name.rdropWhile (· == space) = [] := by
  induction name with
  | nil => simp [findLastNotOf]
  | cons c name ih =>
    rw [findLastNotOf, rdropWhile_cons]
    cases hlast : findLastNotOf name with
    | none =>
      rw [if_pos (ih.mp hlast)]
      by_cases hc : c = space <;> simp [hc]
    | some last =>
      have hne : name.rdropWhile (· == space) ≠ [] := by
        intro h
        rw [ih.mpr h] at hlast
        cases hlast
      rw [if_neg hne]
      exact iff_of_false (Option.some_ne_none _) (List.cons_ne_nil _ _)

theorem findLastNotOf_take (name : List Byte) : ∀ last, findLastNotOf name = some last →
    name.take (last + 1) = name.rdropWhile (· == space) := by
  induction name with
  | nil =>
    intro last h
    simp [findLastNotOf] at h
  | cons c name ih =>
    intro last h
    rw [rdropWhile_cons]
    rw [findLastNotOf] at h
    cases hrest : findLastNotOf name with
    | none =>
      rw [hrest] at h
      rw [if_pos ((findLastNotOf_eq_none name).mp hrest)]
      by_cases hc : c = space
      · simp [hc] at h
      · simp only [ne_eq, hc, not_false_eq_true, if_true, Option.some.injEq] at h
        simp [← h, hc]
    | some i =>
      rw [hrest] at h
      obtain rfl := Option.some.inj h
      have hne : name.rdropWhile (· == space) ≠ [] := by
        intro hnil
        rw [(findLastNotOf_eq_none name).mpr hnil] at hrest
        cases hrest
      rw [if_neg hne, List.take_succ_cons, ih i hrest]

/-- The first character that is no space stays where it is, without the spaces at the end. -/
theorem findFirstNotOf_take (name : List Byte) : ∀ last, findLastNotOf name = some last →
    ∃ start, start ≤ last ∧ findFirstNotOf name = some start ∧ findFirstNotOf (name.take (last + 1)) = some start := by
  induction name with
  | nil =>
    intro last h
    simp [findLastNotOf] at h
  | cons c name ih =>
    intro last h
    rw [List.take_succ_cons, findFirstNotOf, findFirstNotOf]
    by_cases hc : c = space
    · rw [findLastNotOf] at h
      cases hrest : findLastNotOf name with
      | none => simp [hrest, hc] at h
      | some i =>
        rw [hrest] at h
        obtain rfl := Option.some.inj h
        obtain ⟨start, hle, hfirst, htake⟩ := ih i hrest
        exact ⟨start + 1, by omega, by simp [hc, hfirst], by simp [hc, htake]⟩
    · exact ⟨0, Nat.zero_le _, by simp [hc], by simp [hc]⟩

/-- The two positions cut the name out of its outer spaces. -/
theorem substr_trimmed {name : List Byte} {last : Nat} (h : findLastNotOf name = some last) :
    ∃ start, findFirstNotOf name = some start ∧ (name.drop start).take (last - start + 1) = trimmed name := by
  obtain ⟨start, hle, hfirst, htake⟩ := findFirstNotOf_take name last h
  refine ⟨start, hfirst, ?_⟩
  rw [trimmed, ← findLastNotOf_take name last h, ← findFirstNotOf_drop _ start htake, List.drop_take]
  congr 1
  omega

/-- A name that begins and ends with a letter has no outer spaces. -/
theorem Accepted.trimmed_eq {s : List Byte} (h : Accepted s) : trimmed s = s := by
  obtain ⟨first, hfirst, halpha⟩ := h.begins
  obtain ⟨last, hlast, halpha'⟩ := h.ends
  have hend : s.rdropWhile (· == space) = s := by
    rw [List.rdropWhile_eq_self_iff]
    intro hne
    rw [List.getLast?_eq_some_getLast hne] at hlast
    rw [Option.some.inj hlast]
    simpa using (not_separator_of_isalpha last halpha').1
  rw [trimmed, hend]
  cases s with
  | nil => rfl
  | cons c s =>
    obtain rfl := Option.some.inj hfirst
    exact List.dropWhile_cons_of_neg (by simpa using (not_separator_of_isalpha c halpha).1)

/-! ## The call -/

theorem trimmed_eq_nil {name : List Byte} (h : findLastNotOf name = none) : trimmed name = [] := by
  rw [trimmed, (findLastNotOf_eq_none name).mp h]
  rfl

theorem not_accepted_nil : ¬ Accepted [] := by
  intro h
  have hlength := h.length.1
  simp at hlength

/-- The checks before the loop and the loop are the grammar. -/
theorem accepted_iff {s : List Byte} : Accepted s ↔ ¬ (s.length < 3 ∨ s.length > 29) ∧ isalpha (s.getD 0 0) ∧
    isalpha (s.getD (s.length - 1) 0) ∧ Passes space s := by
  by_cases hempty : s = []
  · subst hempty
    exact iff_of_false not_accepted_nil (by simp)
  obtain ⟨c, rest, rfl⟩ := List.exists_cons_of_ne_nil hempty
  have hlast : (c :: rest).getLast? = some ((c :: rest).getD ((c :: rest).length - 1) 0) := by
    rw [List.getLast?_eq_getElem?, List.getD_eq_getElem?_getD]
    simp
  constructor
  · intro h
    obtain ⟨first, hfirst, halpha⟩ := h.begins
    obtain ⟨last, hlast', halpha'⟩ := h.ends
    obtain rfl := Option.some.inj hfirst
    rw [hlast] at hlast'
    have hapart : Apart space c := fun hboth =>
      have hc := not_separator_of_isalpha c halpha
      hboth.2.elim hc.1 hc.2
    have hlength := h.length
    exact ⟨by omega, halpha, by rw [Option.some.inj hlast']; exact halpha', h.characters,
      List.isChain_cons_cons.mpr ⟨hapart, h.apart⟩⟩
  · intro ⟨hlength, hfirst, hend, hpass⟩
    exact ⟨by omega, hpass.characters, ⟨c, rfl, hfirst⟩, ⟨_, hlast, hend⟩, (List.isChain_cons_cons.mp hpass.apart).2⟩

/-- The call accepts the names of the grammar, and formats them. -/
theorem validate_eq (name : List Byte) :
    (Accepted (trimmed name) → validateAndFormatPlayerName name = (true, formatted (trimmed name))) ∧
      (¬ Accepted (trimmed name) → (validateAndFormatPlayerName name).1 = false) := by
  unfold validateAndFormatPlayerName
  cases hlast : findLastNotOf name with
  | none =>
    rw [trimmed_eq_nil hlast]
    refine ⟨fun h => absurd h not_accepted_nil, fun _ => ?_⟩
    split
    · rfl
    · cases findFirstNotOf name <;> rfl
  | some last =>
    obtain ⟨start, hfirst, hsubstr⟩ := substr_trimmed hlast
    have hname : name ≠ [] := by
      intro hnil
      rw [hnil] at hlast
      simp [findLastNotOf] at hlast
    rw [if_neg hname, hfirst]
    dsimp only
    rw [hsubstr, accepted_iff]
    obtain ⟨hpass, hfail⟩ := editLoop_eq (trimmed name) [] space true
    rw [List.nil_append, edited_eq_formatted] at hpass
    rw [List.nil_append] at hfail
    constructor
    · intro ⟨hlength, hbegins, hends, hpasses⟩
      rw [if_neg hlength, if_neg (not_not.mpr hbegins), if_neg (not_not.mpr hends), hpass hpasses]
      rfl
    · intro h
      split
      · rfl
      split
      · rfl
      split
      · rfl
      exact hfail (by tauto)

theorem validate_iff (name : List Byte) : (validateAndFormatPlayerName name).1 = true ↔ Accepted (trimmed name) := by
  obtain ⟨haccept, hreject⟩ := validate_eq name
  by_cases h : Accepted (trimmed name)
  · simp [haccept h, h]
  · simp [hreject h, h]

theorem formatted_alike (s : List Byte) : Alike (formatted s) s := edited_eq_formatted s ▸ edited_alike s true

theorem Alike.formatted {s t : List Byte} (h : Alike s t) : formatted s = formatted t := by
  rw [← edited_eq_formatted, ← edited_eq_formatted, h.edited]

/-- What the call says of a name. -/
structure Validates (name : List Byte) : Prop where
  grammar : (validateAndFormatPlayerName name).1 = true ↔ Accepted (trimmed name)
  format : Accepted (trimmed name) → (validateAndFormatPlayerName name).2 = formatted (trimmed name)
  again : Accepted (trimmed name) →
    validateAndFormatPlayerName (validateAndFormatPlayerName name).2 = (true, (validateAndFormatPlayerName name).2)
  canonical : ∀ other, Accepted (trimmed name) → Accepted (trimmed other) → Alike (trimmed name) (trimmed other) →
    (validateAndFormatPlayerName name).2 = (validateAndFormatPlayerName other).2

/-- A name is accepted if and only if it is in the grammar, and then its format is that of its words, stays as it is and
is the same for every name that differs in letter case and outer spaces only. -/
theorem validateAndFormatPlayerName_validates (name : List Byte) : Validates name := by
  have hformat : ∀ s, Accepted (trimmed s) → validateAndFormatPlayerName s = (true, formatted (trimmed s)) :=
    fun s => (validate_eq s).1
  refine ⟨validate_iff name, fun h => by rw [hformat name h], ?_, ?_⟩
  · intro h
    have halike := formatted_alike (trimmed name)
    have haccepted : Accepted (formatted (trimmed name)) := Alike.accepted (Eq.symm halike) h
    have htrimmed := haccepted.trimmed_eq
    rw [hformat name h, hformat _ (by rw [htrimmed]; exact haccepted), htrimmed, halike.formatted]
  · intro other h hother halike
    rw [hformat name h, hformat other hother, halike.formatted]

end ForgottenServer.PlayerName
