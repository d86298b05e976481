import Mathlib

/-! # Forests as rows

A forest is written breadth first, one row for each tree: the key of its parent, a running
number and the label. The children of a numbered tree have the key of that number for their
parent, the roots have any other keys. Read from the last row to the first, every tree finds
its children under its own number, and goes in front of what is already there under the key of
its parent.

`rebuild_flatten`: whatever the forest, every tree is back where it was, but for those whose
label is gone. -/

namespace BreadthFirst

inductive Rose (α : Type) where
  | leaf (label : α)
  | node (label : α) (children : List (Rose α))

variable {α β γ P : Type}

namespace Rose

def label : Rose α → α
  | leaf a => a
  | node a _ => a

def children : Rose α → List (Rose α)
  | leaf _ => []
  | node _ ts => ts

mutual
def map (f : α → β) : Rose α → Rose β
  | leaf a => leaf (f a)
  | node a ts => node (f a) (mapAll f ts)

def mapAll (f : α → β) : List (Rose α) → List (Rose β)
  | [] => []
  | t :: ts => map f t :: mapAll f ts
end

mutual
/-- Every label, and whether it is that of a node. -/
def All (p : α → Bool → Prop) : Rose α → Prop
  | leaf a => p a false
  | node a ts => p a true ∧ AllOf p ts

def AllOf (p : α → Bool → Prop) : List (Rose α) → Prop
  | [] => True
  | t :: ts => All p t ∧ AllOf p ts
end

/-- The tree of a label that was read. What is no node has no children. -/
def build (b : β) (isNode : Bool) (children : List (Rose β)) : Rose β := if isNode then node b children else leaf b

mutual
/-- The tree after its labels were read again. Where a label is gone, all below it is gone. -/
def reread (r : α → Option (β × Bool)) : Rose α → Option (Rose β)
  | leaf a => (r a).map fun (b, isNode) => build b isNode []
  | node a ts => (r a).map fun (b, isNode) => build b isNode (rereadAll r ts)

def rereadAll (r : α → Option (β × Bool)) : List (Rose α) → List (Rose β)
  | [] => []
  | t :: ts => (reread r t).toList ++ rereadAll r ts
end

mutual
/-- A bound on the turns that a tree takes. -/
def turns : Rose α → Nat
  | leaf _ => 1
  | node _ ts => 2 + turnsAll ts

def turnsAll : List (Rose α) → Nat
  | [] => 0
  | t :: ts => turns t + turnsAll ts
end

theorem turns_pos (t : Rose α) : 0 < turns t := by
  cases t with
  | leaf a => exact Nat.one_pos
  | node a ts =>
    rw [turns]
    exact Nat.add_pos_left Nat.two_pos _

theorem mapAll_eq (f : α → β) (ts : List (Rose α)) : mapAll f ts = ts.map (map f) := by
  induction ts with
  | nil => rfl
  | cons t ts ih => rw [mapAll, ih, List.map_cons]

theorem allOf_iff (p : α → Bool → Prop) (ts : List (Rose α)) : AllOf p ts ↔ ∀ t ∈ ts, All p t := by
  induction ts with
  | nil => simp [AllOf]
  | cons t ts ih => rw [AllOf, ih, List.forall_mem_cons]

theorem rereadAll_eq (r : α → Option (β × Bool)) (ts : List (Rose α)) : rereadAll r ts = ts.filterMap (reread r) := by
  induction ts with
  | nil => rfl
  | cons t ts ih =>
    rw [rereadAll, ih, List.filterMap_cons]
    cases reread r t <;> rfl

end Rose

open Rose

structure Row (P α : Type) where
  parent : P
  number : Nat
  label : α

/-! ## Writing -/

/-- What a numbered tree leaves for later. -/
def later (n : Nat) : Rose α → List (Nat × List (Rose α))
  | .leaf _ => []
  | .node _ ts => [(n, ts)]

/-- The list at hand is written first. Its nodes queue up, and the first of them is at hand
when the list is done. -/
def flatten (key : Nat → P) : Nat → List (P × Rose α) → List (Nat × List (Rose α)) → Nat → List (Row P α)
  | 0, _, _, _ => []
  | fuel + 1, (p, t) :: cur, queue, n =>
    ⟨p, n + 1, t.label⟩ :: flatten key fuel cur (queue ++ later (n + 1) t) (n + 1)
  | fuel + 1, [], (s, ts) :: queue, n => flatten key fuel (ts.map (key s, ·)) queue n
  | _ + 1, [], [], _ => []

/-- The turns of a queue. -/
def queueTurns (queue : List (Nat × List (Rose α))) : Nat := (queue.map fun g => 1 + turnsAll g.2).sum

def totalTurns (cur : List (P × Rose α)) (queue : List (Nat × List (Rose α))) : Nat :=
  turnsAll (cur.map (·.2)) + queueTurns queue

theorem queueTurns_append (queue queue' : List (Nat × List (Rose α))) :
    queueTurns (queue ++ queue') = queueTurns queue + queueTurns queue' := by
  simp [queueTurns]

theorem totalTurns_step (p : P) (t : Rose α) (cur : List (P × Rose α)) (queue : List (Nat × List (Rose α))) (n : Nat) :
    totalTurns ((p, t) :: cur) queue = totalTurns cur (queue ++ later n t) + 1 := by
  rw [totalTurns, totalTurns, queueTurns_append, List.map_cons, turnsAll]
  cases t with
  | leaf a => simp only [turns, later, queueTurns, List.map_nil, List.sum_nil]; omega
  | node a ts => simp only [turns, later, queueTurns, List.map_cons, List.map_nil, List.sum_cons, List.sum_nil]; omega

theorem totalTurns_next (key : Nat → P) (s : Nat) (ts : List (Rose α)) (queue : List (Nat × List (Rose α))) :
    totalTurns ([] : List (P × Rose α)) ((s, ts) :: queue) = totalTurns (ts.map (key s, ·)) queue + 1 := by
  have hmap : (ts.map (key s, ·)).map (·.2) = ts := by
    rw [List.map_map]
    exact List.map_id ts
  rw [totalTurns, totalTurns, hmap]
  simp only [queueTurns, List.map_nil, turnsAll, List.map_cons, List.sum_cons]
  omega

/-- The rows of a forest, numbered from `n + 1` on. -/
def rows (key : Nat → P) (forest : List (P × Rose α)) (n : Nat) : List (Row P α) :=
  flatten key (totalTurns forest []) forest [] n

/-- The numbers go up. -/
theorem flatten_number_gt (key : Nat → P) (fuel : Nat) : ∀ (cur : List (P × Rose α)) (queue : List (Nat × List (Rose α)))
    (n : Nat), (∀ row ∈ flatten key fuel cur queue n, n < row.number) ∧
      (flatten key fuel cur queue n).Pairwise (·.number < ·.number) := by
  induction fuel with
  | zero => exact fun cur queue n => ⟨fun row hrow => absurd hrow List.not_mem_nil, List.Pairwise.nil⟩
  | succ fuel ih =>
    intro cur queue n
    match cur, queue with
    | [], [] => exact ⟨fun row hrow => absurd hrow List.not_mem_nil, List.Pairwise.nil⟩
    | [], (s, ts) :: queue => exact ih _ _ _
    | (p, t) :: cur, queue =>
      obtain ⟨hgt, hpair⟩ := ih cur (queue ++ later (n + 1) t) (n + 1)
      refine ⟨fun row hrow => ?_, List.pairwise_cons.mpr ⟨hgt, hpair⟩⟩
      rcases List.mem_cons.mp hrow with rfl | hrow
      · exact Nat.lt_succ_self n
      · exact Nat.lt_of_succ_lt (hgt row hrow)

/-- Nothing is written of lists that are empty. -/
theorem flatten_nil (key : Nat → P) (fuel : Nat) : ∀ {queue : List (Nat × List (Rose α))} (n : Nat),
    (∀ g ∈ queue, g.2 = []) → flatten key fuel [] queue n = [] := by
  induction fuel with
  | zero => exact fun _ _ => rfl
  | succ fuel ih =>
    intro queue n hqueue
    match queue with
    | [] => rfl
    | (s, ts) :: queue =>
      obtain rfl : ts = [] := hqueue (s, ts) List.mem_cons_self
      exact ih n fun g hg => hqueue g (List.mem_cons_of_mem _ hg)

/-- The roots are written first, with the next numbers. -/
theorem flatten_roots (key : Nat → P) (cur : List (P × Rose α)) : ∀ {queue : List (Nat × List (Rose α))} {fuel n : Nat},
    totalTurns cur queue ≤ fuel → ∃ rest, flatten key fuel cur queue n =
        (cur.zipIdx (n + 1)).map (fun g => ⟨g.1.1, g.2, g.1.2.label⟩) ++ rest ∧
      ((∀ g ∈ queue, g.2 = []) → (∀ g ∈ cur, g.2.children = []) → rest = []) := by
  induction cur with
  | nil =>
    intro queue fuel n _
    exact ⟨_, rfl, fun hqueue _ => flatten_nil key fuel n hqueue⟩
  | cons g cur ih =>
    intro queue fuel n hfuel
    obtain ⟨p, t⟩ := g
    rw [totalTurns_step p t cur queue (n + 1)] at hfuel
    obtain ⟨fuel, rfl⟩ := Nat.exists_eq_add_of_le' (Nat.le_of_add_left_le hfuel)
    obtain ⟨rest, hrest, hnil⟩ := ih (n := n + 1) (Nat.le_of_succ_le_succ hfuel)
    refine ⟨rest, ?_, fun hqueue hcur => hnil (fun g hg => ?_) fun g hg => hcur g (List.mem_cons_of_mem _ hg)⟩
    · rw [flatten, hrest, List.zipIdx_cons, List.map_cons, List.cons_append]
    · rcases List.mem_append.mp hg with hold | hnew
      · exact hqueue g hold
      · have ht := hcur (p, t) List.mem_cons_self
        cases t with
        | leaf a => cases hnew
        | node a ts =>
          rw [List.mem_singleton.mp hnew]
          exact ht

/-- A row has the key of a root or of a number. -/
theorem flatten_parent (key : Nat → P) (fuel : Nat) : ∀ {cur : List (P × Rose α)}
    {queue : List (Nat × List (Rose α))} {n : Nat}, ∀ row ∈ flatten key fuel cur queue n,
      (∃ g ∈ cur, g.1 = row.parent) ∨ ∃ m, key m = row.parent := by
  induction fuel with
  | zero => exact fun row hrow => absurd hrow List.not_mem_nil
  | succ fuel ih =>
    intro cur queue n row hrow
    match cur, queue with
    | [], [] => cases hrow
    | [], (s, ts) :: queue =>
      rcases ih row hrow with ⟨g, hg, hparent⟩ | hkey
      · obtain ⟨t, _, rfl⟩ := List.mem_map.mp hg
        exact .inr ⟨s, hparent⟩
      · exact .inr hkey
    | (p, t) :: cur, queue =>
      rcases List.mem_cons.mp hrow with rfl | hrow
      · exact .inl ⟨(p, t), List.mem_cons_self, rfl⟩
      · exact (ih row hrow).imp_left fun ⟨g, hg, hparent⟩ => ⟨g, List.mem_cons_of_mem _ hg, hparent⟩

/-- A root has a row of its own. -/
theorem exists_row (key : Nat → P) {forest : List (P × Rose α)} {g : P × Rose α} (h : g ∈ forest) (n : Nat) :
    ∃ row ∈ rows key forest n, row.parent = g.1 := by
  obtain ⟨rest, hrest, _⟩ := flatten_roots key forest (n := n) (Nat.le_refl (totalTurns forest []))
  obtain ⟨i, hi⟩ := List.getElem?_of_mem h
  have hmem : (g, n + 1 + i) ∈ forest.zipIdx (n + 1) := List.mk_add_mem_zipIdx_iff_getElem?.mpr hi
  rw [rows, hrest]
  exact ⟨_, List.mem_append_left _ (List.mem_map_of_mem hmem), rfl⟩

/-! ## Reading -/

section Reading

variable [DecidableEq P] (key : Nat → P) (r : α → Option (β × Bool))

/-- A row goes in front of what is there under the key of its parent. -/
def place (row : Row P α) (st : P → List (Rose β)) : P → List (Rose β) :=
  match r row.label with
  | none => st
  | some (b, isNode) => Function.update st row.parent (build b isNode (st (key row.number)) :: st row.parent)

/-- The last row comes first. -/
def rebuild (rows : List (Row P α)) : P → List (Rose β) := rows.foldr (place key r) fun _ => []

/-- No number that is still to come has this key. -/
def Known (n : Nat) (p : P) : Prop := ∀ m, n < m → p ≠ key m

variable {key r}

/-- What is to be found under a key. -/
def expected (key : Nat → P) (r : α → Option (β × Bool)) (cur : List (P × Rose α))
    (queue : List (Nat × List (Rose α))) (p : P) : List (Rose β) :=
  rereadAll r ((cur.filter (·.1 = p)).map (·.2)) ++
    rereadAll r ((queue.filter (key ·.1 = p)).flatMap (·.2))

theorem rereadAll_append (r : α → Option (β × Bool)) (ts ts' : List (Rose α)) :
    rereadAll r (ts ++ ts') = rereadAll r ts ++ rereadAll r ts' := by
  rw [rereadAll_eq, rereadAll_eq, rereadAll_eq, List.filterMap_append]

/-- The trees of one parent, looked up under a key. -/
theorem filter_pair (q p : P) (ts : List (Rose α)) :
    ((ts.map (q, ·)).filter (fun g => decide (g.1 = p))).map (·.2) = if q = p then ts else [] := by
  split
  · rename_i hqp
    rw [List.filter_eq_self.mpr fun g hg => ?_, List.map_map]
    · exact List.map_id ts
    · obtain ⟨t, _, rfl⟩ := List.mem_map.mp hg
      simpa using hqp
  · rename_i hqp
    rw [List.filter_eq_nil_iff.mpr fun g hg => ?_, List.map_nil]
    obtain ⟨t, _, rfl⟩ := List.mem_map.mp hg
    simpa using hqp

/-- The children of the tree that gets the next number are the only ones under its key. -/
theorem expected_new (hkey : Function.Injective key) {cur : List (P × Rose α)} {queue : List (Nat × List (Rose α))}
    {n : Nat} (hcur : ∀ g ∈ cur, Known key n g.1) (hqueue : ∀ g ∈ queue, g.1 ≤ n) (t : Rose α) :
    expected key r cur (queue ++ later (n + 1) t) (key (n + 1)) =
      match t with
      | .leaf _ => []
      | .node _ ts => rereadAll r ts := by
  have hcur' : cur.filter (fun g => decide (g.1 = key (n + 1))) = [] := by
    refine List.filter_eq_nil_iff.mpr fun g hg => ?_
    simpa using hcur g hg (n + 1) (Nat.lt_succ_self n)
  have hqueue' : queue.filter (fun g => decide (key g.1 = key (n + 1))) = [] := by
    refine List.filter_eq_nil_iff.mpr fun g hg => ?_
    have hne : g.1 ≠ n + 1 := (Nat.lt_succ_of_le (hqueue g hg)).ne
    simpa using fun heq => hne (hkey heq)
  rw [expected, List.filter_append, hcur', hqueue']
  cases t with
  | leaf a => rfl
  | node a ts => simp [later, rereadAll]

/-- Under every other key the tree makes no difference for the queue. -/
theorem expected_later {cur : List (P × Rose α)} {queue : List (Nat × List (Rose α))} {n : Nat} {t : Rose α} {p : P}
    (hp : p ≠ key n) : expected key r cur (queue ++ later n t) p = expected key r cur queue p := by
  rw [expected, expected, List.filter_append]
  cases t with
  | leaf a => simp [later]
  | node a ts => simp [later, Ne.symm hp]

/-- Every tree is under the key of its parent again. -/
theorem rebuild_flatten (hkey : Function.Injective key) (fuel : Nat) :
    ∀ {cur : List (P × Rose α)} {queue : List (Nat × List (Rose α))} {n : Nat}, totalTurns cur queue ≤ fuel →
      (∀ g ∈ cur, Known key n g.1) → (∀ g ∈ queue, g.1 ≤ n) → ∀ {p : P}, Known key n p →
      rebuild key r (flatten key fuel cur queue n) p = expected key r cur queue p := by
  induction fuel with
  | zero =>
    intro cur queue n hfuel _ _ p _
    match cur, queue with
    | [], [] => rfl
    | (_, t) :: cur, queue =>
      have hpos : 0 < turns t := turns_pos t
      simp only [totalTurns, List.map_cons, turnsAll] at hfuel
      omega
    | [], _ :: queue =>
      rw [totalTurns, queueTurns, List.map_cons, List.sum_cons] at hfuel
      omega
  | succ fuel ih =>
    intro cur queue n hfuel hcur hqueue p hp
    match cur, queue with
    | [], [] => rfl
    | [], (s, ts) :: queue =>
      have hs : s ≤ n := hqueue (s, ts) List.mem_cons_self
      have hknown : ∀ g ∈ ts.map (key s, ·), Known key n g.1 := by
        intro g hg
        obtain ⟨t, _, rfl⟩ := List.mem_map.mp hg
        intro m hm heq
        exact (lt_of_le_of_lt hs hm).ne (hkey heq)
      rw [totalTurns_next key] at hfuel
      rw [flatten, ih (Nat.le_of_succ_le_succ hfuel) hknown (fun g hg => hqueue g (List.mem_cons_of_mem _ hg)) hp,
        expected, expected, filter_pair]
      by_cases hsp : key s = p
      · simp [hsp, rereadAll, rereadAll_append]
      · simp [hsp, rereadAll]
    | (q, t) :: cur, queue =>
      rw [totalTurns_step q t cur queue (n + 1)] at hfuel
      have hcur' : ∀ g ∈ cur, Known key (n + 1) g.1 := fun g hg m hm =>
        hcur g (List.mem_cons_of_mem _ hg) m (Nat.lt_of_succ_lt hm)
      have hqueue' : ∀ g ∈ queue ++ later (n + 1) t, g.1 ≤ n + 1 := by
        intro g hg
        rcases List.mem_append.mp hg with hold | hnew
        · exact (hqueue g hold).trans (Nat.le_succ n)
        · cases t with
          | leaf a => cases hnew
          | node a ts => rw [List.mem_singleton.mp hnew]
      have hrest {p' : P} (hp' : Known key (n + 1) p') := ih (Nat.le_of_succ_le_succ hfuel) hcur' hqueue' hp'
      have hnew : Known key (n + 1) (key (n + 1)) := fun m hm heq => hm.ne (hkey heq)
      have hchildren := (hrest hnew).trans
        (expected_new hkey (fun g hg => hcur g (List.mem_cons_of_mem _ hg)) hqueue t)
      have hold {p' : P} (hp' : Known key n p') := (hrest fun m hm => hp' m (Nat.lt_of_succ_lt hm)).trans
        (expected_later (hp' (n + 1) (Nat.lt_succ_self n)))
      have hq : Known key n q := hcur (q, t) List.mem_cons_self
      have htree : reread r t = (r t.label).map fun (b, isNode) =>
          build b isNode (rebuild key r (flatten key fuel cur (queue ++ later (n + 1) t) (n + 1)) (key (n + 1))) := by
        rw [hchildren]
        cases t <;> rfl
      have hcons : expected key r ((q, t) :: cur) queue p =
          if q = p then (reread r t).toList ++ expected key r cur queue p else expected key r cur queue p := by
        by_cases hqp : q = p
        · simp [expected, hqp, rereadAll]
        · simp [expected, hqp]
      rw [flatten, rebuild, List.foldr_cons, place, hcons]
      show (match r t.label with
        | none => rebuild key r _
        | some (b, isNode) => Function.update (rebuild key r _) q (build b isNode (rebuild key r _ (key (n + 1))) ::
            rebuild key r _ q)) p = _
      rw [htree]
      cases r t.label with
      | none =>
        simp only [Option.map_none, Option.toList_none, List.nil_append, ite_self]
        exact hold hp
      | some found =>
        obtain ⟨b, isNode⟩ := found
        by_cases hqp : q = p
        · subst hqp
          simp only [Function.update_self, if_true, Option.map_some, Option.toList_some, List.singleton_append, hold hq]
        · simp only [Function.update_of_ne (Ne.symm hqp), if_neg hqp]
          exact hold hp

/-- The labels are read from something else that is in the rows. -/
theorem rebuild_map {δ : Type} (f : α → δ) (r : δ → Option (β × Bool)) (table : List (Row P α)) :
    rebuild key r (table.map fun row => ⟨row.parent, row.number, f row.label⟩) = rebuild key (r ∘ f) table := by
  rw [rebuild, List.foldr_map]
  rfl

end Reading

/-! ## What is the same after reading

`f` and `g` show what counts in a label. -/

section Same

variable {r : α → Option (β × Bool)} {f : α → γ} {g : β → γ} {p ok : α → Bool → Prop}

theorem length_rereadAll_le (r : α → Option (β × Bool)) (ts : List (Rose α)) : (rereadAll r ts).length ≤ ts.length := by
  rw [rereadAll_eq]
  exact List.length_filterMap_le _ _

/-- A label is read again as it should be, or not at all. -/
def Faithful (r : α → Option (β × Bool)) (f : α → γ) (g : β → γ) (p ok : α → Bool → Prop) : Prop :=
  ∀ a isNode, p a isNode → (∃ b, r a = some (b, isNode) ∧ (g b = f a ↔ ok a isNode)) ∨ (r a = none ∧ ¬ ok a isNode)

mutual
/-- A tree is the same if and only if each of its labels is. -/
theorem map_reread (h : Faithful r f g p ok) : ∀ t : Rose α, All p t →
    ((reread r t).map (map g) = some (map f t) ↔ All ok t)
  | leaf a, hp => by
    rcases h a false hp with ⟨b, hr, hok⟩ | ⟨hr, hok⟩
    · simp [reread, hr, build, map, All, hok]
    · simp [reread, hr, All, hok]
  | node a ts, hp => by
    have hts := map_rereadAll h ts hp.2
    rcases h a true hp.1 with ⟨b, hr, hok⟩ | ⟨hr, hok⟩
    · simp [reread, hr, build, map, All, hok, hts]
    · simp [reread, hr, All, hok]

theorem map_rereadAll (h : Faithful r f g p ok) : ∀ ts : List (Rose α), AllOf p ts →
    (mapAll g (rereadAll r ts) = mapAll f ts ↔ AllOf ok ts)
  | [], _ => by simp [rereadAll, mapAll, AllOf]
  | t :: ts, hp => by
    have ht := map_reread h t hp.1
    have hts := map_rereadAll h ts hp.2
    rw [AllOf, ← ht, ← hts, rereadAll]
    cases hr : reread r t with
    | none =>
      have hlen := length_rereadAll_le r ts
      refine iff_of_false (fun heq => ?_) (fun hboth => by simp at hboth)
      have hlen' := congrArg List.length heq
      simp only [mapAll_eq, List.length_map, Option.toList_none, List.nil_append, List.length_cons] at hlen'
      omega
    | some t' => simp [mapAll]
end

end Same

end BreadthFirst
