import ForgottenServer.Lib.Links
import ForgottenServer.World.Store

/-! # The leaves and their neighbours

Whatever leaves are made, in whatever order, `leafE` and `leafS` of a leaf are the leaves of the blocks to the east and
to the south of it, and the leaf kept from the last call is the one of its block. -/

namespace ForgottenServer.World

variable {T : Type}

/-! ## Blocks -/

theorem floorSize_eq : FLOOR_SIZE = 8 := rfl

theorem block_add (x : Nat) : block (x + FLOOR_SIZE) = (block x + 1) % 8192 := by
  unfold block
  rw [floorSize_eq]
  omega

theorem block_before (x : Nat) : block (Map.before x) = (block x + 8191) % 8192 := by
  unfold block Map.before
  rw [floorSize_eq]
  omega

theorem block_lt (x : Nat) : block x < 8192 := Nat.mod_lt _ (by omega)

theorem block_base (x : Nat) : block (base x) = block x := by
  unfold block base
  rw [floorSize_eq]
  omega

/-- The block before a block is the one that leads to it. -/
theorem block_eq_before {x x' : Nat} : block x' = block (Map.before x) ↔ block (x' + FLOOR_SIZE) = block x := by
  have hx := block_lt x
  have hx' := block_lt x'
  rw [block_add, block_before]
  omega

theorem block_before_ne (x : Nat) : block (Map.before x) ≠ block x := by
  have hx := block_lt x
  rw [block_before]
  omega

/-- Both coordinates in the same blocks. -/
def SameBlock (p q : Nat × Nat) : Prop := block p.1 = block q.1 ∧ block p.2 = block q.2

instance (p q : Nat × Nat) : Decidable (SameBlock p q) := inferInstanceAs (Decidable (_ ∧ _))

/-- The place to the east. -/
def east (p : Nat × Nat) : Nat × Nat := (p.1 + FLOOR_SIZE, p.2)

/-- The place to the south. -/
def south (p : Nat × Nat) : Nat × Nat := (p.1, p.2 + FLOOR_SIZE)

def west (p : Nat × Nat) : Nat × Nat := (Map.before p.1, p.2)

def north (p : Nat × Nat) : Nat × Nat := (p.1, Map.before p.2)

theorem sameBlock_west {p q : Nat × Nat} : SameBlock p (west q) ↔ SameBlock (east p) q := by
  unfold SameBlock west east
  rw [block_eq_before]

theorem sameBlock_north {p q : Nat × Nat} : SameBlock p (north q) ↔ SameBlock (south p) q := by
  unfold SameBlock north south
  rw [block_eq_before]

theorem not_sameBlock_west (p : Nat × Nat) : ¬ SameBlock (west p) p := fun h => block_before_ne p.1 h.1

theorem not_sameBlock_north (p : Nat × Nat) : ¬ SameBlock (north p) p := fun h => block_before_ne p.2 h.2

theorem SameBlock.east {p q : Nat × Nat} (h : SameBlock p q) : SameBlock (east p) (east q) := by
  refine ⟨?_, h.2⟩
  unfold World.east
  rw [block_add, block_add, h.1]

theorem SameBlock.south {p q : Nat × Nat} (h : SameBlock p q) : SameBlock (south p) (south q) := by
  refine ⟨h.1, ?_⟩
  unfold World.south
  rw [block_add, block_add, h.2]

namespace Map

/-- The leaf that covers a place. -/
def leafAt (map : Map T) (p : Nat × Nat) : Option LeafRef := map.getLeaf p.1 p.2

theorem leafAt_congr (map : Map T) {p q : Nat × Nat} (h : SameBlock p q) : map.leafAt p = map.leafAt q :=
  getLeafStatic_congr 13 map.root (agree_iff_block.mpr h.1) (agree_iff_block.mpr h.2)

/-- What holds of the leaves in every state: their addresses are in use, and each covers one block only; nothing was
written where no leaf is; the links go to the neighbours. -/
structure Linked (map : Map T) : Prop where
  fresh : ∀ {p a}, map.leafAt p = some a → a < map.nextLeaf
  inj : ∀ {p q a}, map.leafAt p = some a → map.leafAt q = some a → SameBlock p q
  blank : ∀ {a}, map.nextLeaf ≤ a → map.leaves a = {}
  east : Links.Follows map.leafAt World.east fun a => (map.leaves a).leafE
  south : Links.Follows map.leafAt World.south fun a => (map.leaves a).leafS

/-- With the leaf of the last call, which covers its block. -/
structure Valid (map : Map T) : Prop extends Linked map where
  cached : ∀ {a}, map.cachedLeaf = some a → map.leafAt (map.cachedLeafBaseX, map.cachedLeafBaseY) = some a

theorem valid_empty : Valid ({} : Map T) where
  fresh := fun h => (by cases h)
  inj := fun h => (by cases h)
  blank := fun _ => rfl
  east := fun _ _ h => (by cases h)
  south := fun _ _ h => (by cases h)
  cached := fun h => (by cases h)

/-! ## A change of one leaf -/

@[simp] theorem leafAt_modifyLeaf (map : Map T) (leaf : LeafRef) (f : Leaf T → Leaf T) :
    (map.modifyLeaf leaf f).leafAt = map.leafAt := rfl

theorem leaves_modifyLeaf (map : Map T) (leaf : LeafRef) (f : Leaf T → Leaf T) (b : LeafRef) :
    (map.modifyLeaf leaf f).leaves b = if b = leaf then f (map.leaves leaf) else map.leaves b :=
  Function.update_apply ..

/-- What does not touch the links of a leaf keeps everything. -/
theorem Linked.modifyLeaf {map : Map T} (h : map.Linked) {leaf : LeafRef} {f : Leaf T → Leaf T}
    (hleaf : leaf < map.nextLeaf) (hE : ∀ l, (f l).leafE = l.leafE) (hS : ∀ l, (f l).leafS = l.leafS) :
    (map.modifyLeaf leaf f).Linked where
  fresh := h.fresh
  inj := h.inj
  blank := by
    intro a ha
    rw [leaves_modifyLeaf, if_neg (Nat.lt_of_lt_of_le hleaf ha).ne']
    exact h.blank ha
  east := by
    intro p a hp
    refine Eq.trans ?_ (h.east p a hp)
    simp only [leaves_modifyLeaf]
    split
    · rw [hE, ‹a = leaf›]
    · rfl
  south := by
    intro p a hp
    refine Eq.trans ?_ (h.south p a hp)
    simp only [leaves_modifyLeaf]
    split
    · rw [hS, ‹a = leaf›]
    · rfl

theorem Valid.modifyLeaf {map : Map T} (h : map.Valid) {leaf : LeafRef} {f : Leaf T → Leaf T}
    (hleaf : leaf < map.nextLeaf) (hE : ∀ l, (f l).leafE = l.leafE) (hS : ∀ l, (f l).leafS = l.leafS) :
    (map.modifyLeaf leaf f).Valid :=
  ⟨h.toLinked.modifyLeaf hleaf hE hS, h.cached⟩

/-! ## A new leaf -/

@[simp] theorem getLeaf_setLeafS (map : Map T) (leaf other : Option LeafRef) :
    (map.setLeafS leaf other).getLeaf = map.getLeaf := by
  cases leaf <;> cases other <;> rfl

@[simp] theorem getLeaf_setLeafE (map : Map T) (leaf other : Option LeafRef) :
    (map.setLeafE leaf other).getLeaf = map.getLeaf := by
  cases leaf <;> cases other <;> rfl

@[simp] theorem nextLeaf_setLeafS (map : Map T) (leaf other : Option LeafRef) :
    (map.setLeafS leaf other).nextLeaf = map.nextLeaf := by
  cases leaf <;> cases other <;> rfl

@[simp] theorem nextLeaf_setLeafE (map : Map T) (leaf other : Option LeafRef) :
    (map.setLeafE leaf other).nextLeaf = map.nextLeaf := by
  cases leaf <;> cases other <;> rfl

theorem leaves_setLeafS (map : Map T) (leaf other : Option LeafRef) (b : LeafRef) :
    (map.setLeafS leaf other).leaves b =
      { map.leaves b with leafS := if leaf = some b then other.or (map.leaves b).leafS else (map.leaves b).leafS } := by
  rcases leaf with _ | leaf
  · rfl
  · rcases other with _ | other
    · simp [setLeafS]
    · by_cases hb : b = leaf
      · subst hb
        simp [setLeafS, leaves_modifyLeaf]
      · have hb' : leaf ≠ b := fun h => hb h.symm
        simp [setLeafS, leaves_modifyLeaf, hb, hb']

theorem leaves_setLeafE (map : Map T) (leaf other : Option LeafRef) (b : LeafRef) :
    (map.setLeafE leaf other).leaves b =
      { map.leaves b with leafE := if leaf = some b then other.or (map.leaves b).leafE else (map.leaves b).leafE } := by
  rcases leaf with _ | leaf
  · rfl
  · rcases other with _ | other
    · simp [setLeafE]
    · by_cases hb : b = leaf
      · subst hb
        simp [setLeafE, leaves_modifyLeaf]
      · have hb' : leaf ≠ b := fun h => hb h.symm
        simp [setLeafE, leaves_modifyLeaf, hb, hb']

@[simp] theorem leafAt_linkLeaf (map : Map T) (leaf : LeafRef) (x y : Nat) :
    (map.linkLeaf leaf x y).leafAt = map.leafAt := by
  unfold linkLeaf leafAt
  simp only [getLeaf_setLeafS, getLeaf_setLeafE]

@[simp] theorem nextLeaf_linkLeaf (map : Map T) (leaf : LeafRef) (x y : Nat) :
    (map.linkLeaf leaf x y).nextLeaf = map.nextLeaf := by
  unfold linkLeaf
  simp only [nextLeaf_setLeafS, nextLeaf_setLeafE]

/-- What is on a leaf is not touched, and its links are those of the source. -/
theorem leaves_linkLeaf (map : Map T) (leaf : LeafRef) (x y : Nat) (b : LeafRef) :
    (map.linkLeaf leaf x y).leaves b =
      { map.leaves b with
        leafS :=
          let link := if map.leafAt (north (x, y)) = some b then some leaf else (map.leaves b).leafS
          if leaf = b then (map.leafAt (south (x, y))).or link else link
        leafE :=
          let link := if map.leafAt (west (x, y)) = some b then some leaf else (map.leaves b).leafE
          if leaf = b then (map.leafAt (east (x, y))).or link else link } := by
  unfold linkLeaf
  simp only [leaves_setLeafS, leaves_setLeafE, getLeaf_setLeafS, getLeaf_setLeafE, Option.some_or,
    Option.some.injEq]
  rfl

/-- The tree with the leaf of a place. -/
def withLeaf (map : Map T) (x y : Nat) : Map T :=
  { map with root := (createLeaf map.nextLeaf 13 map.root x y).node, nextLeaf := map.nextLeaf + 1 }

theorem leafAt_withLeaf (map : Map T) (x y : Nat) (q : Nat × Nat) :
    (map.withLeaf x y).leafAt q =
      if SameBlock q (x, y) then some ((map.leafAt (x, y)).getD map.nextLeaf) else map.leafAt q := by
  obtain ⟨hfound, hother⟩ := getLeafStatic_createLeaf map.nextLeaf 13 map.root x y q.1 q.2
  rw [agree_iff_block, agree_iff_block] at hfound hother
  split
  · exact (hfound ‹_›).trans (congrArg some (leaf_createLeaf map.nextLeaf 13 map.root x y))
  · exact hother ‹_›

section NewLeaf

variable {map : Map T} {x y : Nat}

/-- A new leaf with its neighbours. -/
theorem Linked.linkLeaf (h : map.Linked) (hnone : map.leafAt (x, y) = none) :
    ((map.withLeaf x y).linkLeaf map.nextLeaf x y).Linked := by
  have hat (q) : (map.withLeaf x y).leafAt q = if SameBlock q (x, y) then some map.nextLeaf else map.leafAt q := by
    rw [leafAt_withLeaf, hnone, Option.getD_none]
  have hnew (q) (hq : SameBlock q (x, y)) : (map.withLeaf x y).leafAt q = some map.nextLeaf := by rw [hat, if_pos hq]
  have hold (q) (hq : ¬ SameBlock q (x, y)) : (map.withLeaf x y).leafAt q = map.leafAt q := by rw [hat, if_neg hq]
  have hfresh (q) : map.leafAt q ≠ some map.nextLeaf := fun hq => Nat.lt_irrefl _ (h.fresh hq)
  have hwest := hold _ (not_sameBlock_west (x, y))
  have hnorth := hold _ (not_sameBlock_north (x, y))
  have hblank : (map.withLeaf x y).leaves map.nextLeaf = {} := h.blank (Nat.le_refl _)
  refine ⟨?_, ?_, ?_, ?_, ?_⟩
  · intro q a hq
    rw [leafAt_linkLeaf, hat] at hq
    rw [nextLeaf_linkLeaf]
    split at hq
    · obtain rfl := Option.some.inj hq
      exact Nat.lt_succ_self _
    · exact Nat.lt_succ_of_lt (h.fresh hq)
  · intro p q a hp hq
    rw [leafAt_linkLeaf, hat] at hp hq
    split at hp <;> split at hq
    · rename_i hsame hsame'
      exact ⟨hsame.1.trans hsame'.1.symm, hsame.2.trans hsame'.2.symm⟩
    · exact absurd (hq.trans hp.symm) (hfresh q)
    · exact absurd (hp.trans hq.symm) (hfresh p)
    · exact h.inj hp hq
  · intro a ha
    rw [nextLeaf_linkLeaf] at ha
    have hne : map.nextLeaf ≠ a := (Nat.lt_of_succ_le ha).ne
    have hunused (q) : map.leafAt q ≠ some a := fun hq =>
      Nat.lt_irrefl _ (Nat.lt_trans (h.fresh hq) (Nat.lt_of_succ_le ha))
    have hleaf : (map.withLeaf x y).leaves a = {} := h.blank (Nat.le_of_succ_le ha)
    rw [leaves_linkLeaf, hleaf, hnorth, hwest]
    simp only [if_neg (hunused _), if_neg hne]
  · rw [leafAt_linkLeaf]
    refine h.east.insert (fun p q => map.leafAt_congr) (fun p q => (map.withLeaf x y).leafAt_congr)
      (fun p q b => h.inj) hat hfresh (fun p q => SameBlock.east) (fun p => sameBlock_west) fun b => ?_
    rw [leaves_linkLeaf]
    simp only [hwest]
    by_cases hb : b = map.nextLeaf
    · subst hb
      simp only [if_pos, if_neg (hfresh _), hblank, Option.or_none]
    · rw [if_neg hb, if_neg (Ne.symm hb)]
      rfl
  · rw [leafAt_linkLeaf]
    refine h.south.insert (fun p q => map.leafAt_congr) (fun p q => (map.withLeaf x y).leafAt_congr)
      (fun p q b => h.inj) hat hfresh (fun p q => SameBlock.south) (fun p => sameBlock_north) fun b => ?_
    rw [leaves_linkLeaf]
    simp only [hnorth]
    by_cases hb : b = map.nextLeaf
    · subst hb
      simp only [if_pos, if_neg (hfresh _), hblank, Option.or_none]
    · rw [if_neg hb, if_neg (Ne.symm hb)]
      rfl

end NewLeaf

/-- A map in which the leaf of a place is there, and nothing else is different. -/
structure Opened (map map' : Map T) (p : Nat × Nat) (leaf : LeafRef) : Prop where
  valid : map'.Valid
  found : map.leafAt p = some leaf ∨ map.leafAt p = none ∧ map.leaves leaf = {}
  leafAt : ∀ q, map'.leafAt q = if SameBlock q p then some leaf else map.leafAt q
  array : ∀ b, (map'.leaves b).array = (map.leaves b).array
  creatureList : ∀ b, (map'.leaves b).creatureList = (map.leaves b).creatureList
  playerList : ∀ b, (map'.leaves b).playerList = (map.leaves b).playerList

theorem sameBlock_base (x y : Nat) : SameBlock (base x, base y) (x, y) := ⟨block_base x, block_base y⟩

theorem opened_of_leafAt {map : Map T} (h : map.Valid) {p : Nat × Nat} {leaf : LeafRef}
    (hleaf : map.leafAt p = some leaf) : Opened map map p leaf where
  valid := h
  found := .inl hleaf
  leafAt := by
    intro q
    split
    · rw [map.leafAt_congr ‹SameBlock q p›, hleaf]
    · rfl
  array := fun _ => rfl
  creatureList := fun _ => rfl
  playerList := fun _ => rfl

/-- The leaf is kept for the next call. -/
theorem Linked.remember {map map' : Map T} (h : map'.Linked) {x y : Nat} {leaf : LeafRef}
    (hfound : map.leafAt (x, y) = some leaf ∨ map.leafAt (x, y) = none ∧ map.leaves leaf = {})
    (hat : ∀ q, map'.leafAt q = if SameBlock q (x, y) then some leaf else map.leafAt q)
    (harray : ∀ b, (map'.leaves b).array = (map.leaves b).array)
    (hcreatures : ∀ b, (map'.leaves b).creatureList = (map.leaves b).creatureList)
    (hplayers : ∀ b, (map'.leaves b).playerList = (map.leaves b).playerList) :
    Opened map { map' with cachedLeaf := some leaf, cachedLeafBaseX := base x, cachedLeafBaseY := base y } (x, y)
      leaf where
  valid := by
    refine ⟨⟨h.fresh, h.inj, h.blank, h.east, h.south⟩, fun {a} ha => ?_⟩
    obtain rfl := Option.some.inj ha
    exact (hat (base x, base y)).trans (if_pos (sameBlock_base x y))
  found := hfound
  leafAt := hat
  array := harray
  creatureList := hcreatures
  playerList := hplayers

/-- `getOrCreateLeaf` makes the leaf, should it be missing. -/
theorem opened_getOrCreateLeaf {map : Map T} (h : map.Valid) (x y : Nat) :
    Opened map (map.getOrCreateLeaf x y).2 (x, y) (map.getOrCreateLeaf x y).1 := by
  unfold getOrCreateLeaf
  cases hcached : map.cached x y with
  | some leaf =>
    refine opened_of_leafAt h ?_
    unfold cached at hcached
    split at hcached
    · rename_i hbase
      rw [← map.leafAt_congr (sameBlock_base x y), hbase.1, hbase.2]
      exact h.cached hcached
    · cases hcached
  | none =>
    cases hleaf : map.leafAt (x, y) with
    | some leaf =>
      have hat (q) : (map.withLeaf x y).leafAt q = if SameBlock q (x, y) then some leaf else map.leafAt q := by
        rw [leafAt_withLeaf, hleaf, Option.getD_some]
      have hsame (q) : (map.withLeaf x y).leafAt q = map.leafAt q := by
        rw [hat, ← (opened_of_leafAt h hleaf).leafAt]
      have hcreated : (createLeaf map.nextLeaf 13 map.root x y).leaf = leaf :=
        (leaf_createLeaf ..).trans (congrArg (Option.getD · _) hleaf)
      have hnew : (createLeaf map.nextLeaf 13 map.root x y).newLeaf = false :=
        (newLeaf_createLeaf ..).trans (congrArg Option.isNone hleaf)
      simp only [hcreated, hnew]
      have hlinked : ({ map with root := (createLeaf map.nextLeaf 13 map.root x y).node } : Map T).Linked := by
        refine ⟨fun {p a} hp => h.fresh ((hsame p).symm.trans hp), fun {p q a} hp hq => ?_, h.blank, ?_, ?_⟩
        · exact h.inj ((hsame p).symm.trans hp) ((hsame q).symm.trans hq)
        · exact fun p a hp => (h.east p a ((hsame p).symm.trans hp)).trans (hsame _).symm
        · exact fun p a hp => (h.south p a ((hsame p).symm.trans hp)).trans (hsame _).symm
      exact hlinked.remember (.inl hleaf) hat (fun _ => rfl) (fun _ => rfl) fun _ => rfl
    | none =>
      have hcreated : (createLeaf map.nextLeaf 13 map.root x y).leaf = map.nextLeaf :=
        (leaf_createLeaf ..).trans (congrArg (Option.getD · _) hleaf)
      have hnew : (createLeaf map.nextLeaf 13 map.root x y).newLeaf = true :=
        (newLeaf_createLeaf ..).trans (congrArg Option.isNone hleaf)
      simp only [hcreated, hnew]
      refine (h.toLinked.linkLeaf hleaf).remember (.inr ⟨hleaf, h.blank (Nat.le_refl _)⟩) (fun q => ?_) ?_ ?_ ?_
      · rw [leafAt_linkLeaf, leafAt_withLeaf, hleaf, Option.getD_none]
      all_goals
        intro b
        rw [leaves_linkLeaf]
        rfl

/-- A map with the leaves of another one where they were, and with the creatures on them. -/
structure Keeps (map map' : Map T) : Prop where
  leafAt : ∀ {q a}, map.leafAt q = some a → map'.leafAt q = some a
  creatureList : ∀ b, (map'.leaves b).creatureList = (map.leaves b).creatureList
  playerList : ∀ b, (map'.leaves b).playerList = (map.leaves b).playerList

theorem Keeps.refl (map : Map T) : Keeps map map := ⟨id, fun _ => rfl, fun _ => rfl⟩

theorem Opened.keeps {map map' : Map T} {p : Nat × Nat} {leaf : LeafRef} (hopen : Opened map map' p leaf) :
    Keeps map map' := by
  refine ⟨fun {q a} hq => ?_, hopen.creatureList, hopen.playerList⟩
  rw [hopen.leafAt]
  split
  · rename_i hblock
    rw [map.leafAt_congr hblock] at hq
    obtain hfound | ⟨hnone, _⟩ := hopen.found
    · exact hfound.symm.trans hq
    · rw [hnone] at hq
      cases hq
  · exact hq

end Map

end ForgottenServer.World
