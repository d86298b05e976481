import Mathlib

/-! # Links between neighbours

Some places have a node, found by `find`, and every node keeps a link to the node of the next place. Nodes are added
one by one, and the links are patched only then: the new node gets its link, and so does the node before it. -/

namespace Links

variable {P R : Type}

/-- Every node is linked to the node of the next place, and to nothing where there is none. -/
def Follows (find : P → Option R) (next : P → P) (link : R → Option R) : Prop :=
  ∀ p b, find p = some b → link b = find (next p)

/-- A new node `leaf` at the place `here`, where places that are the same (`same`) have the same node. The node of the
place `before`, if there is one, is linked to the new one, and every other link is kept. -/
theorem Follows.insert {find find' : P → Option R} {next : P → P} {link link' : R → Option R} {same : P → P → Prop}
    [DecidableRel same] [DecidableEq R] {here before : P} {leaf : R} (h : Follows find next link)
    (hcongr : ∀ p q, same p q → find p = find q) (hcongr' : ∀ p q, same p q → find' p = find' q)
    (hinj : ∀ p q b, find p = some b → find q = some b → same p q)
    (hfind' : ∀ p, find' p = if same p here then some leaf else find p) (hfresh : ∀ p, find p ≠ some leaf)
    (hnext : ∀ p q, same p q → same (next p) (next q)) (hbefore : ∀ p, same p before ↔ same (next p) here)
    (hlink' : ∀ b, link' b = if b = leaf then find' (next here)
      else if find before = some b then some leaf else link b) : Follows find' next link' := by
  intro p b hp
  rw [hlink']
  rw [hfind'] at hp
  split at hp
  · rename_i hhere
    rw [if_pos (Option.some.inj hp).symm]
    exact (hcongr' _ _ (hnext p here hhere)).symm
  · have hne : b ≠ leaf := fun heq => hfresh p (heq ▸ hp)
    rw [if_neg hne, hfind']
    by_cases hnear : same p before
    · have hb : find before = some b := (hcongr p before hnear).symm.trans hp
      rw [if_pos hb, if_pos ((hbefore p).mp hnear)]
    · have hb : find before ≠ some b := fun hb => hnear (hinj p before b hp hb)
      rw [if_neg hb, if_neg (fun hhere => hnear ((hbefore p).mpr hhere)), h p b hp]

end Links
