import ForgottenServer.Kv.Representation
import ForgottenServer.Lib.LikePattern
import Mathlib

/-! # Listing keys

`KVStore::keys` merges the cached keys with the rows that `loadPrefix` finds, and caches those rows
on the way. `ScopedKV` gives the keys of a scope a common start. -/

namespace ForgottenServer.Kv

open LikePattern

variable {V R : Type}

/-! ## The query -/

/-- The metacharacters of `LIKE`, and the escape character that the query names. -/
def likeSymbols : Symbols UInt8 where
  one := 95
  many := 37
  escape := 92

/-- `find_first_of(R"(\%_)", pos)`. -/
def findFirstOf (escaped : Key) (pos : Nat) : Option Nat :=
  ((escaped.drop pos).findIdx? likeSymbols.isSpecial).map (pos + ·)

theorem findFirstOf_lt {escaped : Key} {pos found : Nat} (h : findFirstOf escaped pos = some found) :
    pos ≤ found ∧ found < escaped.length := by
  obtain ⟨i, hi, rfl⟩ := Option.map_eq_some_iff.mp h
  obtain ⟨hlt, -⟩ := List.findIdx?_eq_some_iff_getElem.mp hi
  rw [List.length_drop] at hlt
  omega

/-- The loop of `loadPrefix`. -/
def escapeLoop (escaped : Key) (pos : Nat) : Key :=
  match _h : findFirstOf escaped pos with
  | none => escaped
  | some found => escapeLoop (escaped.take found ++ likeSymbols.escape :: escaped.drop found) (found + 2)
termination_by escaped.length - pos
decreasing_by
  have := findFirstOf_lt _h
  simp only [List.length_append, List.length_take, List.length_cons, List.length_drop]
  omega

def likePattern (start : Key) : Key := escapeLoop start 0 ++ [likeSymbols.many]

/-- The rows that the query of `loadPrefix` finds, in any order. -/
structure QueryRows (db : Database R) (start : Key) (rows : List (Key × R)) : Prop where
  nodup : (rows.map Prod.fst).Nodup
  mem_iff : ∀ key r, (key, r) ∈ rows ↔ db key = some r ∧ like likeSymbols (likePattern start) key = true

/-- The set of suffixes that `keys` returns. -/
def State.listed (codec : Codec V R) (s : State V R) (start : Key) (rows : List (Key × R)) : List Key :=
  (s.keys codec start rows).1.dedup

/-! ## Scopes -/

def dot : UInt8 := 46

structure ScopedKV where
  scopePrefix : Key

/-- `scoped`. -/
def KVStore.scopedTo (scope : Key) : ScopedKV := ⟨scope⟩

namespace ScopedKV

variable (kv : ScopedKV)

def buildKey (key : Key) : Key := if key = [] then kv.scopePrefix else kv.scopePrefix ++ dot :: key

def buildListKey (key : Key) : Key :=
  let listKey := kv.buildKey key
  if listKey ≠ [] ∧ listKey.getLast? ≠ some dot then listKey ++ [dot] else listKey

def scopedTo (scope : Key) : ScopedKV := ⟨kv.buildKey scope⟩

variable (codec : Codec V R)

def get (s : State V R) (key : Key) (ok : Nat → Bool) : Option V × State V R := s.get codec (kv.buildKey key) ok

def listed (s : State V R) (key : Key) (rows : List (Key × R)) : List Key := s.listed codec (kv.buildListKey key) rows

end ScopedKV

/-- A name of a scope: not empty, without dots. -/
structure ScopeName where
  name : Key
  nonempty : name ≠ []
  noDot : dot ∉ name

/-- A scope, by the names on the way to it. -/
structure ScopePath where
  root : ScopeName
  inner : List ScopeName

namespace ScopePath

def names (path : ScopePath) : List Key := (path.root :: path.inner).map ScopeName.name

def kv (path : ScopePath) : ScopedKV := path.inner.foldl (fun kv n => kv.scopedTo n.name) (KVStore.scopedTo path.root.name)

end ScopePath

/-! ## What is claimed of them -/

section

variable (codec : Codec V R)

/-- `keys` returns each suffix once, for the keys that `get` finds a value for. -/
structure KeysExact (s : State V R) (start : Key) (rows : List (Key × R)) : Prop where
  nodup : (s.listed codec start rows).Nodup
  mem_iff : ∀ suffix ok, suffix ∈ s.listed codec start rows ↔ (s.get codec (start ++ suffix) ok).1.isSome = true

/-- The scope `outer` neither lists nor returns, under the name `key'`, the key `key` of the scope
`inner`, unless it is an ancestor of it. -/
structure ScopesApart (s : State V R) (inner outer : ScopePath) (key key' : Key) : Prop where
  listed : ∀ rows, QueryRows s.db (outer.kv.buildListKey key') rows → ∀ suffix ∈ outer.kv.listed codec s key' rows,
    outer.kv.buildListKey key' ++ suffix = inner.kv.buildKey key → outer.names <+: inner.names
  returned : outer.kv.buildKey key' = inner.kv.buildKey key → outer.names <+: inner.names

/-- The rows that are not cached yet can be read. -/
def ReadsRows (kv : KVStore V) (rows : List (Key × R)) : Prop :=
  ∀ row ∈ rows, kv.find row.1 = none → (codec.deserialize row.2).isSome = true

def KVStore.IsRemoved (kv : KVStore V) (key : Key) : Prop := ∃ e, kv.find key = some e ∧ e.value.isDeleted = true

/-- A row to be cached in a full cache drives out none of the given keys that was removed. -/
def KeepsRemoved (keys : List Key) : KVStore V → List (Key × R) → Prop
  | _, [] => True
  | kv, row :: rows =>
    (kv.find row.1 = none → (codec.deserialize row.2).isSome = true → kv.isFull = true →
      ∀ node key, kv.lruQueue.getLast? = some (node, key) → key ∈ keys → ¬ kv.IsRemoved key) ∧
    KeepsRemoved keys (State.loadRow codec kv row) rows

end

/-! ## The pattern finds the keys with the start -/

theorem findFirstOf_append (done rest : Key) :
    findFirstOf (done ++ rest) done.length = (rest.findIdx? likeSymbols.isSpecial).map (done.length + ·) := by
  rw [findFirstOf, List.drop_left]

/-- What is behind the position is escaped, what is in front of it stays. -/
theorem escapeLoop_append (done rest : Key) :
    escapeLoop (done ++ rest) done.length = done ++ escape likeSymbols rest := by
  induction hlen : rest.length using Nat.strong_induction_on generalizing done rest with
  | _ n ih =>
    rw [escapeLoop, findFirstOf_append]
    cases hfind : rest.findIdx? likeSymbols.isSpecial with
    | none =>
      have hplain : ∀ a ∈ rest, likeSymbols.isSpecial a = false := by
        simpa [List.findIdx?_eq_none_iff] using hfind
      rw [escape_of_plain hplain]
      rfl
    | some i =>
      obtain ⟨hi, hspecial, hplain⟩ := List.findIdx?_eq_some_iff_getElem.mp hfind
      have hrest : rest = rest.take i ++ rest[i] :: rest.drop (i + 1) := by
        rw [List.cons_getElem_drop_succ, List.take_append_drop]
      have hfront : ∀ a ∈ rest.take i, likeSymbols.isSpecial a = false := by
        intro a ha
        obtain ⟨j, hj, rfl⟩ := List.mem_iff_getElem.mp ha
        rw [List.getElem_take]
        simpa using hplain j (by rw [List.length_take] at hj; omega)
      have hword : (done ++ rest).take (done.length + i) ++ likeSymbols.escape :: (done ++ rest).drop (done.length + i) =
          (done ++ rest.take i ++ [likeSymbols.escape, rest[i]]) ++ rest.drop (i + 1) := by
        rw [List.take_length_add_append, List.drop_length_add_append, ← List.cons_getElem_drop_succ (h := hi)]
        simp
      have hpos : done.length + i + 2 = (done ++ rest.take i ++ [likeSymbols.escape, rest[i]]).length := by
        rw [List.length_append, List.length_append, List.length_take, min_eq_left hi.le]
        rfl
      have hescape : escape likeSymbols rest =
          rest.take i ++ likeSymbols.escape :: rest[i] :: escape likeSymbols (rest.drop (i + 1)) := by
        conv_lhs => rw [hrest]
        rw [escape_append, escape_of_plain hfront, escape, List.flatMap_cons, if_pos hspecial]
        rfl
      simp only [Option.map_some]
      rw [hword, hpos, ih _ (by rw [List.length_drop]; omega) _ _ rfl, hescape]
      simp

theorem like_likePattern_iff (start key : Key) :
    like likeSymbols (likePattern start) key = true ↔ start <+: key := by
  rw [likePattern, show escapeLoop start 0 = escape likeSymbols start from escapeLoop_append [] start]
  exact like_escape_iff start key

/-- The rows of the query are those that a run of the store expects. -/
theorem QueryRows.found {s : State V R} {start : Key} {rows : List (Key × R)} (h : QueryRows s.db start rows) :
    Event.Found s (.keys start rows) := by
  refine ⟨h.nodup, fun key r => ?_⟩
  rw [h.mem_iff, like_likePattern_iff]

/-! ## Removed keys while the rows are cached -/

section Removed

variable {codec : Codec V R} {kv : KVStore V} {row : Key × R} {key : Key}

theorem KVStore.IsRemoved.ne {k : Key} (h : kv.IsRemoved k) (hnone : kv.find key = none) : k ≠ key := by
  rintro rfl
  obtain ⟨e, he, -⟩ := h
  rw [hnone] at he
  cases he

theorem KVStore.isRemoved_insert {k : Key} (v : V) (hne : k ≠ key) :
    (kv.insert key (.value v)).IsRemoved k ↔ kv.IsRemoved k := by
  rw [IsRemoved, find_insert, if_neg hne]
  rfl

theorem KVStore.not_isRemoved_insert (v : V) : ¬ (kv.insert key (.value v)).IsRemoved key := by
  intro h
  obtain ⟨e, he, hdeleted⟩ := h
  rw [find_insert, if_pos rfl] at he
  obtain rfl := Option.some.inj he
  cases hdeleted

theorem KVStore.isRemoved_evictLast {node : Nat} {last k : Key} (h : kv.lruQueue.getLast? = some (node, last)) :
    (kv.evictLast codec).IsRemoved k ↔ k ≠ last ∧ kv.IsRemoved k := by
  have hstore : ∀ k, (kv.evictLast codec).find k = (kv.store.erase last).lookup k := by
    intro k
    rw [evictLast, h]
    rfl
  rw [IsRemoved, hstore]
  by_cases hk : k = last
  · subst hk
    rw [AList.lookup_erase]
    simp
  · rw [AList.lookup_erase_ne hk]
    exact (and_iff_right hk).symm

/-- Caching a new key leaves a removed one alone, unless it is driven out. -/
theorem KVStore.isRemoved_setLocked {k : Key} {v : V} (hnone : kv.find key = none) :
    (kv.setLocked codec key (.value v)).IsRemoved k ↔
      kv.IsRemoved k ∧ (kv.isFull = true → ∀ node last, kv.lruQueue.getLast? = some (node, last) → k ≠ last) := by
  have hset : kv.setLocked codec key (.value v) =
      if kv.isFull then (kv.evictLast codec).insert key (.value v) else kv.insert key (.value v) := by
    rw [setLocked, hnone]
  rw [hset]
  by_cases hk : k = key
  · subst hk
    have hnot : ¬ kv.IsRemoved k := fun h => h.ne hnone rfl
    refine ⟨fun h => absurd h ?_, fun h => absurd h.1 hnot⟩
    split
    · exact not_isRemoved_insert v
    · exact not_isRemoved_insert v
  · split
    · rename_i hfull
      obtain ⟨⟨node, last⟩, hlast⟩ : ∃ n, kv.lruQueue.getLast? = some n :=
        Option.isSome_iff_exists.mp (List.getLast?_isSome.mpr (ne_nil_of_isFull hfull))
      rw [isRemoved_insert v hk, isRemoved_evictLast hlast, and_comm]
      refine and_congr_right fun _ => ⟨fun h _ node' last' hlast' => ?_, fun h => h hfull node last hlast⟩
      obtain ⟨-, rfl⟩ := Prod.mk.inj (Option.some.inj (hlast.symm.trans hlast'))
      exact h
    · rename_i hfull
      rw [isRemoved_insert v hk]
      exact (and_iff_left fun h => absurd h hfull).symm

theorem isRemoved_loadRow {k : Key} :
    (State.loadRow codec kv row).IsRemoved k ↔ kv.IsRemoved k ∧
      (kv.find row.1 = none → (codec.deserialize row.2).isSome = true → kv.isFull = true →
        ∀ node last, kv.lruQueue.getLast? = some (node, last) → k ≠ last) := by
  rw [State.loadRow]
  split
  · rename_i hrow
    simp [hrow]
  · rename_i v hrow
    split
    · rename_i hcached
      have hne : kv.find row.1 ≠ none := Option.isSome_iff_ne_none.mp hcached
      exact (and_iff_left fun h => absurd h hne).symm
    · rename_i hcached
      have hnone : kv.find row.1 = none := Option.not_isSome_iff_eq_none.mp hcached
      rw [KVStore.isRemoved_setLocked hnone]
      simp [hnone, hrow]

/-- A key that is removed after the rows were cached was removed before. -/
theorem isRemoved_of_loadRows {k : Key} (rows : List (Key × R)) :
    ∀ kv : KVStore V, (rows.foldl (State.loadRow codec) kv).IsRemoved k → kv.IsRemoved k := by
  induction rows with
  | nil => exact fun _ h => h
  | cons row rows ih => exact fun kv h => (isRemoved_loadRow.mp (ih _ h)).1

theorem keepsRemoved_iff (keys : List Key) (rows : List (Key × R)) :
    ∀ kv : KVStore V, KeepsRemoved codec keys kv rows ↔
      ∀ k ∈ keys, kv.IsRemoved k → (rows.foldl (State.loadRow codec) kv).IsRemoved k := by
  induction rows with
  | nil => exact fun kv => ⟨fun _ k _ h => h, fun _ => trivial⟩
  | cons row rows ih =>
    intro kv
    rw [KeepsRemoved, ih, List.foldl_cons]
    constructor
    · rintro ⟨hstep, hrest⟩ k hk hremoved
      refine hrest k hk (isRemoved_loadRow.mpr ⟨hremoved, fun hnone hread hfull node last hlast heq => ?_⟩)
      exact hstep hnone hread hfull node last hlast (heq ▸ hk) (heq ▸ hremoved)
    · intro h
      refine ⟨fun hnone hread hfull node last hlast hkeys hremoved => ?_, fun k hk hremoved => ?_⟩
      · have hstays := isRemoved_of_loadRows rows _ (h last hkeys hremoved)
        exact (isRemoved_loadRow.mp hstays).2 hnone hread hfull node last hlast rfl
      · exact h k hk (isRemoved_loadRow.mp hremoved).1

end Removed

/-! ## What is listed -/

theorem any_isDeleted_iff (kv : KVStore V) (key : Key) :
    ((kv.find key).any fun e => e.value.isDeleted) = true ↔ kv.IsRemoved key := Option.any_eq_true _ _

section Listed

variable {codec : Codec V R} {s : State V R} {start : Key} {rows : List (Key × R)}

/-- The answer of `get`. -/
theorem get_isSome_iff (key : Key) (ok : Nat → Bool) :
    (s.get codec key ok).1.isSome = true ↔
      (∃ e, s.kv.find key = some e ∧ e.value.isDeleted = false) ∨
        s.kv.find key = none ∧ (load codec s.db key).isSome = true := by
  rw [State.get]
  cases hfind : s.kv.find key with
  | some e => cases hvalue : e.value <;> simp [hvalue, Cell.get, Cell.isDeleted]
  | none => cases load codec s.db key <;> simp

theorem mem_listed_iff (hrows : QueryRows s.db start rows) (suffix : Key) :
    suffix ∈ s.listed codec start rows ↔
      (∃ e, s.kv.find (start ++ suffix) = some e ∧ e.value.isDeleted = false) ∨
        (s.db (start ++ suffix)).isSome = true ∧
          ¬ (rows.foldl (State.loadRow codec) s.kv).IsRemoved (start ++ suffix) := by
  have hmem : ∀ key r, (key, r) ∈ rows ↔ s.db key = some r ∧ start <+: key := hrows.found.2
  rw [State.listed, List.mem_dedup, State.keys, List.mem_append, List.mem_map, List.mem_map]
  refine or_congr ⟨?_, ?_⟩ ⟨?_, ?_⟩
  · intro h
    obtain ⟨⟨key, e⟩, he, rfl⟩ := h
    simp only [List.mem_filter, Bool.and_eq_true, List.isPrefixOf_iff_prefix, Bool.not_eq_true'] at he
    obtain ⟨hentry, ⟨rest, rfl⟩, hlive⟩ := he
    rw [List.drop_left]
    exact ⟨e, AList.mem_lookup_iff.mpr hentry, hlive⟩
  · intro h
    obtain ⟨e, he, hlive⟩ := h
    refine ⟨⟨start ++ suffix, e⟩, List.mem_filter.mpr ⟨AList.mem_lookup_iff.mp he, ?_⟩, List.drop_left ..⟩
    simp [hlive]
  · intro h
    obtain ⟨⟨key, r⟩, hr, rfl⟩ := h
    obtain ⟨hrow, hstays⟩ := List.mem_filter.mp hr
    obtain ⟨hdb, rest, rfl⟩ := (hmem key r).mp hrow
    rw [List.drop_left]
    refine ⟨by rw [hdb]; rfl, ?_⟩
    rwa [← any_isDeleted_iff, Bool.not_eq_true, ← Bool.not_eq_true']
  · intro h
    obtain ⟨hdb, hstays⟩ := h
    obtain ⟨r, hr⟩ := Option.isSome_iff_exists.mp hdb
    refine ⟨⟨start ++ suffix, r⟩, List.mem_filter.mpr ⟨(hmem _ r).mpr ⟨hr, List.prefix_append _ _⟩, ?_⟩,
      List.drop_left ..⟩
    rwa [Bool.not_eq_true', ← Bool.not_eq_true, any_isDeleted_iff]

/-- `keys` is exact just where the rows that are not cached can be read and no removed key among
them is driven out of the cache. -/
theorem keysExact_iff (hrows : QueryRows s.db start rows) :
    KeysExact codec s start rows ↔
      ReadsRows codec s.kv rows ∧ KeepsRemoved codec (rows.map Prod.fst) s.kv rows := by
  have hmem : ∀ key r, (key, r) ∈ rows ↔ s.db key = some r ∧ start <+: key := hrows.found.2
  rw [keepsRemoved_iff]
  constructor
  · intro h
    have hanswer : ∀ key r, (key, r) ∈ rows → ¬ (rows.foldl (State.loadRow codec) s.kv).IsRemoved key →
        (s.get codec key fun _ => true).1.isSome = true := by
      intro key r hrow hstays
      obtain ⟨hdb, suffix, rfl⟩ := (hmem key r).mp hrow
      exact (h.mem_iff suffix _).mp ((mem_listed_iff hrows suffix).mpr (.inr ⟨by rw [hdb]; rfl, hstays⟩))
    refine ⟨fun row hrow hnone => ?_, fun key hkey hremoved => ?_⟩
    · have hget := hanswer row.1 row.2 hrow fun hlater => (isRemoved_of_loadRows rows _ hlater).ne hnone rfl
      rcases (get_isSome_iff row.1 _).mp hget with ⟨e, he, -⟩ | ⟨-, hload⟩
      · rw [hnone] at he
        cases he
      · rwa [load, ((hmem row.1 row.2).mp hrow).1] at hload
    · by_contra hstays
      obtain ⟨row, hrow, rfl⟩ := List.mem_map.mp hkey
      obtain ⟨e, he, hdeleted⟩ := hremoved
      rcases (get_isSome_iff row.1 _).mp (hanswer row.1 row.2 hrow hstays) with ⟨e', he', hlive⟩ | ⟨hnone, -⟩
      · obtain rfl := Option.some.inj (he.symm.trans he')
        rw [hdeleted] at hlive
        cases hlive
      · rw [he] at hnone
        cases hnone
  · intro h
    obtain ⟨hreads, hkeeps⟩ := h
    refine ⟨List.nodup_dedup _, fun suffix ok => ?_⟩
    rw [mem_listed_iff hrows, get_isSome_iff]
    refine or_congr_right' fun hcached => ⟨?_, ?_⟩
    · intro h
      obtain ⟨hdb, hstays⟩ := h
      obtain ⟨r, hr⟩ := Option.isSome_iff_exists.mp hdb
      have hrow : (start ++ suffix, r) ∈ rows := (hmem _ r).mpr ⟨hr, List.prefix_append _ _⟩
      have hnone : s.kv.find (start ++ suffix) = none := by
        by_contra hsome
        obtain ⟨e, he⟩ := Option.ne_none_iff_exists'.mp hsome
        refine hstays (hkeeps _ (List.mem_map_of_mem hrow) ⟨e, he, ?_⟩)
        by_contra hlive
        exact hcached ⟨e, he, by simpa using hlive⟩
      refine ⟨hnone, ?_⟩
      rw [load, hr]
      exact hreads _ hrow hnone
    · intro h
      obtain ⟨hnone, hload⟩ := h
      obtain ⟨v, hv⟩ := Option.isSome_iff_exists.mp hload
      obtain ⟨r, hr, -⟩ := Option.bind_eq_some_iff.mp hv
      exact ⟨by rw [hr]; rfl, fun hlater => (isRemoved_of_loadRows rows _ hlater).ne hnone rfl⟩

end Listed

/-! ## Names with dots behind them -/

def terminated (names : List Key) : Key := names.flatMap (· ++ [dot])

@[simp] theorem terminated_cons (n : Key) (names : List Key) :
    terminated (n :: names) = n ++ dot :: terminated names := by
  rw [terminated, List.flatMap_cons, List.append_assoc]
  rfl

@[simp] theorem terminated_append (names names' : List Key) :
    terminated (names ++ names') = terminated names ++ terminated names' := List.flatMap_append

/-- The first dot ends a name. -/
theorem eq_of_dots {n m x y : Key} (hn : dot ∉ n) (hm : dot ∉ m) (h : n ++ dot :: x = m ++ dot :: y) :
    n = m ∧ x = y := by
  have hwhile : ∀ {n x : Key}, dot ∉ n → (n ++ dot :: x).takeWhile (· != dot) = n := by
    intro n x hn
    have hplain : ∀ a ∈ n, (a != dot) = true := fun a ha => bne_iff_ne.mpr (ne_of_mem_of_not_mem ha hn)
    rw [List.takeWhile_append_of_pos hplain]
    simp
  have hnames := congrArg (List.takeWhile (· != dot)) h
  rw [hwhile hn, hwhile hm] at hnames
  subst hnames
  exact ⟨rfl, (List.cons.inj (List.append_cancel_left h)).2⟩

/-- Names without dots are found again in front of whatever is terminated. -/
theorem prefix_of_terminated {names : List Key} (h : ∀ n ∈ names, dot ∉ n) {names' : List Key}
    (h' : ∀ n ∈ names', dot ∉ n) {rest : Key} (hrest : dot ∉ rest)
    (hpre : terminated names <+: terminated names' ++ rest) : names <+: names' := by
  induction names generalizing names' with
  | nil => exact List.nil_prefix
  | cons n names ih =>
    obtain ⟨tail, htail⟩ := hpre
    rw [terminated_cons, List.append_assoc, List.cons_append] at htail
    cases names' with
    | nil =>
      refine absurd ?_ hrest
      rw [show rest = terminated [] ++ rest from rfl, ← htail]
      exact List.mem_append_right _ List.mem_cons_self
    | cons m names' =>
      rw [terminated_cons, List.append_assoc, List.cons_append] at htail
      obtain ⟨rfl, hrests⟩ := eq_of_dots (h n List.mem_cons_self) (h' m List.mem_cons_self) htail
      exact List.cons_prefix_cons.mpr ⟨rfl, ih (fun n hn => h n (List.mem_cons_of_mem _ hn))
        (fun n hn => h' n (List.mem_cons_of_mem _ hn)) ⟨tail, hrests⟩⟩

namespace ScopePath

variable {path : ScopePath} {key : Key}

theorem noDot (path : ScopePath) : ∀ n ∈ path.names, dot ∉ n := by
  intro n hn
  obtain ⟨name, -, rfl⟩ := List.mem_map.mp hn
  exact name.noDot

/-- The start of a scope and a dot are its names, each with a dot behind it. -/
theorem scopePrefix_append_dot (path : ScopePath) : path.kv.scopePrefix ++ [dot] = terminated path.names := by
  have hfold : ∀ (inner : List ScopeName) (kv : ScopedKV),
      (inner.foldl (fun kv n => kv.scopedTo n.name) kv).scopePrefix ++ [dot] =
        kv.scopePrefix ++ dot :: terminated (inner.map ScopeName.name) := by
    intro inner
    induction inner with
    | nil => exact fun kv => rfl
    | cons n inner ih =>
      intro kv
      rw [List.foldl_cons, ih, List.map_cons, terminated_cons, ScopedKV.scopedTo, ScopedKV.buildKey,
        if_neg n.nonempty, List.append_assoc]
      rfl
  rw [kv, hfold, KVStore.scopedTo, names, List.map_cons, terminated_cons]

theorem names_eq (path : ScopePath) : ∃ front last, path.names = front ++ [last] ∧ last ≠ [] ∧
    path.kv.scopePrefix = terminated front ++ last := by
  obtain ⟨front, last, hnames⟩ : ∃ front last, path.names = front ++ [last] :=
    ⟨_, _, (List.dropLast_append_getLast (List.cons_ne_nil _ _)).symm⟩
  obtain ⟨name, -, rfl⟩ := List.mem_map.mp (hnames ▸ List.mem_append_right front (List.mem_singleton_self last))
  refine ⟨front, name.name, hnames, name.nonempty, ?_⟩
  have hdot := path.scopePrefix_append_dot
  rw [hnames, terminated_append, terminated_cons] at hdot
  exact List.append_cancel_right (hdot.trans (List.append_assoc _ _ _).symm)

/-- A key of a scope is some of its names and a rest without a dot. -/
theorem buildKey_eq (path : ScopePath) (hkey : dot ∉ key) :
    ∃ front rest, path.kv.buildKey key = terminated front ++ rest ∧ dot ∉ rest ∧ front <+: path.names := by
  rw [ScopedKV.buildKey]
  split
  · obtain ⟨front, last, hnames, -, hstart⟩ := path.names_eq
    refine ⟨front, last, hstart, path.noDot last ?_, hnames ▸ List.prefix_append _ _⟩
    rw [hnames]
    exact List.mem_append_right _ (List.mem_singleton_self _)
  · refine ⟨path.names, key, ?_, hkey, List.prefix_refl _⟩
    rw [← scopePrefix_append_dot, List.append_assoc]
    rfl

theorem prefix_of_buildKey {outer : List Key} (houter : ∀ n ∈ outer, dot ∉ n) (hkey : dot ∉ key) (tail : Key)
    (h : terminated outer ++ tail = path.kv.buildKey key) : outer <+: path.names := by
  obtain ⟨front, rest, hkeyEq, hrest, hfront⟩ := path.buildKey_eq hkey
  exact (prefix_of_terminated houter (fun n hn => path.noDot n (hfront.subset hn)) hrest
    ⟨tail, h.trans hkeyEq⟩).trans hfront

/-- A list key ends with a dot. -/
theorem buildListKey_eq (hkey : dot ∉ key) :
    path.kv.buildListKey key = terminated (path.names ++ if key = [] then [] else [key]) := by
  have hend : ∀ front word : Key, word ≠ [] → dot ∉ word →
      front ++ word ≠ [] ∧ (front ++ word).getLast? ≠ some dot := by
    intro front word hne hword
    refine ⟨List.append_ne_nil_of_right_ne_nil _ hne, fun hlast => hword ?_⟩
    rw [List.getLast?_append_of_ne_nil _ hne] at hlast
    exact List.mem_of_getLast? hlast
  rw [ScopedKV.buildListKey, ScopedKV.buildKey]
  split
  · obtain ⟨front, last, hnames, hne, hstart⟩ := path.names_eq
    have hlast : dot ∉ last := path.noDot last (hnames ▸ List.mem_append_right _ (List.mem_singleton_self _))
    rw [hstart, if_pos (hend _ _ hne hlast), ← hstart, scopePrefix_append_dot, List.append_nil]
  · rename_i hne
    have hsplit : path.kv.scopePrefix ++ dot :: key = terminated path.names ++ key := by
      rw [← scopePrefix_append_dot, List.append_assoc]
      rfl
    rw [hsplit, if_pos (hend _ _ hne hkey), terminated_append, terminated_cons, List.append_assoc]
    rfl

end ScopePath

/-- A scope that is no ancestor returns a key of another one only by the empty name: the scope is
named after the key. -/
theorem scopesApart_iff {codec : Codec V R} {s : State V R} {inner outer : ScopePath} {key key' : Key}
    (hkey : dot ∉ key) (hkey' : dot ∉ key') :
    ScopesApart codec s inner outer key key' ↔ ¬ (key' = [] ∧ key ≠ [] ∧ outer.names = inner.names ++ [key]) := by
  constructor
  · rintro h ⟨rfl, hne, hnames⟩
    have hsame : outer.kv.buildKey [] = inner.kv.buildKey key := by
      have hdot := outer.scopePrefix_append_dot
      rw [hnames, terminated_append, terminated_cons, ← inner.scopePrefix_append_dot] at hdot
      rw [ScopedKV.buildKey, if_pos rfl, ScopedKV.buildKey, if_neg hne]
      refine List.append_cancel_right (hdot.trans ?_)
      rw [List.append_assoc, List.append_assoc, List.cons_append]
      rfl
    have hlen := (h.returned hsame).length_le
    rw [hnames, List.length_append] at hlen
    exact absurd hlen (by simp)
  · intro hnot
    refine ⟨fun rows _ suffix _ hsame => ?_, fun hsame => ?_⟩
    · rw [ScopePath.buildListKey_eq hkey'] at hsame
      refine (List.prefix_append _ _).trans (ScopePath.prefix_of_buildKey (fun n hn => ?_) hkey suffix hsame)
      rcases List.mem_append.mp hn with hn | hn
      · exact outer.noDot n hn
      · split at hn
        · cases hn
        · rwa [List.mem_singleton.mp hn]
    · by_cases hne' : key' = []
      · subst hne'
        have hdot := congrArg (· ++ [dot]) hsame
        simp only [ScopedKV.buildKey] at hdot
        rw [if_pos trivial, outer.scopePrefix_append_dot] at hdot
        by_cases hne : key = []
        · rw [if_pos hne, inner.scopePrefix_append_dot] at hdot
          refine prefix_of_terminated outer.noDot inner.noDot (List.not_mem_nil) ?_
          rw [hdot, List.append_nil]
        · rw [if_neg hne] at hdot
          have hnames : terminated outer.names = terminated (inner.names ++ [key]) := by
            rw [hdot, terminated_append, terminated_cons, ← inner.scopePrefix_append_dot]
            simp [terminated]
          have hdots : ∀ n ∈ inner.names ++ [key], dot ∉ n := by
            intro n hn
            rcases List.mem_append.mp hn with hn | hn
            · exact inner.noDot n hn
            · rwa [List.mem_singleton.mp hn]
          refine absurd ⟨rfl, hne, ?_⟩ hnot
          refine List.IsPrefix.eq_of_length_le ?_ (List.IsPrefix.length_le ?_)
          · exact prefix_of_terminated outer.noDot hdots List.not_mem_nil (by rw [hnames, List.append_nil])
          · exact prefix_of_terminated hdots outer.noDot List.not_mem_nil (by rw [hnames, List.append_nil])
      · refine ScopePath.prefix_of_buildKey outer.noDot hkey key' (Eq.trans ?_ hsame)
        rw [ScopedKV.buildKey, if_neg hne', ← outer.scopePrefix_append_dot, List.append_assoc]
        rfl

/-- `keys` is exact and the scopes are apart just where the rows that are not cached can be read, the
rows drive no removed key among them out of the cache, and a scope is not asked by the empty name
for the key that it is named after. -/
theorem keys_iff {codec : Codec V R} {s : State V R} {start : Key} {rows : List (Key × R)}
    (hrows : QueryRows s.db start rows) {inner outer : ScopePath} {key key' : Key} (hkey : dot ∉ key)
    (hkey' : dot ∉ key') :
    KeysExact codec s start rows ∧ ScopesApart codec s inner outer key key' ↔
      (ReadsRows codec s.kv rows ∧ KeepsRemoved codec (rows.map Prod.fst) s.kv rows) ∧
        ¬ (key' = [] ∧ key ≠ [] ∧ outer.names = inner.names ++ [key]) :=
  and_congr (keysExact_iff hrows) (scopesApart_iff hkey hkey')

/-! ## Examples -/

def percentRow : Key × List UInt8 := ([37, 97], stringCodec.serialize [7])

/-- A table with the keys `%a` and `xa`. -/
def percentTable : Database (List UInt8) := fun key =>
  if key = [37, 97] ∨ key = [120, 97] then some (stringCodec.serialize [7]) else none

theorem queryRows_percent : QueryRows percentTable [37] [percentRow] where
  nodup := List.nodup_singleton _
  mem_iff key r := by
    rw [like_likePattern_iff, List.mem_singleton, percentRow, percentTable, Prod.mk.injEq]
    constructor
    · intro h
      obtain ⟨rfl, rfl⟩ := h
      exact ⟨rfl, [97], rfl⟩
    · intro h
      obtain ⟨hdb, rest, rfl⟩ := h
      split at hdb
      · rename_i hkey
        rcases hkey with hkey | hkey
        · exact ⟨hkey, (Option.some.inj hdb).symm⟩
        · cases hkey
      · cases hdb

def wheel : ScopeName := ⟨[119], by decide, by decide⟩
def scrolls : ScopeName := ⟨[115], by decide, by decide⟩

/-- The keys that begin with `%`, and the scopes `w` and `w.s`. -/
theorem keys_iff_percent :
    KeysExact stringCodec (State.new percentTable) [37] [percentRow] ∧
      ScopesApart stringCodec (State.new percentTable) ⟨wheel, []⟩ ⟨wheel, [scrolls]⟩ [107] [107] := by
  refine (keys_iff queryRows_percent (by decide) (by decide)).mpr
    ⟨⟨fun row hrow _ => ?_, fun _ _ hfull => ?_, trivial⟩, fun h => absurd h.1 (List.cons_ne_nil _ _)⟩
  · rw [List.mem_singleton.mp hrow, percentRow, stringCodec_survives (by decide) [7] rfl]
    rfl
  · cases hfull

/-- The rows of the first and of the last key. -/
def twoRows : List (Key × List UInt8) :=
  [(keyOf 0, stringCodec.serialize [7]), (keyOf 1000000, stringCodec.serialize [7])]

def twoRowTable : Database (List UInt8) := fun key =>
  if key = keyOf 0 ∨ key = keyOf 1000000 then some (stringCodec.serialize [7]) else none

/-- The first key is removed, and `n` other keys are set. -/
def removeAndFill (n : Nat) : List (Event (List UInt8) (List UInt8)) :=
  .remove (keyOf 0) allOk :: (List.range n).map fun i => .set (keyOf (i + 1)) [7] allOk

theorem filled_removeAndFill {n : Nat} (hn : n + 1 ≤ MAX_SIZE) :
    Filled twoRowTable .deleted (n + 1) ((removeAndFill n).foldl (step stringCodec) (State.new twoRowTable)) := by
  induction n with
  | zero => exact (filled_new twoRowTable .deleted).next (by omega) fun _ => rfl
  | succ n ih =>
    rw [removeAndFill, List.range_succ, List.map_append, ← List.cons_append, ← removeAndFill, List.foldl_append]
    exact (ih (by omega)).next (by omega) fun h => absurd h (Nat.succ_ne_zero n)

theorem queryRows_two : QueryRows twoRowTable [] twoRows where
  nodup := List.nodup_cons.mpr ⟨fun h => keyOf_ne (by decide) (by decide) (List.mem_singleton.mp h), List.nodup_singleton _⟩
  mem_iff key r := by
    rw [like_likePattern_iff, twoRows, twoRowTable]
    simp only [List.mem_cons, List.not_mem_nil, or_false, Prod.mk.injEq, List.nil_prefix, and_true]
    rw [← or_and_right]
    split
    · rename_i hkey
      simp [hkey, eq_comm]
    · rename_i hkey
      simp [hkey]

/-- A removed key at the end of a full queue is listed once another row was cached. -/
theorem removed_listed {n : Nat} (hn : n + 1 = MAX_SIZE) {s : State (List UInt8) (List UInt8)}
    (h : Filled twoRowTable .deleted (n + 1) s) : ¬ KeysExact stringCodec s [] twoRows := by
  intro hexact
  obtain ⟨hfull, node, hlast⟩ := h.full hn n.succ_pos
  obtain ⟨first, hfirst⟩ := h.first n.succ_pos
  have hnew : s.kv.find (keyOf 1000000) = none := h.fresh _ hn.le le_rfl
  have hrows : QueryRows s.db [] twoRows := by
    rw [h.table]
    exact queryRows_two
  obtain ⟨-, -, hkeeps, -⟩ := (keysExact_iff hrows).mp hexact
  -- the first row is cached already, the second one drives it out
  have hskip : State.loadRow stringCodec s.kv (keyOf 0, stringCodec.serialize [7]) = s.kv := by
    rw [State.loadRow, stringCodec_survives (by decide) [7] rfl]
    simp only
    rw [if_pos (by rw [hfirst]; rfl)]
  rw [hskip] at hkeeps
  refine hkeeps hnew ?_ hfull node (keyOf 0) hlast List.mem_cons_self ⟨_, hfirst, rfl⟩
  rw [stringCodec_survives (by decide) [7] rfl]
  rfl

/-- A full cache that remembers the removal of a key, and a listing that caches one more row. -/
theorem not_keysExact_removed :
    QueryRows ((removeAndFill 999999).foldl (step stringCodec) (State.new twoRowTable)).db [] twoRows ∧
      ¬ KeysExact stringCodec ((removeAndFill 999999).foldl (step stringCodec) (State.new twoRowTable)) [] twoRows := by
  have hfilled := filled_removeAndFill (n := 999999) (by decide)
  refine ⟨?_, removed_listed rfl hfilled⟩
  rw [hfilled.table]
  exact queryRows_two

end ForgottenServer.Kv
