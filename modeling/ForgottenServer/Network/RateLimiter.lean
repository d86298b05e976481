import Mathlib

/-! # The rate limiter of connections

An address has an entry with its attempts. The entries are found by address and, for the cleanup, by the time at which
they expire: a multimap `expiryIndex` whose nodes the entries remember. Times are `uint64_t` and sums of them wrap. -/

namespace ForgottenServer.RateLimiter

def CLEANUP_INTERVAL : Nat := 60000
def ENTRY_LIFETIME : Nat := 300000
def ATTEMPT_WINDOW : Nat := 5000
def CLEANUP_BATCH_SIZE : Nat := 256

def uint64 (n : Nat) : Nat := n % 2 ^ 64

def uint32 (n : Nat) : Nat := n % 2 ^ 32

/-- `a - b` of unsigned numbers. -/
def minus64 (a b : Nat) : Nat := (a + 2 ^ 64 - b) % 2 ^ 64

def getBlockDuration (totalBlocks : Nat) : Nat :=
  if 10 ≤ totalBlocks then 300000
  else if 5 ≤ totalBlocks then 60000
  else if 3 ≤ totalBlocks then 15000
  else 3000

abbrev Ip := UInt32

/-- A node of the multimap. Its `id` is what an iterator to it is. -/
structure Node where
  id : Nat
  expiresAt : Nat
  clientIp : Ip
  deriving DecidableEq

structure Entry where
  lastAttempt : Nat
  blockUntil : Nat := 0
  count : Nat := 1
  totalBlocks : Nat := 0
  /-- `none` is `expiryIndex.end()`. -/
  expiry : Option Nat := none

structure ConnectionRateLimitResult where
  allowed : Bool := true
  blockStarted : Bool := false
  blockDuration : Nat := 0
  totalBlocks : Nat := 0
  deriving DecidableEq

/-- `nextNode` is the id of the next node of the index. -/
structure Limiter where
  entries : Ip → Option Entry := fun _ => none
  expiryIndex : List Node := []
  lastCleanup : Nat := 0
  nextNode : Nat := 0

/-- A new node comes behind all that do not expire later. -/
def emplace (node : Node) (index : List Node) : List Node :=
  index.takeWhile (fun other => other.expiresAt ≤ node.expiresAt) ++
    node :: index.dropWhile fun other => other.expiresAt ≤ node.expiresAt

def Entry.expiresAt (entry : Entry) : Nat := max entry.blockUntil (uint64 (entry.lastAttempt + ENTRY_LIFETIME + 1))

namespace Limiter

variable (s : Limiter)

def eraseNode (expiry : Option Nat) : List Node := s.expiryIndex.filter fun node => some node.id ≠ expiry

/-- The entry of `clientIp` is written with a new node. -/
def refreshExpiry (clientIp : Ip) (entry : Entry) : Limiter :=
  { s with
    entries := Function.update s.entries clientIp (some { entry with expiry := some s.nextNode })
    expiryIndex := emplace ⟨s.nextNode, entry.expiresAt, clientIp⟩ (s.eraseNode entry.expiry)
    nextNode := s.nextNode + 1 }

@[simp] theorem entries_refreshExpiry (clientIp : Ip) (entry : Entry) :
    (s.refreshExpiry clientIp entry).entries =
      Function.update s.entries clientIp (some { entry with expiry := some s.nextNode }) := rfl

/-- One turn of the cleanup: the first node of the index, and the entry that remembers it. -/
def removeFirst (node : Node) (rest : List Node) : Limiter :=
  { s with
    entries :=
      if (s.entries node.clientIp).any fun entry => entry.expiry = some node.id then
        Function.update s.entries node.clientIp none
      else s.entries
    expiryIndex := rest }

def cleanupLoop (currentTime : Nat) : Nat → Limiter → Limiter
  | 0, s => s
  | processed + 1, s =>
    match s.expiryIndex with
    | [] => s
    | node :: rest =>
      if currentTime < node.expiresAt then s else cleanupLoop currentTime processed (s.removeFirst node rest)

def cleanup (currentTime : Nat) : Limiter :=
  if s.lastCleanup ≠ 0 ∧ minus64 currentTime s.lastCleanup < CLEANUP_INTERVAL then s
  else cleanupLoop currentTime CLEANUP_BATCH_SIZE { s with lastCleanup := currentTime }

end Limiter

/-- What an attempt makes of an entry that is not blocked, and the answer. -/
def Entry.attempt (entry : Entry) (currentTime allowedConnections minimumInterval : Nat) :
    Entry × ConnectionRateLimitResult :=
  let timeDifference := minus64 currentTime entry.lastAttempt
  let entry := { entry with lastAttempt := currentTime, blockUntil := 0 }
  if timeDifference ≤ ATTEMPT_WINDOW then
    let count := uint32 (entry.count + 1)
    if allowedConnections < count then
      if timeDifference ≤ minimumInterval then
        let totalBlocks := uint32 (entry.totalBlocks + 1)
        let blockDuration := getBlockDuration totalBlocks
        ({ entry with count := 0, totalBlocks, blockUntil := uint64 (currentTime + blockDuration) },
          { allowed := false, blockStarted := true, blockDuration, totalBlocks })
      else ({ entry with count := 0 }, {})
    else ({ entry with count }, {})
  else
    let totalBlocks :=
      if CLEANUP_INTERVAL < timeDifference ∧ 0 < entry.totalBlocks then entry.totalBlocks - 1 else entry.totalBlocks
    ({ entry with count := 1, totalBlocks }, {})

/-- The arguments of `check`. -/
structure Attempt where
  clientIp : Ip
  currentTime : Nat
  allowedConnections : Nat
  minimumInterval : Nat

/-- `check` behind the cleanup. -/
def Limiter.answer (s : Limiter) (attempt : Attempt) : Limiter × ConnectionRateLimitResult :=
  match s.entries attempt.clientIp with
  | none => (s.refreshExpiry attempt.clientIp { lastAttempt := attempt.currentTime }, {})
  | some entry =>
    if attempt.currentTime < entry.blockUntil then (s, { allowed := false, totalBlocks := entry.totalBlocks })
    else
      let attempted := entry.attempt attempt.currentTime attempt.allowedConnections attempt.minimumInterval
      (s.refreshExpiry attempt.clientIp attempted.1, attempted.2)

def Limiter.check (s : Limiter) (attempt : Attempt) : Limiter × ConnectionRateLimitResult :=
  (s.cleanup attempt.currentTime).answer attempt

/-- The limiter after some attempts. -/
def Limiter.run (s : Limiter) (attempts : List Attempt) : Limiter :=
  attempts.foldl (fun s attempt => (s.check attempt).1) s

/-! ## The table and the index -/

/-- Every entry has one node of the index, under the time at which the entry expires. -/
structure Indexed (s : Limiter) : Prop where
  nodup : (s.expiryIndex.map (·.id)).Nodup
  fresh : ∀ node ∈ s.expiryIndex, node.id < s.nextNode
  sorted : s.expiryIndex.Pairwise fun node other => node.expiresAt ≤ other.expiresAt
  own : ∀ node ∈ s.expiryIndex, ∃ entry, s.entries node.clientIp = some entry ∧ entry.expiry = some node.id ∧
    node.expiresAt = entry.expiresAt
  indexed : ∀ ip entry, s.entries ip = some entry →
    ∃ node ∈ s.expiryIndex, node.clientIp = ip ∧ entry.expiry = some node.id

theorem emplace_perm (node : Node) (index : List Node) : (emplace node index).Perm (node :: index) := by
  refine List.perm_middle.trans ?_
  rw [List.takeWhile_append_dropWhile]

theorem mem_emplace {node other : Node} {index : List Node} :
    other ∈ emplace node index ↔ other = node ∨ other ∈ index := by
  rw [(emplace_perm node index).mem_iff, List.mem_cons]

theorem sorted_emplace {node : Node} {index : List Node}
    (h : index.Pairwise fun node other => node.expiresAt ≤ other.expiresAt) :
    (emplace node index).Pairwise fun node other => node.expiresAt ≤ other.expiresAt := by
  induction index with
  | nil => exact List.pairwise_singleton _ _
  | cons first rest ih =>
    rw [List.pairwise_cons] at h
    by_cases hle : first.expiresAt ≤ node.expiresAt
    · have hemplace : emplace node (first :: rest) = first :: emplace node rest := by simp [emplace, hle]
      rw [hemplace, List.pairwise_cons]
      refine ⟨fun other hother => ?_, ih h.2⟩
      obtain rfl | hother := mem_emplace.mp hother
      · exact hle
      · exact h.1 other hother
    · have hemplace : emplace node (first :: rest) = node :: first :: rest := by simp [emplace, hle]
      rw [hemplace, List.pairwise_cons, List.pairwise_cons]
      refine ⟨fun other hother => ?_, h⟩
      obtain rfl | hother := List.mem_cons.mp hother
      · omega
      · have := h.1 other hother
        omega

namespace Indexed

variable {s : Limiter} {ip : Ip} {entry : Entry} {node other : Node}

theorem new : Indexed {} :=
  ⟨List.nodup_nil, fun _ h => absurd h List.not_mem_nil, .nil, fun _ h => absurd h List.not_mem_nil,
    fun _ _ h => by cases h⟩

theorem eq_of_id (h : Indexed s) (hnode : node ∈ s.expiryIndex) (hother : other ∈ s.expiryIndex)
    (hid : node.id = other.id) : node = other := List.inj_on_of_nodup_map h.nodup hnode hother hid

/-- The node that an entry remembers is the one with its address. -/
theorem expiry_iff (h : Indexed s) (hentry : s.entries ip = some entry) (hnode : node ∈ s.expiryIndex) :
    entry.expiry = some node.id ↔ node.clientIp = ip := by
  constructor
  · intro hid
    obtain ⟨other, hother, hip, hid'⟩ := h.indexed ip entry hentry
    rw [hid, Option.some.injEq] at hid'
    rw [h.eq_of_id hnode hother hid']
    exact hip
  · rintro rfl
    obtain ⟨entry', hentry', hid, -⟩ := h.own node hnode
    rw [hentry, Option.some.injEq] at hentry'
    rw [hentry']
    exact hid

theorem eq_of_clientIp (h : Indexed s) (hnode : node ∈ s.expiryIndex) (hother : other ∈ s.expiryIndex)
    (hip : node.clientIp = other.clientIp) : node = other := by
  obtain ⟨entry, hentry, hid, -⟩ := h.own node hnode
  have hid' := (h.expiry_iff hentry hother).mpr hip.symm
  rw [hid, Option.some.injEq] at hid'
  exact h.eq_of_id hnode hother hid'

/-- The old node of an address is taken out, and no other one. -/
theorem mem_eraseNode (h : Indexed s) (hexpiry : entry.expiry = (s.entries ip).bind (·.expiry)) :
    node ∈ s.eraseNode entry.expiry ↔ node ∈ s.expiryIndex ∧ node.clientIp ≠ ip := by
  rw [Limiter.eraseNode, List.mem_filter, decide_eq_true_iff]
  refine and_congr_right fun hnode => ?_
  rw [hexpiry]
  cases hold : s.entries ip with
  | none =>
    refine iff_of_true (by simp) ?_
    rintro rfl
    obtain ⟨entry', hentry', -⟩ := h.own node hnode
    rw [hold] at hentry'
    cases hentry'
  | some old =>
    rw [Option.bind_some, ne_comm]
    exact (h.expiry_iff hold hnode).not

theorem refreshExpiry (h : Indexed s) (hexpiry : entry.expiry = (s.entries ip).bind (·.expiry)) :
    Indexed (s.refreshExpiry ip entry) := by
  have hmem : ∀ node, node ∈ (s.refreshExpiry ip entry).expiryIndex ↔
      node = ⟨s.nextNode, entry.expiresAt, ip⟩ ∨ node ∈ s.expiryIndex ∧ node.clientIp ≠ ip := by
    intro node
    rw [Limiter.refreshExpiry, mem_emplace, h.mem_eraseNode hexpiry]
  have hsub : (s.eraseNode entry.expiry).Sublist s.expiryIndex := List.filter_sublist
  refine ⟨?_, fun node hnode => ?_, sorted_emplace (h.sorted.sublist hsub), fun node hnode => ?_,
    fun other entry' hentry' => ?_⟩
  · rw [Limiter.refreshExpiry, ((emplace_perm _ _).map _).nodup_iff, List.map_cons, List.nodup_cons]
    refine ⟨fun hin => ?_, h.nodup.sublist (hsub.map _)⟩
    obtain ⟨node, hnode, hid⟩ := List.mem_map.mp hin
    exact (h.fresh node (hsub.subset hnode)).ne hid
  · obtain rfl | ⟨hnode, -⟩ := (hmem node).mp hnode
    · exact Nat.lt_succ_self _
    · exact Nat.lt_succ_of_lt (h.fresh node hnode)
  · obtain rfl | ⟨hnode, hne⟩ := (hmem node).mp hnode
    · exact ⟨_, Function.update_self .., rfl, rfl⟩
    · obtain ⟨entry', hentry', hrest⟩ := h.own node hnode
      exact ⟨entry', (Function.update_of_ne hne ..).trans hentry', hrest⟩
  · by_cases hip : other = ip
    · rw [hip, Limiter.entries_refreshExpiry, Function.update_self, Option.some.injEq] at hentry'
      exact ⟨_, (hmem _).mpr (.inl rfl), hip.symm, by rw [← hentry']⟩
    · rw [Limiter.entries_refreshExpiry, Function.update_of_ne hip] at hentry'
      obtain ⟨node, hnode, hclient, hid⟩ := h.indexed other entry' hentry'
      exact ⟨node, (hmem node).mpr (.inr ⟨hnode, hclient ▸ hip⟩), hclient, hid⟩

/-- The entry of the first node is removed with it, and no other one. -/
theorem removeFirst {rest : List Node} (h : Indexed s) (hindex : s.expiryIndex = node :: rest) :
    (s.removeFirst node rest).entries = Function.update s.entries node.clientIp none ∧
    Indexed (s.removeFirst node rest) := by
  have hmem : node ∈ s.expiryIndex := hindex ▸ List.mem_cons_self
  obtain ⟨entry, hentry, hid, -⟩ := h.own node hmem
  have hentries : (s.removeFirst node rest).entries = Function.update s.entries node.clientIp none := by
    rw [Limiter.removeFirst, hentry]
    exact if_pos (by simp [hid])
  have hsub : rest.Sublist s.expiryIndex := hindex ▸ List.sublist_cons_self node rest
  have hother : ∀ other ∈ rest, other.clientIp ≠ node.clientIp := by
    intro other hother hip
    have hsame := h.eq_of_clientIp (hsub.subset hother) hmem hip
    have hnodup := h.nodup
    rw [hindex, List.map_cons, List.nodup_cons] at hnodup
    exact hnodup.1 (List.mem_map.mpr ⟨other, hother, congrArg _ hsame⟩)
  refine ⟨hentries, h.nodup.sublist (hsub.map _), fun other ho => h.fresh other (hsub.subset ho),
    h.sorted.sublist hsub, fun other ho => ?_, fun ip entry' hentry' => ?_⟩
  · obtain ⟨entry', hentry', hrest⟩ := h.own other (hsub.subset ho)
    exact ⟨entry', by rw [hentries, Function.update_of_ne (hother other ho), hentry'], hrest⟩
  · rw [hentries] at hentry'
    have hip : ip ≠ node.clientIp := by
      rintro rfl
      rw [Function.update_self] at hentry'
      cases hentry'
    rw [Function.update_of_ne hip] at hentry'
    obtain ⟨other, ho, hclient, hid'⟩ := h.indexed ip entry' hentry'
    rw [hindex] at ho
    obtain rfl | ho := List.mem_cons.mp ho
    · exact absurd hclient.symm hip
    · exact ⟨other, ho, hclient, hid'⟩

/-- The cleanup leaves the entries that have not expired. -/
theorem cleanupLoop (currentTime n : Nat) (h : Indexed s) :
    Indexed (Limiter.cleanupLoop currentTime n s) ∧ ∀ ip entry, s.entries ip = some entry →
      currentTime < entry.expiresAt → (Limiter.cleanupLoop currentTime n s).entries ip = some entry := by
  induction n generalizing s with
  | zero => exact ⟨h, fun _ _ hentry _ => hentry⟩
  | succ n ih =>
    rw [Limiter.cleanupLoop]
    split
    · exact ⟨h, fun _ _ hentry _ => hentry⟩
    · next node rest hindex =>
      split
      · exact ⟨h, fun _ _ hentry _ => hentry⟩
      · next hexpired =>
        obtain ⟨hentries, hnext⟩ := h.removeFirst hindex
        obtain ⟨hind, hkeep⟩ := ih hnext
        refine ⟨hind, fun ip entry hentry hlt => hkeep ip entry ?_ hlt⟩
        rw [hentries, Function.update_of_ne, hentry]
        rintro rfl
        obtain ⟨entry', hentry', -, hkey⟩ := h.own node (hindex ▸ List.mem_cons_self)
        rw [hentry, Option.some.injEq] at hentry'
        rw [hentry', ← hkey] at hlt
        exact hexpired hlt

theorem cleanup (currentTime : Nat) (h : Indexed s) :
    Indexed (s.cleanup currentTime) ∧ ∀ ip entry, s.entries ip = some entry →
      currentTime < entry.expiresAt → (s.cleanup currentTime).entries ip = some entry := by
  rw [Limiter.cleanup]
  split
  · exact ⟨h, fun _ _ hentry _ => hentry⟩
  · have h' : Indexed { s with lastCleanup := currentTime } := ⟨h.nodup, h.fresh, h.sorted, h.own, h.indexed⟩
    exact h'.cleanupLoop currentTime CLEANUP_BATCH_SIZE

end Indexed

/-! ## Attempts -/

/-- An attempt leaves the node alone. A block that it starts is in the entry. -/
theorem attempt_spec {entry : Entry} {currentTime allowedConnections minimumInterval : Nat}
    {attempted : Entry × ConnectionRateLimitResult}
    (h : entry.attempt currentTime allowedConnections minimumInterval = attempted) :
    attempted.1.expiry = entry.expiry ∧
      (attempted.2.blockStarted = true →
        attempted.1.blockUntil = uint64 (currentTime + attempted.2.blockDuration)) := by
  rw [Entry.attempt] at h
  dsimp only at h
  repeat' split at h
  all_goals
    subst h
    refine ⟨rfl, fun hstarted => ?_⟩
  · rfl
  all_goals cases hstarted

theorem blockUntil_le (entry : Entry) : entry.blockUntil ≤ entry.expiresAt := le_max_left ..

namespace Indexed

variable {s : Limiter} {ip : Ip} {entry : Entry}

theorem answer_attempt {attempt : Attempt} {attempted : Entry × ConnectionRateLimitResult}
    (hentry : s.entries attempt.clientIp = some entry) (hlt : ¬ attempt.currentTime < entry.blockUntil)
    (hattempt : entry.attempt attempt.currentTime attempt.allowedConnections attempt.minimumInterval = attempted) :
    s.answer attempt = (s.refreshExpiry attempt.clientIp attempted.1, attempted.2) := by
  rw [Limiter.answer, hentry, ← hattempt]
  exact if_neg hlt

/-- What `answer` can do: a new entry, a refusal, or an attempt at an entry that is not blocked. -/
theorem answer_cases (s : Limiter) (attempt : Attempt) :
    (s.entries attempt.clientIp = none ∧
      s.answer attempt = (s.refreshExpiry attempt.clientIp { lastAttempt := attempt.currentTime }, {})) ∨
    (∃ entry, s.entries attempt.clientIp = some entry ∧ attempt.currentTime < entry.blockUntil ∧
      s.answer attempt = (s, { allowed := false, totalBlocks := entry.totalBlocks })) ∨
    ∃ entry attempted, s.entries attempt.clientIp = some entry ∧ ¬ attempt.currentTime < entry.blockUntil ∧
      entry.attempt attempt.currentTime attempt.allowedConnections attempt.minimumInterval = attempted ∧
      s.answer attempt = (s.refreshExpiry attempt.clientIp attempted.1, attempted.2) := by
  cases hentry : s.entries attempt.clientIp with
  | none => exact .inl ⟨rfl, by rw [Limiter.answer, hentry]⟩
  | some entry =>
    refine .inr ?_
    by_cases hlt : attempt.currentTime < entry.blockUntil
    · refine .inl ⟨entry, rfl, hlt, ?_⟩
      rw [Limiter.answer, hentry]
      exact if_pos hlt
    · exact .inr ⟨entry, _, rfl, hlt, Eq.refl _, answer_attempt hentry hlt (Eq.refl _)⟩

theorem answer (h : Indexed s) (attempt : Attempt) : Indexed (s.answer attempt).1 := by
  obtain ⟨hentry, hanswer⟩ | ⟨entry, -, -, hanswer⟩ | ⟨entry, attempted, hentry, -, hattempt, hanswer⟩ :=
    answer_cases s attempt
  · rw [hanswer]
    exact h.refreshExpiry (by rw [hentry]; rfl)
  · rw [hanswer]
    exact h
  · rw [hanswer]
    exact h.refreshExpiry (by rw [hentry, Option.bind_some, (attempt_spec hattempt).1])

theorem check (h : Indexed s) (attempt : Attempt) : Indexed (s.check attempt).1 :=
  (h.cleanup attempt.currentTime).1.answer attempt

/-- Only the entry of the address itself is written. -/
theorem answer_other {attempt : Attempt} (hother : attempt.clientIp ≠ ip) :
    (s.answer attempt).1.entries ip = s.entries ip := by
  obtain ⟨-, hanswer⟩ | ⟨entry, -, -, hanswer⟩ | ⟨entry, attempted, -, -, -, hanswer⟩ := answer_cases s attempt
  · rw [hanswer, Limiter.entries_refreshExpiry, Function.update_of_ne hother.symm]
  · rw [hanswer]
  · rw [hanswer, Limiter.entries_refreshExpiry, Function.update_of_ne hother.symm]

/-- Before an entry expires, attempts from other addresses leave it. -/
theorem check_other (h : Indexed s) {attempt : Attempt} (hentry : s.entries ip = some entry)
    (hother : attempt.clientIp ≠ ip) (hlt : attempt.currentTime < entry.expiresAt) :
    (s.check attempt).1.entries ip = some entry :=
  (answer_other hother).trans ((h.cleanup attempt.currentTime).2 ip entry hentry hlt)

/-- A blocked address is refused, and its entry stays as it is. -/
theorem check_blocked (h : Indexed s) {attempt : Attempt} (hentry : s.entries attempt.clientIp = some entry)
    (hlt : attempt.currentTime < entry.blockUntil) :
    (s.check attempt).1.entries attempt.clientIp = some entry ∧ (s.check attempt).2.allowed = false := by
  have hkeep := (h.cleanup attempt.currentTime).2 _ entry hentry (hlt.trans_le (blockUntil_le entry))
  rw [Limiter.check, Limiter.answer, hkeep]
  dsimp only
  rw [if_pos hlt]
  exact ⟨hkeep, rfl⟩

/-- A block that an attempt starts is in the entry of its address. -/
theorem answer_blockStarted {attempt : Attempt} (hstarted : (s.answer attempt).2.blockStarted = true) :
    ∃ entry, (s.answer attempt).1.entries attempt.clientIp = some entry ∧
      entry.blockUntil = uint64 (attempt.currentTime + (s.answer attempt).2.blockDuration) := by
  obtain ⟨-, hanswer⟩ | ⟨entry, -, -, hanswer⟩ | ⟨entry, attempted, -, -, hattempt, hanswer⟩ :=
    answer_cases s attempt
  · rw [hanswer] at hstarted
    cases hstarted
  · rw [hanswer] at hstarted
    cases hstarted
  · rw [hanswer] at hstarted ⊢
    refine ⟨{ attempted.1 with expiry := some s.nextNode }, ?_, (attempt_spec hattempt).2 hstarted⟩
    rw [Limiter.entries_refreshExpiry, Function.update_self]

theorem check_blockStarted {attempt : Attempt} (hstarted : (s.check attempt).2.blockStarted = true) :
    ∃ entry, (s.check attempt).1.entries attempt.clientIp = some entry ∧
      entry.blockUntil = uint64 (attempt.currentTime + (s.check attempt).2.blockDuration) := by
  rw [Limiter.check] at hstarted ⊢
  exact answer_blockStarted hstarted

theorem run (h : Indexed s) (attempts : List Attempt) : Indexed (s.run attempts) := by
  induction attempts generalizing s with
  | nil => exact h
  | cons attempt attempts ih => exact ih (h.check attempt)

theorem run_other (h : Indexed s) {attempts : List Attempt} (hentry : s.entries ip = some entry)
    (hothers : ∀ attempt ∈ attempts, attempt.clientIp ≠ ip ∧ attempt.currentTime < entry.expiresAt) :
    (s.run attempts).entries ip = some entry := by
  induction attempts generalizing s with
  | nil => exact hentry
  | cons attempt attempts ih =>
    rw [List.forall_mem_cons] at hothers
    exact ih (h.check attempt) (h.check_other hentry hothers.1.1 hothers.1.2) hothers.2

/-- Until the end of a block all attempts, also those from the blocked address, leave the entry. -/
theorem run_blocked (h : Indexed s) {attempts : List Attempt} (hentry : s.entries ip = some entry)
    (hbefore : ∀ attempt ∈ attempts, attempt.currentTime < entry.blockUntil) :
    (s.run attempts).entries ip = some entry := by
  induction attempts generalizing s with
  | nil => exact hentry
  | cons attempt attempts ih =>
    rw [List.forall_mem_cons] at hbefore
    refine ih (h.check attempt) ?_ hbefore.2
    by_cases hip : attempt.clientIp = ip
    · subst hip
      exact (h.check_blocked hentry hbefore.1).1
    · exact h.check_other hentry hip (hbefore.1.trans_le (blockUntil_le entry))

end Indexed

/-- At times that do not decrease: after any attempts the entries and the nodes of the index belong to each other, one
to one, and a node has the time at which its entry expires. An address is refused at every time before its block ends,
whatever attempts come before that. Attempts of other addresses do not change its entry before it expires. -/
theorem blocks_kept (attempts later : List Attempt) (attempt : Attempt)
    (htimes : (attempts ++ later ++ [attempt]).Pairwise fun a b => a.currentTime ≤ b.currentTime) :
    let s := ({} : Limiter).run attempts
    (Set.BijOn (·.clientIp) {node | node ∈ s.expiryIndex} {ip | (s.entries ip).isSome} ∧
      s.expiryIndex.Nodup ∧
      ∀ node ∈ s.expiryIndex, ∃ entry, s.entries node.clientIp = some entry ∧ entry.expiry = some node.id ∧
        node.expiresAt = entry.expiresAt) ∧
    (∀ entry, s.entries attempt.clientIp = some entry → attempt.currentTime < entry.blockUntil →
      ((s.run later).check attempt).2.allowed = false) ∧
    (∀ ip entry, s.entries ip = some entry →
      (∀ other ∈ later, other.clientIp ≠ ip ∧ other.currentTime < entry.expiresAt) →
      (s.run later).entries ip = some entry) ∧
    ((s.check attempt).2.blockStarted = true → ∃ entry, (s.check attempt).1.entries attempt.clientIp = some entry ∧
      entry.blockUntil = uint64 (attempt.currentTime + (s.check attempt).2.blockDuration)) := by
  have h := Indexed.new.run attempts
  refine ⟨⟨⟨fun node hnode => ?_, fun node hnode other hother => h.eq_of_clientIp hnode hother, fun ip hip => ?_⟩,
    List.Nodup.of_map _ h.nodup, h.own⟩, fun entry hentry hlt => ?_, fun ip entry hentry => h.run_other hentry,
    Indexed.check_blockStarted⟩
  · obtain ⟨entry, hentry, -⟩ := h.own node hnode
    exact Option.isSome_iff_exists.mpr ⟨entry, hentry⟩
  · obtain ⟨entry, hentry⟩ := Option.isSome_iff_exists.mp hip
    obtain ⟨node, hnode, hclient, -⟩ := h.indexed ip entry hentry
    exact ⟨node, hnode, hclient⟩
  · have hbefore : ∀ other ∈ later, other.currentTime < entry.blockUntil := fun other hother =>
      ((List.pairwise_append.mp htimes).2.2 other (List.mem_append_right _ hother) attempt
        (List.mem_singleton_self _)).trans_lt hlt
    exact ((h.run later).check_blocked (h.run_blocked hentry hbefore) hlt).2

/-- Three attempts start a block, and another address comes in between. -/
theorem blocks_kept_flood :
    let attempts : List Attempt := [⟨1, 1000, 2, 500⟩, ⟨1, 1100, 2, 500⟩, ⟨1, 1200, 2, 500⟩]
    let later : List Attempt := [⟨2, 1300, 2, 500⟩]
    let attempt : Attempt := ⟨1, 4199, 2, 500⟩
    let s := ({} : Limiter).run attempts
    (Set.BijOn (·.clientIp) {node | node ∈ s.expiryIndex} {ip | (s.entries ip).isSome} ∧
      s.expiryIndex.Nodup ∧
      ∀ node ∈ s.expiryIndex, ∃ entry, s.entries node.clientIp = some entry ∧ entry.expiry = some node.id ∧
        node.expiresAt = entry.expiresAt) ∧
    (∀ entry, s.entries attempt.clientIp = some entry → attempt.currentTime < entry.blockUntil →
      ((s.run later).check attempt).2.allowed = false) ∧
    (∀ ip entry, s.entries ip = some entry →
      (∀ other ∈ later, other.clientIp ≠ ip ∧ other.currentTime < entry.expiresAt) →
      (s.run later).entries ip = some entry) ∧
    ((s.check attempt).2.blockStarted = true → ∃ entry, (s.check attempt).1.entries attempt.clientIp = some entry ∧
      entry.blockUntil = uint64 (attempt.currentTime + (s.check attempt).2.blockDuration)) :=
  blocks_kept [⟨1, 1000, 2, 500⟩, ⟨1, 1100, 2, 500⟩, ⟨1, 1200, 2, 500⟩] [⟨2, 1300, 2, 500⟩] ⟨1, 4199, 2, 500⟩
    (by simp)

end ForgottenServer.RateLimiter
