import ForgottenServer.Market.Offers

/-! # Claims and restores of one offer

Buyers claim parts of an offer and restore them when a delivery fails, in any order. A restore
carries the offer as it was read some time before the claim, of which only the amount can
have changed since. -/

namespace ForgottenServer.Market

/-- A successful claim, with the record as read before it. -/
structure Claim where
  expected : ℕ
  accepted : ℕ
  record : MarketOfferRecord
  restored : Bool
  deriving DecidableEq

structure Book where
  table : Table
  claims : List Claim

inductive Event where
  | claim (expectedAmount acceptedAmount ownerId : ℕ)
  /-- A restore for the claim with this number, with the amount that was read before it. -/
  | restore (claim readAmount : ℕ)

namespace Book

variable (attributesTier : ℕ → List UInt8 → ℕ) (id : ℕ)

/-- A call, with its result. A claim that is not there or is already restored is not restored. -/
def step (b : Book) : Event → Bool × Book
  | .claim expected accepted owner =>
    match claimOffer b.table id expected accepted owner, fetchOfferById attributesTier b.table id with
    | (true, table), some record => (true, ⟨table, b.claims ++ [⟨expected, accepted, record, false⟩]⟩)
    | _, _ => (false, b)
  | .restore k readAmount =>
    match b.claims[k]? with
    | none => (false, b)
    | some c =>
      if c.restored then (false, b)
      else
        match restoreOffer b.table { c.record with amount := readAmount } c.accepted with
        | (true, table) => (true, ⟨table, b.claims.set k { c with restored := true }⟩)
        | (false, _) => (false, b)

def run (b : Book) (events : List Event) : Book := events.foldl (fun b e => (b.step attributesTier id e).2) b

/-- The calls with their results. -/
def outcomes (b : Book) : List Event → List (Event × Bool)
  | [] => []
  | e :: es => (e, (b.step attributesTier id e).1) :: outcomes (b.step attributesTier id e).2 es

/-- What is left of the offer. -/
def remaining (b : Book) : ℕ := ((b.table id).map Row.amount).getD 0

end Book

/-- The accepted amounts of the claims that are not restored. -/
def unrestored (claims : List Claim) : ℕ := ((claims.filter fun c => !c.restored).map Claim.accepted).sum

/-- A successful claim of the expected amount. -/
def Event.Claims (expected : ℕ) (o : Event × Bool) : Prop :=
  o.2 = true ∧ ∃ accepted owner, o.1 = .claim expected accepted owner

/-- A successful restore. -/
def Event.Restores (o : Event × Bool) : Prop := o.2 = true ∧ ∃ k amount, o.1 = .restore k amount

variable {attributesTier : ℕ → List UInt8 → ℕ} {id : ℕ} {row : Row} {b b' : Book}

/-! ## One call -/

/-- The row is the listed one with an amount of its own, and so is every record. -/
structure Kept (attributesTier : ℕ → List UInt8 → ℕ) (id : ℕ) (row : Row) (b : Book) : Prop where
  row_like : ∀ r, b.table id = some r → 0 < r.amount ∧ r = { row with amount := r.amount }
  claim_like : ∀ c ∈ b.claims, 0 < c.accepted ∧
    c.record = { readOffer row with amount := c.record.amount, tier := row.tier }
  sum : b.remaining id + unrestored b.claims = row.amount

theorem fetchOfferById_like (hrow : Listed attributesTier row) {r : Row} {t : Table} (ht : t id = some r)
    (hlike : r = { row with amount := r.amount }) :
    fetchOfferById attributesTier t id = some { readOffer row with amount := r.amount, tier := row.tier } := by
  have htier : normalizeTier row.tier = row.tier := by
    rw [← hrow.tier, normalizeTier_getOfferTier]
  rw [fetchOfferById, ht, Option.map_some, hlike]
  simp only [readOffer, htier, hrow.tier]

/-- A record puts back the row it was read from. -/
theorem rowOf_like (hrow : Listed attributesTier row) {record : MarketOfferRecord}
    (hlike : record = { readOffer row with amount := record.amount, tier := row.tier }) (amount : ℕ) :
    rowOf row.id { record with amount := amount } = { row with amount := amount } := by
  have htier : normalizeTier row.tier = row.tier := by
    rw [← hrow.tier, normalizeTier_getOfferTier]
  have hanonymous := hrow.anonymous
  rw [hlike]
  simp only [rowOf, readOffer, htier, Row.mk.injEq, true_and, and_true]
  by_cases h : row.anonymous = 0
  · simp [h]
  · simp only [ne_eq, h, not_false_eq_true, decide_true, if_true]
    omega

theorem unrestored_append (claims : List Claim) (c : Claim) (hc : c.restored = false) :
    unrestored (claims ++ [c]) = unrestored claims + c.accepted := by
  simp [unrestored, List.filter_append, hc]

theorem unrestored_set : ∀ {claims : List Claim} {k : ℕ} {c : Claim}, claims[k]? = some c →
    c.restored = false →
    unrestored (claims.set k { c with restored := true }) + c.accepted = unrestored claims := by
  intro claims
  induction claims with
  | nil =>
    intro k c hk
    cases hk
  | cons d claims ih =>
    intro k c hk hc
    cases k with
    | zero =>
      cases hk
      simp [unrestored, hc, Nat.add_comm]
    | succ k =>
      have hrest := ih hk hc
      cases hd : d.restored <;> simp [unrestored, hd] at hrest ⊢ <;> omega

/-- What a call does to the book, when it does anything. -/
theorem step_cases (e : Event) : (b.step attributesTier id e).1 = false ∧ (b.step attributesTier id e).2 = b ∨
    (b.step attributesTier id e).1 = true ∧
    ((∃ expected accepted owner r record, e = .claim expected accepted owner ∧ b.table id = some r ∧
      r.amount = expected ∧ 0 < accepted ∧ accepted ≤ expected ∧
      fetchOfferById attributesTier b.table id = some record ∧
      (b.step attributesTier id e).2 = ⟨Function.update b.table id
        (if accepted = expected then none else some { r with amount := expected - accepted }),
        b.claims ++ [⟨expected, accepted, record, false⟩]⟩) ∨
    ∃ k amount c table, e = .restore k amount ∧ b.claims[k]? = some c ∧ c.restored = false ∧
      restoreOffer b.table { c.record with amount := amount } c.accepted = (true, table) ∧
      (b.step attributesTier id e).2 = ⟨table, b.claims.set k { c with restored := true }⟩) := by
  cases e with
  | claim expected accepted owner =>
    rw [Book.step]
    rcases claimOffer_cases b.table id expected accepted owner with hrun | ⟨r, hr, hamount, hpos, hle, hrun⟩
    · rw [hrun]
      exact .inl ⟨rfl, rfl⟩
    · obtain ⟨record, hrecord⟩ : ∃ record, fetchOfferById attributesTier b.table id = some record := by
        rw [fetchOfferById, hr]
        exact ⟨_, rfl⟩
      rw [hrun, hrecord]
      exact .inr ⟨rfl, .inl ⟨expected, accepted, owner, r, record, rfl, hr, hamount, hpos, hle, rfl, rfl⟩⟩
  | restore k amount =>
    rw [Book.step]
    cases hc : b.claims[k]? with
    | none => exact .inl ⟨rfl, rfl⟩
    | some c =>
      dsimp only
      by_cases hrestored : c.restored = true
      · rw [if_pos hrestored]
        exact .inl ⟨rfl, rfl⟩
      · rw [if_neg hrestored]
        rcases hrun : restoreOffer b.table { c.record with amount := amount } c.accepted with ⟨ok, table⟩
        cases ok with
        | false => exact .inl ⟨rfl, rfl⟩
        | true =>
          exact .inr ⟨rfl, .inr ⟨k, amount, c, table, rfl, hc, Bool.eq_false_iff.mpr hrestored, hrun, rfl⟩⟩

theorem remaining_of_none (h : b.table id = none) : b.remaining id = 0 := by
  rw [Book.remaining, h]
  rfl

theorem remaining_of_some {r : Row} (h : b.table id = some r) : b.remaining id = r.amount := by
  rw [Book.remaining, h]
  rfl

/-- The row after a call that left one with the amount `n`. -/
theorem row_like_update {t : Table} {claims : List Claim} {n : ℕ} (hpos : 0 < n) :
    ∀ r, (Book.mk (Function.update t id (some { row with amount := n })) claims).table id = some r →
      0 < r.amount ∧ r = { row with amount := r.amount } := by
  intro r hr
  dsimp only at hr
  rw [Function.update_self] at hr
  cases hr
  exact ⟨hpos, rfl⟩

theorem Kept.claim (hrow : Listed attributesTier row) (h : Kept attributesTier id row b)
    {accepted : ℕ} {r : Row} {record : MarketOfferRecord} (hr : b.table id = some r)
    (hpos : 0 < accepted) (hle : accepted ≤ r.amount)
    (hrecord : fetchOfferById attributesTier b.table id = some record) :
    Kept attributesTier id row ⟨Function.update b.table id
      (if accepted = r.amount then none else some { r with amount := r.amount - accepted }),
      b.claims ++ [⟨r.amount, accepted, record, false⟩]⟩ := by
  obtain ⟨-, hlike⟩ := h.row_like r hr
  have hsum := h.sum
  rw [remaining_of_some hr] at hsum
  have hclaims : ∀ c ∈ b.claims ++ [⟨r.amount, accepted, record, false⟩], 0 < c.accepted ∧
      c.record = { readOffer row with amount := c.record.amount, tier := row.tier } := by
    intro c hc
    rcases List.mem_append.mp hc with hc | hc
    · exact h.claim_like c hc
    · obtain rfl := List.mem_singleton.mp hc
      rw [fetchOfferById_like hrow hr hlike, Option.some_inj] at hrecord
      exact ⟨hpos, by rw [← hrecord]⟩
  split
  · refine ⟨fun r' hr' => ?_, hclaims, ?_⟩
    · dsimp only at hr'
      rw [Function.update_self] at hr'
      cases hr'
    · rw [remaining_of_none (Function.update_self ..), unrestored_append _ _ rfl]
      dsimp only
      omega
  · have hnew : ({ r with amount := r.amount - accepted } : Row) =
        { row with amount := r.amount - accepted } := by rw [hlike]
    rw [hnew]
    refine ⟨row_like_update (by omega), hclaims, ?_⟩
    rw [remaining_of_some (Function.update_self ..), unrestored_append _ _ rfl]
    dsimp only
    omega

theorem Kept.restore (hrow : Listed attributesTier row) (hid : row.id = id) (h : Kept attributesTier id row b)
    {k amount : ℕ} {c : Claim} {table : Table} (hc : b.claims[k]? = some c) (hrestored : c.restored = false)
    (hrun : restoreOffer b.table { c.record with amount := amount } c.accepted = (true, table)) :
    Kept attributesTier id row ⟨table, b.claims.set k { c with restored := true }⟩ := by
  obtain ⟨hcpos, hclike⟩ := h.claim_like c (List.mem_of_getElem? hc)
  have hset := unrestored_set hc hrestored
  have hsum := h.sum
  have hrid : c.record.id = id := by rw [hclike, ← hid]; rfl
  have hclaims : ∀ d ∈ b.claims.set k { c with restored := true }, 0 < d.accepted ∧
      d.record = { readOffer row with amount := d.record.amount, tier := row.tier } := by
    intro d hd
    rcases List.mem_or_eq_of_mem_set hd with hd | rfl
    · exact h.claim_like d hd
    · exact ⟨hcpos, hclike⟩
  rcases restoreOffer_cases b.table { c.record with amount := amount } c.accepted with
    hfail | ⟨-, hwhole, hnone, hdone⟩ | ⟨r, hr, -, hdone⟩
  · rw [hfail] at hrun
    cases hrun
  · rw [hdone] at hrun
    cases hrun
    dsimp only at hwhole hnone
    rw [hrid] at hnone
    rw [remaining_of_none hnone] at hsum
    have hback : rowOf c.record.id { c.record with amount := amount } = { row with amount := amount } :=
      (congrArg (rowOf · _) (hrid.trans hid.symm)).trans (rowOf_like hrow hclike amount)
    dsimp only
    rw [hback, hrid]
    refine ⟨row_like_update (by omega), hclaims, ?_⟩
    rw [remaining_of_some (Function.update_self ..)]
    dsimp only
    omega
  · rw [hdone] at hrun
    cases hrun
    dsimp only at hr
    rw [hrid] at hr
    obtain ⟨hrpos, hlike⟩ := h.row_like r hr
    rw [remaining_of_some hr] at hsum
    have hnew : ({ r with amount := r.amount + c.accepted } : Row) =
        { row with amount := r.amount + c.accepted } := by rw [hlike]
    dsimp only
    rw [hrid, hnew]
    refine ⟨row_like_update (by omega), hclaims, ?_⟩
    rw [remaining_of_some (Function.update_self ..)]
    dsimp only
    omega

theorem Kept.step (hrow : Listed attributesTier row) (hid : row.id = id) (h : Kept attributesTier id row b)
    (e : Event) : Kept attributesTier id row (b.step attributesTier id e).2 := by
  rcases step_cases e with ⟨-, hnext⟩ | ⟨-,
    ⟨expected, accepted, owner, r, record, -, hr, rfl, hpos, hle, hrecord, hnext⟩ |
    ⟨k, amount, c, table, -, hc, hrestored, hrun, hnext⟩⟩
  all_goals rw [hnext]
  · exact h
  · exact h.claim hrow hr hpos hle hrecord
  · exact h.restore hrow hid hc hrestored hrun

/-! ## Runs -/

theorem Kept.run (hrow : Listed attributesTier row) (hid : row.id = id) (events : List Event) :
    ∀ {b : Book}, Kept attributesTier id row b → Kept attributesTier id row (b.run attributesTier id events) := by
  induction events with
  | nil => exact fun h => h
  | cons e events ih => exact fun h => ih (h.step hrow hid e)

theorem Kept.initial {t : Table} (ht : t id = some row) (hpos : row.amount ≠ 0) :
    Kept attributesTier id row ⟨t, []⟩ := by
  refine ⟨fun r hr => ?_, fun c hc => ?_, ?_⟩
  · dsimp only at hr
    rw [ht] at hr
    cases hr
    exact ⟨Nat.pos_of_ne_zero hpos, rfl⟩
  · cases hc
  · rw [remaining_of_some ht]
    rfl

/-- The amount is below `n`, or the row is gone. -/
def Below (id n : ℕ) (b : Book) : Prop := ∀ r, b.table id = some r → r.amount < n

/-- A successful claim of `n` leaves less than `n`, which no later claim of `n` finds, until a
restore succeeds. -/
theorem step_below {n : ℕ} (e : Event)
    (hrestore : ¬Event.Restores (e, (b.step attributesTier id e).1)) :
    (Event.Claims n (e, (b.step attributesTier id e).1) → ¬Below id n b ∧ Below id n (b.step attributesTier id e).2) ∧
    (Below id n b → Below id n (b.step attributesTier id e).2) := by
  rcases step_cases e with ⟨hfail, hnext⟩ | ⟨hok,
    ⟨expected, accepted, owner, r, record, rfl, hr, rfl, hpos, hle, -, hnext⟩ | ⟨k, amount, c, table, rfl, -⟩⟩
  · rw [hnext, hfail]
    exact ⟨fun h => absurd h.1 (by simp), fun h => h⟩
  · have hless : ∀ m, r.amount ≤ m → Below id m (b.step attributesTier id (.claim r.amount accepted owner)).2 := by
      intro m hm r' hr'
      rw [hnext] at hr'
      dsimp only at hr'
      rw [Function.update_self] at hr'
      split at hr'
      · cases hr'
      · cases hr'
        dsimp only
        omega
    constructor
    · rintro ⟨-, accepted', owner', heq⟩
      cases heq
      exact ⟨fun h => (lt_irrefl _) (h r hr), hless _ le_rfl⟩
    · exact fun h => hless n (h r hr).le
  · exact absurd ⟨hok, k, amount, rfl⟩ hrestore

theorem no_claim_below {n : ℕ} (events : List Event) :
    ∀ {b : Book}, Below id n b → (∀ o ∈ b.outcomes attributesTier id events, ¬Event.Restores o) →
      ∀ o ∈ b.outcomes attributesTier id events, ¬Event.Claims n o := by
  induction events with
  | nil =>
    intro b _ _ o ho
    cases ho
  | cons e events ih =>
    intro b hbelow hrestores
    obtain ⟨hclaim, hkeep⟩ := step_below (n := n) e (hrestores _ (List.mem_cons_self ..))
    intro o ho
    rcases List.mem_cons.mp ho with rfl | ho
    · exact fun h => (hclaim h).1 hbelow
    · exact ih (hkeep hbelow) (fun o ho => hrestores o (List.mem_cons_of_mem _ ho)) o ho

/-- Two claims of one expected amount do not both succeed without a restore between them. -/
theorem claims_pairwise {n : ℕ} (events : List Event) :
    ∀ {b : Book}, (∀ o ∈ b.outcomes attributesTier id events, ¬Event.Restores o) →
      (b.outcomes attributesTier id events).Pairwise fun o o' => ¬(Event.Claims n o ∧ Event.Claims n o') := by
  induction events with
  | nil => exact fun _ => .nil
  | cons e events ih =>
    intro b hrestores
    have hrest : ∀ o ∈ (b.step attributesTier id e).2.outcomes attributesTier id events, ¬Event.Restores o :=
      fun o ho => hrestores o (List.mem_cons_of_mem _ ho)
    refine List.pairwise_cons.mpr ⟨fun o ho => ?_, ih hrest⟩
    rintro ⟨hfirst, hsecond⟩
    obtain ⟨hclaim, -⟩ := step_below (n := n) e (hrestores _ (List.mem_cons_self ..))
    exact no_claim_below events (hclaim hfirst).2 hrest o ho hsecond

/-- A restore right after its claim finds the row as the claim left it. -/
theorem restoreOffer_claimOffer (hrow : Listed attributesTier row) (hid : row.id = id)
    (h : Kept attributesTier id row b) {expected accepted owner : ℕ}
    (hclaim : (claimOffer b.table id expected accepted owner).1 = true) :
    ∃ record, fetchOfferById attributesTier b.table id = some record ∧
      restoreOffer (claimOffer b.table id expected accepted owner).2 record accepted = (true, b.table) := by
  rcases claimOffer_cases b.table id expected accepted owner with hrun | ⟨r, hr, rfl, hpos, hle, hrun⟩
  · rw [hrun] at hclaim
    cases hclaim
  · obtain ⟨hrpos, hlike⟩ := h.row_like r hr
    have hsum := h.sum
    rw [remaining_of_some hr] at hsum
    refine ⟨_, fetchOfferById_like hrow hr hlike, ?_⟩
    have hmax : r.amount ≤ amountMax := by
      have := hrow.amount.2
      omega
    have hrecord : ({ readOffer row with tier := row.tier } : MarketOfferRecord) =
        { readOffer row with amount := row.amount, tier := row.tier } := rfl
    have hback : rowOf row.id { readOffer row with amount := r.amount, tier := row.tier } = r := by
      rw [hlike]
      exact rowOf_like hrow hrecord r.amount
    have hrestorable : Restorable { readOffer row with amount := r.amount, tier := row.tier } accepted := by
      refine ⟨hrow.id, hrow.playerId, hrow.itemType, ⟨hpos, hle⟩, hrow.sale, fun hne => ?_⟩
      have hone := hrow.attributes hne
      dsimp only
      omega
    have hsame : Function.update b.table id (some r) = b.table := Function.update_eq_self_iff.mpr hr.symm
    rw [hrestorable.guard, hrun]
    dsimp only [readOffer] at hback ⊢
    by_cases hwhole : accepted = r.amount
    · have hrid : r.id = id := by rw [hlike, ← hid]
      have hfree : Function.update b.table id none r.id = none := by rw [hrid, Function.update_self]
      rw [if_pos hwhole, if_pos hwhole, hback, insertRow_eq hfree hmax, hrid, Function.update_idem, hsame]
    · have hadd : r.amount - accepted + accepted = r.amount := Nat.sub_add_cancel hle
      rw [if_neg hwhole, if_neg hwhole, hid, addAmount_eq (Function.update_self ..) (hadd.trans_le hmax),
        Function.update_idem]
      dsimp only
      rw [hadd, hsame]

/-- **Offers are never oversold.** In every run of claims and restores of a stored offer, the
amounts of the claims that are not restored and what remains make up the offered amount;
without a successful restore in between, two claims of one expected amount do not both
succeed; and a restore right after its claim leaves the table as it was before the claim. -/
theorem market_never_oversold {t : Table} (hrow : Listed attributesTier row) (ht : t row.id = some row)
    (before after : List Event) :
    let b := (Book.mk t []).run attributesTier row.id before
    (b.remaining row.id + unrestored b.claims = row.amount) ∧
    ((∀ o ∈ b.outcomes attributesTier row.id after, ¬Event.Restores o) → ∀ expected,
      (b.outcomes attributesTier row.id after).Pairwise
        fun o o' => ¬(Event.Claims expected o ∧ Event.Claims expected o')) ∧
    ∀ expected accepted owner, (claimOffer b.table row.id expected accepted owner).1 = true →
      ∃ record, fetchOfferById attributesTier b.table row.id = some record ∧
        restoreOffer (claimOffer b.table row.id expected accepted owner).2 record accepted =
          (true, b.table) := by
  have hkept := Kept.run hrow rfl before (Kept.initial ht hrow.amount.1)
  exact ⟨hkept.sum, fun hrestores expected => claims_pairwise after hrestores,
    fun expected accepted owner hclaim => restoreOffer_claimOffer hrow rfl hkept hclaim⟩

/-- Two partial claims of ten pieces, the first of them restored, and the claim of the rest. -/
theorem market_never_oversold_ten :
    let b := (Book.mk (fun n => if n = 1 then some ⟨1, 2, 1, 3, 10, 0, 0, 5, 0, []⟩ else none) []).run
      (fun _ _ => 0) 1 [.claim 10 4 0, .claim 6 2 0, .restore 0 10, .claim 8 8 0]
    b.remaining 1 + unrestored b.claims = 10 := by
  have hrow : Listed (fun _ _ => 0) ⟨1, 2, 1, 3, 10, 0, 0, 5, 0, []⟩ :=
    ⟨by simp, by simp, by simp, by simp, by simp [amountMax], by simp, by simp, rfl⟩
  exact (market_never_oversold hrow rfl [.claim 10 4 0, .claim 6 2 0, .restore 0 10, .claim 8 8 0] []).1

end ForgottenServer.Market
