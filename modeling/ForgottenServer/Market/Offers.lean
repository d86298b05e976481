import Mathlib

/-! # Market offers

The table of offers and the statements that create, claim and restore one. A statement is
atomic; it reports success when it affected exactly one row. -/

namespace ForgottenServer.Market

/-- A row of `market_offers`. -/
structure Row where
  id : ℕ
  playerId : ℕ
  sale : ℕ
  itemType : ℕ
  amount : ℕ
  created : ℕ
  anonymous : ℕ
  price : ℕ
  tier : ℕ
  attributes : List UInt8
  deriving DecidableEq

/-- The columns of a record that come from the offer itself. -/
structure MarketOfferRecord where
  id : ℕ
  playerId : ℕ
  sale : ℕ
  itemId : ℕ
  amount : ℕ
  created : ℕ
  anonymous : Bool
  price : ℕ
  tier : ℕ
  attributes : List UInt8
  deriving DecidableEq

/-- Rows by their primary key. -/
abbrev Table := ℕ → Option Row

/-- The largest value of the column `amount`. -/
def amountMax : ℕ := 65535

def maxItemTier : ℕ := 10

def normalizeTier (tier : ℕ) : ℕ := min tier maxItemTier

/-- `readOffer` -/
def readOffer (row : Row) : MarketOfferRecord :=
  { id := row.id, playerId := row.playerId, sale := row.sale, itemId := row.itemType
    amount := row.amount, created := row.created, anonymous := row.anonymous ≠ 0
    price := row.price, tier := normalizeTier row.tier, attributes := row.attributes }

/-- The values of an `INSERT` of a record under the key `id`. -/
def rowOf (id : ℕ) (offer : MarketOfferRecord) : Row :=
  { id := id, playerId := offer.playerId, sale := offer.sale, itemType := offer.itemId
    amount := offer.amount, created := offer.created, anonymous := if offer.anonymous then 1 else 0
    price := offer.price, tier := normalizeTier offer.tier, attributes := offer.attributes }

/-- `INSERT`: refused when the key is taken or a value does not fit its column. -/
def insertRow (t : Table) (row : Row) : Bool × Table :=
  match t row.id with
  | some _ => (false, t)
  | none =>
    if row.amount ≤ amountMax then (true, Function.update t row.id (some row)) else (false, t)

/-- `createOffer`, with the key that the table gives to the new row. -/
def createOffer (t : Table) (newId : ℕ) (offer : MarketOfferRecord) : Bool × Table :=
  if offer.playerId = 0 ∨ offer.itemId = 0 ∨ offer.amount = 0 ∨ offer.price = 0 ∨ offer.sale > 1 ∨
      (offer.attributes ≠ [] ∧ offer.amount ≠ 1) then (false, t)
  else insertRow t (rowOf newId offer)

/-- The row that the guards of a claim let through. -/
def guarded (t : Table) (offerId expectedAmount ownerId : ℕ) : Option Row :=
  (t offerId).filter fun row => row.amount = expectedAmount ∧ (ownerId = 0 ∨ row.playerId = ownerId)

def claimOffer (t : Table) (offerId expectedAmount acceptedAmount ownerId : ℕ) : Bool × Table :=
  if offerId = 0 ∨ expectedAmount = 0 ∨ acceptedAmount = 0 ∨ acceptedAmount > expectedAmount then (false, t)
  else
    match guarded t offerId expectedAmount ownerId with
    | none => (false, t)
    | some row =>
      if acceptedAmount = expectedAmount then (true, Function.update t offerId none)
      else (true, Function.update t offerId (some { row with amount := row.amount - acceptedAmount }))

/-- `UPDATE` of the amount: refused when the sum does not fit the column. -/
def addAmount (t : Table) (offerId amount : ℕ) : Bool × Table :=
  match t offerId with
  | none => (false, t)
  | some row =>
    if row.amount + amount ≤ amountMax then
      (true, Function.update t offerId (some { row with amount := row.amount + amount }))
    else (false, t)

def restoreOffer (t : Table) (offer : MarketOfferRecord) (acceptedAmount : ℕ) : Bool × Table :=
  if offer.id = 0 ∨ offer.playerId = 0 ∨ offer.itemId = 0 ∨ offer.amount = 0 ∨ acceptedAmount = 0 ∨
      acceptedAmount > offer.amount ∨ offer.sale > 1 ∨ (offer.attributes ≠ [] ∧ offer.amount ≠ 1) then (false, t)
  else if acceptedAmount = offer.amount then insertRow t (rowOf offer.id offer)
  else addAmount t offer.id acceptedAmount

/-! ## The scripts around it

`attributesTier` is the tier of the item that serialized attributes describe. -/

section

variable (attributesTier : ℕ → List UInt8 → ℕ)

def getOfferTier (itemId tier : ℕ) (attributes : List UInt8) : ℕ :=
  let tier := normalizeTier tier
  if tier = 0 ∧ attributes ≠ [] then
    let attributesTier := normalizeTier (attributesTier itemId attributes)
    if attributesTier > 0 then attributesTier else tier
  else tier

def fetchOfferById (t : Table) (offerId : ℕ) : Option MarketOfferRecord :=
  (t offerId).map fun row =>
    { readOffer row with tier := getOfferTier attributesTier row.itemType (readOffer row).tier row.attributes }

/-- What the create handler stores: the tier is the one that `getOfferTier` finds. -/
def resolved (offer : MarketOfferRecord) : MarketOfferRecord :=
  { offer with tier := getOfferTier attributesTier offer.itemId offer.tier offer.attributes }

theorem normalizeTier_idem (tier : ℕ) : normalizeTier (normalizeTier tier) = normalizeTier tier := by
  rw [normalizeTier, normalizeTier, Nat.min_assoc, Nat.min_self]

theorem getOfferTier_idem (itemId tier : ℕ) (attributes : List UInt8) :
    getOfferTier attributesTier itemId (getOfferTier attributesTier itemId tier attributes) attributes =
      getOfferTier attributesTier itemId tier attributes := by
  grind [getOfferTier, normalizeTier_idem]

theorem normalizeTier_getOfferTier (itemId tier : ℕ) (attributes : List UInt8) :
    normalizeTier (getOfferTier attributesTier itemId tier attributes) =
      getOfferTier attributesTier itemId tier attributes := by
  grind [getOfferTier, normalizeTier_idem]

end

/-! ## One statement -/

/-- What a stored row satisfies, as the create handler writes it. -/
structure Listed (attributesTier : ℕ → List UInt8 → ℕ) (row : Row) : Prop where
  id : row.id ≠ 0
  playerId : row.playerId ≠ 0
  itemType : row.itemType ≠ 0
  sale : row.sale ≤ 1
  amount : row.amount ≠ 0 ∧ row.amount ≤ amountMax
  anonymous : row.anonymous ≤ 1
  attributes : row.attributes ≠ [] → row.amount = 1
  tier : getOfferTier attributesTier row.itemType row.tier row.attributes = row.tier

variable {attributesTier : ℕ → List UInt8 → ℕ} {t t' : Table} {id : ℕ}

/-- An offer that the create handler has stored is listed. -/
theorem listed_of_createOffer {offer : MarketOfferRecord} (hid : id ≠ 0)
    (h : createOffer t id (resolved attributesTier offer) = (true, t')) :
    ∃ row, t' id = some row ∧ row.amount = offer.amount ∧ row.id = id ∧ Listed attributesTier row := by
  rw [createOffer] at h
  split at h
  · cases h
  · rename_i hguard
    simp only [resolved, not_or] at hguard
    obtain ⟨hplayer, hitem, hamount, hprice, hsale, hattributes⟩ := hguard
    rw [insertRow] at h
    split at h
    · cases h
    · split at h
      · rename_i hmax
        cases h
        refine ⟨rowOf id (resolved attributesTier offer), Function.update_self .., rfl, rfl,
          ⟨hid, hplayer, hitem, Nat.le_of_not_lt hsale, ⟨hamount, hmax⟩, ?_, ?_, ?_⟩⟩
        · simp only [rowOf]
          split <;> omega
        · intro hne
          by_contra hone
          exact hattributes ⟨hne, hone⟩
        · simp only [rowOf, resolved, normalizeTier_getOfferTier, getOfferTier_idem]
      · cases h

/-- A claim fails and changes nothing, or it takes what it accepts of the expected amount. -/
theorem claimOffer_cases (t : Table) (id expected accepted owner : ℕ) :
    claimOffer t id expected accepted owner = (false, t) ∨
    ∃ row, t id = some row ∧ row.amount = expected ∧ 0 < accepted ∧ accepted ≤ expected ∧
      claimOffer t id expected accepted owner = (true, Function.update t id
        (if accepted = expected then none else some { row with amount := expected - accepted })) := by
  rw [claimOffer]
  split
  · exact .inl rfl
  · rename_i hguard
    simp only [not_or] at hguard
    obtain ⟨-, -, haccepted, hle⟩ := hguard
    cases hrow : guarded t id expected owner with
    | none => exact .inl rfl
    | some row =>
      obtain ⟨hmem, hcond⟩ := Option.filter_eq_some_iff.mp hrow
      obtain ⟨rfl, -⟩ := of_decide_eq_true hcond
      refine .inr ⟨row, hmem, rfl, Nat.pos_of_ne_zero haccepted, Nat.le_of_not_lt hle, ?_⟩
      dsimp only
      split <;> rfl

/-- A restore fails and changes nothing, puts the whole row back, or adds to the one that is there. -/
theorem restoreOffer_cases (t : Table) (offer : MarketOfferRecord) (accepted : ℕ) :
    restoreOffer t offer accepted = (false, t) ∨
    (0 < accepted ∧ accepted = offer.amount ∧ t offer.id = none ∧
      restoreOffer t offer accepted = (true, Function.update t offer.id (some (rowOf offer.id offer)))) ∨
    ∃ row, t offer.id = some row ∧ 0 < accepted ∧ restoreOffer t offer accepted =
      (true, Function.update t offer.id (some { row with amount := row.amount + accepted })) := by
  rw [restoreOffer]
  split
  · exact .inl rfl
  · rename_i hguard
    simp only [not_or] at hguard
    have hpos : 0 < accepted := Nat.pos_of_ne_zero hguard.2.2.2.2.1
    split
    · rename_i hwhole
      rw [insertRow]
      cases hrow : t (rowOf offer.id offer).id with
      | some row => exact .inl rfl
      | none =>
        dsimp only
        split
        · exact .inr (.inl ⟨hpos, hwhole, hrow, rfl⟩)
        · exact .inl rfl
    · rw [addAmount]
      cases hrow : t offer.id with
      | none => exact .inl rfl
      | some row =>
        dsimp only
        split
        · exact .inr (.inr ⟨row, rfl, hpos, rfl⟩)
        · exact .inl rfl

/-- What the guard of a restore lets through. -/
structure Restorable (offer : MarketOfferRecord) (accepted : ℕ) : Prop where
  id : offer.id ≠ 0
  playerId : offer.playerId ≠ 0
  itemId : offer.itemId ≠ 0
  accepted : 0 < accepted ∧ accepted ≤ offer.amount
  sale : offer.sale ≤ 1
  attributes : offer.attributes ≠ [] → offer.amount = 1

theorem Restorable.guard {offer : MarketOfferRecord} {accepted : ℕ} (h : Restorable offer accepted) :
    restoreOffer t offer accepted =
      if accepted = offer.amount then insertRow t (rowOf offer.id offer) else addAmount t offer.id accepted := by
  obtain ⟨hid, hplayer, hitem, ⟨hpos, hle⟩, hsale, hattributes⟩ := h
  have hboth : ¬(offer.attributes ≠ [] ∧ offer.amount ≠ 1) := fun hb => hb.2 (hattributes hb.1)
  rw [restoreOffer, if_neg]
  rintro (h | h | h | h | h | h | h | h)
  · exact hid h
  · exact hplayer h
  · exact hitem h
  · omega
  · omega
  · omega
  · omega
  · exact hboth h

theorem insertRow_eq {r : Row} (hfree : t r.id = none) (hmax : r.amount ≤ amountMax) :
    insertRow t r = (true, Function.update t r.id (some r)) := by
  rw [insertRow, hfree]
  exact if_pos hmax

theorem addAmount_eq {r : Row} {amount : ℕ} (hr : t id = some r) (hmax : r.amount + amount ≤ amountMax) :
    addAmount t id amount =
      (true, Function.update t id (some { r with amount := r.amount + amount })) := by
  rw [addAmount, hr]
  exact if_pos hmax

end ForgottenServer.Market
