import Komanda.Database
import Komanda.Money
import Komanda.Lib.Proration

/-!
# Coupons (`features/discounts`)

`discount.rules.ts` and `discount.repository.ts`. Amounts are cents and percentages hundredths of a
percent; where the source multiplies by `pct / 100` or by the part of a line and calls `Math.round`, the model rounds
the exact rational half up.
-/

namespace Komanda
open Transaction

inductive IneligibilityReason
  | inactive
  | scheduled
  | expired
  | limitReached
  | minOrderNotMet
  | noQualifyingItems
  | tenderMismatch
deriving DecidableEq, Repr

def IneligibilityReason.code : IneligibilityReason → String
  | inactive => "DISCOUNT_INACTIVE"
  | scheduled => "DISCOUNT_SCHEDULED"
  | expired => "DISCOUNT_EXPIRED"
  | limitReached => "DISCOUNT_LIMIT_REACHED"
  | minOrderNotMet => "MIN_ORDER_NOT_MET"
  | noQualifyingItems => "NO_QUALIFYING_ITEMS"
  | tenderMismatch => "COUPON_TENDER_MISMATCH"

inductive Tender
  | cash
  | posnet
  | mercadopago
deriving DecidableEq, Repr

/-- `evaluateCouponEligibility`: the first reason that applies, or none when the coupon is eligible. -/
def evaluateCouponEligibility (coupon : Discount) (applicableSubtotalCents : Cents) (now : Instant)
    (tender : Option Tender) : Option IneligibilityReason :=
  if coupon.applicableTender = .cash ∧ tender ≠ none ∧ tender ≠ some .cash then some .tenderMismatch
  else if ¬ coupon.isActive then some .inactive
  else if coupon.startsAt > now then some .scheduled
  else if coupon.endsAt.any (· < now) then some .expired
  else if coupon.maxRedemptions.any (coupon.redemptionsCount ≥ ·) then some .limitReached
  else if applicableSubtotalCents = 0 then some .noQualifyingItems
  else if applicableSubtotalCents < coupon.minOrderAmount then some .minOrderNotMet
  else none

/-- The id names the line in the result, where no service of the model reads it. -/
structure CartLineForDiscount where
  id : Id := ""
  resourceId : Option Id
  categoryId : Option Id := none
  lineTotalCents : Cents
deriving DecidableEq, Repr

structure LineDiscount where
  lineId : Id
  lineDiscountCents : Cents
  discountedLineTotalCents : Cents
deriving DecidableEq, Repr

structure DiscountCalculationResult where
  ineligibilityReason : Option IneligibilityReason
  subtotal : String
  subtotalCents : Cents
  discountTotal : String
  discountTotalCents : Cents
  total : String
  totalCents : Cents
  applicableSubtotalCents : Cents
  qualifyingLineIds : List Id
  lineDiscounts : List LineDiscount
deriving DecidableEq, Repr

def DiscountCalculationResult.isEligible (r : DiscountCalculationResult) : Bool := r.ineligibilityReason.isNone

def lineQualifies (coupon : Discount) (line : CartLineForDiscount) : Bool :=
  line.lineTotalCents > 0 &&
    match coupon.scope with
    | .global => true
    | .category => line.categoryId.any (coupon.targetCategoryIds.contains ·)
    | .item => line.resourceId.any (coupon.targetItemIds.contains ·)

def sumCents (lines : List CartLineForDiscount) : Cents := (lines.map (·.lineTotalCents)).sum

/-- The loop of `prorateLineDiscounts`; `Math.max(0, ·)` is the truncated subtraction. -/
def prorateFrom (applicableSubtotalCents discountTotalCents : Cents) :
    Cents → List CartLineForDiscount → List LineDiscount
  | _, [] => []
  | allocatedCents, line :: rest =>
    -- the last line takes what is left
    let shareCents := if rest.isEmpty then discountTotalCents - allocatedCents
      else Proration.halfUp applicableSubtotalCents discountTotalCents line.lineTotalCents
    let boundedShare := min line.lineTotalCents shareCents
    { lineId := line.id, lineDiscountCents := boundedShare,
      discountedLineTotalCents := line.lineTotalCents - boundedShare } ::
      prorateFrom applicableSubtotalCents discountTotalCents (allocatedCents + boundedShare) rest

/-- `prorateLineDiscounts` -/
def prorateLineDiscounts (qualifyingLines : List CartLineForDiscount) (discountTotalCents : Cents) :
    List LineDiscount :=
  if qualifyingLines = [] ∨ discountTotalCents = 0 then
    qualifyingLines.map fun l =>
      { lineId := l.id, lineDiscountCents := 0, discountedLineTotalCents := l.lineTotalCents }
  else if sumCents qualifyingLines = 0 then
    qualifyingLines.map fun l => { lineId := l.id, lineDiscountCents := 0, discountedLineTotalCents := 0 }
  else prorateFrom (sumCents qualifyingLines) discountTotalCents 0 qualifyingLines

/-- `Math.round(subtotal * (pct / 100))` over exact rationals, `pct` in hundredths of a percent. -/
def percentageCents (subtotal pct : Nat) : Cents := (subtotal * pct + 5000) / 10000

def calculateDiscountAmounts (lines : List CartLineForDiscount) (coupon : Discount) (now : Instant)
    (tender : Option Tender) : DiscountCalculationResult :=
  let subtotalCents := sumCents lines
  let qualifyingLines := lines.filter (lineQualifies coupon)
  let applicableSubtotalCents := sumCents qualifyingLines
  match evaluateCouponEligibility coupon applicableSubtotalCents now tender with
  | some reason =>
    { ineligibilityReason := some reason, subtotal := centsToMoney subtotalCents, subtotalCents,
      discountTotal := "0.00", discountTotalCents := 0, total := centsToMoney subtotalCents,
      totalCents := subtotalCents, applicableSubtotalCents, qualifyingLineIds := []
      lineDiscounts := lines.map fun l =>
        { lineId := l.id, lineDiscountCents := 0, discountedLineTotalCents := l.lineTotalCents } }
  | none =>
    let calculated := match coupon.discountType with
      | .percentage => percentageCents applicableSubtotalCents coupon.discountValue
      | .fixedAmount => coupon.discountValue
    let discountTotalCents := min applicableSubtotalCents calculated
    { ineligibilityReason := none, subtotal := centsToMoney subtotalCents, subtotalCents,
      discountTotal := centsToMoney discountTotalCents, discountTotalCents,
      total := centsToMoney (subtotalCents - discountTotalCents),
      totalCents := subtotalCents - discountTotalCents, applicableSubtotalCents,
      qualifyingLineIds := qualifyingLines.map (·.id),
      lineDiscounts := prorateLineDiscounts qualifyingLines discountTotalCents }

namespace DiscountRepository

def findById (id : Id) (db : Db) : Option Discount :=
  db.discounts.find? fun d => d.id = id && d.deletedAt.isNone

def findByCode (code : String) (db : Db) : Option Discount :=
  let normalizedCode := Text.toUpperCase (Text.trim code)
  if normalizedCode = "" then none
  else db.discounts.find? fun d => d.code = normalizedCode && d.deletedAt.isNone

/-- The rows that the counting `UPDATE` of `recordRedemption` matches. -/
def countable (discountId : Id) (d : Discount) : Bool :=
  d.id = discountId && d.maxRedemptions.all (d.redemptionsCount < ·)

def countRedemption (d : Discount) : Discount :=
  { d with redemptionsCount := d.redemptionsCount + 1, version := d.version + 1 }

/-- Counts a redemption if the limit allows it and inserts its row either way; tells which. -/
def recordRedemption (orderId cartId discountId : Id) (amountDeducted : Cents) (codeSnapshot : String) :
    DbTx Bool := do
  let updated ← current fun db => db.discounts.any (countable discountId)
  write fun db => { db with
    discounts := Table.updateWhere (countable discountId) countRedemption db.discounts }
  let known ← current fun db => db.discounts.any (·.id = discountId)
  throwIf (¬ known) (.database "discount_redemptions_discount_fk")
  write fun db =>
    if db.redemptions.any (·.orderId = orderId) then db  -- ON CONFLICT DO NOTHING
    else { db with redemptions := db.redemptions ++ [
      { discountId, orderId, cartId, amountDeducted, codeSnapshot, status := .redeemed }] }
  return updated

def markRedemptionCancelled (orderId : Id) : DbTx Unit :=
  let cancel (r : DiscountRedemption) := { r with status := .orderCancelled }
  write fun db => { db with redemptions := Table.updateWhere (·.orderId = orderId) cancel db.redemptions }

/-- `UpdateDiscountInput`: an absent field is left alone. -/
structure UpdateInput where
  name : Option String := none
  discountValue : Option Nat := none
  minOrderAmount : Option Cents := none
  maxRedemptions : Option (Option Nat) := none
  startsAt : Option Instant := none
  endsAt : Option (Option Instant) := none
  scope : Option DiscountScope := none
  applicableTender : Option ApplicableTender := none
  targetCategoryIds : Option (List Id) := none
  targetItemIds : Option (List Id) := none
  isActive : Option Bool := none
deriving DecidableEq, Repr

def UpdateInput.apply (input : UpdateInput) (d : Discount) : Discount :=
  { d with
    name := (input.name.map Text.trim).getD d.name
    discountValue := input.discountValue.getD d.discountValue
    minOrderAmount := input.minOrderAmount.getD d.minOrderAmount
    maxRedemptions := input.maxRedemptions.getD d.maxRedemptions
    startsAt := input.startsAt.getD d.startsAt
    endsAt := input.endsAt.getD d.endsAt
    scope := input.scope.getD d.scope
    applicableTender := input.applicableTender.getD d.applicableTender
    targetCategoryIds := input.targetCategoryIds.getD d.targetCategoryIds
    targetItemIds := input.targetItemIds.getD d.targetItemIds
    isActive := input.isActive.getD d.isActive
    version := d.version + 1 }

/-- The check constraints of `discounts`. -/
def rowChecks (d : Discount) : Bool :=
  d.discountValue > 0 && (d.discountType ≠ .percentage || d.discountValue ≤ 10000) &&
    d.endsAt.all (d.startsAt ≤ ·) && d.maxRedemptions.all (d.redemptionsCount ≤ ·)

def create (d : Discount) : DbTx Unit := do
  let d := { d with code := Text.toUpperCase (Text.trim d.code), name := Text.trim d.name,
                    redemptionsCount := 0, version := 1, deletedAt := none }
  throwIf (d.code = "") (.internal "Discount code cannot be empty.")
  let taken ← current fun db => db.discounts.any fun e => e.id = d.id || e.code = d.code
  throwIf taken (.database "discounts_tenant_code_key")
  throwIf (¬ rowChecks d) (.database "discounts_checks")
  write fun db => { db with discounts := db.discounts ++ [d] }

def updatable (id : Id) (currentVersion : Option Nat) (d : Discount) : Bool :=
  d.id = id && d.deletedAt.isNone && currentVersion.all (d.version = ·)

def update (id : Id) (input : UpdateInput) (currentVersion : Option Nat) : DbTx Unit := do
  let rows ← current fun db => db.discounts.filter (updatable id currentVersion)
  throwIf (¬ rows.all fun d => rowChecks (input.apply d)) (.database "discounts_checks")
  write fun db => { db with
    discounts := Table.updateWhere (updatable id currentVersion) input.apply db.discounts }

def softDelete (id : Id) (now : Instant) : DbTx Unit :=
  let delete (d : Discount) := { d with deletedAt := some now, version := d.version + 1 }
  write fun db => { db with
    discounts := Table.updateWhere (fun d => d.id = id && d.deletedAt.isNone) delete db.discounts }

end DiscountRepository

end Komanda
