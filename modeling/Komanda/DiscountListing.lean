import Komanda.Discounts

/-!
# The listing of coupons (`DiscountService.listDiscounts`)

What the database answers is a parameter: the rows of the tenant that are not deleted, newest first. Rows that were
created at one instant may come in another order with every query.
-/

namespace Komanda

/-- A row of `discounts`, with the time of its creation. -/
structure DiscountRow extends Discount where
  createdAt : Instant
deriving DecidableEq, Repr

inductive DiscountStatus
  | active
  | scheduled
  | expired
  | paused
  | exhausted
deriving DecidableEq, Repr

def DiscountStatus.text : DiscountStatus → String
  | active => "active"
  | scheduled => "scheduled"
  | expired => "expired"
  | paused => "paused"
  | exhausted => "exhausted"

def calculateDiscountStatus (discount : Discount) (now : Instant) : DiscountStatus :=
  if ¬ discount.isActive then .paused
  else if discount.startsAt > now then .scheduled
  else if discount.endsAt.any (· < now) then .expired
  else if discount.maxRedemptions.any (discount.redemptionsCount ≥ ·) then .exhausted
  else .active

structure DiscountOutput where
  id : Id
  code : String
  name : String
  discountType : DiscountType
  discountValue : Nat
  minOrderAmount : Cents
  maxRedemptions : Option Nat
  redemptionsCount : Nat
  startsAt : Instant
  endsAt : Option Instant
  scope : DiscountScope
  applicableTender : ApplicableTender
  targetCategoryIds : List Id
  targetItemIds : List Id
  isActive : Bool
  version : Nat
  status : DiscountStatus
  createdAt : Instant
deriving DecidableEq, Repr

def formatDiscountOutput (now : Instant) (discount : DiscountRow) : DiscountOutput where
  id := discount.id
  code := discount.code
  name := discount.name
  discountType := discount.discountType
  discountValue := discount.discountValue
  minOrderAmount := discount.minOrderAmount
  maxRedemptions := discount.maxRedemptions
  redemptionsCount := discount.redemptionsCount
  startsAt := discount.startsAt
  endsAt := discount.endsAt
  scope := discount.scope
  applicableTender := discount.applicableTender
  targetCategoryIds := discount.targetCategoryIds
  targetItemIds := discount.targetItemIds
  isActive := discount.isActive
  version := discount.version
  status := calculateDiscountStatus discount.toDiscount now
  createdAt := discount.createdAt

/-- The options of the listing; a number that is not finite is `none`. -/
structure ListDiscountsOptions where
  limit : Option Int := none
  offset : Option Int := none
  status : Option String := none
deriving DecidableEq, Repr

structure DiscountList where
  items : List DiscountOutput
  total : Nat
deriving DecidableEq, Repr

/-- `Math.min(Math.max(rawLimit, 1), 100)` -/
def listLimit (limit : Option Int) : Nat := (min (max (limit.getD 50) 1) 100).toNat

/-- `Math.max(rawOffset, 0)` -/
def listOffset (offset : Option Int) : Nat := (max (offset.getD 0) 0).toNat

/-- The rows that both queries of the listing select. -/
def liveDiscounts (rows : List DiscountRow) : List DiscountRow := rows.filter (·.deletedAt.isNone)

/-- `options?.status && options.status !== "all"` -/
def statusFilter (status : Option String) : Option String := status.filter fun s => s ≠ "" ∧ s ≠ "all"

/-- `DiscountRepository.list`: a page of the rows, and how many there are. -/
def DiscountRepository.list (ordered : List DiscountRow) (options : ListDiscountsOptions) : List DiscountRow × Nat :=
  ((ordered.drop (listOffset options.offset)).take (listLimit options.limit), ordered.length)

def DiscountService.listDiscounts (ordered : List DiscountRow) (options : ListDiscountsOptions) (now : Instant) :
    DiscountList :=
  let (items, total) := DiscountRepository.list ordered options
  let formatted := items.map (formatDiscountOutput now)
  match statusFilter options.status with
  | some status =>
    let filtered := formatted.filter fun item => item.status.text = status
    { items := filtered, total := filtered.length }
  | none => { items := formatted, total }

end Komanda
