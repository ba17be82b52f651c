import Komanda.CatalogRules
import Komanda.Discounts
import Komanda.Lib.ReadCommitted

/-!
# Managing coupons (`discount.schemas.ts`, `discount.service.ts`)

A coupon keeps its targets twice: in two json columns of its row, and as rows of `discount_categories` and
`discount_items`. `Promotions` is a tenant with these tables; the categories matter for their foreign key only.
The service overlaps under READ COMMITTED (`promotionStep`).
-/

namespace Komanda
open Transaction

/-- A row of `discount_categories` or `discount_items`. -/
structure DiscountTarget where
  discountId : Id
  targetId : Id
deriving DecidableEq, Repr

structure Promotions where
  db : Db
  categoryIds : List Id
  discountCategories : List DiscountTarget
  discountItems : List DiscountTarget

/-- The error classes of the coupons, with their messages. -/
inductive DiscountError
  | zod (paths : List String)
  | notFound (message : String)
  | conflict (message : String)
  | database (constraint : String)
  | app (e : AppError)
deriving DecidableEq, Repr

abbrev PromotionsTx (α : Type) := Tx Promotions DiscountError α

/-! ## Schemas -/

structure DiscountInput where
  code : String
  name : String
  discountType : DiscountType
  discountValue : Nat
  minOrderAmount : Option Cents := none
  maxRedemptions : Option (Option Nat) := none
  startsAt : Option Instant := none
  endsAt : Option (Option Instant) := none
  scope : Option DiscountScope := none
  applicableTender : Option ApplicableTender := none
  targetCategoryIds : Option (List Id) := none
  targetItemIds : Option (List Id) := none
  isActive : Option Bool := none
deriving DecidableEq, Repr

/-- What `CreateDiscountSchema` parses a request to: its defaults are filled in. -/
structure CreateDiscountInput where
  code : String
  name : String
  discountType : DiscountType
  discountValue : Nat
  minOrderAmount : Cents
  maxRedemptions : Option (Option Nat)
  startsAt : Option Instant
  endsAt : Option (Option Instant)
  scope : DiscountScope
  applicableTender : ApplicableTender
  targetCategoryIds : List Id
  targetItemIds : List Id
  isActive : Bool

structure DiscountPatch extends DiscountRepository.UpdateInput where
  version : Option Nat := none
deriving DecidableEq, Repr

/-- The bounds of a value, in hundredths: 100 percent, or an amount of 1,000,000. -/
def maxDiscountValue : DiscountType → Nat
  | .percentage => 10000
  | .fixedAmount => 100000000

/-- Both dates have to be in the request for this check to compare them. -/
def datesInOrder (startsAt : Option Instant) (endsAt : Option (Option Instant)) : Bool :=
  startsAt.all fun starts => endsAt.join.all fun ends => starts ≤ ends

/-- The refinements run on what the object schema accepts. -/
def refined {α : Type} (checks refinements : List (String × Bool)) (value : α) : Except DiscountError α :=
  match issues checks, issues refinements with
  | [], [] => .ok value
  | [], paths => .error (.zod paths)
  | paths, _ => .error (.zod paths)

def CreateDiscountInput.refinements (input : CreateDiscountInput) : List (String × Bool) :=
  [("discountValue", 0 < input.discountValue && input.discountValue ≤ maxDiscountValue input.discountType),
    ("endsAt", datesInOrder input.startsAt input.endsAt),
    ("targetCategoryIds", input.scope ≠ .category || 0 < input.targetCategoryIds.length),
    ("targetItemIds", input.scope ≠ .item || 0 < input.targetItemIds.length)]

def CreateDiscountSchema (value : DiscountInput) : Except DiscountError CreateDiscountInput :=
  let input : CreateDiscountInput :=
    { code := Text.trim value.code, name := Text.trim value.name, discountType := value.discountType
      discountValue := value.discountValue, minOrderAmount := value.minOrderAmount.getD 0
      maxRedemptions := value.maxRedemptions, startsAt := value.startsAt, endsAt := value.endsAt
      scope := value.scope.getD .global, applicableTender := value.applicableTender.getD .all
      targetCategoryIds := value.targetCategoryIds.getD [], targetItemIds := value.targetItemIds.getD []
      isActive := value.isActive.getD true }
  refined [("code", textWithin 1 50 value.code), ("name", textWithin 1 100 value.name),
    ("maxRedemptions", value.maxRedemptions.join.all (0 < ·))] input.refinements input

/-- Of the refinements of `CreateDiscountSchema`, only the one of the dates is here. -/
def UpdateDiscountSchema (value : DiscountPatch) : Except DiscountError DiscountPatch :=
  refined [("name", value.name.all (textWithin 1 100)), ("maxRedemptions", value.maxRedemptions.join.all (0 < ·)),
    ("version", value.version.all (0 < ·))] [("endsAt", datesInOrder value.startsAt value.endsAt)]
    { value with name := value.name.map Text.trim }

/-! ## Repository -/

/-- `INSERT … VALUES … ON CONFLICT DO NOTHING` -/
def insertTargets (discountId : Id) (targetIds : List Id) (rows : List DiscountTarget) : List DiscountTarget :=
  targetIds.foldl (fun rows targetId =>
    if rows.contains ⟨discountId, targetId⟩ then rows else rows ++ [⟨discountId, targetId⟩]) rows

/-- Deletes the rows of the coupon first. -/
def replaceTargets (discountId : Id) (targetIds : List Id) (rows : List DiscountTarget) : List DiscountTarget :=
  insertTargets discountId targetIds (rows.filter (·.discountId ≠ discountId))

namespace DiscountRepository

/-- A statement on the row of the coupon itself. -/
def onRow {α : Type} (x : DbTx α) : PromotionsTx α := zoom Promotions.db (fun db s => { s with db }) .app x

/-- What the columns hold: `numeric(12, 2)` and `integer`. -/
def columnsFit (d : Discount) : Bool :=
  d.discountValue < 10 ^ 12 && d.minOrderAmount < 10 ^ 12 && d.maxRedemptions.all (· < 2 ^ 31)

/-- The values of the insertion; `create` normalizes the code. -/
def newDiscount (input : CreateDiscountInput) (newId : Id) (now : Instant) : Discount where
  id := newId
  code := input.code
  name := input.name
  discountType := input.discountType
  discountValue := input.discountValue
  minOrderAmount := input.minOrderAmount
  maxRedemptions := input.maxRedemptions.join
  redemptionsCount := 0
  startsAt := input.startsAt.getD now
  endsAt := input.endsAt.join
  scope := input.scope
  applicableTender := input.applicableTender
  targetCategoryIds := input.targetCategoryIds
  targetItemIds := input.targetItemIds
  isActive := input.isActive
  version := 1
  deletedAt := none

def insertCategories (write : List DiscountTarget → List DiscountTarget) (categoryIds : List Id) : PromotionsTx Unit := do
  let known ← current fun s => categoryIds.all s.categoryIds.contains
  throwIf (¬ known) (.database "discount_categories_category_fk")
  Transaction.write fun s => { s with discountCategories := write s.discountCategories }

def insertItems (write : List DiscountTarget → List DiscountTarget) (itemIds : List Id) : PromotionsTx Unit := do
  let known ← current fun s => itemIds.all fun itemId => s.db.items.any (·.id = itemId)
  throwIf (¬ known) (.database "discount_items_item_fk")
  Transaction.write fun s => { s with discountItems := write s.discountItems }

/-- `create`: the row, then its targets. -/
def createWithTargets (input : CreateDiscountInput) (newId : Id) (now : Instant) : PromotionsTx Unit := do
  throwIf (¬ columnsFit (newDiscount input newId now)) (.database "numeric field overflow")
  onRow (create (newDiscount input newId now))
  insertCategories (insertTargets newId input.targetCategoryIds) input.targetCategoryIds
  insertItems (insertTargets newId input.targetItemIds) input.targetItemIds

/-- `update`: tells whether a row has been updated. A list that the request does not name is left alone, in both of
its representations. -/
def updateWithTargets (id : Id) (input : UpdateInput) (currentVersion : Option Nat) : PromotionsTx Bool := do
  let rows ← current fun s => s.db.discounts.filter (updatable id currentVersion)
  throwIf (¬ rows.all fun d => columnsFit (input.apply d)) (.database "numeric field overflow")
  onRow (update id input currentVersion)
  let updated := !rows.isEmpty
  runIf updated (forSome input.targetCategoryIds fun ids => insertCategories (replaceTargets id ids) ids)
  runIf updated (forSome input.targetItemIds fun ids => insertItems (replaceTargets id ids) ids)
  return updated

end DiscountRepository

/-! ## Service -/

namespace DiscountService

def createDiscount (value : DiscountInput) (newId : Id) (now : Instant) : PromotionsTx Unit := do
  let input ← fromExcept (CreateDiscountSchema value)
  let existing ← look fun s => DiscountRepository.findByCode input.code s.db
  throwIf existing.isSome (.conflict
    ("A discount with code \"" ++ Text.toUpperCase (Text.trim input.code) ++ "\" already exists for this store."))
  DiscountRepository.createWithTargets input newId now

def updateDiscount (id : Id) (value : DiscountPatch) (versionHeader : Option Nat) : PromotionsTx Unit := do
  let input ← fromExcept (UpdateDiscountSchema value)
  let expectedVersion := versionHeader <|> input.version
  let existing ← look fun s => DiscountRepository.findById id s.db
  let existing ← orThrow existing (.notFound "Discount not found.")
  throwIf (expectedVersion.any (existing.version ≠ ·))
    (.conflict "Version conflict: discount was updated by another process.")
  let updated ← DiscountRepository.updateWithTargets id input.toUpdateInput expectedVersion
  throwIf (¬ updated)
    (.conflict "Failed to update discount due to a version conflict or concurrent deletion.")

def archiveDiscount (id : Id) (now : Instant) : PromotionsTx Unit := do
  let existing ← look fun s => DiscountRepository.findById id s.db
  throwIf existing.isNone (.notFound "Discount not found.")
  let deleted ← current fun s => s.db.discounts.any fun d => d.id = id && d.deletedAt.isNone
  DiscountRepository.onRow (DiscountRepository.softDelete id now)
  throwIf (¬ deleted) (.notFound "Discount not found.")

end DiscountService

inductive DiscountRequest
  | createDiscount (value : DiscountInput) (newId : Id) (now : Instant)
  | updateDiscount (id : Id) (value : DiscountPatch) (versionHeader : Option Nat)
  | archiveDiscount (id : Id) (now : Instant)

def DiscountRequest.run : DiscountRequest → PromotionsTx Unit
  | createDiscount value newId now => DiscountService.createDiscount value newId now
  | updateDiscount id value versionHeader => DiscountService.updateDiscount id value versionHeader
  | archiveDiscount id now => DiscountService.archiveDiscount id now

def DiscountRequest.exec (q : DiscountRequest) (view s : Promotions) : Option (Unit × Promotions) :=
  (q.run view s).toOption

/-- A call has one unlocked read: it sees all that is committed. -/
def rereadPromotions (_ : Unit) (_ s : Promotions) : Promotions := s

abbrev PromotionSession := ReadCommitted.Session Promotions DiscountRequest
abbrev PromotionEvent := ReadCommitted.Event DiscountRequest Unit

/-- A step of overlapping calls of `DiscountService`. -/
def promotionStep (s : PromotionSession) (e : PromotionEvent) : Option PromotionSession :=
  ReadCommitted.step DiscountRequest.exec rereadPromotions s e

end Komanda
