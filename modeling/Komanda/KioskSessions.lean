import Komanda.CatalogRules
import Komanda.Lib.Constraints
import Komanda.Payments

/-!
# The kiosk under the constraints of the tables

The schemas of `kiosk-payment.schemas.ts` and the checks and foreign keys of `db/schema/commerce.ts` that the cart and
the payment attempt of a kiosk session meet: `CartRepository.create` takes any line, and the database refuses it. The
foreign keys of the location and of the tenant, whose rows are read in the same transaction, are left out.
-/

namespace Komanda
open Transaction

namespace Constraints
open Constraint

def tenantsCurrencyFormat : Constraint Db where
  name := "tenants_currency_format_check"
  holds db := db.settings.defaultCurrency.toList.length = 3

def cartsCurrency : Constraint Db := onRows "carts_currency_check" Db.carts fun _ c => c.currency.toList.length = 3

/-- `numeric(12, 2)` -/
def cartsAmounts : Constraint Db := onRows "numeric field overflow" Db.carts fun _ c =>
  isMoney c.subtotal && isMoney c.discountTotal && isMoney c.total

def cartsVersion : Constraint Db := onRows "carts_version_check" Db.carts fun _ c => 0 < c.version

def cartLines (db : Db) : List CartLine := db.carts.flatMap (·.lines)

def cartLinesItem : Constraint Db := onRows "cart_lines_item_fk" cartLines fun db l =>
  l.itemId.all fun id => db.items.any (·.id = id)

def cartLinesCombo : Constraint Db := onRows "cart_lines_combo_fk" cartLines fun db l =>
  l.comboId.all fun id => db.combos.any (·.id = id)

def cartLinesOneResource : Constraint Db := onRows "cart_lines_one_resource_check" cartLines fun _ l =>
  l.itemId.isSome ≠ l.comboId.isSome

def cartLinesQuantity : Constraint Db := onRows "cart_lines_quantity_check" cartLines fun _ l => 0 < l.quantity

/-- `integer` -/
def cartLinesInteger : Constraint Db := onRows "integer out of range" cartLines fun _ l => l.quantity < 2 ^ 31

def cartLinesAmounts : Constraint Db := onRows "numeric field overflow" cartLines fun _ l =>
  isMoney l.unitPriceSnapshot && isMoney l.lineTotal

def cartLineOptions (db : Db) : List CartLineOption := (cartLines db).flatMap (·.options)

def cartLineOptionsGroup : Constraint Db := onRows "cart_line_options_group_fk" cartLineOptions fun db o =>
  db.addonGroups.any (·.id = o.addonGroupId)

def cartLineOptionsOption : Constraint Db := onRows "cart_line_options_option_fk" cartLineOptions fun db o =>
  db.addonGroups.any (·.options.any (·.id = o.addonOptionId))

def cartLineOptionsQuantity : Constraint Db :=
  onRows "cart_line_options_quantity_check" cartLineOptions fun _ o => 0 < o.quantity

def cartLineOptionsAmount : Constraint Db := onRows "numeric field overflow" cartLineOptions fun _ o =>
  isMoney o.priceDeltaSnapshot

def paymentAttemptsCart : Constraint Db := onRows "payment_attempts_cart_fk" Db.attempts fun db a =>
  db.carts.any (·.id = a.cartId)

def paymentAttemptsIntegration : Constraint Db := onRows "payment_attempts_integration_fk" Db.attempts fun db a =>
  db.accounts.any (·.id = a.integrationAccountId)

def paymentAttemptsAmount : Constraint Db := onRows "payment_attempts_amount_check" Db.attempts fun _ a => 0 < a.amount

def paymentAttemptsNumeric : Constraint Db := onRows "numeric field overflow" Db.attempts fun _ a => isMoney a.amount

end Constraints

open Constraints in
/-- The checks and foreign keys of `tenants`, `carts`, `cart_lines`, `cart_line_options` and `payment_attempts`. -/
def constraints : List (Constraint Db) :=
  [tenantsCurrencyFormat, cartsCurrency, cartsAmounts, cartsVersion, cartLinesItem, cartLinesCombo,
    cartLinesOneResource,
   cartLinesQuantity, cartLinesInteger, cartLinesAmounts, cartLineOptionsGroup, cartLineOptionsOption,
   cartLineOptionsQuantity, cartLineOptionsAmount, paymentAttemptsCart, paymentAttemptsIntegration,
   paymentAttemptsAmount, paymentAttemptsNumeric]

namespace KioskPaymentService

/-- `kioskPaymentItemSchema`, of an id that is a UUID: an integer is a safe one, an amount has up to ten digits. -/
def kioskPaymentItemSchema (item : KioskPaymentItem) : Bool :=
  0 < item.quantity && item.quantity < 2 ^ 53 && item.calculatedSubtotal.all isMoney

/-- `z.array(kioskPaymentItemSchema).min(1)` -/
def areKioskItems (items : List KioskPaymentItem) : Bool := items ≠ [] && items.all kioskPaymentItemSchema

def kioskDiscountPreviewSchema (body : KioskDiscountPreviewRequest) : Option KioskDiscountPreviewRequest :=
  let code := Text.trim body.discountCode
  if areKioskItems body.items ∧ 1 ≤ Text.length code ∧ Text.length code ≤ 50 then
    some { body with discountCode := code }
  else none

/-- `isEmail` is `z.string().email()`. -/
def createKioskPaymentSessionSchema (isEmail : String → Bool) (body : KioskPaymentSessionRequest) :
    Option KioskPaymentSessionRequest :=
  let code := body.discountCode.map Text.trim
  if areKioskItems body.items ∧ 1 ≤ Text.length body.customer.name ∧ body.customer.email.all isEmail ∧
      body.notes.all (Text.length · ≤ 255) ∧ code.all (Text.length · ≤ 50) then
    some { body with
      customer := { name := body.customer.name, email := body.customer.email }
      discountCode := code }
  else none

def zodError : AppError := .internal "ZodError"

/-- `previewDiscount`, from its body. -/
def parsedPreview (body : KioskDiscountPreviewRequest) (now : Instant) : DbTx KioskDiscountPreviewResponse := do
  let request ← orThrow (kioskDiscountPreviewSchema body) zodError
  previewDiscount request now

/-- `createSession`, from its body and under the constraints of the tables. -/
def parsedSession (isEmail : String → Bool) (body : KioskPaymentSessionRequest) (idempotencyKey : String)
    (recordId cartId attemptId : Id) (preference : Except AppError Preference) (now : Instant) :
    DbTx KioskPaymentSessionResponse := do
  let request ← orThrow (createKioskPaymentSessionSchema isEmail body) zodError
  Constraint.checked .database constraints
    (createSession request idempotencyKey recordId cartId attemptId preference now)

end KioskPaymentService

end Komanda
