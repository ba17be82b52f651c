import Komanda.Lib.JsonText
import Komanda.Money
import Komanda.Orders
import Komanda.Text

/-!
# The sales reports (`features/analytics/infrastructure/analytics.repository.ts`)

Each report is a query of the rows of one tenant. What the database returns without an order is taken in the order of
the rows. A sum of `numeric(12, 2)` amounts is the text that the query casts it to.
-/

namespace Komanda

/-- A row of `tenant_orders`, as the reports select it. -/
structure TenantOrder where
  id : Id
  locationId : Id
  source : OrderSource
  fulfillmentStatus : FulfillmentStatus
  paymentStatus : PaymentStatus
  customerSnapshot : Json.Value Empty
  subtotal : Cents
  discountTotal : Cents
  total : Cents
  createdAt : Instant

/-- The object that a contact is stored as. -/
def Customer.snapshot (customer : Customer) : Json.Value Empty :=
  .object
    [("name", some (.string customer.name)), ("phone", customer.phone.map .string),
      ("email", customer.email.map .string), ("whatsappReadyOptIn", customer.whatsappReadyOptIn.map .boolean)]

def Order.tenantOrder (order : Order) : TenantOrder where
  id := order.id
  locationId := order.locationId
  source := order.source
  fulfillmentStatus := order.fulfillmentStatus
  paymentStatus := order.paymentStatus
  customerSnapshot := order.customerSnapshot.snapshot
  subtotal := order.subtotal
  discountTotal := order.discountTotal
  total := order.total
  createdAt := order.createdAt

/-- Paid and not cancelled. -/
def TenantOrder.sold (order : TenantOrder) : Bool :=
  order.paymentStatus = .paid ∧ order.fulfillmentStatus ≠ .cancelled

namespace Analytics

/-! ## Amounts -/

/-- `BigInt` of a decimal text: white space at its ends is dropped, and nothing is zero. -/
def bigInt (text : String) : Option Int :=
  match (Text.trim text).toList with
  | '-' :: c :: digits => (numberOf (c :: digits)).map fun n => -(n : Int)
  | '+' :: c :: digits => (numberOf (c :: digits)).map Int.ofNat
  | digits => (numberOf digits).map Int.ofNat

/-- `const [whole = "0", frac = "00"] = clean.split(".")` -/
def wholeAndFrac (clean : List Char) : List Char × List Char :=
  (clean.takeWhile (· ≠ '.'),
    match clean.dropWhile (· ≠ '.') with
    | [] => ['0', '0']
    | _ :: rest => rest.takeWhile (· ≠ '.'))

/-- The cents of an amount without its sign. -/
def unsignedCents (clean : List Char) : Option Int := do
  let (whole, frac) := wholeAndFrac clean
  let whole ← bigInt (String.ofList whole)
  let frac ← bigInt (String.ofList ((frac ++ ['0', '0']).take 2))
  return whole * 100 + frac

/-- `parseMoneyToCents` of a text; `none` where `BigInt` throws. -/
def parseMoneyToCents (amount : String) : Option Int :=
  let str := (Text.trim amount).toList
  let isNegative := str.head? = some '-'
  if isNegative then (unsignedCents (str.drop 1)).map (-·) else unsignedCents str

def centsToMoneyString (cents : Int) : String :=
  let isNegative := cents < 0
  let abs := cents.natAbs
  let whole := abs / 100
  let frac := abs % 100
  (if isNegative then "-" else "") ++ toString whole ++ "." ++ (if frac < 10 then "0" else "") ++ toString frac

def addMoneyStrings (amounts : List String) : Option String := do
  let total ← amounts.foldlM (fun acc val => (acc + ·) <$> parseMoneyToCents val) (0 : Int)
  return centsToMoneyString total

/-- `coalesce(round(sum(amount), 2), 0)::text`: without a row the sum is `null` and the text is that of an integer. -/
def sumText (amounts : List Int) : String := if amounts.isEmpty then "0" else centsToMoneyString amounts.sum

/-! ## Conditions -/

/-- `if (locationId) conditions.push(eq(…, locationId))` -/
def atLocation (locationId : Option Id) (rowLocation : Id) : Bool := locationId.all (· = rowLocation)

/-- The orders of a period. -/
def periodOrders (fromDate toDate : Instant) (locationId : Option Id) (orders : List TenantOrder) : List TenantOrder :=
  orders.filter fun o => fromDate ≤ o.createdAt && o.createdAt ≤ toDate && o.sold && atLocation locationId o.locationId

end Analytics
end Komanda
