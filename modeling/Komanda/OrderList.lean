import Komanda.Lib.Keyset
import Komanda.Orders
import Mathlib.Data.List.Sort
import Mathlib.Data.String.Basic

/-!
# The listing of the orders (`order-query.service.ts`, `OrderRepository.list`)

The kitchen works on the oldest orders first, the back office looks at the newest. Both lists come in pages: the
creation time of the last order of a page is the cursor for the next one.
-/

namespace Komanda

inductive OrderScope
  | kitchen
  | all
deriving DecidableEq, Repr

/-- A cursor is the ISO text of a `Date`, which stands for its milliseconds. -/
structure OrderListInput where
  status : Option FulfillmentStatus := none
  scope : Option OrderScope := none
  paymentStatus : Option PaymentStatus := none
  cursor : Option Instant := none
  limit : Option Nat := none
deriving DecidableEq, Repr

abbrev OrderPage := Keyset.Page Order Instant

namespace OrderRepository

def kitchenStatuses : List FulfillmentStatus := [.approved, .preparing]

def openStatuses : List FulfillmentStatus := [.approved, .preparing, .ready]

/-- `conditions`, before the cursor is added to them. -/
def conditions (input : OrderListInput) (o : Order) : Bool :=
  if input.scope = some .kitchen then
    o.paymentStatus = .paid &&
      match input.status with
      | some status => o.fulfillmentStatus = status && kitchenStatuses.contains o.fulfillmentStatus
      | none => kitchenStatuses.contains o.fulfillmentStatus
  else
    input.paymentStatus.all (o.paymentStatus = ·) &&
      match input.status with
      | some status => o.fulfillmentStatus = status
      | none => openStatuses.contains o.fulfillmentStatus

/-- `asc(createdAt), asc(id)` -/
def ascending (a b : Order) : Prop := a.createdAt < b.createdAt ∨ a.createdAt = b.createdAt ∧ a.id ≤ b.id

/-- `orderByClause` -/
def orderBy (input : OrderListInput) (a b : Order) : Prop :=
  if input.scope = some .kitchen then ascending a b else ascending b a

instance : DecidableRel ascending := fun a b =>
  inferInstanceAs (Decidable (a.createdAt < b.createdAt ∨ a.createdAt = b.createdAt ∧ a.id ≤ b.id))

instance (input : OrderListInput) : DecidableRel (orderBy input) := fun a b =>
  inferInstanceAs (Decidable (if input.scope = some .kitchen then ascending a b else ascending b a))

/-- `OrderRepository.list` -/
def list (input : OrderListInput) (orders : List Order) : OrderPage :=
  let limit := input.limit.getD 50
  let selected := orders.filter fun o => conditions input o && input.cursor.all (o.createdAt < ·)
  let rows := (selected.insertionSort (orderBy input)).take (limit + 1)
  let page := rows.take limit
  { data := page
    nextCursor := if limit < rows.length then page.getLast?.map (·.createdAt) else none }

end OrderRepository

namespace OrderQueryService

def visibleOrderStatuses : List FulfillmentStatus := [.approved, .preparing, .ready, .delivered, .cancelled]

def validPaymentStatuses : List PaymentStatus := [.pending, .paid, .failed, .refunded, .verificationRequired]

/-- A value that is absent or empty is not looked at. -/
def parse {α : Type} (read : String → Option α) (message : String) (value : Option String) :
    Except AppError (Option α) :=
  match value with
  | none => .ok none
  | some value =>
    if value = "" then .ok none
    else match read value with
      | some a => .ok (some a)
      | none => .error (.orderValidation message)

def parseStatus : Option String → Except AppError (Option FulfillmentStatus) :=
  parse (fun value => visibleOrderStatuses.find? (·.text = value)) "Invalid order status."

def parseScope : Option String → Except AppError (Option OrderScope) :=
  parse (fun value => if value = "kitchen" then some .kitchen else if value = "all" then some .all else none)
    "Invalid scope."

def parsePaymentStatus : Option String → Except AppError (Option PaymentStatus) :=
  parse (fun value => validPaymentStatuses.find? (·.text = value)) "Invalid payment status."

/-- `OrderQueryService.list`, where `date` is `new Date` on the text of a cursor: nothing for an invalid date. -/
def list (date : String → Option Instant) (status cursor scope paymentStatus : Option String) (limit : Option Nat)
    (orders : List Order) : Except AppError OrderPage := do
  let status ← parseStatus status
  let scope ← parseScope scope
  let paymentStatus ← parsePaymentStatus paymentStatus
  let cursor ← parse date "Invalid cursor." cursor
  return OrderRepository.list { status, scope, paymentStatus, cursor, limit } orders

end OrderQueryService

end Komanda
