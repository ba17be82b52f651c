import Komanda.Lib.Binary64
import Komanda.Lib.MaxNumbers
import Komanda.Carts
import Komanda.Printing

/-!
# Orders: rules and repository (`features/orders`)

`order.rules.ts`, `order-scheduling.ts`, `order.repository.ts`, and the two follow-ups that the order
services write themselves: the kitchen ticket and the billing document. `Draw` is what the runtime
supplies to one call: the time and the drawn values.
-/

namespace Komanda
open Transaction Binary64

/-! ## Rules -/

def allowedTransitions : FulfillmentStatus → List FulfillmentStatus
  | .approved => [.ready, .preparing, .cancelled]
  | .preparing => [.ready, .cancelled]
  | .ready => [.delivered]
  | .delivered => []
  | .cancelled => []

/-- `assertFulfillmentTransition` -/
def canTransition (current next : FulfillmentStatus) (source : OrderSource) : Bool :=
  current = next || (source = .adminDirect && next = .cancelled && current ≠ .cancelled) ||
    (allowedTransitions current).contains next

def FulfillmentStatus.text : FulfillmentStatus → String
  | approved => "approved"
  | preparing => "preparing"
  | ready => "ready"
  | delivered => "delivered"
  | cancelled => "cancelled"

def PaymentStatus.text : PaymentStatus → String
  | pending => "pending"
  | paid => "paid"
  | failed => "failed"
  | refunded => "refunded"
  | verificationRequired => "verification_required"

def OrderSource.text : OrderSource → String
  | mercadopagoWebhook => "mercadopago_webhook"
  | adminDirect => "admin_direct"
  | storefrontCash => "storefront_cash"

def weekdays : List Weekday := [.monday, .tuesday, .wednesday, .thursday, .friday, .saturday, .sunday]

def hasOpeningHours (hours : OpeningHours) : Bool := weekdays.any fun day => !(hours day).isEmpty

/-- `validateScheduledPickupTime` -/
def validateScheduledPickupTime (scheduledFor : Option Instant) (now : Instant) (tenant : PublicTenant) :
    Except AppError (Option Instant) :=
  match scheduledFor with
  | none => .ok none
  | some parsed =>
    let (weekday, hhmm) := tenant.zonedParts parsed
    let closed : Except AppError (Option Instant) := .error (.orderScheduling
      "El horario elegido está fuera del horario de atención del comercio.")
    if parsed < now + 10 * 60 * 1000 then
      .error (.orderScheduling "El horario programado debe ser al menos 15 minutos en el futuro.")
    else if parsed > now + 7 * 24 * 60 * 60 * 1000 then
      .error (.orderScheduling "Solo podés programar pedidos hasta con 7 días de anticipación.")
    else match tenant.openingHours with
    | some hours =>
      if ¬ hasOpeningHours hours then
        .error (.orderScheduling "El comercio no tiene rangos horarios disponibles para programar pedidos.")
      else if (hours weekday).any fun range => range.1 ≤ hhmm && hhmm ≤ range.2 then .ok (some parsed)
      else closed
    | none => if hhmm < 9 * 60 ∨ hhmm > 23 * 60 + 30 then closed else .ok (some parsed)

/-- `normalizeWhatsAppRecipient`: an Argentine mobile as `549` and ten digits. -/
def normalizeWhatsAppRecipient (phone : Option String) : Option String :=
  let digits := (phone.getD "").toList.filter Char.isDigit
  let subscriber :=
    if digits.take 3 = ['5', '4', '9'] then digits.drop 3
    else if digits.take 2 = ['5', '4'] then digits.drop 2
    else digits
  let subscriber := if subscriber.head? = some '0' then subscriber.drop 1 else subscriber
  let subscriber :=
    if subscriber.length = 12 ∧ (subscriber.drop 2).take 2 = ['1', '5'] then
      subscriber.take 2 ++ subscriber.drop 4
    else subscriber
  if subscriber.length = 10 ∧ subscriber.head? ≠ some '0' then some ("549" ++ String.ofList subscriber)
  else none

/-! ## Repository -/

/-- The instant of a call, and the values it draws. -/
structure Draw where
  now : Instant
  orderId : Id
  pickupPin : String
  movementId : Id
  printJobId : Id
deriving DecidableEq, Repr

/-- The input of `createFromCartSnapshot`; `none` is an absent field. -/
structure SnapshotInput where
  cart : Cart
  source : OrderSource
  paymentStatus : PaymentStatus
  tender : Option OrderTender := none
  customer : Customer
  notes : Option String := none
  idempotencyKey : String
  paymentAttemptId : Option Id := none
  approvedAt : Option Instant := none
  pickupPin : Option String := none
  estimatedWaitMinutes : Option Nat := none
  estimatedReadyAt : Option Instant := none
  scheduledFor : Option Instant := none
  paymentExpiresAt : Option Instant := none
deriving DecidableEq, Repr

namespace OrderRepository

def findById (orderId : Id) (db : Db) : Option Order := Table.lookup Order.id orderId db.orders

def findByIdempotencyKey (idempotencyKey : String) (db : Db) : Option Order :=
  Table.lookup Order.idempotencyKey idempotencyKey db.orders

def findByPaymentAttempt (attemptId : Id) (db : Db) : Option Order :=
  db.orders.find? fun o => o.paymentAttemptId = some attemptId

def loadPaymentAttempt (attemptId : Id) (db : Db) : Option PaymentAttempt :=
  Table.lookup PaymentAttempt.id attemptId db.attempts

/-- `nextCounter("purchase_number")`. The counter's row stays locked until the transaction ends. -/
def nextPurchaseNumber : DbTx Nat := do
  write fun db => { db with purchaseNumber := db.purchaseNumber + 1 }
  current Db.purchaseNumber

/-- `appendEvent` with `nextCounter("order_event_sequence")`. -/
def appendEvent (orderId : Id) (eventType : String) (fromStatus toStatus : Option FulfillmentStatus)
    (metadata : Payload) : DbTx Unit :=
  write fun db => { db with
    orderEventSequence := db.orderEventSequence + 1
    orderEvents := db.orderEvents ++
      [{ orderId, sequence := db.orderEventSequence + 1, eventType, fromStatus, toStatus, metadata }] }

def appendTransitionEvent (orderId : Id) (fromStatus toStatus : FulfillmentStatus)
    (reason : Option String) : DbTx Unit :=
  appendEvent orderId "order.transitioned" (some fromStatus) (some toStatus)
    (reason.toList.map fun r => ("reason", .str r))

/-- The orders the kitchen still has to finish. -/
def activeCount (locationId : Id) (db : Db) : Nat :=
  (db.orders.filter fun o => o.locationId = locationId &&
    (o.fulfillmentStatus = .approved || o.fulfillmentStatus = .preparing)).length

def orderLine (line : CartLine) : OrderLine where
  sourceItemId := line.itemId
  sourceComboId := line.comboId
  itemType := line.itemType
  name := line.nameSnapshot
  quantity := line.quantity
  unitPrice := line.unitPriceSnapshot
  lineTotal := line.lineTotal
  imageUrl := line.imageUrlSnapshot
  note := line.note
  options := line.options

/-- The coupon's snapshot is taken whenever the cart carries a coupon, also when it saves nothing. -/
def discountSnapshot (cart : Cart) : Option DiscountSnapshot :=
  match cart.appliedDiscountCodeId, cart.discountMetadata with
  | some discountId, some m => some
    { discountId, code := m.code, name := m.name, discountType := m.discountType,
      discountValue := m.discountValue, amountDeducted := cart.discountTotal }
  | _, _ => none

/-- The row `createFromCartSnapshot` inserts. -/
def newOrder (input : SnapshotInput) (draw : Draw) (purchaseNumber activeCount : Nat) : Order :=
  let estimatedWaitMinutes := input.estimatedWaitMinutes.getD (15 + activeCount * 3)
  { id := draw.orderId
    locationId := input.cart.locationId
    cartId := input.cart.id
    paymentAttemptId := input.paymentAttemptId
    purchaseNumber
    source := input.source
    fulfillmentStatus := .approved
    paymentStatus := input.paymentStatus
    tender := input.tender.getD .cash
    customerSnapshot := input.customer
    notes := input.notes
    subtotal := input.cart.subtotal
    discountTotal := input.cart.discountTotal
    total := input.cart.total
    discountSnapshot := discountSnapshot input.cart
    pickupPin := some (input.pickupPin.getD draw.pickupPin)
    estimatedWaitMinutes := some estimatedWaitMinutes
    estimatedReadyAt := some ((input.estimatedReadyAt.or input.scheduledFor).getD
      (draw.now + estimatedWaitMinutes * 60 * 1000))
    scheduledFor := input.scheduledFor
    paymentExpiresAt := input.paymentExpiresAt
    currency := input.cart.currency
    idempotencyKey := input.idempotencyKey
    approvedAt := some (input.approvedAt.getD draw.now)
    deliveredAt := none
    version := 1
    createdAt := draw.now
    updatedAt := draw.now
    lines := input.cart.lines.map orderLine }

/-- The unique constraints of `orders`. -/
def conflicts (order o : Order) : Bool :=
  o.id = order.id || o.idempotencyKey = order.idempotencyKey || o.purchaseNumber = order.purchaseNumber

def insert (order : Order) : DbTx Unit := do
  let taken ← current fun db => db.orders.any (conflicts order)
  throwIf taken (.database "orders_unique")
  write fun db => { db with orders := db.orders ++ [order] }

def deductible (itemId : Id) (quantity : Nat) (item : CatalogItem) : Bool :=
  item.id = itemId && item.trackStock && (quantity : Int) ≤ item.stockQuantity

/-- The stock part of a line: combos and weighted lines have none. -/
def deductStock (line : CartLine) : DbTx Unit :=
  match line.itemId, line.itemType with
  | some itemId, .unit => do
    let deducted ← current fun db => db.items.any (deductible itemId line.quantity)
    let deduct (item : CatalogItem) := { item with stockQuantity := item.stockQuantity - line.quantity }
    write fun db => { db with items := Table.updateWhere (deductible itemId line.quantity) deduct db.items }
    let tracked ← current fun db => (Table.lookup CatalogItem.id itemId db.items).any (·.trackStock)
    throwIf (tracked ∧ ¬ deducted) (.orderConflict ("INSUFFICIENT_STOCK: " ++ line.nameSnapshot))
  | _, _ => pure ()

def convertCart (cartId : Id) : DbTx Unit :=
  let convert (c : Cart) := { c with status := .converted }
  write fun db => { db with carts := Table.updateWhere (·.id = cartId) convert db.carts }

/-- The answer of `recordRedemption` is dropped: a coupon that has run out does not stop the order. -/
def redeemCoupon (cart : Cart) (orderId : Id) : DbTx Unit :=
  match cart.appliedDiscountCodeId with
  | some discountId =>
    runIf (cart.discountTotal > 0) do
      let _ ← DiscountRepository.recordRedemption orderId cart.id discountId cart.discountTotal
        ((cart.discountMetadata.map (·.code)).getD "DISCOUNT")
      pure ()
  | none => pure ()

/-- `createFromCartSnapshot` from `nextCounter` on. -/
def insertSnapshot (input : SnapshotInput) (draw : Draw) : DbTx Order := do
  let purchaseNumber ← nextPurchaseNumber
  let active ← current (activeCount input.cart.locationId)
  let order := newOrder input draw purchaseNumber active
  insert order
  each deductStock input.cart.lines
  convertCart input.cart.id
  redeemCoupon input.cart order.id
  appendEvent order.id "order.created" none (some .approved)
    [("source", .str input.source.text), ("paymentStatus", .str input.paymentStatus.text)]
  return order

/-- `createFromCartSnapshot`: the order, and whether this call created it. An existing order with the
key is returned whatever its cart. `readCart` reads the cart row for the status check. -/
def createFromCartSnapshotWith (readCart : DbTx (Option Cart)) (input : SnapshotInput) (draw : Draw) :
    DbTx (Order × Bool) := do
  let existing ← look (findByIdempotencyKey input.idempotencyKey)
  match existing with
  | some order => return (order, false)
  | none => do
    let cartCheck ← readCart
    throwIf (cartCheck.all (·.status = .converted))
      (.orderConflict "Cart is already converted to an order.")
    let order ← insertSnapshot input draw
    return (order, true)

def createFromCartSnapshot (input : SnapshotInput) (draw : Draw) : DbTx (Order × Bool) :=
  createFromCartSnapshotWith (look (CartRepository.find input.cart.id)) input draw

/-- `UPDATE orders SET f WHERE p RETURNING *`, with the version bumped. -/
def updateReturning (p : Order → Bool) (f : Order → Order) (now : Instant) : DbTx (Option Order) := do
  let set (o : Order) : Order := { f o with version := o.version + 1, updatedAt := now }
  let row ← current fun db => db.orders.find? p
  write fun db => { db with orders := Table.updateWhere p set db.orders }
  return row.map set

def atVersion (orderId : Id) (version : Nat) (o : Order) : Bool := o.id = orderId && o.version = version

/-- `OrderRepository.transition` -/
def transition (orderId : Id) (expectedVersion : Nat) (nextStatus : FulfillmentStatus)
    (paymentStatus : Option PaymentStatus) (now : Instant) : DbTx (Option Order) :=
  updateReturning (atVersion orderId expectedVersion) (fun o =>
    { o with
      fulfillmentStatus := nextStatus
      deliveredAt := if nextStatus = .delivered then some now else o.deliveredAt
      paymentStatus := paymentStatus.getD o.paymentStatus }) now

/-- `updatePaymentStatus`: no version guards it. -/
def updatePaymentStatus (orderId : Id) (paymentStatus : PaymentStatus) (now : Instant) :
    DbTx (Option Order) :=
  updateReturning (·.id = orderId) (fun o => { o with paymentStatus }) now

end OrderRepository

/-! ## Follow-ups -/

/-- Insert a row into `cash_register_movements`, whose order and type, and whose key, are unique. -/
def recordMovement (movement : CashMovement) (onDuplicate : AppError) : DbTx Unit := do
  let taken ← current fun db => db.movements.any fun m => m.id = movement.id ||
    (m.orderId.isSome && m.orderId = movement.orderId && m.type = movement.type) ||
    (m.idempotencyKey.isSome && m.idempotencyKey = movement.idempotencyKey)
  throwIf taken onDuplicate
  write fun db => { db with movements := db.movements ++ [movement] }

/-- The shift that is open at a location. -/
def openShiftAt (locationId : Id) (db : Db) : Option CashShift :=
  db.shifts.find? fun s => s.status = .open && s.locationId = some locationId

/-- `PrintJobService.enqueueOrderTicketInTransaction`, in the transaction of the order service. -/
def enqueueOrderTicket (order : Order) (draw : Draw) : DbTx Unit := do
  let printingEnabled ← current fun db => db.settings.printingEnabled
  let _ ← zoom Db.printJobs (fun t db => { db with printJobs := t }) id
    (PrintJobService.enqueueOrderTicket order printingEnabled draw.printJobId draw.now)
  pure ()

namespace BillingRepository

structure IssueInput where
  orderId : Id
  locationId : Option Id := none
  documentType : Option FiscalDocumentType := none
  pointOfSale : Option Nat := none
  customerName : Option String := none
deriving DecidableEq, Repr

/-- The numbers of one point of sale and type of document. -/
def documentNumbers (pointOfSale : Nat) (documentType : FiscalDocumentType) (db : Db) : List Nat :=
  (db.billing.filter fun d => d.pointOfSale = pointOfSale && d.documentType = documentType).map (·.documentNumber)

def getNextDocumentNumber (pointOfSale : Nat) (documentType : FiscalDocumentType) (db : Db) : Nat :=
  MaxNumbers.next (documentNumbers pointOfSale documentType db)

/-- The total without the tax: `Number((total / 1.21).toFixed(2))`. -/
def net (total : ℚ) : ℚ := ofDecimal 2 (toFixed 2 (nearest (total / ofDecimal 2 121)))

/-- The tax: `Number((total - net).toFixed(2))`. -/
def vat (total : ℚ) : ℚ := ofDecimal 2 (toFixed 2 (nearest (total - net total)))

/-- The row of an order's document. -/
def document (input : IssueInput) (order : Order) (documentType : FiscalDocumentType)
    (pointOfSale documentNumber : Nat) :
    BillingDocument :=
  let total := ofDecimal 2 order.total
  let discount := ofDecimal 2 order.discountTotal
  { locationId := input.locationId.getD order.locationId, orderId := order.id, documentType, pointOfSale,
    documentNumber, currency := order.currency, netAmount := toFixed 2 (net total),
    vatAmount := toFixed 2 (vat total), discountAmount := toFixed 2 discount, totalAmount := order.total,
    customerName := input.customerName }

/-- `numeric(12, 2)`, in cents. -/
def maxAmount : Cents := 10 ^ 12

/-- `issueDocument`. The maximum is read without a lock; the unique key of the numbers is what a stale one meets. -/
def issueDocument (input : IssueInput) : DbTx Unit := do
  let found ← current (OrderRepository.findById input.orderId)
  let order ← orThrow found (.internal ("Order " ++ input.orderId ++ " not found for billing issuance."))
  let documentType := input.documentType.getD .ticketInterno
  let pointOfSale := input.pointOfSale.getD 1
  let documentNumber ← look (getNextDocumentNumber pointOfSale documentType)
  throwIf (maxAmount ≤ order.total ∨ maxAmount ≤ order.discountTotal) (.database "numeric field overflow")
  let taken ← current fun db => decide (documentNumber ∈ documentNumbers pointOfSale documentType db)
  throwIf taken (.database "billing_documents_tenant_pos_type_number_key")
  write fun db =>
    { db with billing := db.billing ++ [document input order documentType pointOfSale documentNumber] }

end BillingRepository

end Komanda
