import Komanda.Orders

/-!
# The order services (`features/orders/application`)

Creation of orders at the storefront and at the counter, and the five operations on an order. Each
decides on an unlocked read of the order and then updates the row on a version condition: the
transition on the version its client expects, the others on the version they read.
-/

namespace Komanda
open Transaction Idempotency

/-! ## Creation -/

namespace CreateCashOrderService

/-- The instant until which the order may be paid at the counter. -/
def paymentExpiresAt (now : Instant) : Option Instant → Instant
  | none => now + 60 * 60 * 1000
  | some scheduled => max (now + 60 * 60 * 1000) (scheduled + 30 * 60 * 1000)

def invalidCouponMessage (reason : IneligibilityReason) : String :=
  "El cupón aplicado ya no es válido (" ++ reason.code ++ "). Quitá el cupón y reintentá."

/-- The coupon check of the conversion: on the whole cart, whatever the coupon's scope. A coupon that no
longer exists is not checked. -/
def couponObstacle (cart : Cart) (now : Instant) (tender : Tender) (db : Db) :
    Option IneligibilityReason :=
  (cart.appliedDiscountCodeId.bind (DiscountRepository.findById · db)).bind fun discount =>
    evaluateCouponEligibility discount (cart.lines.map (·.lineTotal)).sum now (some tender)

/-- The order of an accepted request, and its answer. -/
def convert (cart : Cart) (request : CheckoutRequest) (idempotencyKey : String) (recordId : Id)
    (scheduledDate : Option Instant) (draw : Draw) : DbTx CreateCashOrderResponse := do
  let expiresAt := paymentExpiresAt draw.now scheduledDate
  let created ← OrderRepository.createFromCartSnapshot
    { cart, source := .storefrontCash, paymentStatus := .pending, tender := some .cash,
      customer :=
        { name := request.customer.name, phone := request.customer.phone,
          whatsappReadyOptIn := request.customer.whatsappReadyOptIn.filter (· = true) },
      notes := request.notes, scheduledFor := scheduledDate, estimatedReadyAt := scheduledDate,
      idempotencyKey, pickupPin := some draw.pickupPin, paymentExpiresAt := some expiresAt } draw
  let order := created.1
  let response : CreateCashOrderResponse :=
    { orderId := order.id, purchaseNumber := order.purchaseNumber,
      pickupPin := order.pickupPin.getD draw.pickupPin, total := order.total,
      scheduledFor := order.scheduledFor, expiresAt, secondsRemaining := (expiresAt - draw.now) / 1000 }
  IdempotencyService.complete recordId 201 (.cashOrder response)
  return response

/-- `CreateCashOrderService.create` -/
def create (tenant : PublicTenant) (cartId : Id) (request : CheckoutRequest) (idempotencyKey : String)
    (recordId : Id) (draw : Draw) : DbTx CreateCashOrderResponse := do
  throwIf tenant.expressRetail (.orderingNotSupported
    "El comercio opera en modo autoservicio presencial. Los pedidos web no están habilitados.")
  let salesEnabled ← look fun db => db.settings.salesEnabled
  throwIf (salesEnabled = some false) (.businessClosed
    "El restaurante no se encuentra aceptando pedidos en este horario.")
  let claim ← IdempotencyService.claim ("cash-order:" ++ cartId) idempotencyKey (.cashOrder request)
    (some 3600) recordId draw.now
  match claim with
  | .replay _ body =>
    match body with
    | some (.cashOrder cached) =>
      return { cached with secondsRemaining := (cached.expiresAt - draw.now) / 1000 }
    | _ => throw (.internal "Cached response has another shape.")
  | .claimed recordId _ => do
    let found ← look (CartRepository.find cartId)
    let cart ← orThrow found (.cashOrderCartUnavailable "Cart is unavailable or expired.")
    throwIf (CartService.unavailable draw.now cart)
      (.cashOrderCartUnavailable "Cart is unavailable or expired.")
    throwIf (cart.status = .converted) (.orderConflict "Cart is already converted to an order.")
    throwIf (request.cartVersion.any (· ≠ cart.version))
      (.cartVersionMismatch "CART_VERSION_MISMATCH: Cart version is stale.")
    throwIf (cart.lines = []) (.orderConflict "Cart has no items.")
    let obstacle ← look (couponObstacle cart draw.now .cash)
    throwIf (obstacle = some .tenderMismatch) .couponTenderMismatch
    throwIf obstacle.isSome (.orderConflict ((obstacle.map invalidCouponMessage).getD ""))
    let scheduledDate ← fromExcept (validateScheduledPickupTime request.scheduledFor draw.now tenant)
    convert cart request idempotencyKey recordId scheduledDate draw

end CreateCashOrderService

namespace CreateOrderService

/-- What the three creating methods append for an order they have created. -/
def announce (order : Order) (action : String) (auditMetadata created : Payload) : DbTx Unit := do
  appendAuditEvent action "order" order.id auditMetadata
  appendOutboxEvent "order" order.id "order.created" created
  appendOutboxEvent "order" order.id "print.intent.created"
    [("orderId", .str order.id), ("source", .str order.source.text),
      ("paymentStatus", .str order.paymentStatus.text)]

/-- The deposit of a sale at the counter. It names no shift. -/
def deposit (order : Order) (draw : Draw) : DbTx Unit :=
  recordMovement
    { id := draw.movementId, locationId := order.locationId, shiftId := none, orderId := some order.id,
      type := .saleDeposit, amount := order.total, occurredAt := draw.now, reason := none,
      idempotencyKey := some ("cash_deposit:" ++ order.id) } (.database "cash_movements_order_type_uniq")

def announceDirect (order : Order) (cartId : Id) : DbTx Unit :=
  announce order "order.create_direct"
    [("cartId", .str cartId), ("purchaseNumber", .num order.purchaseNumber)]
    [("orderId", .str order.id), ("source", .str order.source.text),
      ("fulfillmentStatus", .str order.fulfillmentStatus.text),
      ("paymentStatus", .str order.paymentStatus.text)]

/-- `CreateOrderService.createDirect` -/
def createDirect (cartId : Id) (customer : Customer) (notes : Option String) (idempotencyKey : String)
    (draw : Draw) : DbTx Order := do
  let found ← look (CartRepository.find cartId)
  let cart ← orThrow found (.orderNotFound "Cart not found.")
  throwIf (cart.status = .expired) (.orderNotFound "Cart not found.")
  throwIf (cart.status = .converted ∨ cart.lines = [])
    (.orderConflict "Cart cannot be converted to an order.")
  let (order, created) ← OrderRepository.createFromCartSnapshot
    { cart, source := .adminDirect, paymentStatus := .paid, tender := some .cash, customer, notes,
      idempotencyKey, approvedAt := some draw.now } draw
  runIf created do
    deposit order draw
    announceDirect order cart.id
    enqueueOrderTicket order draw
    BillingRepository.issueDocument
      { orderId := order.id, locationId := some order.locationId, documentType := some .ticketInterno,
        customerName := some order.customerSnapshot.name }
  return order

/-- `createDirectOrderSchemaFromItems` -/
structure DirectItemsRequest where
  items : List CartSelection
  customer : Customer := { name := "NN" }
  tender : OrderTender := .cash
  paymentStatus : PaymentStatus := .paid
  /-- The enumeration of the schema. -/
  accepted : paymentStatus ∈ [.paid, .pending, .verificationRequired] := by decide
  notes : Option String := none
  discountCode : Option String := none
deriving DecidableEq, Repr

/-- The line of an item, and the category its coupon may name. -/
def directLine (currency : String) (db : Db) (selection : CartSelection) :
    Except AppError (NewCartLine × Option Id) :=
  match CartRepository.loadSelection selection.isCombo selection.resourceId db with
  | none => .error (.orderConflict ("Product " ++ selection.resourceId ++ " is unavailable."))
  | some catalog =>
    if catalog.currency ≠ currency then
      .error (.orderConflict ("Product " ++ selection.resourceId ++ " is unavailable."))
    else match revalidateCartSelection selection catalog with
    | .error message => .error (.cartRevalidation message)
    | .ok validated =>
      let quantity := if validated.itemType = .weighted then 1 else selection.quantity
      .ok ({ isCombo := catalog.isCombo, resourceId := selection.resourceId,
             itemType := validated.itemType, quantity, name := catalog.name,
             unitPrice := validated.unitPriceCents, lineTotal := validated.unitPriceCents * quantity,
             imageUrl := catalog.imageUrl, note := selection.note, options := validated.options },
           catalog.categoryId)

def fullPrice (lines : List (NewCartLine × Option Id)) : CartRepository.Repricing where
  discountTotal := 0
  total := (lines.map (·.1.lineTotal)).sum
  appliedDiscountCodeId := none
  discountMetadata := none

/-- The price of a sale at the counter: a code has to exist and to be eligible. -/
def directPrice (lines : List (NewCartLine × Option Id)) (discountCode : Option String)
    (tender : OrderTender) (now : Instant) (db : Db) : Except AppError CartRepository.Repricing :=
  match discountCode with
  | none => .ok (fullPrice lines)
  | some code =>
    match DiscountRepository.findByCode code db with
    | none => .error (.orderConflict "Código de descuento inválido o no encontrado.")
    | some discount =>
      let result := calculateDiscountAmounts
        (lines.map fun l => { resourceId := some l.1.resourceId, categoryId := l.2,
                              lineTotalCents := l.1.lineTotal })
        discount now (some (if tender = .cash then .cash else .posnet))
      match result.ineligibilityReason with
      | some .tenderMismatch => .error (.orderConflict
          "Este cupón de descuento es exclusivo para pagos en efectivo en mostrador.")
      | some _ => .error (.orderConflict "El código de descuento no es aplicable a este pedido.")
      | none => .ok
        { discountTotal := result.discountTotalCents, total := result.totalCents,
          appliedDiscountCodeId := some discount.id,
          discountMetadata := some (CartService.metadata discount result.discountTotalCents) }

/-- `CreateOrderService.createDirectFromItems`; the cart it sells is one it has just inserted. -/
def createDirectFromItems (request : DirectItemsRequest) (idempotencyKey : String) (cartId : Id)
    (draw : Draw) : DbTx Order := do
  let settings ← look Db.settings
  let locationId ← orThrow settings.primaryLocationId (.orderNotFound "Primary location not found.")
  let validated ← look fun db => request.items.mapM (directLine settings.defaultCurrency db)
  let lines ← fromExcept validated
  let priced ← look (directPrice lines request.discountCode request.tender draw.now)
  let price ← fromExcept priced
  let cart ← CartRepository.create
    { locationId, currency := settings.defaultCurrency, subtotal := (lines.map (·.1.lineTotal)).sum,
      discountTotal := price.discountTotal, total := price.total,
      appliedDiscountCodeId := price.appliedDiscountCodeId, discountMetadata := price.discountMetadata,
      expiresAt := draw.now + 30 * 60 * 1000, lines := lines.map (·.1) } cartId
  let name := Text.trim request.customer.name
  let (order, created) ← OrderRepository.createFromCartSnapshotWith
    (current (CartRepository.find cart.id))
    { cart, source := .adminDirect, paymentStatus := request.paymentStatus, tender := some request.tender,
      customer := { request.customer with name := if name = "" then "NN" else name },
      notes := request.notes, idempotencyKey, approvedAt := some draw.now } draw
  runIf created do
    runIf (request.tender = .cash ∧ request.paymentStatus = .paid) (deposit order draw)
    announceDirect order cart.id
    enqueueOrderTicket order draw
    runIf (request.paymentStatus = .paid)
      (BillingRepository.issueDocument
        { orderId := order.id, locationId := some order.locationId,
          customerName := some order.customerSnapshot.name })
    runIf (settings.expressRetail ∧ order.tender = .cash ∧ order.paymentStatus = .pending ∧
        (normalizeWhatsAppRecipient settings.ownerCashAlertWhatsAppPhone).isSome)
      (appendOutboxEvent "order" order.id "order.whatsapp_owner_cash_pending"
        [("orderId", .str order.id)])
  return order

/-- `CreateOrderService.createPaidFromPaymentAttempt` -/
def createPaidFromPaymentAttempt (paymentAttemptId : Id) (approvedAt : Option Instant) (draw : Draw) :
    DbTx Order := do
  let found ← look (OrderRepository.loadPaymentAttempt paymentAttemptId)
  let attempt ← orThrow found (.orderNotFound "Payment attempt not found.")
  throwIf (attempt.status ≠ .approved) (.orderConflict "Payment attempt is not approved.")
  let foundCart ← look (CartRepository.find attempt.cartId)
  let cart ← orThrow foundCart (.orderNotFound "Cart not found.")
  let (order, created) ← OrderRepository.createFromCartSnapshot
    { cart, source := .mercadopagoWebhook, paymentStatus := .paid, customer := attempt.customerSnapshot,
      notes := attempt.notes, scheduledFor := attempt.scheduledFor,
      estimatedReadyAt := attempt.scheduledFor, idempotencyKey := "payment-attempt:" ++ attempt.id,
      paymentAttemptId := some attempt.id, approvedAt := approvedAt.or attempt.processedAt } draw
  runIf created do
    announce order "order.create_paid"
      [("cartId", .str cart.id), ("paymentAttemptId", .str attempt.id),
        ("purchaseNumber", .num order.purchaseNumber)]
      [("orderId", .str order.id), ("source", .str order.source.text),
        ("paymentAttemptId", .str attempt.id),
        ("fulfillmentStatus", .str order.fulfillmentStatus.text),
        ("paymentStatus", .str order.paymentStatus.text)]
    enqueueOrderTicket order draw
    BillingRepository.issueDocument
      { orderId := order.id, locationId := some order.locationId, documentType := some .ticketInterno,
        customerName := some order.customerSnapshot.name }
  return order

end CreateOrderService

end Komanda
