import Komanda.OrderServices

/-!
# The operations on an order (`features/orders/application`)

Transition, cash collection, cash refund, cancellation of an unpaid order and expiry. The guards of all
five look at an unlocked read of the row. The four that move a settled order update it on the version
of that read; the transition updates it on the version its client sends.
-/

namespace Komanda
open Transaction Idempotency

/-- An update that matched no row answers a stale version. -/
def orStale (updated : Option Order) : DbTx Order := orThrow updated (.orderConflict "Order version is stale.")

/-- The withdrawal that gives the cash of an order back. -/
def withdrawal (order : Order) (shift : Option CashShift) (reason : Option String) (key : String)
    (draw : Draw) : CashMovement where
  id := draw.movementId
  locationId := order.locationId
  shiftId := shift.map (·.id)
  orderId := some order.id
  type := .cancellationWithdrawal
  amount := order.total
  occurredAt := draw.now
  reason
  idempotencyKey := some (key ++ order.id)

/-- A cancelled order releases its coupon's row, if it has a coupon. -/
def releaseCoupon (order : Order) : DbTx Unit :=
  runIf order.discountSnapshot.isSome (DiscountRepository.markRedemptionCancelled order.id)

namespace TransitionOrderService

structure Request where
  fulfillmentStatus : FulfillmentStatus
  pickupPin : Option String := none
  reason : Option String := none
deriving DecidableEq, Repr

/-- The guards, in their order: the first that refuses. -/
def obstacle (order : Order) (request : Request) : Option AppError :=
  let next := request.fulfillmentStatus
  if ¬ canTransition order.fulfillmentStatus next order.source then
    some (.orderTransition
      ("Cannot transition order from " ++ order.fulfillmentStatus.text ++ " to " ++ next.text ++ "."))
  else if (order.source = .storefrontCash ∨ order.tender = .cash) ∧ order.paymentStatus ≠ .paid ∧
      next ≠ .cancelled then
    some (.orderTransition "No se puede avanzar el pedido hasta confirmar su cobro en caja.")
  else if next = .cancelled ∧ order.tender = .cash ∧ order.paymentStatus = .paid ∧
      order.source ≠ .adminDirect then
    some (.orderConflict "Utilice el endpoint de devolución de efectivo (/refund-cash) para cancelar una orden cobrada.")
  else if next = .delivered ∧ order.paymentStatus = .verificationRequired then
    some (.orderTransition "No se puede entregar un pedido cuyo pago requiere verificación.")
  else if next = .delivered ∧ order.pickupPin.any (· ≠ "") ∧ request.pickupPin.any (· ≠ "") ∧
      request.pickupPin ≠ order.pickupPin then
    some .invalidPickupPin
  else none

/-- A paid counter sale in cash that is cancelled gives the cash back. -/
def refundsCash (order : Order) (next : FulfillmentStatus) : Bool :=
  next = .cancelled && order.source = .adminDirect && order.tender = .cash && order.paymentStatus = .paid

def wantsReadyNotice (order : Order) (next : FulfillmentStatus) : Bool :=
  next = .ready && order.paymentStatus = .paid &&
    (order.source = .storefrontCash || order.source = .mercadopagoWebhook) &&
    order.customerSnapshot.whatsappReadyOptIn = some true &&
    (normalizeWhatsAppRecipient order.customerSnapshot.phone).isSome

def notifyReady (order : Order) (next : FulfillmentStatus) : DbTx Unit :=
  runIf (wantsReadyNotice order next) do
    let notified ← Transaction.current fun db =>
      db.outbox.any fun e => e.aggregateId = order.id && e.eventType = "order.whatsapp_ready"
    runIf (¬ notified)
      (appendOutboxEvent "order" order.id "order.whatsapp_ready" [("orderId", .str order.id)])

/-- The writes of an accepted transition. `order` is the row the guards saw. -/
def apply (order : Order) (expectedVersion : Nat) (request : Request) (draw : Draw) : DbTx Order := do
  let next := request.fulfillmentStatus
  let returned ← OrderRepository.transition order.id expectedVersion next
    (if refundsCash order next then some .refunded else none) draw.now
  let updated ← orStale returned
  runIf (refundsCash order next) do
    let openShift ← look (openShiftAt order.locationId)
    recordMovement (withdrawal order openShift none "cash_withdrawal:" draw)
      (.orderConflict "Cancellation withdrawal already recorded for this order.")
  runIf (next = .cancelled) (releaseCoupon order)
  OrderRepository.appendTransitionEvent order.id order.fulfillmentStatus next request.reason
  let reason : Payload := request.reason.toList.map fun r => ("reason", .str r)
  appendAuditEvent "order.transition" "order" order.id
    ([("fromStatus", .str order.fulfillmentStatus.text), ("toStatus", .str next.text)] ++ reason)
  appendOutboxEvent "order" order.id "order.transitioned"
    ([("orderId", .str order.id), ("fromStatus", .str order.fulfillmentStatus.text),
      ("toStatus", .str next.text), ("paymentStatus", .str updated.paymentStatus.text),
      ("version", .num updated.version)] ++ reason)
  notifyReady updated next
  return updated

/-- `TransitionOrderService.transition` -/
def transition (orderId : Id) (expectedVersion : Nat) (request : Request) (draw : Draw) :
    DbTx Order := do
  let found ← look (OrderRepository.findById orderId)
  let order ← orThrow found (.orderNotFound "Order not found.")
  match obstacle order request with
  | some e => throw e
  | none =>
    if order.fulfillmentStatus = request.fulfillmentStatus then return order
    else apply order expectedVersion request draw

end TransitionOrderService

/-- The roles that may handle cash. -/
def Actor.handlesCash : Actor → Bool
  | .user _ role => [Role.owner, .admin, .employee].contains role
  | _ => false

namespace CollectCashService

/-- The eligibility guards of a collection, in their order. -/
def obstacle (order : Order) (now : Instant) : Option AppError :=
  if order.fulfillmentStatus = .cancelled then some (.orderConflict "Order is already cancelled.")
  else if order.paymentStatus = .refunded then
    some (.orderConflict "Order has already been refunded.")
  else if order.tender ≠ .cash then
    some (.orderConflict "Solo se permite cobrar en efectivo órdenes con método de pago en efectivo.")
  else if order.paymentExpiresAt.any (· ≤ now) then
    some (.orderConflict "El tiempo límite para abonar este pedido en caja ha expirado.")
  else none

/-- Authentication by the pickup PIN, or by the operator's own session. -/
def authenticationObstacle (order : Order) (actor : Actor) (request : CollectCashRequest) :
    Option AppError :=
  match request.authMethod with
  | .pickupPin =>
    if order.pickupPin.all (· = "") ∨ request.authCode ≠ order.pickupPin then some .invalidPickupPin
    else none
  | .accountAuth =>
    match actor with
    | .user userId _ =>
      if userId = "" then
        some (.forbiddenRole "Se requiere una sesión de usuario válida para autorizar el cobro.")
      else none
    | _ => some (.forbiddenRole "Se requiere una sesión de usuario válida para autorizar el cobro.")

def pay (o : Order) : Order := { o with paymentStatus := .paid }

/-- The writes of an accepted collection. `order` is the row the guards saw. -/
def apply (order : Order) (recordId : Id) (request : CollectCashRequest) (draw : Draw) :
    DbTx CollectCashResponse := do
  let openShift ← look (openShiftAt order.locationId)
  let returned ← OrderRepository.updateReturning (OrderRepository.atVersion order.id order.version) pay
    draw.now
  let updated ← orStale returned
  recordMovement
    { id := draw.movementId, locationId := order.locationId, shiftId := openShift.map (·.id),
      orderId := some order.id, type := .saleDeposit, amount := order.total, occurredAt := draw.now,
      reason := none, idempotencyKey := some ("cash_deposit:" ++ order.id) }
    (.database "cash_movements_order_type_uniq")
  enqueueOrderTicket updated draw
  OrderRepository.appendTransitionEvent order.id order.fulfillmentStatus order.fulfillmentStatus none
  appendAuditEvent "order.collect_cash" "order" order.id
    [("purchaseNumber", .num order.purchaseNumber), ("total", .num order.total),
      ("authMethod", .str (match request.authMethod with
        | .pickupPin => "pickup_pin" | .accountAuth => "account_auth")),
      ("shiftId", .ofOption (openShift.map (·.id)))]
  appendOutboxEvent "order" order.id "order.paid"
    [("orderId", .str order.id), ("source", .str order.source.text),
      ("fulfillmentStatus", .str order.fulfillmentStatus.text), ("paymentStatus", .str "paid"),
      ("purchaseNumber", .num order.purchaseNumber)]
  appendOutboxEvent "order" order.id "print.intent.created"
    [("orderId", .str order.id), ("source", .str order.source.text), ("paymentStatus", .str "paid")]
  let response : CollectCashResponse :=
    { orderId := updated.id, purchaseNumber := updated.purchaseNumber, paidAt := draw.now,
      version := updated.version }
  IdempotencyService.complete recordId 200 (.collectCash response)
  return response

/-- `CollectCashService.collect` -/
def collect (actor : Actor) (orderId : Id) (idempotencyKey : String) (request : CollectCashRequest)
    (recordId : Id) (draw : Draw) : DbTx CollectCashResponse := do
  throwIf (¬ actor.handlesCash)
    (.forbiddenRole "El operador no cuenta con un rol autorizado para cobrar en efectivo.")
  let claim ← IdempotencyService.claim ("collect-cash:" ++ orderId) idempotencyKey
    (.collectCash request) (some 3600) recordId draw.now
  match claim with
  | .replay _ body =>
    match body with
    | some (.collectCash cached) => return cached
    | _ => throw (.internal "Cached response has another shape.")
  | .claimed recordId _ => do
    let found ← look (OrderRepository.findById orderId)
    let order ← orThrow found (.orderNotFound "Order not found.")
    if order.paymentStatus = .paid then do
      let response : CollectCashResponse :=
        { orderId := order.id, purchaseNumber := order.purchaseNumber, paidAt := order.updatedAt,
          version := order.version }
      IdempotencyService.complete recordId 200 (.collectCash response)
      return response
    else match obstacle order draw.now, authenticationObstacle order actor request with
    | some e, _ => throw e
    | none, some e => throw e
    | none, none => apply order recordId request draw

end CollectCashService

namespace RefundCashService

/-- The guards of a refund, in their order. They do not ask how the order was paid, only for its
`tender`, and an order created without one carries `cash`. -/
def obstacle (order : Order) : Option AppError :=
  if order.fulfillmentStatus = .cancelled then some (.orderConflict "Order is already cancelled.")
  else if order.fulfillmentStatus = .delivered then
    some (.orderConflict "No se puede reembolsar un pedido que ya fue entregado.")
  else if order.tender ≠ .cash then
    some (.orderConflict "Solo se permite devolver órdenes cobradas en efectivo.")
  else if order.paymentStatus ≠ .paid then
    some (.orderConflict "Solo se pueden devolver órdenes cobradas (pagadas).")
  else none

def giveBack (o : Order) : Order := { o with paymentStatus := .refunded, fulfillmentStatus := .cancelled }

/-- The writes of an accepted refund. `order` is the row the guards saw. -/
def apply (order : Order) (recordId : Id) (request : RefundCashRequest) (draw : Draw) :
    DbTx RefundCashResponse := do
  let openShift ← look (openShiftAt order.locationId)
  let returned ← OrderRepository.updateReturning (OrderRepository.atVersion order.id order.version)
    giveBack draw.now
  let updated ← orStale returned
  recordMovement (withdrawal order openShift (some request.reason) "cash_refund:" draw)
    (.database "cash_movements_order_type_uniq")
  releaseCoupon order
  OrderRepository.appendTransitionEvent order.id order.fulfillmentStatus .cancelled none
  appendAuditEvent "order.refund_cash" "order" order.id
    [("purchaseNumber", .num order.purchaseNumber), ("total", .num order.total),
      ("reason", .str request.reason), ("operatorNote", .ofOption request.operatorNote),
      ("shiftId", .ofOption (openShift.map (·.id)))]
  appendOutboxEvent "order" order.id "order.refunded"
    [("orderId", .str order.id), ("source", .str order.source.text),
      ("fulfillmentStatus", .str "cancelled"), ("paymentStatus", .str "refunded"),
      ("purchaseNumber", .num order.purchaseNumber), ("reason", .str request.reason),
      ("refundedAt", .num draw.now)]
  let response : RefundCashResponse :=
    { orderId := updated.id, refundedAt := draw.now, cashMovementId := some draw.movementId,
      version := updated.version }
  IdempotencyService.complete recordId 200 (.refundCash response)
  return response

/-- `RefundCashService.refund` -/
def refund (actor : Actor) (orderId : Id) (idempotencyKey : String) (request : RefundCashRequest)
    (recordId : Id) (draw : Draw) : DbTx RefundCashResponse := do
  throwIf (¬ actor.handlesCash)
    (.forbiddenRole "El operador no cuenta con un rol autorizado para registrar devoluciones.")
  let claim ← IdempotencyService.claim ("refund-cash:" ++ orderId) idempotencyKey
    (.refundCash request) (some 3600) recordId draw.now
  match claim with
  | .replay _ body =>
    match body with
    | some (.refundCash cached) => return cached
    | _ => throw (.internal "Cached response has another shape.")
  | .claimed recordId _ => do
    let found ← look (OrderRepository.findById orderId)
    let order ← orThrow found (.orderNotFound "Order not found.")
    if order.paymentStatus = .refunded then do
      let existing ← look fun db => db.movements.find? fun m =>
        m.orderId = some order.id && m.type = .cancellationWithdrawal
      let response : RefundCashResponse :=
        { orderId := order.id, refundedAt := order.updatedAt, cashMovementId := existing.map (·.id),
          version := order.version }
      IdempotencyService.complete recordId 200 (.refundCash response)
      return response
    else match obstacle order with
    | some e => throw e
    | none => apply order recordId request draw

end RefundCashService

/-- What cancellation and expiry of an unpaid order append. -/
def announceCancellation (order updated : Order) (reason : String) : DbTx Unit := do
  releaseCoupon order
  OrderRepository.appendTransitionEvent order.id order.fulfillmentStatus .cancelled none
  appendAuditEvent "order.transition" "order" order.id
    [("fromStatus", .str order.fulfillmentStatus.text), ("toStatus", .str "cancelled"),
      ("reason", .str reason)]
  appendOutboxEvent "order" order.id "order.transitioned"
    [("orderId", .str order.id), ("fromStatus", .str order.fulfillmentStatus.text),
      ("toStatus", .str "cancelled"), ("paymentStatus", .str order.paymentStatus.text),
      ("version", .num updated.version), ("reason", .str reason)]

namespace CancelUnpaidOrderService

def obstacle (order : Order) (pickupPin : String) : Option AppError :=
  if order.pickupPin.all (· = "") ∨ order.pickupPin ≠ some pickupPin then some .invalidPickupPin
  else if order.paymentStatus = .paid then some .orderAlreadyPaid
  else if order.fulfillmentStatus = .delivered then
    some (.orderConflict "No se puede cancelar un pedido entregado.")
  else if order.paymentStatus ≠ .pending ∨ order.tender ≠ .cash then
    some (.orderConflict "Solo se permite cancelar pedidos en efectivo pendientes de pago.")
  else none

def cancelOrder (o : Order) : Order := { o with fulfillmentStatus := .cancelled }

/-- `CancelUnpaidOrderService.cancel` -/
def cancel (orderId : Id) (pickupPin : String) (draw : Draw) : DbTx Order := do
  let found ← look (OrderRepository.findById orderId)
  let order ← orThrow found (.orderNotFound "Order not found.")
  if order.fulfillmentStatus = .cancelled then return order
  else match obstacle order pickupPin with
  | some e => throw e
  | none => do
    let returned ← OrderRepository.updateReturning (OrderRepository.atVersion order.id order.version)
      cancelOrder draw.now
    let updated ← orStale returned
    announceCancellation order updated "unpaid_cash_cancelled"
    return updated

end CancelUnpaidOrderService

namespace ExpireUnpaidOrdersJob

/-- Only unpaid storefront cash orders whose time has run out expire. -/
def expires (order : Order) (currentTime : Instant) : Bool :=
  order.source = .storefrontCash && order.paymentStatus = .pending &&
    order.fulfillmentStatus = .approved && order.paymentExpiresAt.any (· ≤ currentTime)

def expireOrder (o : Order) : Order := { o with fulfillmentStatus := .cancelled, paymentStatus := .failed }

/-- The job's transaction for one candidate; the scan may have named any order. -/
def run (orderId : Id) (draw : Draw) : DbTx Unit := do
  let found ← look (OrderRepository.findById orderId)
  forSome (found.filter (expires · draw.now)) fun order => do
    let returned ← OrderRepository.updateReturning (OrderRepository.atVersion order.id order.version)
      expireOrder draw.now
    forSome returned fun updated => announceCancellation order updated "unpaid_cash_expired"

end ExpireUnpaidOrdersJob

end Komanda
