import Komanda.Payments

/-!
# Confirmation of payments (`mercadopago-webhook.service.ts`, `payment-reconciliation.service.ts`)

Two transactions write down what Mercado Pago reports of a payment: the webhook, when the provider
notifies, and the reconciliation, when the worker asks. Both read the attempt without a lock and then
update it by its id.
-/

namespace Komanda
open Transaction Idempotency

/-- The statuses of a provider payment that the services tell apart. -/
inductive ProviderStatus
  | approved
  | rejected
  | cancelled
  | pending
  | inProcess
  | authorized
  | other
deriving DecidableEq, Repr

/-- `MercadoPagoPayment`, amounts in cents. The metadata texts are trimmed and not blank. -/
structure MercadoPagoPayment where
  id : String
  status : ProviderStatus
  preferenceId : Option String := none
  metadataPreferenceId : Option String := none
  metadataPaymentAttemptId : Option String := none
  dateApproved : Option Instant := none
  transactionAmount : Option Int := none
  netReceivedAmount : Option Int := none
  feeDetails : List FeeDetail := []
  taxesAmount : Option Int := none
  taxes : List TaxDetail := []
  moneyReleased : Bool := false
  moneyReleaseDate : Option Instant := none
  dateReleased : Option Instant := none
deriving DecidableEq, Repr

structure ReceivedMercadoPagoWebhook where
  routingKey : String
  providerEventId : String
  topic : String
deriving DecidableEq, Repr

namespace Webhook

def paymentStatus : ProviderStatus → AttemptStatus
  | .approved => .approved
  | .rejected | .cancelled => .rejected
  | .pending | .inProcess | .authorized => .pending
  | .other => .failed

def priority : AttemptStatus → Nat
  | .approved => 4
  | .pending | .processing => 3
  | .initiated => 2
  | _ => 1

def statusText : AttemptStatus → String
  | .initiated => "initiated"
  | .processing => "processing"
  | .pending => "pending"
  | .approved => "approved"
  | .rejected => "rejected"
  | .failed => "failed"
  | .duplicate => "duplicate"
  | .verificationRequired => "verification_required"

def findRoute (accountId : Id) (resourceType : ResourceType) (externalId : String) (db : Db) :
    Option ProviderResourceRoute :=
  db.routes.find? fun r => r.resourceType = resourceType && r.externalId = externalId &&
    r.integrationAccountId = accountId

/-- The attempt that a payment names: by its own route, by its preference's, or by its metadata. -/
def attemptIdOf (accountId : Id) (payment : MercadoPagoPayment) (db : Db) : Option Id :=
  let paymentRoute := findRoute accountId .payment payment.id db
  let preferenceRoute := (payment.preferenceId.or payment.metadataPreferenceId).bind fun preferenceId =>
    findRoute accountId .preference preferenceId db
  ((paymentRoute.or preferenceRoute).map (·.localResourceId)).or payment.metadataPaymentAttemptId

def findPaymentAttempt (accountId attemptId : Id) (db : Db) : Option PaymentAttempt :=
  db.attempts.find? fun a => a.integrationAccountId = accountId && a.id = attemptId

/-- `persistEvent`: tells whether the event is new. -/
def persistEvent (event : ReceivedMercadoPagoWebhook) (status : WebhookEventStatus) (eventId : Id) :
    DbTx Bool := do
  let taken ← current fun db => db.webhookEvents.any fun e =>
    e.id = eventId || (e.providerEventId = event.providerEventId && e.topic = event.topic)
  runIf (¬ taken) (write fun db => { db with
    webhookEvents := db.webhookEvents ++
      [{ id := eventId, providerEventId := event.providerEventId, topic := event.topic, status }] })
  return ¬ taken

/-- `updatePaymentAttemptFromWebhook` -/
def reported (payment : MercadoPagoPayment) (now : Instant) (a : PaymentAttempt) : PaymentAttempt :=
  let status := paymentStatus payment.status
  { a with
    providerPaymentId := some payment.id
    status
    processedAt := if status = .approved then some (payment.dateApproved.getD now) else none
    failureCode := if status = .failed then some "provider_status" else none }

/-- The settlement of a payment, derived from what the payload says of it. -/
def financialRecord (payment : MercadoPagoPayment) (attempt : PaymentAttempt) (order : Order)
    (now : Instant) : MpFinancialRecord :=
  let gross := payment.transactionAmount.getD attempt.amount
  let fee := if payment.feeDetails ≠ [] then (payment.feeDetails.map (·.amount)).sum
    else match payment.netReceivedAmount with
      | some net => max 0 (gross - net - payment.taxesAmount.getD 0)
      | none => 0
  let taxes := payment.taxesAmount.getD (payment.taxes.map (·.amount)).sum
  { locationId := order.locationId
    orderId := order.id
    mpPaymentId := payment.id
    grossAmount := gross
    feeAmount := fee
    feeDetails := payment.feeDetails
    taxesAmount := taxes
    taxesDetails := payment.taxes
    netReceivedAmount := payment.netReceivedAmount.getD (gross - fee - taxes)
    isFeeInclusiveOfTax := taxes = 0 && fee > 0 && payment.taxes.isEmpty
    moneyReleased := payment.moneyReleased
    moneyReleaseExpectedAt := payment.moneyReleaseDate
    moneyReleasedAt := payment.dateReleased.or (if payment.moneyReleased then some now else none)
    settlementDate := payment.dateApproved.getD now }

/-- `INSERT … ON CONFLICT (mp_payment_id) DO UPDATE` -/
def upsertFinancialRecord (record : MpFinancialRecord) : DbTx Unit :=
  write fun db =>
    if db.financialRecords.any (·.mpPaymentId = record.mpPaymentId) then { db with
      financialRecords :=
        Table.updateWhere (·.mpPaymentId = record.mpPaymentId) (fun _ => record) db.financialRecords }
    else { db with financialRecords := db.financialRecords ++ [record] }

/-- What the confirmations of a paid attempt pass to `createFromCartSnapshot`: no tender, and no
scheduled time. -/
def paidSnapshot (cart : Cart) (attempt : PaymentAttempt) (approvedAt : Instant) : SnapshotInput where
  cart := cart
  source := .mercadopagoWebhook
  paymentStatus := .paid
  customer := attempt.customerSnapshot
  notes := attempt.notes
  idempotencyKey := "payment-attempt:" ++ attempt.id
  paymentAttemptId := some attempt.id
  approvedAt := some approvedAt

/-- The order of an attempt whose payment is approved: from its cart, unless that is converted already. -/
def orderOfApproved (updated : PaymentAttempt) (event : ReceivedMercadoPagoWebhook) (draw : Draw) :
    DbTx (Option Order) := do
  let found ← look (CartRepository.find updated.cartId)
  match found.filter (·.status ≠ .converted) with
  | some cart => do
    let (order, created) ← OrderRepository.createFromCartSnapshot
      (paidSnapshot cart updated (updated.processedAt.getD draw.now)) draw
    runIf created do
      appendAuditEvent "order.create_paid" "order" order.id
        [("paymentAttemptId", .str updated.id), ("providerEventId", .str event.providerEventId)]
      appendOutboxEvent "order" order.id "order.created"
        [("orderId", .str order.id), ("paymentAttemptId", .str updated.id)]
      enqueueOrderTicket order draw
    return some order
  | none => look (OrderRepository.findByPaymentAttempt updated.id)

structure Outcome where
  duplicate : Bool
  routed : Bool
  outOfOrder : Bool
  paymentAttemptId : Option Id
deriving DecidableEq, Repr

/-- The writes for a routed event that is in order. `attempt` is the row the webhook read. -/
def record (attempt : PaymentAttempt) (event : ReceivedMercadoPagoWebhook) (payment : MercadoPagoPayment)
    (draw : Draw) : DbTx Unit := do
  IntegrationRepository.insertRoute
    { resourceType := .payment, externalId := payment.id,
      integrationAccountId := attempt.integrationAccountId, localResourceId := attempt.id }
  IntegrationRepository.updateAttempt attempt.id (reported payment draw.now)
  let updated ← current (OrderRepository.loadPaymentAttempt attempt.id)
  appendOutboxEvent "payment_attempt" attempt.id "mercadopago.payment.updated"
    [("providerEventId", .str event.providerEventId),
      ("status", .str (statusText (paymentStatus payment.status)))]
  runIf (payment.status = .approved) do
    forSome updated fun updated => do
      let targetOrder ← orderOfApproved updated event draw
      forSome targetOrder fun order =>
        upsertFinancialRecord (financialRecord payment attempt order draw.now)

/-- `receiveMercadoPagoWebhook` -/
def receive (event : ReceivedMercadoPagoWebhook) (payment : MercadoPagoPayment) (eventId : Id)
    (draw : Draw) : DbTx Outcome := do
  let foundAccount ← look fun db => db.accounts.find? (·.webhookRoutingKey = event.routingKey)
  let account ← orThrow foundAccount (.webhookRouting "Webhook route not found.")
  throwIf (¬ account.decryptable) (.internal "Encryption key version is unavailable.")
  let attemptId ← look (attemptIdOf account.id payment)
  let found ← look fun db => attemptId.bind (findPaymentAttempt account.id · db)
  let isNew ← persistEvent event (if found.isSome then .processed else .ignored) eventId
  match found with
  | none => return { duplicate := !isNew, routed := false, outOfOrder := false, paymentAttemptId := none }
  | some attempt =>
    let outOfOrder : Bool := priority (paymentStatus payment.status) < priority attempt.status
    runIf (isNew ∧ ¬ outOfOrder) (record attempt event payment draw)
    return { duplicate := !isNew, routed := true, outOfOrder, paymentAttemptId := some attempt.id }

end Webhook

namespace Reconciliation

structure Result where
  previousStatus : AttemptStatus
  nextStatus : AttemptStatus
  orderId : Option Id
  resolved : Bool
deriving DecidableEq, Repr

def approved (approvedAt : Instant) (a : PaymentAttempt) : PaymentAttempt :=
  { a with status := .approved, processedAt := some approvedAt }

def rejected (a : PaymentAttempt) : PaymentAttempt :=
  { a with status := .rejected, failureCode := some "provider_rejected" }

def uncertain (a : PaymentAttempt) : PaymentAttempt := { a with status := .verificationRequired }

/-- The order of an attempt that has none, from its cart, unless that is converted already. -/
def createOrder (attempt : PaymentAttempt) (approvedAt : Instant) (draw : Draw) : DbTx (Option Id) := do
  let found ← look (CartRepository.find attempt.cartId)
  match found.filter (·.status ≠ .converted) with
  | none => return none
  | some cart => do
    let (order, _) ← OrderRepository.createFromCartSnapshot
      (Webhook.paidSnapshot cart attempt approvedAt) draw
    appendAuditEvent "order.create_paid" "order" order.id
      [("cartId", .str cart.id), ("paymentAttemptId", .str attempt.id)]
    appendOutboxEvent "order" order.id "order.created"
      [("orderId", .str order.id), ("paymentStatus", .str "paid")]
    appendOutboxEvent "order" order.id "print.intent.created"
      [("orderId", .str order.id), ("paymentStatus", .str "paid")]
    return some order.id

/-- The writes for an approved payment. `attempt` and `existingOrder` are the rows that were read. -/
def confirm (attempt : PaymentAttempt) (existingOrder : Option Order) (approvedAt : Instant)
    (draw : Draw) : DbTx (Option Id) := do
  IntegrationRepository.updateAttempt attempt.id (approved approvedAt)
  match existingOrder with
  | none => createOrder attempt approvedAt draw
  | some order => do
    runIf (order.paymentStatus ≠ .paid) do
      let _ ← OrderRepository.updatePaymentStatus order.id .paid draw.now
      appendOutboxEvent "order" order.id "order.paid"
        [("orderId", .str order.id), ("previousStatus", .str order.paymentStatus.text)]
    return some order.id

/-- The writes for a rejected payment. -/
def refuse (attempt : PaymentAttempt) (existingOrder : Option Order) (draw : Draw) : DbTx Unit := do
  IntegrationRepository.updateAttempt attempt.id rejected
  forSome (existingOrder.filter (·.paymentStatus = .verificationRequired)) fun order => do
    let _ ← OrderRepository.updatePaymentStatus order.id .failed draw.now
    pure ()

/-- The attempts that are not asked about again. -/
def settled (a : PaymentAttempt) : Bool :=
  a.status = .approved || a.status = .rejected || a.status = .failed

/-- `reconcilePaymentAttempt`; `lookup` is the provider's answer, if it gives one. -/
def reconcilePaymentAttempt (attemptId : Id) (lookup : Option MercadoPagoPayment) (draw : Draw) :
    DbTx Result := do
  let found ← look (OrderRepository.loadPaymentAttempt attemptId)
  let attempt ← orThrow found (.internal ("Payment attempt " ++ attemptId ++ " not found."))
  let unresolved (nextStatus : AttemptStatus) (orderId : Option Id) : Result :=
    { previousStatus := attempt.status, nextStatus, orderId, resolved := false }
  if settled attempt then
    return { previousStatus := attempt.status, nextStatus := attempt.status, orderId := none, resolved := true }
  else if attempt.providerPaymentId = none then return unresolved attempt.status none
  else do
    let foundAccount ← look IntegrationRepository.currentMercadoPago
    let account ← orThrow foundAccount (.internal "Active integration account not found for tenant.")
    throwIf (¬ account.decryptable) (.internal "Encryption key version is unavailable.")
    match lookup with
    | none => return unresolved .verificationRequired none
    | some payment => do
      let existingOrder ← look (OrderRepository.findByPaymentAttempt attempt.id)
      if payment.status = .approved then do
        let orderId ← confirm attempt existingOrder (payment.dateApproved.getD draw.now) draw
        return { previousStatus := attempt.status, nextStatus := .approved, orderId, resolved := true }
      else if payment.status = .rejected ∨ payment.status = .cancelled then do
        refuse attempt existingOrder draw
        return { previousStatus := attempt.status, nextStatus := .rejected,
                 orderId := existingOrder.map (·.id), resolved := true }
      else do
        runIf (attempt.status ≠ .verificationRequired)
          (IntegrationRepository.updateAttempt attempt.id uncertain)
        return unresolved .verificationRequired (existingOrder.map (·.id))

end Reconciliation

end Komanda
