import Komanda.OrderOperations

/-!
# Payments (`features/payments`)

`integration.repository.ts`, the payment sessions of the storefront and of the kiosk, the webhook of
Mercado Pago and the reconciliation. The provider is a parameter: the preference it creates and the
payment it reports are inputs.
-/

namespace Komanda
open Transaction Idempotency

namespace IntegrationRepository

/-- `currentMercadoPago`: the tenant's first account, whatever its status. -/
def currentMercadoPago (db : Db) : Option IntegrationAccount := db.accounts.head?

/-- The statuses that `findActiveByCartId` searches. -/
def AttemptStatus.isActive (s : AttemptStatus) : Bool :=
  [AttemptStatus.initiated, .processing, .pending, .verificationRequired].contains s

def findActiveByCartId (cartId : Id) (db : Db) : Option PaymentAttempt :=
  db.attempts.find? fun a => a.cartId = cartId && AttemptStatus.isActive a.status

structure CreateAttemptInput where
  cartId : Id
  integrationAccountId : Id
  amount : Cents
  currency : String
  customer : Customer
  notes : Option String
  scheduledFor : Option Instant := none
  idempotencyKey : String
deriving DecidableEq, Repr

def CreateAttemptInput.row (input : CreateAttemptInput) (newId : Id) : PaymentAttempt where
  id := newId
  cartId := input.cartId
  integrationAccountId := input.integrationAccountId
  providerPreferenceId := none
  providerPaymentId := none
  status := .initiated
  amount := input.amount
  currency := input.currency
  customerSnapshot := input.customer
  notes := input.notes
  scheduledFor := input.scheduledFor
  idempotencyKey := input.idempotencyKey
  processedAt := none
  failureCode := none

/-- `createPaymentAttempt`: a key that is taken gives the attempt that holds it, if it is of the same
cart. -/
def createPaymentAttempt (input : CreateAttemptInput) (newId : Id) : DbTx PaymentAttempt := do
  throwIf (input.amount = 0) (.database "payment_attempts_amount_check")
  let taken ← current fun db =>
    db.attempts.any fun a => a.id = newId || a.idempotencyKey = input.idempotencyKey
  if ¬ taken then do
    write fun db => { db with attempts := db.attempts ++ [input.row newId] }
    return input.row newId
  else do
    let found ← current fun db =>
      Table.lookup PaymentAttempt.idempotencyKey input.idempotencyKey db.attempts
    let existing ← orThrow found (.internal "Payment attempt is missing.")
    throwIf (existing.cartId ≠ input.cartId)
      (.paymentAttemptIdempotencyConflict "Idempotency key belongs to another cart.")
    return existing

def updateAttempt (attemptId : Id) (f : PaymentAttempt → PaymentAttempt) : DbTx Unit :=
  write fun db => { db with attempts := Table.updateWhere (·.id = attemptId) f db.attempts }

/-- `INSERT … ON CONFLICT DO NOTHING` into `provider_resource_routes`. -/
def insertRoute (route : ProviderResourceRoute) : DbTx Unit :=
  write fun db =>
    if db.routes.any fun r => r.resourceType = route.resourceType && r.externalId = route.externalId
    then db
    else { db with routes := db.routes ++ [route] }

def preferred (preferenceId : String) (a : PaymentAttempt) : PaymentAttempt :=
  { a with providerPreferenceId := some preferenceId, status := .processing }

/-- `attachPreference`: the attempt becomes `processing` whatever its status was. -/
def attachPreference (attemptId integrationAccountId : Id) (preferenceId : String) : DbTx Unit := do
  let mine (a : PaymentAttempt) : Bool :=
    a.id = attemptId && a.integrationAccountId = integrationAccountId
  let matched ← current fun db => db.attempts.any mine
  write fun db => { db with
    attempts := Table.updateWhere mine (preferred preferenceId) db.attempts }
  throwIf (¬ matched) (.paymentAttemptIdempotencyConflict
    "Payment attempt no longer matches its integration account.")
  insertRoute
    { resourceType := .preference, externalId := preferenceId, integrationAccountId,
      localResourceId := attemptId }

end IntegrationRepository

/-! ## Payment sessions -/

/-- What the provider answers to `createPreference`. -/
structure Preference where
  preferenceId : String
  redirectUrl : String
deriving DecidableEq, Repr

namespace PaymentSessionService

/-- The line still costs what the cart says. A line sold by weight has no `calculatedSubtotal` here. -/
def revalidateLine (cart : Cart) (db : Db) (line : CartLine) : Except AppError Unit :=
  match line.itemId.or line.comboId with
  | none => .error (.paymentSessionConflict "Cart line has no catalog resource.")
  | some resourceId =>
    let isCombo := line.itemId.isNone
    match CartRepository.loadSelection isCombo resourceId db with
    | none => .error (.paymentSessionConflict "Cart catalog resource is unavailable.")
    | some catalog =>
      if catalog.currency ≠ cart.currency then
        .error (.paymentSessionConflict "Cart catalog resource is unavailable.")
      else match revalidateCartSelection
        { isCombo, resourceId, quantity := line.quantity,
          optionIds := line.options.map (·.addonOptionId) } catalog with
      | .error message => .error (.paymentSessionConflict message)
      | .ok validated =>
        if validated.unitPriceCents ≠ line.unitPriceSnapshot then
          .error (.paymentSessionConflict "Cart price changed.")
        else .ok ()

/-- The answer of `prepare`. -/
inductive Prepared
  | replayed (body : Option IdemResponse)
  | ready (session : PreparedSession)
deriving DecidableEq, Repr

/-- `PaymentSessionService.prepare`, the first transaction of `create`. -/
def prepare (tenant : PublicTenant) (cartId : Id) (request : CheckoutRequest) (idempotencyKey : String)
    (recordId attemptId : Id) (now : Instant) : DbTx Prepared := do
  throwIf tenant.expressRetail (.orderingNotSupported
    "El comercio opera en modo autoservicio presencial. Los pedidos web no están habilitados.")
  let onlinePayments ← look fun db => db.settings.onlinePayments
  throwIf (¬ onlinePayments)
    (.paymentSessionConflict "Online payments are not enabled for this tenant.")
  let foundAccount ← look IntegrationRepository.currentMercadoPago
  let account ← orThrow (foundAccount.filter (·.status = .active))
    (.paymentSessionProviderUnavailable "Mercado Pago is not connected for this tenant.")
  let claim ← IdempotencyService.claim ("payment-session:" ++ cartId) idempotencyKey
    (.paymentSession request) (some 3600) recordId now
  match claim with
  | .replay _ body => return .replayed body
  | .claimed recordId _ => do
    let found ← look (CartRepository.find cartId)
    let cart ← orThrow found (.paymentSessionCartUnavailable "Cart is unavailable.")
    throwIf (CartService.unavailable now cart ∨ cart.status = .converted)
      (.paymentSessionCartUnavailable "Cart is unavailable.")
    throwIf (request.cartVersion.any (· ≠ cart.version))
      (.paymentSessionConflict "Cart version is stale.")
    throwIf (cart.lines = [] ∨ cart.total = 0) (.paymentSessionConflict "Cart is not payable.")
    let obstacle ← look (CreateCashOrderService.couponObstacle cart now .mercadopago)
    throwIf (obstacle = some .tenderMismatch) .couponTenderMismatch
    throwIf obstacle.isSome (.paymentSessionConflict
      ((obstacle.map CreateCashOrderService.invalidCouponMessage).getD ""))
    let revalidated ← look fun db => cart.lines.forM (revalidateLine cart db)
    fromExcept revalidated
    let existingAttempt ← look (IntegrationRepository.findActiveByCartId cart.id)
    throwIf existingAttempt.isSome
      (.paymentSessionConflict "A payment session already exists for this cart.")
    let scheduledFor ← fromExcept (validateScheduledPickupTime request.scheduledFor now tenant)
    let attempt ← IntegrationRepository.createPaymentAttempt
      { cartId := cart.id, integrationAccountId := account.id, amount := cart.total,
        currency := cart.currency, customer := request.customer, notes := request.notes, scheduledFor,
        idempotencyKey } attemptId
    throwIf (¬ account.decryptable) (.internal "Encryption key version is unavailable.")
    return .ready
      { attemptId := attempt.id, integrationAccountId := account.id, cartId := cart.id,
        total := cart.total, currency := cart.currency, recordId }

/-- The second transaction of `create`, once the provider has issued the preference. -/
def attach (session : PreparedSession) (preference : Preference) : DbTx PaymentSessionResponse := do
  let body : PaymentSessionResponse :=
    { paymentAttemptId := session.attemptId, preferenceId := preference.preferenceId,
      redirectUrl := preference.redirectUrl, cartId := session.cartId, amount := session.total,
      currency := session.currency }
  IntegrationRepository.attachPreference session.attemptId session.integrationAccountId
    preference.preferenceId
  IdempotencyService.complete session.recordId 201 (.paymentSession body)
  return body

/-- The second transaction of `create` when the provider or `attach` has failed. The attempt stays. -/
def giveUp (session : PreparedSession) : DbTx Unit := IdempotencyService.fail session.recordId

end PaymentSessionService

namespace KioskPaymentService

def kioskLine (currency : String) (db : Db) (item : KioskPaymentItem) :
    Except AppError (NewCartLine × Option Id) :=
  match CartRepository.loadSelection false item.catalogItemId db with
  | none => .error (.kioskPaymentItemUnavailable ("Product " ++ item.catalogItemId ++ " is unavailable."))
  | some catalog =>
    if catalog.currency ≠ currency then
      .error (.kioskPaymentItemUnavailable ("Product " ++ item.catalogItemId ++ " is unavailable."))
    else match revalidateCartSelection
      { isCombo := false, resourceId := item.catalogItemId, quantity := item.quantity,
        calculatedSubtotal := item.calculatedSubtotal } catalog with
    | .error message => .error (.cartRevalidation message)
    | .ok validated =>
      let quantity := if validated.itemType = .weighted then 1 else item.quantity
      .ok ({ isCombo := false, resourceId := item.catalogItemId, itemType := validated.itemType,
             quantity, name := catalog.name, unitPrice := validated.unitPriceCents,
             lineTotal := validated.unitPriceCents * quantity, imageUrl := catalog.imageUrl,
             note := none, options := validated.options },
           catalog.categoryId)

/-- The price of a kiosk cart; its coupon metadata carries no tender restriction. -/
def kioskPrice (lines : List (NewCartLine × Option Id)) (discountCode : Option String) (now : Instant)
    (db : Db) : Except AppError CartRepository.Repricing :=
  match discountCode.filter (· ≠ "") with
  | none => .ok (CreateOrderService.fullPrice lines)
  | some code =>
    match DiscountRepository.findByCode code db with
    | none => .error (.kioskPaymentCartUnavailable "Código de descuento inválido o no encontrado.")
    | some discount =>
      let result := calculateDiscountAmounts
        (lines.map fun l => { resourceId := some l.1.resourceId, categoryId := l.2,
                              lineTotalCents := l.1.lineTotal }) discount now (some .mercadopago)
      match result.ineligibilityReason with
      | some .tenderMismatch =>
        .error (.kioskPaymentCartUnavailable "Este cupón es exclusivo para pagos en efectivo.")
      | some _ => .error
        (.kioskPaymentCartUnavailable "El código de descuento no es aplicable a este pedido.")
      | none =>
        let m := CartService.metadata discount result.discountTotalCents
        .ok { discountTotal := result.discountTotalCents, total := result.totalCents,
              appliedDiscountCodeId := some discount.id,
              discountMetadata := some { m with tenderRestriction := none } }

/-- `kioskDiscountPreviewSchema` -/
structure KioskDiscountPreviewRequest where
  items : List KioskPaymentItem
  discountCode : String
  tender : Option Tender := none
deriving DecidableEq, Repr

structure KioskDiscountPreviewResponse where
  eligible : Bool
  reason : Option String
  code : String
  name : Option String
  subtotal : Cents
  discountTotal : Cents
  total : Cents
  applicableTender : Option ApplicableTender
deriving DecidableEq, Repr

/-- The answer of `previewDiscount` about lines it has validated. -/
def preview (linesForDiscount : List CartLineForDiscount) (discountCode : String) (tender : Option Tender)
    (now : Instant) (db : Db) : KioskDiscountPreviewResponse :=
  let subtotal := sumCents linesForDiscount
  match DiscountRepository.findByCode discountCode db with
  | none =>
    { eligible := false, reason := some "DISCOUNT_NOT_FOUND", code := discountCode, name := none, subtotal,
      discountTotal := 0, total := subtotal, applicableTender := none }
  | some discount =>
    let calcResult := calculateDiscountAmounts linesForDiscount discount now tender
    match calcResult.ineligibilityReason with
    | some reason =>
      { eligible := false, reason := some reason.code, code := discount.code, name := some discount.name, subtotal,
        discountTotal := 0, total := subtotal, applicableTender := some discount.applicableTender }
    | none =>
      { eligible := true, reason := none, code := discount.code, name := some discount.name, subtotal,
        discountTotal := calcResult.discountTotalCents, total := calcResult.totalCents,
        applicableTender := some discount.applicableTender }

/-- `KioskPaymentService.previewDiscount`; its loop validates the items as that of `createSession`. -/
def previewDiscount (request : KioskDiscountPreviewRequest) (now : Instant) : DbTx KioskDiscountPreviewResponse := do
  let currency ← look fun db => db.settings.defaultCurrency
  let validated ← look fun db => request.items.mapM (kioskLine currency db)
  let lines ← fromExcept validated
  let linesForDiscount := lines.map fun l : NewCartLine × Option Id =>
    ({ resourceId := some l.1.resourceId, categoryId := l.2, lineTotalCents := l.1.lineTotal } : CartLineForDiscount)
  look (preview linesForDiscount request.discountCode request.tender now)

/-- `KioskPaymentService.createSession`; a refusal of the provider rolls everything back. -/
def createSession (request : KioskPaymentSessionRequest) (idempotencyKey : String)
    (recordId cartId attemptId : Id) (preference : Except AppError Preference) (now : Instant) :
    DbTx KioskPaymentSessionResponse := do
  let foundAccount ← look IntegrationRepository.currentMercadoPago
  let account ← orThrow (foundAccount.filter (·.status = .active)) (.paymentGatewayNotConfigured
    "El local no tiene una cuenta de Mercado Pago activa para recibir cobros.")
  let claim ← IdempotencyService.claim "kiosk-payment-session" idempotencyKey (.kioskSession request)
    (some 120) recordId now
  match claim with
  | .replay _ body =>
    match body with
    | some (.kioskSession cached) => return cached
    | _ => throw (.internal "Cached response has another shape.")
  | .claimed recordId _ => do
    let settings ← look Db.settings
    let locationId ← orThrow settings.primaryLocationId
      (.kioskPaymentCartUnavailable "Primary location not found.")
    let validated ← look fun db => request.items.mapM (kioskLine settings.defaultCurrency db)
    let lines ← fromExcept validated
    let priced ← look (kioskPrice lines request.discountCode now)
    let price ← fromExcept priced
    let expiresAt := now + 120 * 1000
    let cart ← CartRepository.create
      { locationId, currency := settings.defaultCurrency, subtotal := (lines.map (·.1.lineTotal)).sum,
        discountTotal := price.discountTotal, total := price.total,
        appliedDiscountCodeId := price.appliedDiscountCodeId,
        discountMetadata := price.discountMetadata, expiresAt, lines := lines.map (·.1) } cartId
    let attempt ← IntegrationRepository.createPaymentAttempt
      { cartId := cart.id, integrationAccountId := account.id, amount := cart.total,
        currency := cart.currency, customer := request.customer,
        notes := some (request.notes.getD "Cobro Kiosk QR Mercado Pago"), idempotencyKey } attemptId
    throwIf (¬ account.decryptable) (.internal "Encryption key version is unavailable.")
    let issued ← fromExcept preference
    IntegrationRepository.attachPreference attempt.id account.id issued.preferenceId
    let body : KioskPaymentSessionResponse :=
      { paymentAttemptId := attempt.id, cartId := cart.id, total := cart.total,
        currency := cart.currency, qrData := issued.redirectUrl, expiresAt }
    IdempotencyService.complete recordId 201 (.kioskSession body)
    return body

def cancellable (a : PaymentAttempt) : Bool :=
  a.status = .initiated || a.status = .processing || a.status = .pending

def cancelled (a : PaymentAttempt) : PaymentAttempt :=
  { a with status := .failed, failureCode := some "cancelled_by_kiosk_timeout_or_user" }

/-- `KioskPaymentService.cancelAttempt` -/
def cancelAttempt (attemptId : Id) (idempotencyKey : String) (recordId : Id) (now : Instant) :
    DbTx Instant := do
  let claim ← IdempotencyService.claim ("kiosk-cancel-attempt:" ++ attemptId) idempotencyKey
    (.kioskCancel attemptId) (some 120) recordId now
  match claim with
  | .replay _ body =>
    match body with
    | some (.kioskCancel cancelledAt) => return cancelledAt
    | _ => throw (.internal "Cached response has another shape.")
  | .claimed recordId _ => do
    let found ← look (OrderRepository.loadPaymentAttempt attemptId)
    let attempt ← orThrow found (.kioskPaymentCartUnavailable "Payment attempt not found.")
    runIf (cancellable attempt) (IntegrationRepository.updateAttempt attemptId cancelled)
    IdempotencyService.complete recordId 200 (.kioskCancel now)
    return now

end KioskPaymentService

end Komanda
