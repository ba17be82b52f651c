import Komanda.Schema

/-!
# The database of a tenant, and what every service does to it

`Db` collects the tables of `Schema`; a service is a transaction (`DbTx`) on it. Requests and stored
responses of the idempotent services are the values of `IdemRequest` and `IdemResponse`: the digest of
a request is taken to be injective, so the request stands for its hash.
-/

namespace Komanda
open Transaction

/-- `createCartSchema.lines` -/
structure CartSelection where
  isCombo : Bool
  resourceId : Id
  quantity : Nat
  optionIds : List Id := []
  note : Option String := none
  confirmedUnitPrice : Option String := none
  calculatedSubtotal : Option Cents := none
deriving DecidableEq, Repr

structure CreateCartRequest where
  lines : List CartSelection
  discountCode : Option String := none
deriving DecidableEq, Repr

/-- `createCashOrderSchema` and `createPaymentSessionSchema`, which has an email besides. -/
structure CheckoutRequest where
  customer : Customer
  notes : Option String := none
  scheduledFor : Option Instant := none
  cartVersion : Option Nat := none
deriving DecidableEq, Repr

structure KioskPaymentItem where
  catalogItemId : Id
  quantity : Nat
  calculatedSubtotal : Option Cents := none
deriving DecidableEq, Repr

structure KioskPaymentSessionRequest where
  items : List KioskPaymentItem
  customer : Customer := { name := "Cliente Autoservicio" }
  notes : Option String := none
  discountCode : Option String := none
deriving DecidableEq, Repr

inductive AuthMethod
  | pickupPin
  | accountAuth
deriving DecidableEq, Repr

structure CollectCashRequest where
  authMethod : AuthMethod
  authCode : Option String := none
deriving DecidableEq, Repr

structure RefundCashRequest where
  reason : String
  operatorNote : Option String := none
deriving DecidableEq, Repr

inductive IdemRequest
  | createCart (request : CreateCartRequest)
  | cashOrder (request : CheckoutRequest)
  | paymentSession (request : CheckoutRequest)
  | kioskSession (request : KioskPaymentSessionRequest)
  | kioskCancel (attemptId : Id)
  | collectCash (request : CollectCashRequest)
  | refundCash (request : RefundCashRequest)
deriving DecidableEq, Repr

structure CreateCashOrderResponse where
  orderId : Id
  purchaseNumber : Nat
  pickupPin : String
  total : Cents
  scheduledFor : Option Instant
  expiresAt : Instant
  secondsRemaining : Nat
deriving DecidableEq, Repr

structure PaymentSessionResponse where
  paymentAttemptId : Id
  preferenceId : String
  redirectUrl : String
  cartId : Id
  amount : Cents
  currency : String
deriving DecidableEq, Repr

structure KioskPaymentSessionResponse where
  paymentAttemptId : Id
  cartId : Id
  total : Cents
  currency : String
  qrData : String
  expiresAt : Instant
deriving DecidableEq, Repr

structure CollectCashResponse where
  orderId : Id
  purchaseNumber : Nat
  paidAt : Instant
  version : Nat
deriving DecidableEq, Repr

structure RefundCashResponse where
  orderId : Id
  refundedAt : Instant
  cashMovementId : Option Id
  version : Nat
deriving DecidableEq, Repr

inductive IdemResponse
  | cart (cartId : Id)
  | cashOrder (response : CreateCashOrderResponse)
  | paymentSession (response : PaymentSessionResponse)
  | kioskSession (response : KioskPaymentSessionResponse)
  | kioskCancel (cancelledAt : Instant)
  | collectCash (response : CollectCashResponse)
  | refundCash (response : RefundCashResponse)
deriving DecidableEq, Repr

/-- The error classes of the services, with their messages. -/
inductive AppError
  | idempotency (e : Idempotency.IdempotencyError)
  /-- A violated constraint, as the driver reports it. -/
  | database (constraint : String)
  | internal (message : String)
  | cartRevalidation (message : String)
  | cartNotFound (message : String)
  | rateLimitExceeded (retryAfterSeconds : Nat)
  | cartDiscountIneligible (reason message : String)
  | couponTenderMismatch
  | orderNotFound (message : String)
  | orderConflict (message : String)
  | orderAlreadyPaid
  | orderValidation (message : String)
  | invalidPickupPin
  | orderingNotSupported (message : String)
  | businessClosed (message : String)
  | cashOrderCartUnavailable (message : String)
  | cartVersionMismatch (message : String)
  | noOpenCashShift
  | cashShiftConflict (message : String)
  | cashShiftNotFound (message : String)
  | forbiddenRole (message : String)
  | orderScheduling (message : String)
  | orderTransition (message : String)
  | paymentSessionCartUnavailable (message : String)
  | paymentSessionConflict (message : String)
  | paymentSessionProviderUnavailable (message : String)
  | paymentAttemptIdempotencyConflict (message : String)
  | paymentGatewayNotConfigured (message : String)
  | kioskPaymentCartUnavailable (message : String)
  | kioskPaymentItemUnavailable (message : String)
  | webhookRouting (message : String)
deriving DecidableEq, Repr

/-- What the services read of `tenants`, `tenant_settings`, the entitlements and the locations. -/
structure Settings where
  salesEnabled : Option Bool
  printingEnabled : Bool
  /-- `fetchTenantReadiness(..).orderingAvailable` -/
  orderingAvailable : Bool
  onlinePayments : Bool
  defaultCurrency : String
  primaryLocationId : Option Id
  expressRetail : Bool
  ownerCashAlertWhatsAppPhone : Option String
deriving DecidableEq, Repr

inductive Role
  | owner
  | admin
  | employee
deriving DecidableEq, Repr

/-- `TenantActor`: who the request comes from. -/
inductive Actor
  | user (userId : String) (role : Role)
  | service (serviceId : String)
  | anonymous
deriving DecidableEq, Repr

inductive Weekday
  | monday
  | tuesday
  | wednesday
  | thursday
  | friday
  | saturday
  | sunday
deriving DecidableEq, Repr

/-- Minutes since midnight: the `HH:mm` texts of the source compare in the same order. -/
abbrev MinuteOfDay := Nat

abbrev OpeningHours := Weekday → List (MinuteOfDay × MinuteOfDay)

/-- What `PublicTenantService.resolve` knows of a store. `zonedParts` is the time zone conversion of the
runtime, `getZonedParts` with the store's time zone. -/
structure PublicTenant where
  locationId : Id
  currency : String
  expressRetail : Bool
  openingHours : Option OpeningHours
  zonedParts : Instant → Weekday × MinuteOfDay

/-- What `PaymentSessionService.create` holds between its two transactions. -/
structure PreparedSession where
  attemptId : Id
  integrationAccountId : Id
  cartId : Id
  total : Cents
  currency : String
  recordId : Id
deriving DecidableEq, Repr

structure Db where
  tenantId : Id
  settings : Settings
  accounts : List IntegrationAccount := []
  items : List CatalogItem := []
  combos : List CatalogCombo := []
  addonGroups : List AddonGroup := []
  /-- `item_addon_groups`: item and group. -/
  itemAddonGroups : List (Id × Id) := []
  discounts : List Discount := []
  redemptions : List DiscountRedemption := []
  carts : List Cart := []
  attempts : List PaymentAttempt := []
  orders : List Order := []
  orderEvents : List OrderEvent := []
  shifts : List CashShift := []
  movements : List CashMovement := []
  routes : List ProviderResourceRoute := []
  webhookEvents : List WebhookEvent := []
  financialRecords : List MpFinancialRecord := []
  outbox : List OutboxEvent := []
  audit : List AuditEvent := []
  printJobs : List PrintJob := []
  billing : List BillingDocument := []
  /-- `tenant_counters`: `purchase_number`, `order_event_sequence`, `outbox_sequence`. -/
  purchaseNumber : Nat := 0
  orderEventSequence : Nat := 0
  outboxSequence : Nat := 0
  idempotency : List (Idempotency.Record IdemRequest IdemResponse) := []
  /-- No table: the payment sessions under way in the server. -/
  sessions : List PreparedSession := []
deriving DecidableEq, Repr

abbrev DbTx (α : Type) := Tx Db AppError α

/-- The services call the idempotency service inside their own transaction. -/
def onIdempotency {α : Type}
    (x : Tx (List (Idempotency.Record IdemRequest IdemResponse)) Idempotency.IdempotencyError α) :
    DbTx α :=
  zoom Db.idempotency (fun t db => { db with idempotency := t }) .idempotency x

namespace IdempotencyService

def claim (scope key : String) (request : IdemRequest) (retentionSeconds : Option Nat) (newId : Id)
    (now : Instant) : DbTx (Idempotency.Answer IdemRequest IdemResponse) := do
  let tenantId ← current Db.tenantId
  onIdempotency (Idempotency.claim id
    { tenantId := some tenantId, scope, key, request, retentionSeconds } newId now)

def complete (recordId : Id) (status : Nat) (body : IdemResponse) : DbTx Unit :=
  onIdempotency (Idempotency.complete recordId status body)

def fail (recordId : Id) : DbTx Unit := onIdempotency (Idempotency.fail recordId)

end IdempotencyService

/-- `appendOutboxEvent`. The keys of the payloads below are none of those that redaction replaces. -/
def appendOutboxEvent (aggregateType : String) (aggregateId : Id) (eventType : String)
    (payload : Payload) : DbTx Unit :=
  write fun db => { db with
    outboxSequence := db.outboxSequence + 1
    outbox := db.outbox ++ [{ aggregateType, aggregateId, eventType, payload, sequence := db.outboxSequence + 1 }] }

/-- `appendAuditEvent`, with outcome `allowed`. -/
def appendAuditEvent (action resourceType : String) (resourceId : Id) (metadata : Payload) : DbTx Unit :=
  write fun db => { db with audit := db.audit ++ [{ action, resourceType, resourceId, metadata }] }

end Komanda
