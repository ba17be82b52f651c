import Komanda.Idempotency

/-!
# The tables (`db/schema`)

`Db` is the rows of one tenant: every statement of the services filters on its tenant and row level
security forces the filter, so `tenant_id` is not a column here. Amounts are cents (`numeric(12, 2)`),
percentages hundredths of a percent. The lines of a cart and of an order and their options are written
with their parent and never change, so they stand inside it. Columns that no modelled function reads
are left out. Ids that the database draws are inputs of the function that inserts the row.
-/

namespace Komanda

abbrev Cents := Nat

/-- A value of a flat JSON payload. -/
inductive Scalar
  | null
  | bool (b : Bool)
  | num (n : Int)
  | str (s : String)
deriving DecidableEq, Repr

abbrev Payload := List (String × Scalar)

/-- `value ?? null` -/
def Scalar.ofOption : Option String → Scalar
  | none => .null
  | some s => .str s

structure Customer where
  name : String
  phone : Option String := none
  email : Option String := none
  whatsappReadyOptIn : Option Bool := none
deriving DecidableEq, Repr

/-! ## Catalog and coupons -/

inductive ItemType
  | unit
  | weighted
deriving DecidableEq, Repr

inductive CatalogStatus
  | draft
  | active
  | unavailable
  | archived
deriving DecidableEq, Repr

/-- A joined row of `media_assets`. -/
structure Media where
  publicUrl : Option String
  ready : Bool
deriving DecidableEq, Repr

structure CatalogItem where
  id : Id
  categoryId : Id
  name : String
  price : Cents
  currency : String
  itemType : ItemType
  trackStock : Bool
  stockQuantity : Int
  status : CatalogStatus
  media : Option Media
deriving DecidableEq, Repr

/-- A row of `catalog_combos` with its `combo_items` in their sort order. -/
structure CatalogCombo where
  id : Id
  categoryId : Option Id
  name : String
  price : Cents
  currency : String
  status : CatalogStatus
  media : Option Media
  itemIds : List Id
deriving DecidableEq, Repr

structure AddonOption where
  id : Id
  name : String
  priceDelta : Cents
  active : Bool
deriving DecidableEq, Repr

structure AddonGroup where
  id : Id
  minSelected : Nat
  maxSelected : Nat
  active : Bool
  options : List AddonOption
deriving DecidableEq, Repr

inductive DiscountType
  | percentage
  | fixedAmount
deriving DecidableEq, Repr

inductive DiscountScope
  | global
  | category
  | item
deriving DecidableEq, Repr

inductive ApplicableTender
  | all
  | cash
deriving DecidableEq, Repr

structure Discount where
  id : Id
  code : String
  name : String
  discountType : DiscountType
  discountValue : Nat
  minOrderAmount : Cents
  maxRedemptions : Option Nat
  redemptionsCount : Nat
  startsAt : Instant
  endsAt : Option Instant
  scope : DiscountScope
  applicableTender : ApplicableTender
  targetCategoryIds : List Id
  targetItemIds : List Id
  isActive : Bool
  version : Nat
  deletedAt : Option Instant
deriving DecidableEq, Repr

inductive RedemptionStatus
  | redeemed
  | orderCancelled
deriving DecidableEq, Repr

structure DiscountRedemption where
  discountId : Id
  orderId : Id
  cartId : Id
  amountDeducted : Cents
  codeSnapshot : String
  status : RedemptionStatus
deriving DecidableEq, Repr

/-! ## Carts, payment attempts, orders -/

inductive CartStatus
  | open
  | validated
  | checkoutStarted
  | converted
  | expired
deriving DecidableEq, Repr

structure CartLineOption where
  addonGroupId : Id
  addonOptionId : Id
  nameSnapshot : String
  priceDeltaSnapshot : Cents
  quantity : Nat
deriving DecidableEq, Repr

structure CartLine where
  itemId : Option Id
  comboId : Option Id
  itemType : ItemType
  quantity : Nat
  nameSnapshot : String
  unitPriceSnapshot : Cents
  lineTotal : Cents
  imageUrlSnapshot : Option String
  note : Option String
  options : List CartLineOption
deriving DecidableEq, Repr

structure DiscountMetadata where
  code : String
  name : String
  discountType : DiscountType
  discountValue : Nat
  savingsAmount : Cents
  tenderRestriction : Option String
deriving DecidableEq, Repr

/-- A row of `carts` with its lines: `StoredCart`. -/
structure Cart where
  id : Id
  locationId : Id
  status : CartStatus
  currency : String
  subtotal : Cents
  discountTotal : Cents
  total : Cents
  appliedDiscountCodeId : Option Id
  discountMetadata : Option DiscountMetadata
  expiresAt : Instant
  version : Nat
  lines : List CartLine
deriving DecidableEq, Repr

inductive AttemptStatus
  | initiated
  | processing
  | pending
  | approved
  | rejected
  | failed
  | duplicate
  | verificationRequired
deriving DecidableEq, Repr

structure PaymentAttempt where
  id : Id
  cartId : Id
  integrationAccountId : Id
  providerPreferenceId : Option String
  providerPaymentId : Option String
  status : AttemptStatus
  amount : Cents
  currency : String
  customerSnapshot : Customer
  notes : Option String
  scheduledFor : Option Instant
  idempotencyKey : String
  processedAt : Option Instant
  failureCode : Option String
deriving DecidableEq, Repr

inductive OrderSource
  | mercadopagoWebhook
  | adminDirect
  | storefrontCash
deriving DecidableEq, Repr

inductive FulfillmentStatus
  | approved
  | preparing
  | ready
  | delivered
  | cancelled
deriving DecidableEq, Repr

inductive PaymentStatus
  | pending
  | paid
  | failed
  | refunded
  | verificationRequired
deriving DecidableEq, Repr

inductive OrderTender
  | cash
  | posnet
deriving DecidableEq, Repr

structure OrderLine where
  sourceItemId : Option Id
  sourceComboId : Option Id
  itemType : ItemType
  name : String
  quantity : Nat
  unitPrice : Cents
  lineTotal : Cents
  imageUrl : Option String
  note : Option String
  options : List CartLineOption
deriving DecidableEq, Repr

structure DiscountSnapshot where
  discountId : Id
  code : String
  name : String
  discountType : DiscountType
  discountValue : Nat
  amountDeducted : Cents
deriving DecidableEq, Repr

/-- A row of `orders` with its lines. -/
structure Order where
  id : Id
  locationId : Id
  cartId : Id
  paymentAttemptId : Option Id
  purchaseNumber : Nat
  source : OrderSource
  fulfillmentStatus : FulfillmentStatus
  paymentStatus : PaymentStatus
  tender : OrderTender
  customerSnapshot : Customer
  notes : Option String
  subtotal : Cents
  discountTotal : Cents
  total : Cents
  discountSnapshot : Option DiscountSnapshot
  pickupPin : Option String
  estimatedWaitMinutes : Option Nat
  estimatedReadyAt : Option Instant
  scheduledFor : Option Instant
  paymentExpiresAt : Option Instant
  currency : String
  idempotencyKey : String
  approvedAt : Option Instant
  deliveredAt : Option Instant
  version : Nat
  createdAt : Instant
  updatedAt : Instant
  lines : List OrderLine
deriving DecidableEq, Repr

structure OrderEvent where
  orderId : Id
  sequence : Nat
  eventType : String
  fromStatus : Option FulfillmentStatus
  toStatus : Option FulfillmentStatus
  metadata : Payload
deriving DecidableEq, Repr

/-! ## Cash -/

inductive ShiftStatus
  | open
  | closed
deriving DecidableEq, Repr

structure CashShift where
  id : Id
  locationId : Option Id
  registerIdentifier : String
  openedByUserId : String
  openingBalance : Cents
  closingBalance : Option Cents
  expectedCash : Option Cents
  status : ShiftStatus
  openedAt : Instant
  closedAt : Option Instant
  notes : Option String
deriving DecidableEq, Repr

inductive CashMovementType
  | saleDeposit
  | cancellationWithdrawal
  | openingFloat
  | manualCashIn
  | cashDrop
  | expensePayout
deriving DecidableEq, Repr

structure CashMovement where
  id : Id
  locationId : Id
  shiftId : Option Id
  orderId : Option Id
  type : CashMovementType
  amount : Cents
  occurredAt : Instant
  reason : Option String
  idempotencyKey : Option String
deriving DecidableEq, Repr

/-! ## Mercado Pago -/

inductive AccountStatus
  | pending
  | active
  | expired
  | revoked
  | error
deriving DecidableEq, Repr

structure IntegrationAccount where
  id : Id
  providerAccountId : String
  status : AccountStatus
  webhookRoutingKey : String
  /-- The key that encrypts its tokens is the configured one. -/
  decryptable : Bool
deriving DecidableEq, Repr

inductive ResourceType
  | payment
  | preference
deriving DecidableEq, Repr

structure ProviderResourceRoute where
  resourceType : ResourceType
  externalId : String
  integrationAccountId : Id
  localResourceId : Id
deriving DecidableEq, Repr

inductive WebhookEventStatus
  | received
  | processing
  | processed
  | ignored
  | failed
deriving DecidableEq, Repr

structure WebhookEvent where
  id : Id
  providerEventId : String
  topic : String
  status : WebhookEventStatus
deriving DecidableEq, Repr

structure FeeDetail where
  type : String
  amount : Int
  feePayer : String
deriving DecidableEq, Repr

structure TaxDetail where
  type : String
  amount : Int
deriving DecidableEq, Repr

structure MpFinancialRecord where
  locationId : Id
  orderId : Id
  mpPaymentId : String
  grossAmount : Int
  feeAmount : Int
  feeDetails : List FeeDetail
  taxesAmount : Int
  taxesDetails : List TaxDetail
  netReceivedAmount : Int
  isFeeInclusiveOfTax : Bool
  moneyReleased : Bool
  moneyReleaseExpectedAt : Option Instant
  moneyReleasedAt : Option Instant
  settlementDate : Instant
deriving DecidableEq, Repr

/-! ## Follow-ups -/

structure OutboxEvent where
  aggregateType : String
  aggregateId : Id
  eventType : String
  payload : Payload
  sequence : Nat
deriving DecidableEq, Repr

structure AuditEvent where
  action : String
  resourceType : String
  resourceId : Id
  metadata : Payload
deriving DecidableEq, Repr

inductive PrintJobStatus
  | pending
  | processing
  | printed
  | failed
  | cancelled
deriving DecidableEq, Repr

structure PrintJob where
  id : Id
  locationId : Id
  orderId : Id
  status : PrintJobStatus
  idempotencyKey : String
  attemptCount : Nat
  claimedByAgentId : Option Id
  leaseExpiresAt : Option Instant
  nextAttemptAt : Option Instant
  printedAt : Option Instant
  lastErrorCode : Option String
  lastErrorMessage : Option String
  createdAt : Instant
  updatedAt : Instant
deriving DecidableEq, Repr

inductive PrintJobAttemptStatus
  | claimed
  | printed
  | failed
  | leaseExpired
deriving DecidableEq, Repr

structure PrintJobAttempt where
  printJobId : Id
  agentId : Id
  attemptNumber : Nat
  status : PrintJobAttemptStatus
  errorCode : Option String
  errorMessage : Option String
  finishedAt : Option Instant
deriving DecidableEq, Repr

inductive FiscalDocumentType
  | facturaA
  | facturaB
  | facturaC
  | notaCreditoA
  | notaCreditoB
  | notaCreditoC
  | notaDebitoA
  | notaDebitoB
  | reciboX
  | ticketInterno
deriving DecidableEq, Repr

structure BillingDocument where
  locationId : Id
  orderId : Id
  documentType : FiscalDocumentType
  pointOfSale : Nat
  documentNumber : Nat
  currency : String
  netAmount : Cents
  vatAmount : Cents
  discountAmount : Cents
  totalAmount : Cents
  customerName : Option String
deriving DecidableEq, Repr

end Komanda
