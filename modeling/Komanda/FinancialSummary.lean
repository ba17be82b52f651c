import Komanda.Analytics

/-!
# The financial summary (`AnalyticsRepository.getFinancialSummary`)

The sales of a period, the movements of cash and the records of Mercado Pago. Only the sales are selected by the source
of the order.
-/

namespace Komanda.Analytics

/-- The rows that the summary reads. -/
structure FinancialRows where
  orders : List TenantOrder
  movements : List CashMovement
  records : List MpFinancialRecord

structure RecentMovement where
  id : Id
  orderId : Option Id
  type : CashMovementType
  amount : String
  occurredAt : Instant
deriving DecidableEq, Repr

structure CashLedgerSummary where
  depositsAmount : String
  withdrawalsAmount : String
  netCashAmount : String
  movementsCount : Nat
  recentMovements : List RecentMovement
deriving DecidableEq, Repr

structure ReleaseItem where
  mpPaymentId : String
  amount : String
  expectedAt : Option Instant
deriving DecidableEq, Repr

structure MpWaterfall where
  grossAmount : String
  feeAmount : String
  taxesAmount : String
  refundsAmount : String
  netReceivedAmount : String
  pendingReleaseAmount : String
  releasedAmount : String
  effectiveDeductionRate : String
  isFeeInclusiveOfTax : Bool
  releaseSchedule : List ReleaseItem
deriving DecidableEq, Repr

structure RevenueBySourceItem where
  source : OrderSource
  revenue : String
  orders : Nat
deriving DecidableEq, Repr

structure FinancialSummary where
  totalRevenue : String
  subtotal : String
  totalDiscounts : String
  paidOrdersCount : Nat
  avgOrderValue : String
  revenueBySource : List RevenueBySourceItem
  netCollections : String
  mpWaterfall : MpWaterfall
  cashLedger : CashLedgerSummary
deriving DecidableEq, Repr

/-- The input of `getFinancialSummary`. -/
structure FinancialInput where
  fromDate : Instant
  toDate : Instant
  locationId : Option Id := none
  source : Option String := none
deriving DecidableEq, Repr

/-! ## Cash -/

def depositOf (m : CashMovement) : Int := if m.type = .saleDeposit then m.amount else 0

def withdrawalOf (m : CashMovement) : Int := if m.type = .cancellationWithdrawal then m.amount else 0

/-- What a movement adds to `netCash`. -/
def netCashOf (m : CashMovement) : Int :=
  match m.type with
  | .saleDeposit => m.amount
  | .cancellationWithdrawal => -m.amount
  | _ => 0

/-- The conditions of `getCashLedgerSummary`. -/
def movementIn (fromDate toDate : Instant) (locationId : Option Id) (m : CashMovement) : Bool :=
  fromDate ≤ m.occurredAt && m.occurredAt ≤ toDate && atLocation locationId m.locationId

/-! ## Mercado Pago -/

/-- The conditions of `getMpFinancialSummary`. -/
def recordIn (fromDate toDate : Instant) (locationId : Option Id) (r : MpFinancialRecord) : Bool :=
  fromDate ≤ r.settlementDate && r.settlementDate ≤ toDate && atLocation locationId r.locationId

/-- `asc(…)`: what has no date comes last. -/
def expectedBefore : Option Instant → Option Instant → Bool
  | some a, some b => a ≤ b
  | none, some _ => false
  | _, none => true

/-- The deductions in hundredths of a percent of the gross amount. -/
def effectiveRate (gross fee taxes : Int) : String :=
  if gross > 0 then centsToMoneyString (((fee + taxes) * 10000).tdiv gross) else "0.00"

/-! ## Orders -/

/-- `eq(tenantOrders.source, input.source)`, unless all are asked for. -/
def ofSource (source : Option String) (order : TenantOrder) : Bool :=
  source.all fun source => source = "" || source = "all" || order.source.text = source

/-- `coalesce(round(avg(amount), 2), 0)::text`; a half is rounded away from zero. -/
def avgText (amounts : List Cents) : String :=
  if amounts.isEmpty then "0" else centsToMoney ((2 * amounts.sum + amounts.length) / (2 * amounts.length))

def totalText (amount : TenantOrder → Cents) (orders : List TenantOrder) : String :=
  sumText (orders.map fun o => (amount o : Int))

/-- `GROUP BY source` -/
def revenueBySource (orders : List TenantOrder) : List RevenueBySourceItem :=
  (orders.map (·.source)).eraseDups.map fun source =>
    let group := orders.filter (·.source = source)
    { source
      revenue := totalText (·.total) group
      orders := group.length }

end Komanda.Analytics

namespace Komanda.AnalyticsRepository
open Analytics

def getCashLedgerSummary (fromDate toDate : Instant) (locationId : Option Id) (rows : FinancialRows) :
    CashLedgerSummary :=
  let movements := rows.movements.filter (movementIn fromDate toDate locationId)
  let recent := (movements.mergeSort fun a b => b.occurredAt ≤ a.occurredAt).take 10
  { depositsAmount := sumText (movements.map depositOf)
    withdrawalsAmount := sumText (movements.map withdrawalOf)
    netCashAmount := sumText (movements.map netCashOf)
    movementsCount := movements.length
    recentMovements := recent.map fun m =>
      { id := m.id, orderId := m.orderId, type := m.type, amount := centsToMoney m.amount, occurredAt := m.occurredAt } }

def getMpFinancialSummary (fromDate toDate : Instant) (locationId : Option Id) (rows : FinancialRows) :
    Option MpWaterfall := do
  let records := rows.records.filter (recordIn fromDate toDate locationId)
  let grossAmount := sumText (records.map (·.grossAmount))
  let feeAmount := sumText (records.map (·.feeAmount))
  let taxesAmount := sumText (records.map (·.taxesAmount))
  let pending := rows.records.filter fun r => !r.moneyReleased && atLocation locationId r.locationId
  let releaseSchedule :=
    (pending.mergeSort fun a b => expectedBefore a.moneyReleaseExpectedAt b.moneyReleaseExpectedAt).take 10
  let grossCents ← parseMoneyToCents grossAmount
  let feeCents ← parseMoneyToCents feeAmount
  let taxesCents ← parseMoneyToCents taxesAmount
  return {
    grossAmount
    feeAmount
    taxesAmount
    refundsAmount := "0.00"
    netReceivedAmount := sumText (records.map (·.netReceivedAmount))
    pendingReleaseAmount := sumText (records.map fun r => if r.moneyReleased then 0 else r.netReceivedAmount)
    releasedAmount := sumText (records.map fun r => if r.moneyReleased then r.netReceivedAmount else 0)
    effectiveDeductionRate := effectiveRate grossCents feeCents taxesCents ++ "%"
    isFeeInclusiveOfTax := records.any (·.isFeeInclusiveOfTax)
    releaseSchedule := releaseSchedule.map fun r =>
      { mpPaymentId := r.mpPaymentId
        amount := centsToMoneyString r.netReceivedAmount
        expectedAt := r.moneyReleaseExpectedAt } }

def getFinancialSummary (input : FinancialInput) (rows : FinancialRows) : Option FinancialSummary := do
  let orders := (periodOrders input.fromDate input.toDate input.locationId rows.orders).filter (ofSource input.source)
  let cashLedger := getCashLedgerSummary input.fromDate input.toDate input.locationId rows
  let mpWaterfall ← getMpFinancialSummary input.fromDate input.toDate input.locationId rows
  let netCollections ←
    if input.source = some "admin_direct" then some cashLedger.netCashAmount
    else if input.source = some "mercadopago_webhook" then some mpWaterfall.netReceivedAmount
    else addMoneyStrings [mpWaterfall.netReceivedAmount, cashLedger.netCashAmount]
  return {
    totalRevenue := totalText (·.total) orders
    subtotal := totalText (·.subtotal) orders
    totalDiscounts := totalText (·.discountTotal) orders
    paidOrdersCount := orders.length
    avgOrderValue := avgText (orders.map (·.total))
    revenueBySource := revenueBySource orders
    netCollections
    mpWaterfall
    cashLedger }

end Komanda.AnalyticsRepository
