import Komanda.Analytics
import Komanda.Lib.DecimalSums
import Komanda.Lib.InsertionMap

/-!
# Customers who come back (`AnalyticsRepository.getCustomerRecurrenceSummary`)

A customer is the identifier that `extractCustomerIdentifier` finds in the contact of an order. Numbers that are
rounded with `toFixed` are in units of their last digit.
-/

namespace Komanda.Analytics
open Json Binary64

/-! ## Identifiers (`features/analytics/domain/analytics.schemas.ts`) -/

/-- `value?.key`: only an object has fields. -/
def field (value : Value Empty) (key : String) : Option (Value Empty) :=
  match value with
  | .object fields => (fields.find? (·.1 = key)).bind (·.2)
  | _ => none

/-- The trimmed text, empty where the value is no text. -/
def trimmedText : Option (Value Empty) → String
  | some (.string s) => Text.trim s
  | _ => ""

/-- One `@`, something before it and a point behind it. -/
def emailShaped (normalized : String) : Bool :=
  match normalized.toList.splitOn '@' with
  | [name, domain] => !name.isEmpty && domain.contains '.'
  | _ => false

def truthy : Option (Value Empty) → Bool
  | none => false
  | some .null => false
  | some (.boolean b) => b
  | some (.number n) => n ≠ .zero
  | some (.string s) => s ≠ ""
  | some _ => true

/-- The phone of the contact, or of the payer; of an object with a number, the number. -/
def rawPhone (snapshot : Value Empty) : Option (Value Empty) :=
  let own := field snapshot "phone"
  let phone := if truthy own then own else
    match field snapshot "payer" with
    | some (.object fields) => field (.object fields) "phone"
    | some (.array _) => none
    | _ => own
  match phone with
  | some (.object fields) => if fields.any (·.1 = "number") then field (.object fields) "number" else phone
  | _ => phone

def phoneText : Option (Value Empty) → Option String
  | some (.string s) => some s
  | some (.number n) => some (String.ofList n.text)
  | _ => none

def extractCustomerIdentifier (snapshot : Value Empty) : Option String :=
  let topEmail := trimmedText (field snapshot "email")
  let payerEmail := trimmedText ((field snapshot "payer").bind (field · "email"))
  let rawEmail := if topEmail ≠ "" then topEmail else payerEmail
  let normalized := Text.toLowerCase rawEmail
  if rawEmail ≠ "" && emailShaped normalized then some ("email:" ++ normalized)
  else
    match phoneText (rawPhone snapshot) with
    | none => none
    | some phoneStr =>
      let digitsOnly := phoneStr.toList.filter Char.isDigit
      if digitsOnly.length ≥ 6 then some ("phone:" ++ String.ofList digitsOnly) else none

/-! ## The summary -/

structure ParsedOrder where
  id : Id
  total : String
  createdAt : Instant
  customerId : Option String
deriving DecidableEq, Repr

def parsedOrder (o : TenantOrder) : ParsedOrder where
  id := o.id
  total := centsToMoney o.total
  createdAt := o.createdAt
  customerId := extractCustomerIdentifier o.customerSnapshot

structure CustomerSegmentMetrics where
  customerCount : Nat
  orderCount : Nat
  totalRevenue : String
  avgTicket : String
deriving DecidableEq, Repr

structure CustomerRecurrenceSummary where
  totalCustomers : Nat
  firstTimeCustomers : Nat
  recurrentCustomers : Nat
  /-- In tenths. -/
  repeatRate : Int
  /-- In hundredths. -/
  orderFrequency : Int
  /-- In tenths. -/
  medianDaysBetweenOrders : Option Int
  medianDaysDisplay : String
  /-- In tenths. -/
  identityCoverageRate : Int
  identifiedOrdersCount : Nat
  unidentifiedOrdersCount : Nat
  totalOrdersCount : Nat
  firstTime : CustomerSegmentMetrics
  recurrent : CustomerSegmentMetrics
  unidentified : CustomerSegmentMetrics
deriving DecidableEq, Repr

def byCreatedAt (orders : List TenantOrder) : List TenantOrder :=
  orders.mergeSort fun a b => a.createdAt ≤ b.createdAt

/-- The orders before the period. -/
def ordersBefore (fromDate : Instant) (locationId : Option Id) (orders : List TenantOrder) : List TenantOrder :=
  orders.filter fun o => o.createdAt < fromDate && o.sold && atLocation locationId o.locationId

def periodCustomerIds (period : List ParsedOrder) : List String :=
  (period.filterMap (·.customerId)).foldl (fun ids id => InsertionMap.add id ids) []

/-- The dates of the earlier orders of each customer of the period. -/
def priorOrdersByCustomer (customers : List String) (prior : List TenantOrder) : List (String × List Instant) :=
  InsertionMap.pushAll
    (fun o => (extractCustomerIdentifier o.customerSnapshot).filter (· ∈ customers)) (·.createdAt) prior []

/-- What the loop over the orders of the period keeps. -/
structure Segments where
  firstTimeOrders : List ParsedOrder := []
  recurrentOrders : List ParsedOrder := []
  unidentifiedOrders : List ParsedOrder := []
  customerPriorCount : List (String × Nat)
  customerAllOrderDates : List (String × List Instant)
deriving DecidableEq, Repr

def Segments.add (s : Segments) (o : ParsedOrder) : Segments :=
  match o.customerId with
  | none => { s with unidentifiedOrders := s.unidentifiedOrders ++ [o] }
  | some customerId =>
    let priorCount := (s.customerPriorCount.lookup customerId).getD 0
    { s with
      recurrentOrders := if priorCount > 0 then s.recurrentOrders ++ [o] else s.recurrentOrders
      firstTimeOrders := if priorCount > 0 then s.firstTimeOrders else s.firstTimeOrders ++ [o]
      customerPriorCount := InsertionMap.set customerId (priorCount + 1) s.customerPriorCount
      customerAllOrderDates := InsertionMap.push customerId o.createdAt s.customerAllOrderDates }

def Segments.start (prior : List (String × List Instant)) : Segments where
  customerPriorCount := prior.map fun e => (e.1, e.2.length)
  customerAllOrderDates := prior

/-- The customer was there before, or comes more than once. -/
def comesBack (prior dates : List (String × List Instant)) (customerId : String) : Bool :=
  (InsertionMap.values customerId prior).length > 0 || (InsertionMap.values customerId dates).length > 1

def dayInMs : Nat := 24 * 60 * 60 * 1000

/-- The days between one order of a customer and the next. -/
def intervalsDays (dates : List Instant) : List ℚ :=
  let sorted := dates.mergeSort (· ≤ ·)
  (sorted.zip sorted.tail).map fun p => ofFixed 1 (toFixedInt 1 (nearest (((p.2 - p.1 : Nat) : ℚ) / dayInMs)))

/-- In tenths. -/
def calculatePercentile (values : List ℚ) (percentile : ℚ) : Int :=
  if values.isEmpty then 0
  else
    let sorted := values.mergeSort (· ≤ ·)
    let index := nearest ((sorted.length - 1 : Nat) * percentile)
    let lower := ⌊index⌋
    let upper := ⌈index⌉
    let weight := nearest (index - lower)
    let low := sorted.getD lower.toNat 0
    let high := sorted.getD upper.toNat 0
    if lower = upper then toFixedInt 1 low
    else toFixedInt 1 (nearest (nearest (low * nearest (1 - weight)) + nearest (high * weight)))

/-- A number of tenths that is not negative, as the language prints it. -/
def tenthsText (n : Int) : String :=
  toString (n / 10) ++ if n % 10 = 0 then "" else "." ++ toString (n % 10)

/-- `Number(((part / whole) * 100).toFixed(1))`, nothing of nothing being zero. -/
def percentage (part whole : Nat) : Int :=
  if whole > 0 then toFixedInt 1 (nearest (nearest ((part : ℚ) / whole) * 100)) else 0

def buildSegment (ordersList : List ParsedOrder) (customerCount : Nat) : Option CustomerSegmentMetrics :=
  let count := ordersList.length
  if count > 0 then do
    let totalRev ← centsToMoneyString <$>
      ordersList.foldlM (fun acc o => (acc + ·) <$> parseMoneyToCents o.total) (0 : Int)
    let cents ← parseMoneyToCents totalRev
    let avg := centsToMoneyString (cents.tdiv count)
    return { customerCount, orderCount := count, totalRevenue := totalRev, avgTicket := avg }
  else some { customerCount, orderCount := count, totalRevenue := "0.00", avgTicket := "0.00" }

section Recurrence
variable (fromDate toDate : Instant) (locationId : Option Id) (orders : List TenantOrder)

/-- The orders of the period, in the order of time. -/
def parsedPeriodOrders : List ParsedOrder :=
  (byCreatedAt (periodOrders fromDate toDate locationId orders)).map parsedOrder

/-- The earlier orders of the customers of the period. -/
def priorOrders : List (String × List Instant) :=
  let customers := periodCustomerIds (parsedPeriodOrders fromDate toDate locationId orders)
  if customers.length > 0 then
    priorOrdersByCustomer customers (byCreatedAt (ordersBefore fromDate locationId orders))
  else []

/-- The outcome of the loop over the orders of the period. -/
def segments : Segments :=
  (parsedPeriodOrders fromDate toDate locationId orders).foldl Segments.add
    (Segments.start (priorOrders fromDate toDate locationId orders))

end Recurrence
end Komanda.Analytics

namespace Komanda.AnalyticsRepository
open Analytics Binary64

def getCustomerRecurrenceSummary (fromDate toDate : Instant) (locationId : Option Id) (orders : List TenantOrder) :
    Option CustomerRecurrenceSummary := do
  let period := parsedPeriodOrders fromDate toDate locationId orders
  let customers := periodCustomerIds period
  let prior := priorOrders fromDate toDate locationId orders
  let s := segments fromDate toDate locationId orders
  let recurrentCustomers := customers.countP (comesBack prior s.customerAllOrderDates)
  let firstTimeCustomers := customers.countP fun id => !comesBack prior s.customerAllOrderDates id
  let allIntervalsDays := customers.flatMap fun id => intervalsDays (InsertionMap.values id s.customerAllOrderDates)
  let identified := s.firstTimeOrders.length + s.recurrentOrders.length
  let median := if allIntervalsDays.isEmpty then none else some (calculatePercentile allIntervalsDays (1 / 2))
  let firstTime ← buildSegment s.firstTimeOrders firstTimeCustomers
  let recurrent ← buildSegment s.recurrentOrders recurrentCustomers
  let unidentified ← buildSegment s.unidentifiedOrders 0
  return {
    totalCustomers := customers.length
    firstTimeCustomers
    recurrentCustomers
    repeatRate := percentage recurrentCustomers customers.length
    orderFrequency :=
      if customers.length > 0 then toFixedInt 2 (nearest ((identified : ℚ) / customers.length)) else 0
    medianDaysBetweenOrders := median
    medianDaysDisplay := median.elim "Sin compras repetidas" fun days =>
      tenthsText days ++ " " ++ if days = 10 then "día" else "días"
    identityCoverageRate := percentage identified period.length
    identifiedOrdersCount := identified
    unidentifiedOrdersCount := s.unidentifiedOrders.length
    totalOrdersCount := period.length
    firstTime
    recurrent
    unidentified }

end Komanda.AnalyticsRepository
