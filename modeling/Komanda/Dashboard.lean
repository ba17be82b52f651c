import Komanda.CustomerRecurrence
import Komanda.FinancialSummary
import Komanda.PeakHours

/-!
# The dashboard of the owner (`AnalyticsService.getDashboardMetrics`)

The reports of one period, each with conditions of its own: some count the orders of the location, the others those of
all locations, some only one source. The tenders are those of every paid order, cancelled or not.
-/

namespace Komanda

/-- A row of `tenant_orders` with its tender. -/
structure DashboardOrder extends TenantOrder where
  tender : OrderTender

namespace Analytics
open Binary64

/-- `GROUP BY`, in the order in which the keys turn up. -/
def groupBy {α κ : Type} [DecidableEq κ] (key : α → κ) (rows : List α) : List (κ × List α) :=
  (rows.map key).eraseDups.map fun k => (k, rows.filter (key · = k))

/-! ## Promotions -/

structure TicketComparison where
  discountedAvgTicket : String
  fullPriceAvgTicket : String
  differenceAmount : String
  /-- In tenths. -/
  differencePercent : Int
deriving DecidableEq, Repr

structure PromotionsSummary where
  totalOrdersCount : Nat
  discountedOrdersCount : Nat
  fullPriceOrdersCount : Nat
  /-- In tenths. -/
  discountAdoptionRate : Int
  totalDiscountsApplied : String
  discountedRevenue : String
  fullPriceRevenue : String
  ticketComparison : TicketComparison
deriving DecidableEq, Repr

/-- The orders with and without a discount, as the loop sorts them. -/
structure PromotionOrders where
  discountedOrders : List TenantOrder := []
  fullPriceOrders : List TenantOrder := []

def PromotionOrders.add (s : PromotionOrders) (order : TenantOrder) : Option PromotionOrders := do
  let discountCents ← parseMoneyToCents (centsToMoney order.discountTotal)
  if discountCents > 0 then return { s with discountedOrders := s.discountedOrders ++ [order] }
  else return { s with fullPriceOrders := s.fullPriceOrders ++ [order] }

/-- The revenue over the number of orders, cut to whole cents. -/
def avgTicket (revenue : String) (count : Nat) : Option String :=
  if count > 0 then (fun cents => centsToMoneyString (cents.tdiv count)) <$> parseMoneyToCents revenue
  else some "0.00"

inductive TruncUnit
  | hour
  | day
deriving DecidableEq, Repr

inductive Granularity
  | hour
  | day
  | week
  | month
deriving DecidableEq, Repr

/-- `filter.granularity === "hour" ? "hour" : "day"` -/
def Granularity.unit : Granularity → TruncUnit
  | hour => .hour
  | _ => .day

structure RevenueBucket where
  bucket : Instant
  revenue : String
  ordersCount : Nat
deriving DecidableEq, Repr

structure TenderBreakdown where
  tender : OrderTender
  revenue : String
  ordersCount : Nat
deriving DecidableEq, Repr

/-- The paid orders of a period, at every location. -/
def paidOrders (fromDate toDate : Instant) (orders : List DashboardOrder) : List DashboardOrder :=
  orders.filter fun o => o.paymentStatus = .paid && fromDate ≤ o.createdAt && o.createdAt ≤ toDate

def tenderBreakdown (fromDate toDate : Instant) (orders : List DashboardOrder) : List TenderBreakdown :=
  (groupBy (·.tender) (paidOrders fromDate toDate orders)).map fun g =>
    { tender := g.1, revenue := totalText (·.total) (g.2.map (·.toTenantOrder)), ordersCount := g.2.length }

end Analytics
end Komanda

namespace Komanda.BillingRepository
open Analytics

end Komanda.BillingRepository

namespace Komanda.AnalyticsRepository
open Analytics

end Komanda.AnalyticsRepository

namespace Komanda.AnalyticsService
open Analytics

/-- The rows that the dashboard reads. -/
structure DashboardRows where
  orders : List DashboardOrder
  movements : List CashMovement
  records : List MpFinancialRecord

structure DashboardFilter where
  fromDate : Instant
  toDate : Instant
  granularity : Granularity := .day
  source : String := "all"
deriving DecidableEq, Repr

/-- The reports of the dashboard that count orders. -/
structure DashboardMetrics where
  financial : FinancialSummary
  revenueTimeline : List RevenueBucket
  peakHoursHeatmap : PeakHoursHeatmap
  customerRecurrence : CustomerRecurrenceSummary
  promotions : PromotionsSummary
  tenderBreakdown : List TenderBreakdown

end Komanda.AnalyticsService
