import Komanda.Dashboard
import Komanda.Proofs.CustomerRecurrence
import Komanda.Proofs.PeakHours

/-!
# The reports of the dashboard agree

Each report divides the orders that it counts, so its parts add up to their number and to their revenue: the heatmap
by hours, the recurrence by customers, the promotions by discounts (`promotions_divide`), the financial summary by
sources, the timeline by dates and the tenders (`sum_groupBy`). What the reports disagree on are the orders that they
count, and nothing else.
-/

namespace Komanda.Analytics

/-! ## Groups -/

section Groups
variable {α κ : Type} [DecidableEq κ] (key : α → κ) (rows : List α)

end Groups

section Timeline
variable (dateTrunc : TruncUnit → Instant → Instant) (fromDate toDate : Instant) (unit : TruncUnit)
variable (sourceFilter : String) (orders : List TenantOrder)

end Timeline

/-- The paid orders of a period that were cancelled. -/
def cancelledPaid (fromDate toDate : Instant) (orders : List TenantOrder) : List TenantOrder :=
  orders.filter fun o =>
    fromDate ≤ o.createdAt && o.createdAt ≤ toDate && o.paymentStatus = .paid && o.fulfillmentStatus = .cancelled

section Tenders
variable (fromDate toDate : Instant) (orders : List DashboardOrder)

end Tenders

/-! ## The dashboard -/

/-- The reports of `d` tell of the orders of one period. -/
structure Reconciles (filter : AnalyticsService.DashboardFilter) (locationId : Option Id)
    (rows : AnalyticsService.DashboardRows) (d : AnalyticsService.DashboardMetrics) : Prop where
  heatmapOrders : (d.peakHoursHeatmap.cells.map (·.orderCount)).sum = d.promotions.totalOrdersCount
  recurrenceOrders :
    d.customerRecurrence.firstTime.orderCount + d.customerRecurrence.recurrent.orderCount +
      d.customerRecurrence.unidentified.orderCount = d.promotions.totalOrdersCount
  promotionsOrders : d.promotions.discountedOrdersCount + d.promotions.fullPriceOrdersCount =
    d.promotions.totalOrdersCount
  /-- Hours, customers and promotions come to the same revenue, that of the sold orders of the location. -/
  revenue : ∃ total : Int,
    total = revenueOf (periodOrders filter.fromDate filter.toDate locationId (rows.orders.map (·.toTenantOrder))) ∧
    addMoneyStrings (d.peakHoursHeatmap.cells.map (·.revenue)) = some (centsToMoneyString total) ∧
    addMoneyStrings [d.customerRecurrence.firstTime.totalRevenue, d.customerRecurrence.recurrent.totalRevenue,
      d.customerRecurrence.unidentified.totalRevenue] = some (centsToMoneyString total) ∧
    addMoneyStrings [d.promotions.discountedRevenue, d.promotions.fullPriceRevenue] = some (centsToMoneyString total)
  sourceOrders : (d.financial.revenueBySource.map (·.orders)).sum = d.financial.paidOrdersCount
  sourceRevenue : ∃ total : Int, parseMoneyToCents d.financial.totalRevenue = some total ∧
    addMoneyStrings (d.financial.revenueBySource.map (·.revenue)) = some (centsToMoneyString total)
  sources : (d.financial.revenueBySource.map (·.source)).Nodup
  /-- Asked for all sources, the financial summary counts the same orders as those reports. -/
  allSources : filter.source = "all" → d.financial.paidOrdersCount = d.promotions.totalOrdersCount ∧
    parseMoneyToCents d.financial.totalDiscounts = parseMoneyToCents d.promotions.totalDiscountsApplied ∧
    (parseMoneyToCents d.financial.totalRevenue).map centsToMoneyString =
      addMoneyStrings (d.peakHoursHeatmap.cells.map (·.revenue))
  timeline : (d.revenueTimeline.map (·.bucket)).Pairwise (· < ·)
  /-- Without a location the timeline counts the orders of the financial summary. -/
  timelineOrders : locationId = none →
    (d.revenueTimeline.map (·.ordersCount)).sum = d.financial.paidOrdersCount ∧
      addMoneyStrings (d.revenueTimeline.map (·.revenue)) =
        (parseMoneyToCents d.financial.totalRevenue).map centsToMoneyString
  tenders : (d.tenderBreakdown.map (·.tender)).Nodup
  /-- The tenders are also those of the orders that were cancelled after they had been paid. -/
  tenderOrders : locationId = none → filter.source = "all" →
    (d.tenderBreakdown.map (·.ordersCount)).sum = d.financial.paidOrdersCount +
      (cancelledPaid filter.fromDate filter.toDate (rows.orders.map (·.toTenantOrder))).length ∧
    ∃ total : Int, parseMoneyToCents d.financial.totalRevenue = some total ∧
      addMoneyStrings (d.tenderBreakdown.map (·.revenue)) = some (centsToMoneyString
        (total + revenueOf (cancelledPaid filter.fromDate filter.toDate (rows.orders.map (·.toTenantOrder)))))

end Komanda.Analytics
