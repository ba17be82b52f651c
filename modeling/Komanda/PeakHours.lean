import Komanda.Analytics

/-!
# The heatmap of peak hours (`AnalyticsRepository.getPeakHoursHeatmap`)

The formatter of the runtime is `zonedParts`, the weekday and the hour that the clocks of the store show at an instant;
what the report reads are the texts it makes of them.
-/

namespace Komanda.Analytics

structure PeakHoursHeatmapCell where
  dayOfWeek : Nat
  dayName : String
  hour : Nat
  orderCount : Nat
  revenue : String
  isPeak : Bool
deriving DecidableEq, Repr

structure PeakHoursHeatmap where
  cells : List PeakHoursHeatmapCell
  maxOrdersInSlot : Nat
  busiestDay : Option String
  busiestHour : Option Nat
deriving DecidableEq, Repr

/-- `HEATMAP_DAYS` -/
def heatmapDays : List String := ["Lunes", "Martes", "Miércoles", "Jueves", "Viernes", "Sábado", "Domingo"]

def emptyCells : List PeakHoursHeatmapCell :=
  (List.range 7).flatMap fun d => (List.range 24).map fun h =>
    { dayOfWeek := d
      dayName := heatmapDays.getD d ""
      hour := h
      orderCount := 0
      revenue := "0.00"
      isPeak := false }

def dayMap : List (String × Nat) :=
  [("Mon", 0), ("Tue", 1), ("Wed", 2), ("Thu", 3), ("Fri", 4), ("Sat", 5), ("Sun", 6)]

/-- The short name of a weekday in `en-US`. -/
def weekdayShort : Weekday → String
  | .monday => "Mon"
  | .tuesday => "Tue"
  | .wednesday => "Wed"
  | .thursday => "Thu"
  | .friday => "Fri"
  | .saturday => "Sat"
  | .sunday => "Sun"

/-- `tzFormatter.formatToParts`, with the hours from 00 to 23. -/
def formatToParts (weekday : Weekday) (hour : Fin 24) : List (String × String) :=
  [("weekday", weekdayShort weekday), ("literal", ", "),
    ("hour", (if hour < 10 then "0" else "") ++ toString hour.val)]

/-- `parseInt(text, 10)` of a text that no sign and no white space begins; `none` is `NaN`. -/
def parseInt (text : String) : Option Nat :=
  match text.toList.takeWhile Char.isDigit with
  | [] => none
  | c :: digits => numberOf (c :: digits)

/-- `dayOfWeek * 24 + hour` -/
def cellIndex (parts : List (String × String)) : Option Nat :=
  let weekdayStr := (parts.find? (·.1 = "weekday")).map (·.2)
  let hourStr := (parts.find? (·.1 = "hour")).map (·.2)
  let dayOfWeek := weekdayStr.elim 0 fun day => (List.lookup day dayMap).getD 0
  let hour := hourStr.elim (some 0) parseInt
  hour.map (dayOfWeek * 24 + ·)

def addToCell (total : String) (cell : PeakHoursHeatmapCell) : Option PeakHoursHeatmapCell := do
  let revenue ← addMoneyStrings [cell.revenue, total]
  return { cell with orderCount := cell.orderCount + 1, revenue }

section Heatmap
variable (zonedParts : Instant → Weekday × Fin 24)

/-- One turn of the loop; an index without a cell leaves the cells alone. -/
def countOrder (cells : List PeakHoursHeatmapCell) (order : TenantOrder) : Option (List PeakHoursHeatmapCell) :=
  let (weekday, hour) := zonedParts order.createdAt
  match cellIndex (formatToParts weekday hour) with
  | none => some cells
  | some index =>
    match cells[index]? with
    | none => some cells
    | some cell => (addToCell (centsToMoney order.total) cell).map (cells.set index)

/-- `Math.max(...values, 0)` -/
def maxOf (values : List Nat) : Nat := values.foldl max 0

/-- `totals[slot(cell)] += cell.orderCount` for every cell. -/
def totalsBy (slot : PeakHoursHeatmapCell → Nat) (n : Nat) (cells : List PeakHoursHeatmapCell) : List Nat :=
  cells.foldl (fun totals cell => totals.modify (slot cell) (· + cell.orderCount)) (List.replicate n 0)

/-- The first slot with the most orders, if there are any. -/
def busiest (totals : List Nat) : Option Nat :=
  if maxOf totals > 0 then some (totals.idxOf (maxOf totals)) else none

def markPeaks (maxOrdersInSlot : Nat) (cells : List PeakHoursHeatmapCell) : List PeakHoursHeatmapCell :=
  if maxOrdersInSlot > 0 then
    cells.map fun cell => if cell.orderCount = maxOrdersInSlot then { cell with isPeak := true } else cell
  else cells

end Heatmap
end Komanda.Analytics

namespace Komanda.AnalyticsRepository
open Analytics

def getPeakHoursHeatmap (zonedParts : Instant → Weekday × Fin 24) (fromDate toDate : Instant) (locationId : Option Id)
    (orders : List TenantOrder) : Option PeakHoursHeatmap := do
  let cells ← (periodOrders fromDate toDate locationId orders).foldlM (countOrder zonedParts) emptyCells
  let maxOrdersInSlot := maxOf (cells.map (·.orderCount))
  return {
    cells := markPeaks maxOrdersInSlot cells
    maxOrdersInSlot
    busiestDay := (busiest (totalsBy (·.dayOfWeek) 7 cells)).map (heatmapDays.getD · "")
    busiestHour := busiest (totalsBy (·.hour) 24 cells) }

end Komanda.AnalyticsRepository
