import Komanda.Lib.CivilDate
import Komanda.Lib.Csv
import Komanda.Lib.InsertionMap
import Komanda.Money
import Komanda.Orders
import Mathlib.Data.List.Sort

/-!
# The export of the sales (`analytics/export/route.ts`)

The orders of a period as comma-separated values, with their lines, which a second query has read. All fields are
quoted, but only the products may hold quotes that are doubled.
-/

namespace Komanda.SalesExport
open CivilDate

/-- `desc(createdAt)` -/
def lastFirst (a b : Order) : Prop := b.createdAt ≤ a.createdAt

instance : DecidableRel lastFirst := fun a b => inferInstanceAs (Decidable (b.createdAt ≤ a.createdAt))

/-- The orders of the period, last first. -/
def exportedOrders (fromDate toDate : Instant) (orders : List Order) : List Order :=
  (orders.filter fun o => fromDate ≤ o.createdAt && o.createdAt ≤ toDate).insertionSort lastFirst

/-- The texts of the lines by their orders. -/
def linesByOrder (lines : List (Id × OrderLine)) : List (Id × List String) :=
  InsertionMap.pushAll (fun l => some l.1) (fun l => toString l.2.quantity ++ "x " ++ l.2.name) lines []

def header : List String :=
  ["Fecha y Hora", "Ticket", "Medio de Pago", "Estado de Pago", "Productos", "Total", "Moneda"]

/-- `toISOString().replace("T", " ").substring(0, 19)` -/
def dateStr (createdAt : Instant) : String := String.ofList (((isoText createdAt).replace 'T' ' ').take 19)

def tenderLabel : OrderTender → String
  | .cash => "Efectivo"
  | .posnet => "Posnet / Tarjeta"

/-- `"…"`, as it is. -/
def inQuotes (value : String) : String := "\"" ++ value ++ "\""

/-- `value.replace(/"/g, '""')` -/
def doubleQuotes (value : String) : String := String.ofList (Csv.doubled value.toList)

def row (products : List (Id × List String)) (o : Order) : String :=
  let itemsStr := "; ".intercalate (InsertionMap.values o.id products)
  ",".intercalate [inQuotes (dateStr o.createdAt), inQuotes (toString o.purchaseNumber),
    inQuotes (tenderLabel o.tender), inQuotes o.paymentStatus.text, inQuotes (doubleQuotes itemsStr),
    inQuotes (centsToMoney o.total), inQuotes o.currency]

/-- The file; `lines` answers the query for the lines of the orders. -/
def csvData (fromDate toDate : Instant) (orders : List Order) (lines : List (Id × OrderLine)) : String :=
  "\n".intercalate (",".intercalate header :: (exportedOrders fromDate toDate orders).map (row (linesByOrder lines)))

end Komanda.SalesExport
