import Komanda.Lib.InsertionMap
import Komanda.RequestHash
import Komanda.Schema

/-!
# Orders on the kitchen's screen (`features/orders/web/order-workflow.ts`)

The stage of an order, and the products that the kitchen has to make. Quantities are the integers of the columns they
are read from; `toLocaleLowerCase` and `localeCompare` are those of any locale.
-/

namespace Komanda.OrderWorkflow

/-- What the locale `es-AR` says of texts. -/
structure Locale where
  toLocaleLowerCase : String → String
  collation : Collation

structure AdminDashboardLineOption where
  name : String
  quantity : Option Int
deriving DecidableEq, Repr

structure AdminDashboardLine where
  name : String
  quantity : Int
  note : Option String
  options : Option (List AdminDashboardLineOption)
deriving DecidableEq, Repr

structure AdminDashboardOrder where
  id : Id
  purchaseNumber : String
  status : FulfillmentStatus
  paymentStatus : Option PaymentStatus
  lines : Option (List AdminDashboardLine)
deriving DecidableEq, Repr

inductive OrderStage
  | payment
  | kitchen
  | delivery
  | finished
deriving DecidableEq, Repr

def orderStage (order : AdminDashboardOrder) : OrderStage :=
  if order.status = .delivered ∨ order.status = .cancelled then .finished
  else if order.paymentStatus ≠ some .paid then .payment
  else if order.status = .ready then .delivery else .kitchen

def nextOrderStatus (order : AdminDashboardOrder) : Option FulfillmentStatus :=
  match orderStage order with
  | .kitchen => some .ready
  | .delivery => some .delivered
  | _ => none

/-! ## What the kitchen has to make -/

structure KitchenOptionSummary where
  name : String
  quantity : Int
deriving DecidableEq, Repr

structure KitchenProductSummary where
  key : String
  name : String
  totalQuantity : Int
  orderCount : Nat
  options : List KitchenOptionSummary
  notes : List String
deriving DecidableEq, Repr

/-- An entry while it is collected. -/
structure KitchenEntry where
  key : String
  name : String
  totalQuantity : Int
  orderIds : List Id
  options : List (String × KitchenOptionSummary)
  notes : List String
deriving DecidableEq, Repr

section Aggregation
variable (locale : Locale)

def optionKey (opt : AdminDashboardLineOption) : String := locale.toLocaleLowerCase (Text.trim opt.name)

/-- `line.quantity * Math.max(1, opt.quantity ?? 1)` -/
def optionQuantity (line : AdminDashboardLine) (opt : AdminDashboardLineOption) : Int :=
  line.quantity * max 1 (opt.quantity.getD 1)

def addOption (line : AdminDashboardLine) (options : List (String × KitchenOptionSummary))
    (opt : AdminDashboardLineOption) : List (String × KitchenOptionSummary) :=
  let optName := Text.trim opt.name
  if optName = "" then options
  else InsertionMap.upsert (optionKey locale opt) { name := optName, quantity := 0 }
    (fun existingOpt => { existingOpt with quantity := existingOpt.quantity + optionQuantity line opt }) options

def productKey (line : AdminDashboardLine) : String := locale.toLocaleLowerCase (Text.trim line.name)

/-- `#number: note`, for a note that is not blank. -/
def noteOf (order : AdminDashboardOrder) (line : AdminDashboardLine) : Option String :=
  match line.note with
  | none => none
  | some note => if Text.trim note = "" then none else some ("#" ++ order.purchaseNumber ++ ": " ++ Text.trim note)

def newEntry (line : AdminDashboardLine) : KitchenEntry :=
  { key := productKey locale line, name := Text.trim line.name, totalQuantity := 0, orderIds := [], options := [],
    notes := [] }

/-- What a line does to the entry of its product. -/
def countLine (order : AdminDashboardOrder) (line : AdminDashboardLine) (entry : KitchenEntry) : KitchenEntry :=
  { entry with
    totalQuantity := entry.totalQuantity + line.quantity
    orderIds := InsertionMap.add order.id entry.orderIds
    notes := entry.notes ++ (noteOf order line).toList
    options := (line.options.getD []).foldl (addOption locale line) entry.options }

def addLine (order : AdminDashboardOrder) (map : List (String × KitchenEntry)) (line : AdminDashboardLine) :
    List (String × KitchenEntry) :=
  if Text.trim line.name = "" ∨ line.quantity ≤ 0 then map
  else InsertionMap.upsert (productKey locale line) (newEntry locale line) (countLine locale order line) map

def addOrder (map : List (String × KitchenEntry)) (order : AdminDashboardOrder) : List (String × KitchenEntry) :=
  if orderStage order ≠ .kitchen then map else (order.lines.getD []).foldl (addLine locale order) map

/-- The larger quantity first, and equal ones by name. -/
def quantityLe (a b : Int × String) : Bool := b.1 < a.1 || (a.1 = b.1 && locale.collation.le a.2 b.2)

def summary (entry : KitchenEntry) : KitchenProductSummary where
  key := entry.key
  name := entry.name
  totalQuantity := entry.totalQuantity
  orderCount := entry.orderIds.length
  options := StableSort.sortBy (quantityLe locale) (fun o => (o.quantity, o.name)) (entry.options.map (·.2))
  notes := entry.notes

def aggregateKitchenProducts (orders : List AdminDashboardOrder) : List KitchenProductSummary :=
  StableSort.sortBy (quantityLe locale) (fun e => (e.totalQuantity, e.name))
    ((orders.foldl (addOrder locale) []).map fun e => summary locale e.2)

end Aggregation

end Komanda.OrderWorkflow
