import Komanda.Lib.Table
import Komanda.SalesExport

/-!
# The file of the sales can be read

Whatever the products are called, a reader of comma-separated values finds the header and one record for each order of
the period, and in it the second of the order, its number, its amount and all of its lines.
-/

namespace Komanda.SalesExport
open CivilDate Csv Table

/-- A record of the file, as a reader understands it. -/
structure Sale where
  second : Nat
  ticket : Nat
  tender : String
  paymentStatus : String
  products : String
  total : Cents
  currency : String
deriving DecidableEq, Repr

/-- The sale of an order. -/
def saleOf (products : List (Id × List String)) (o : Order) : Sale where
  second := secondOf (dateStr o.createdAt).toList
  ticket := o.purchaseNumber
  tender := tenderLabel o.tender
  paymentStatus := o.paymentStatus.text
  products := "; ".intercalate (InsertionMap.values o.id products)
  total := o.total
  currency := o.currency

def Sale.ofRecord : List (List Char) → Option Sale
  | [date, ticket, tender, paymentStatus, products, total, currency] => do
    let ticket ← numberOf ticket
    let total ← moneyToCents (String.ofList total)
    return {
      second := secondOf date
      ticket
      tender := String.ofList tender
      paymentStatus := String.ofList paymentStatus
      products := String.ofList products
      total
      currency := String.ofList currency }
  | _ => none

/-- The record tells of the order; its second until the year 10000. -/
structure Describes (o : Order) (sale : Sale) : Prop where
  second : (ofDay (o.createdAt / 86400000)).year < 10000 → sale.second = o.createdAt / 1000
  ticket : sale.ticket = o.purchaseNumber
  tender : sale.tender = tenderLabel o.tender
  paymentStatus : sale.paymentStatus = o.paymentStatus.text
  products : ∃ lines : List OrderLine, lines.Perm o.lines ∧
    sale.products = "; ".intercalate (lines.map fun l => toString l.quantity ++ "x " ++ l.name)
  total : sale.total = o.total
  currency : sale.currency = o.currency

/-- The file has the orders of the period, last first, each in a record of its own. -/
structure Readable (fromDate toDate : Instant) (orders : List Order) (file : String) : Prop where
  sales : ∃ records sales, Csv.read file.toList = header.map (·.toList) :: records ∧
    records.map Sale.ofRecord = sales.map some ∧
    List.Forall₂ Describes (exportedOrders fromDate toDate orders) sales
  complete : (exportedOrders fromDate toDate orders).Perm
    (orders.filter fun o => fromDate ≤ o.createdAt && o.createdAt ≤ toDate)
  sorted : (exportedOrders fromDate toDate orders).Pairwise lastFirst

/-! ## Fields -/

/-- The fields of an order before they are quoted. -/
def fields (products : List (Id × List String)) (o : Order) : List String :=
  [dateStr o.createdAt, toString o.purchaseNumber, tenderLabel o.tender, o.paymentStatus.text,
    "; ".intercalate (InsertionMap.values o.id products), centsToMoney o.total, o.currency]

section Fields
variable {value : String} {o : Order} {products : List (Id × List String)}

theorem written_inQuotes (h : '"' ∉ value.toList) : Written value.toList (inQuotes value).toList := by
  have htext : (inQuotes value).toList = quoted value.toList := by
    have hdoubled : doubled value.toList = value.toList := doubled_of_plain fun c hc hquote => h (hquote ▸ hc)
    simp [inQuotes, quoted, hdoubled]
  exact htext ▸ .quoted value.toList

theorem written_doubleQuotes (value : String) : Written value.toList (inQuotes (doubleQuotes value)).toList := by
  have htext : (inQuotes (doubleQuotes value)).toList = quoted value.toList := by
    simp [inQuotes, doubleQuotes, quoted]
  exact htext ▸ .quoted value.toList

theorem not_quote_of_isDigit {c : Char} (h : c.isDigit = true) : c ≠ '"' := by
  rintro rfl
  cases h

theorem mem_of_mem_replace {c a b : Char} {l : List Char} (h : c ∈ l.replace a b) : c ∈ l ∨ c = b := by
  induction l with
  | nil => cases h
  | cons x l ih =>
    rw [List.replace_cons] at h
    split at h
    · rcases List.mem_cons.1 h with rfl | h
      · exact .inr rfl
      · exact .inl (List.mem_cons_of_mem x h)
    · rcases List.mem_cons.1 h with rfl | h
      · exact .inl List.mem_cons_self
      · exact (ih h).imp_left (List.mem_cons_of_mem x)

theorem not_mem_dateStr (t : Instant) : '"' ∉ (dateStr t).toList := by
  intro h
  rw [dateStr, String.toList_ofList] at h
  rcases mem_of_mem_replace (List.mem_of_mem_take h) with h | h
  · rcases isoText_chars t _ h with (h | h | h | h) | h | h | h <;> cases h
  · cases h

theorem not_mem_centsToMoney (value : Cents) : '"' ∉ (centsToMoney value).toList := by
  obtain ⟨cents, htext, -, hdigits, -⟩ := centsToMoney_toList value
  rw [htext, List.mem_append, List.mem_cons]
  rintro (h | h | h)
  · exact not_quote_of_isDigit (isDigit_toDigits _ h) rfl
  · cases h
  · exact not_quote_of_isDigit (hdigits _ h) rfl

theorem not_mem_toString (n : Nat) : '"' ∉ (toString n).toList := by
  intro h
  rw [Nat.toString_eq_repr, Nat.toList_repr] at h
  exact not_quote_of_isDigit (isDigit_toDigits _ h) rfl

/-- The text of a row writes its fields. -/
theorem row_written (products : List (Id × List String)) (hcurrency : '"' ∉ o.currency.toList) :
    ∃ texts, (row products o).toList = [','].intercalate texts ∧
      List.Forall₂ Written ((fields products o).map (·.toList)) texts := by
  have htender : '"' ∉ (tenderLabel o.tender).toList := by cases o.tender <;> decide
  have hstatus : '"' ∉ o.paymentStatus.text.toList := by cases o.paymentStatus <;> decide
  refine ⟨_, String.toList_intercalate, ?_⟩
  exact .cons (written_inQuotes (not_mem_dateStr _)) (.cons (written_inQuotes (not_mem_toString _))
    (.cons (written_inQuotes htender) (.cons (written_inQuotes hstatus) (.cons (written_doubleQuotes _)
      (.cons (written_inQuotes (not_mem_centsToMoney _)) (.cons (written_inQuotes hcurrency) .nil))))))

theorem header_written : List.Forall₂ Written (header.map (·.toList)) (header.map (·.toList)) := by
  have hplain : ∀ text ∈ header, Plain text.toList := by simp [header, Plain]
  rw [List.forall₂_same]
  intro value hvalue
  obtain ⟨text, htext, rfl⟩ := List.mem_map.1 hvalue
  exact .plain (hplain text htext)

theorem numberOf_toString (n : Nat) : numberOf (toString n).toList = some n := by
  rw [Nat.toString_eq_repr, Nat.toList_repr]
  exact numberOf_toDigits n

/-- A record with the fields of an order, understood. -/
theorem ofRecord_fields : Sale.ofRecord ((fields products o).map (·.toList)) = some (saleOf products o) := by
  simp only [fields, List.map_cons, List.map_nil, Sale.ofRecord, numberOf_toString, String.ofList_toList,
    moneyToCents_centsToMoney]
  rfl

theorem secondOf_dateStr {t : Instant} (h : (ofDay (t / 86400000)).year < 10000) :
    secondOf (dateStr t).toList = t / 1000 := by
  rw [dateStr, String.toList_ofList, isoText_replace h]
  exact (secondOf_dateTimeText ' ' h).2

end Fields

/-! ## Lines -/

section Lines
variable {orders : List Order} {o : Order} {lines : List (Id × OrderLine)}

/-- The rows of an order among those of all. -/
theorem filter_lines (hunique : UniqueOn Order.id orders) (ho : o ∈ orders) :
    (orders.flatMap fun o => o.lines.map (o.id, ·)).filter (·.1 = o.id) = o.lines.map (o.id, ·) := by
  induction orders with
  | nil => cases ho
  | cons p orders ih =>
    obtain ⟨hp, hunique⟩ := List.nodup_cons.1 hunique
    rw [List.flatMap_cons, List.filter_append]
    have hhead (q : Order) : (q.lines.map (q.id, ·)).filter (·.1 = o.id) =
        if q.id = o.id then q.lines.map (q.id, ·) else [] := by
      by_cases hq : q.id = o.id
      · rw [if_pos hq, List.filter_eq_self]
        intro l hl
        obtain ⟨line, -, rfl⟩ := List.mem_map.1 hl
        exact decide_eq_true hq
      · rw [if_neg hq, List.filter_eq_nil_iff]
        intro l hl
        obtain ⟨line, -, rfl⟩ := List.mem_map.1 hl
        exact fun h => hq (of_decide_eq_true h)
    rcases List.mem_cons.1 ho with rfl | ho
    · have hrest : (orders.flatMap fun o => o.lines.map (o.id, ·)).filter (·.1 = o.id) = [] := by
        rw [List.filter_flatMap, List.flatMap_eq_nil_iff]
        intro q hq
        have hne : q.id ≠ o.id := fun h => hp (h ▸ List.mem_map_of_mem hq)
        rw [hhead, if_neg hne]
      rw [hhead, if_pos rfl, hrest, List.append_nil]
    · have hne : p.id ≠ o.id := fun h => hp (h ▸ List.mem_map_of_mem ho)
      rw [hhead, if_neg hne, List.nil_append, ih hunique ho]

/-- The texts under an order are those of its lines. -/
theorem values_linesByOrder (hunique : UniqueOn Order.id orders) (ho : o ∈ orders)
    (hlines : lines.Perm (orders.flatMap fun o => o.lines.map (o.id, ·))) :
    ∃ ls : List OrderLine, ls.Perm o.lines ∧ InsertionMap.values o.id (linesByOrder lines) =
      ls.map fun l => toString l.quantity ++ "x " ++ l.name := by
  refine ⟨(lines.filter (·.1 = o.id)).map (·.2), ?_, ?_⟩
  · have hperm := (hlines.filter (·.1 = o.id)).map Prod.snd
    rw [filter_lines hunique ho, List.map_map] at hperm
    simpa using hperm
  · rw [linesByOrder, InsertionMap.values_pushAll, List.map_map]
    simp [InsertionMap.values, Function.comp_def]

end Lines

/-! ## Files -/

section Files
variable {products : List (Id × List String)} {exported : List Order}

theorem rows_written (products : List (Id × List String)) (hcurrency : ∀ o ∈ exported, '"' ∉ o.currency.toList) :
    ∃ texts, exported.map (fun o => (row products o).toList) = texts.map ([','].intercalate ·) ∧
      List.Forall₂ (List.Forall₂ Written) (exported.map fun o => (fields products o).map (·.toList)) texts := by
  induction exported with
  | nil => exact ⟨[], rfl, .nil⟩
  | cons o exported ih =>
    obtain ⟨ho, hcurrency⟩ := List.forall_mem_cons.1 hcurrency
    obtain ⟨texts, heq, hwritten⟩ := ih hcurrency
    obtain ⟨text, hrow, hfields⟩ := row_written products ho
    exact ⟨text :: texts, by rw [List.map_cons, List.map_cons, heq, hrow], .cons hfields hwritten⟩

/-- The records of a file. -/
theorem read_rows_of (hcurrency : ∀ o ∈ exported, '"' ∉ o.currency.toList) :
    Csv.read ("\n".intercalate (",".intercalate header :: exported.map (row products))).toList =
      header.map (·.toList) :: exported.map fun o => (fields products o).map (·.toList) := by
  obtain ⟨texts, heq, hwritten⟩ := rows_written products hcurrency
  have hfile : ("\n".intercalate (",".intercalate header :: exported.map (row products))).toList =
      ['\n'].intercalate ((header.map (·.toList) :: texts).map ([','].intercalate ·)) := by
    rw [String.toList_intercalate, List.map_cons, String.toList_intercalate, List.map_map, List.map_cons, ← heq]
    rfl
  rw [hfile]
  refine read_rows (.cons header_written hwritten) (List.forall_mem_cons.2 ⟨?_, fun r hr => ?_⟩) (List.cons_ne_nil _ _)
  · exact List.cons_ne_nil _ _
  · obtain ⟨o, -, rfl⟩ := List.mem_map.1 hr
    exact List.cons_ne_nil _ _

theorem exportedOrders_perm (fromDate toDate : Instant) (orders : List Order) :
    (exportedOrders fromDate toDate orders).Perm
      (orders.filter fun o => fromDate ≤ o.createdAt && o.createdAt ≤ toDate) :=
  List.perm_insertionSort _ _

theorem exportedOrders_sorted (fromDate toDate : Instant) (orders : List Order) :
    (exportedOrders fromDate toDate orders).Pairwise lastFirst :=
  haveI : Std.Total lastFirst := ⟨fun a b => Nat.le_total b.createdAt a.createdAt⟩
  haveI : IsTrans Order lastFirst := ⟨fun _ _ _ hab hbc => Nat.le_trans hbc hab⟩
  List.pairwise_insertionSort _ _

/-- The file of a period, if the currencies have no quotes, the orders are told apart by their ids, and the second query
has answered the lines of those that the first one has found, in any order. -/
theorem sales_readable {fromDate toDate : Instant} {orders : List Order} {lines : List (Id × OrderLine)}
    (hcurrency : ∀ o ∈ orders, '"' ∉ o.currency.toList) (hunique : UniqueOn Order.id orders)
    (hlines : lines.Perm ((exportedOrders fromDate toDate orders).flatMap fun o => o.lines.map (o.id, ·))) :
    Readable fromDate toDate orders (csvData fromDate toDate orders lines) := by
  have hperm := exportedOrders_perm fromDate toDate orders
  have hmem : ∀ o ∈ exportedOrders fromDate toDate orders, o ∈ orders :=
    fun o ho => List.mem_of_mem_filter (hperm.mem_iff.1 ho)
  have hids : UniqueOn Order.id (exportedOrders fromDate toDate orders) :=
    (hperm.map Order.id).nodup_iff.2 (hunique.sublist (List.filter_sublist.map Order.id))
  refine ⟨⟨_, (exportedOrders fromDate toDate orders).map (saleOf (linesByOrder lines)),
    read_rows_of fun o ho => hcurrency o (hmem o ho), ?_, ?_⟩, hperm, exportedOrders_sorted fromDate toDate orders⟩
  · rw [List.map_map, List.map_map]
    exact List.map_congr_left fun o _ => ofRecord_fields
  · rw [List.forall₂_map_right_iff, List.forall₂_same]
    intro o ho
    obtain ⟨ls, hls, hvalues⟩ := values_linesByOrder hids ho hlines
    have hproducts : (saleOf (linesByOrder lines) o).products =
        "; ".intercalate (ls.map fun l => toString l.quantity ++ "x " ++ l.name) := by rw [← hvalues]; rfl
    exact ⟨secondOf_dateStr, rfl, rfl, rfl, ⟨ls, hls, hproducts⟩, rfl, rfl⟩

end Files

namespace Demo

def soldLine (name : String) (quantity : Nat) : OrderLine where
  sourceItemId := none
  sourceComboId := none
  itemType := .unit
  name := name
  quantity := quantity
  unitPrice := 550
  lineTotal := 550 * quantity
  imageUrl := none
  note := none
  options := []

def sold (id : Id) (purchaseNumber : Nat) (createdAt : Instant) (lines : List OrderLine) : Order where
  id := id
  locationId := "location"
  cartId := "cart-" ++ id
  paymentAttemptId := none
  purchaseNumber := purchaseNumber
  source := .adminDirect
  fulfillmentStatus := .delivered
  paymentStatus := .paid
  tender := .cash
  customerSnapshot := { name := "NN" }
  notes := none
  subtotal := (lines.map (·.lineTotal)).sum
  discountTotal := 0
  total := (lines.map (·.lineTotal)).sum
  discountSnapshot := none
  pickupPin := none
  estimatedWaitMinutes := none
  estimatedReadyAt := none
  scheduledFor := none
  paymentExpiresAt := none
  currency := "ARS"
  idempotencyKey := id
  approvedAt := none
  deliveredAt := none
  version := 1
  createdAt := createdAt
  updatedAt := createdAt
  lines := lines

/-- The second order has products with quotes, a comma and a line feed in their names. -/
def ordersSold : List Order :=
  [sold "o1" 1 951782400123 [soldLine "Tea" 1],
    sold "o2" 2 1700000000000 [soldLine "Mate \"de la casa\", dulce" 2, soldLine "Torta\nchica" 1]]

/-- The lines, as the database happens to answer them. -/
def linesSold : List (Id × OrderLine) :=
  [("o2", soldLine "Torta\nchica" 1), ("o1", soldLine "Tea" 1), ("o2", soldLine "Mate \"de la casa\", dulce" 2)]

end Demo

open SalesExport.Demo in
theorem sales_readable_quotes :
    (Csv.read (csvData 0 1800000000000 ordersSold linesSold).toList).tail.map Sale.ofRecord =
      [some ⟨1700000000, 2, "Efectivo", "paid", "1x Torta\nchica; 2x Mate \"de la casa\", dulce", 1650, "ARS"⟩,
        some ⟨951782400, 1, "Efectivo", "paid", "1x Tea", 550, "ARS"⟩] ∧
      Readable 0 1800000000000 ordersSold (csvData 0 1800000000000 ordersSold linesSold) := by
  refine ⟨by decide +kernel, sales_readable (by decide +kernel) (by decide +kernel) ?_⟩
  decide +kernel

end Komanda.SalesExport
