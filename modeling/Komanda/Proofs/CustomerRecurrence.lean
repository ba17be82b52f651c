import Komanda.CustomerRecurrence
import Komanda.Proofs.AnalyticsMoney
import Mathlib.Algebra.BigOperators.Group.List.Basic
import Mathlib.Algebra.Order.Group.Int
import Mathlib.Data.List.Dedup

/-!
# The recurrence report divides the orders

The loop over the orders of the period puts each of them into one segment (`Segmented`). It counts the orders of each
customer, earlier ones included, so only an order that finds a count of zero is a first one, and that is the first of
the period of a customer without earlier orders.
-/

namespace Komanda.Analytics
open InsertionMap

/-! ## The loop -/

/-- The orders of a customer. -/
def ordersOf (c : String) (l : List ParsedOrder) : List ParsedOrder := l.filter (·.customerId = some c)

/-- What the loop has made of the orders `l`, where `prior` counts the earlier orders of a customer. -/
structure Segmented (prior : String → Nat) (l : List ParsedOrder) (s : Segments) : Prop where
  perm : (s.firstTimeOrders ++ s.recurrentOrders ++ s.unidentifiedOrders).Perm l
  count : ∀ c, (s.customerPriorCount.lookup c).getD 0 = prior c + (ordersOf c l).length
  first : ∀ c, (ordersOf c s.firstTimeOrders).length = if prior c = 0 then min 1 (ordersOf c l).length else 0
  unidentified : s.unidentifiedOrders = l.filter (·.customerId = none)

section Loop
variable {prior : String → Nat} {l : List ParsedOrder} {s : Segments} {o : ParsedOrder}

theorem ordersOf_append (c : String) (l l' : List ParsedOrder) : ordersOf c (l ++ l') = ordersOf c l ++ ordersOf c l' :=
  List.filter_append _ _

theorem ordersOf_single (c : String) (o : ParsedOrder) :
    (ordersOf c [o]).length = if o.customerId = some c then 1 else 0 := by
  rw [ordersOf, List.filter_singleton]
  by_cases h : o.customerId = some c <;> simp [h]

theorem Segmented.add_unidentified (h : Segmented prior l s) (ho : o.customerId = none) :
    Segmented prior (l ++ [o]) (s.add o) := by
  have hnone (c : String) : (ordersOf c (l ++ [o])).length = (ordersOf c l).length := by
    rw [ordersOf_append, List.length_append, ordersOf_single, ho, if_neg (by simp), Nat.add_zero]
  rw [Segments.add, ho]
  refine ⟨?_, fun c => ?_, fun c => ?_, ?_⟩
  · rw [← List.append_assoc]
    exact h.perm.append_right [o]
  · rw [hnone]
    exact h.count c
  · rw [hnone]
    exact h.first c
  · rw [List.filter_append, ← h.unidentified, List.filter_singleton, ho]
    rfl

theorem length_ordersOf_concat {customerId : String} (ho : o.customerId = some customerId) (l : List ParsedOrder)
    (c : String) : (ordersOf c (l ++ [o])).length = (ordersOf c l).length + if c = customerId then 1 else 0 := by
  rw [ordersOf_append, List.length_append, ordersOf_single, ho]
  simp [eq_comm]

theorem Segmented.add_identified {customerId : String} (h : Segmented prior l s) (ho : o.customerId = some customerId) :
    Segmented prior (l ++ [o]) (s.add o) := by
  have hcount := h.count customerId
  have hfirst := h.first customerId
  rw [Segments.add, ho]
  refine ⟨?_, fun c => ?_, fun c => ?_, ?_⟩
  · dsimp only
    refine List.Perm.trans ?_ (h.perm.append_right [o])
    by_cases hpos : (s.customerPriorCount.lookup customerId).getD 0 > 0
    · simp only [if_pos hpos, List.append_assoc]
      exact (List.perm_append_comm.append_left _).append_left _
    · simp only [if_neg hpos, List.append_assoc]
      rw [← List.append_assoc s.recurrentOrders s.unidentifiedOrders [o]]
      exact List.perm_append_comm.append_left _
  · rw [length_ordersOf_concat ho, lookup_set]
    by_cases hc : c = customerId
    · subst hc
      rw [if_pos rfl, if_pos rfl, Option.getD_some, hcount, Nat.add_assoc]
    · rw [if_neg hc, if_neg hc, h.count c, Nat.add_zero]
  · rw [length_ordersOf_concat ho]
    by_cases hc : c = customerId
    · subst hc
      by_cases hpos : (s.customerPriorCount.lookup c).getD 0 > 0
      · simp only [if_pos hpos, hfirst, if_true]
        split <;> omega
      · simp only [if_neg hpos, length_ordersOf_concat ho, hfirst, if_true]
        split <;> omega
    · rw [if_neg hc, Nat.add_zero, ← h.first c]
      by_cases hpos : (s.customerPriorCount.lookup customerId).getD 0 > 0
      · simp only [if_pos hpos]
      · simp only [if_neg hpos, length_ordersOf_concat ho, if_neg hc, Nat.add_zero]
  · rw [List.filter_append, ← h.unidentified, List.filter_singleton, ho]
    exact (List.append_nil _).symm

theorem Segmented.add (h : Segmented prior l s) (o : ParsedOrder) : Segmented prior (l ++ [o]) (s.add o) := by
  cases ho : o.customerId with
  | none => exact h.add_unidentified ho
  | some customerId => exact h.add_identified ho

theorem Segmented.run (h : Segmented prior l s) (l' : List ParsedOrder) :
    Segmented prior (l ++ l') (l'.foldl Segments.add s) := by
  induction l' generalizing l s with
  | nil => rwa [List.append_nil]
  | cons o l' ih =>
    have hrest := ih (h.add o)
    rwa [List.append_assoc] at hrest

theorem Segmented.start (m : List (String × List Instant)) :
    Segmented (fun c => (values c m).length) [] (Segments.start m) := by
  refine ⟨.refl _, fun c => ?_, fun c => ?_, rfl⟩
  · rw [Segments.start, lookup_map_values, values]
    cases m.lookup c <;> rfl
  · exact (ite_self 0).symm

end Loop

/-! ## Customers -/

theorem periodCustomerIds_nodup (period : List ParsedOrder) : (periodCustomerIds period).Nodup :=
  (addAll_spec _ List.nodup_nil).1

theorem mem_periodCustomerIds {period : List ParsedOrder} {c : String} :
    c ∈ periodCustomerIds period ↔ ∃ o ∈ period, o.customerId = some c := by
  rw [periodCustomerIds, (addAll_spec _ List.nodup_nil).2, List.mem_filterMap]
  simp

/-- The customer of an order. -/
def customerOf (o : TenantOrder) : Option String := extractCustomerIdentifier o.customerSnapshot

/-- A contact of the checkout is known by its email, if that has the form of one, else by a phone of six digits. -/
theorem customerOf_tenantOrder (o : Order) : customerOf o.tenantOrder =
    let email := Text.trim (o.customerSnapshot.email.getD "")
    let digits := (o.customerSnapshot.phone.getD "").toList.filter Char.isDigit
    if email ≠ "" ∧ emailShaped (Text.toLowerCase email) then some ("email:" ++ Text.toLowerCase email)
    else if digits.length ≥ 6 then some ("phone:" ++ String.ofList digits) else none := by
  have hempty : Text.trim "" = "" := by decide
  have hpayer : field o.tenantOrder.customerSnapshot "payer" = none := rfl
  have hemail : trimmedText (field o.tenantOrder.customerSnapshot "email") =
      Text.trim (o.customerSnapshot.email.getD "") := by
    cases h : o.customerSnapshot.email <;> simp [Order.tenantOrder, Customer.snapshot, field, trimmedText, h, hempty]
  have hphone : phoneText (rawPhone o.tenantOrder.customerSnapshot) = o.customerSnapshot.phone := by
    cases h : o.customerSnapshot.phone with
    | none => simp [Order.tenantOrder, Customer.snapshot, rawPhone, field, phoneText, truthy, h]
    | some phone =>
      by_cases hblank : phone = "" <;>
        simp [Order.tenantOrder, Customer.snapshot, rawPhone, field, phoneText, truthy, h, hblank]
  rw [customerOf, extractCustomerIdentifier, hemail, hpayer, hphone]
  have hnone : trimmedText ((none : Option (Json.Value Empty)).bind (field · "email")) = "" := rfl
  simp only [hnone]
  generalize hmail : Text.trim (o.customerSnapshot.email.getD "") = email
  by_cases hblank : email = ""
  · subst hblank
    cases o.customerSnapshot.phone <;> simp
  · simp only [ne_eq, hblank, not_false_eq_true, if_true, true_and, decide_true, Bool.true_and]
    cases o.customerSnapshot.phone <;> simp

theorem values_priorOrdersByCustomer {customers : List String} {c : String} (prior : List TenantOrder)
    (hc : c ∈ customers) : values c (priorOrdersByCustomer customers prior) =
      (prior.filter (customerOf · = some c)).map (·.createdAt) := by
  rw [priorOrdersByCustomer, values_pushAll]
  refine congrArg (List.map _) (List.filter_congr fun o _ => ?_)
  rw [decide_eq_decide, Option.filter_eq_some_iff, customerOf]
  simp [hc]

section Report
variable (fromDate toDate : Instant) (locationId : Option Id) (orders : List TenantOrder)

theorem parsedPeriodOrders_perm : (parsedPeriodOrders fromDate toDate locationId orders).Perm
    ((periodOrders fromDate toDate locationId orders).map parsedOrder) :=
  (List.mergeSort_perm _ _).map _

/-- The customers of the period, each once. -/
theorem periodCustomerIds_perm : (periodCustomerIds (parsedPeriodOrders fromDate toDate locationId orders)).Perm
    ((periodOrders fromDate toDate locationId orders).filterMap customerOf).dedup := by
  refine (List.perm_ext_iff_of_nodup (periodCustomerIds_nodup _) (List.nodup_dedup _)).2 fun c => ?_
  rw [mem_periodCustomerIds, List.mem_dedup, List.mem_filterMap]
  constructor
  · rintro ⟨parsed, hparsed, hc⟩
    obtain ⟨o, ho, rfl⟩ := List.mem_map.1 ((parsedPeriodOrders_perm fromDate toDate locationId orders).mem_iff.1 hparsed)
    exact ⟨o, ho, hc⟩
  · rintro ⟨o, ho, hc⟩
    exact ⟨parsedOrder o, (parsedPeriodOrders_perm fromDate toDate locationId orders).mem_iff.2
      (List.mem_map_of_mem ho), hc⟩

/-- Earlier orders are counted for the customers of the period. -/
theorem values_priorOrders {c : String} (hc : c ∈ periodCustomerIds (parsedPeriodOrders fromDate toDate locationId orders)) :
    (values c (priorOrders fromDate toDate locationId orders)).length =
      ((ordersBefore fromDate locationId orders).filter (customerOf · = some c)).length := by
  rw [priorOrders, if_pos (List.length_pos_of_mem hc), values_priorOrdersByCustomer _ hc, List.length_map, byCreatedAt]
  exact ((List.mergeSort_perm _ _).filter _).length_eq

theorem segmented : Segmented (fun c => (values c (priorOrders fromDate toDate locationId orders)).length)
    (parsedPeriodOrders fromDate toDate locationId orders) (segments fromDate toDate locationId orders) :=
  (Segmented.start _).run _

/-- A customer has one first order in the period, unless there are earlier ones. -/
theorem firstTimeOrders_of {c : String} (hc : ∃ o ∈ periodOrders fromDate toDate locationId orders, customerOf o = some c) :
    (ordersOf c (segments fromDate toDate locationId orders).firstTimeOrders).length =
      if ∃ o ∈ ordersBefore fromDate locationId orders, customerOf o = some c then 0 else 1 := by
  have hmem : c ∈ periodCustomerIds (parsedPeriodOrders fromDate toDate locationId orders) := by
    rw [(periodCustomerIds_perm fromDate toDate locationId orders).mem_iff, List.mem_dedup, List.mem_filterMap]
    exact hc
  have hsome : 0 < (ordersOf c (parsedPeriodOrders fromDate toDate locationId orders)).length := by
    obtain ⟨o, ho, hcustomer⟩ := mem_periodCustomerIds.1 hmem
    exact List.length_pos_of_mem (List.mem_filter.2 ⟨ho, decide_eq_true hcustomer⟩)
  have hprior : ((ordersBefore fromDate locationId orders).filter (customerOf · = some c)).length = 0 ↔
      ¬ ∃ o ∈ ordersBefore fromDate locationId orders, customerOf o = some c := by
    simp [List.filter_eq_nil_iff]
  rw [(segmented fromDate toDate locationId orders).first, values_priorOrders fromDate toDate locationId orders hmem]
  by_cases h : ∃ o ∈ ordersBefore fromDate locationId orders, customerOf o = some c
  · rw [if_pos h, if_neg fun hzero => hprior.1 hzero h]
  · rw [if_neg h, if_pos (hprior.2 h)]
    omega

end Report

/-! ## Segments -/

/-- The cents that a total is read as. -/
def centsOf (o : ParsedOrder) : Int := (parseMoneyToCents o.total).getD 0

theorem centsOf_parsedOrder (o : TenantOrder) : centsOf (parsedOrder o) = o.total := by
  rw [centsOf, parsedOrder, parseMoneyToCents_centsToMoney, Option.getD_some]

theorem buildSegment_eq {l : List ParsedOrder} (h : ∀ o ∈ l, parseMoneyToCents o.total = some (centsOf o)) (n : Nat) :
    ∃ m, buildSegment l n = some m ∧ m.customerCount = n ∧ m.orderCount = l.length ∧
      m.totalRevenue = centsToMoneyString (l.map centsOf).sum := by
  by_cases hl : l.length > 0
  · have hsum := sumCents_texts l h 0
    rw [zero_add] at hsum
    simp only [buildSegment, if_pos hl]
    rw [hsum]
    simp only [Option.map_eq_map, Option.map_some, Option.bind_eq_bind, Option.bind_some,
      parseMoneyToCents_centsToMoneyString]
    exact ⟨_, rfl, rfl, rfl, rfl⟩
  · have hnil : l = [] := by simpa using hl
    have hzero : centsToMoneyString 0 = "0.00" := by decide
    subst hnil
    exact ⟨_, rfl, rfl, rfl, hzero.symm⟩

theorem buildSegments {first recurrent unidentified : List ParsedOrder} {period : List TenantOrder}
    (h : (first ++ recurrent ++ unidentified).Perm (period.map parsedOrder)) :
    (∀ o ∈ first ++ recurrent ++ unidentified, parseMoneyToCents o.total = some (centsOf o)) ∧
      (first.map centsOf).sum + (recurrent.map centsOf).sum + (unidentified.map centsOf).sum =
        (period.map fun o => (o.total : Int)).sum := by
  constructor
  · intro parsed hparsed
    obtain ⟨o, _, rfl⟩ := List.mem_map.1 (h.mem_iff.1 hparsed)
    rw [centsOf_parsedOrder]
    exact parseMoneyToCents_centsToMoney o.total
  · have hcents : (period.map parsedOrder).map centsOf = period.map fun o => (o.total : Int) := by
      simp only [List.map_map, Function.comp_def, centsOf_parsedOrder]
    rw [← hcents, ← (h.map centsOf).sum_eq, List.map_append, List.map_append, List.sum_append, List.sum_append]

theorem Segmented.identified {prior : String → Nat} {l : List ParsedOrder} {s : Segments} (h : Segmented prior l s) :
    ∀ o ∈ s.firstTimeOrders ++ s.recurrentOrders, o.customerId ≠ none := by
  have hself : s.unidentifiedOrders.filter (·.customerId = none) = s.unidentifiedOrders := by
    rw [h.unidentified, List.filter_filter]
    simp
  have hlength := (h.perm.filter (·.customerId = none)).length_eq
  rw [List.filter_append, List.length_append, hself, ← h.unidentified] at hlength
  have hnone : (s.firstTimeOrders ++ s.recurrentOrders).filter (·.customerId = none) = [] :=
    List.eq_nil_of_length_eq_zero (by omega)
  intro o ho hcustomer
  exact List.filter_eq_nil_iff.1 hnone o ho (decide_eq_true hcustomer)

/-! ## The report -/

/-- The segments divide the orders of the period, and the customers of the period are new ones and ones that come
back. -/
structure Divides (period before : List TenantOrder) (s : Segments) (summary : CustomerRecurrenceSummary) : Prop where
  orders : (s.firstTimeOrders ++ s.recurrentOrders ++ s.unidentifiedOrders).Perm (period.map parsedOrder)
  unidentified : ∀ o ∈ s.unidentifiedOrders, o.customerId = none
  identified : ∀ o ∈ s.firstTimeOrders ++ s.recurrentOrders, o.customerId ≠ none
  counts : summary.firstTime.orderCount + summary.recurrent.orderCount + summary.unidentified.orderCount =
    period.length
  revenues : addMoneyStrings
    [summary.firstTime.totalRevenue, summary.recurrent.totalRevenue, summary.unidentified.totalRevenue] =
      some (centsToMoneyString (period.map fun o => (o.total : Int)).sum)
  customers : summary.firstTimeCustomers + summary.recurrentCustomers = (period.filterMap customerOf).dedup.length
  firstTime : summary.firstTime.orderCount = s.firstTimeOrders.length
  /-- A customer has one first order in the period, or none after an earlier one. -/
  first : ∀ c ∈ period.filterMap customerOf, (ordersOf c s.firstTimeOrders).length =
    if ∃ o ∈ before, customerOf o = some c then 0 else 1

theorem recurrence_divides (fromDate toDate : Instant) (locationId : Option Id) (orders : List TenantOrder) :
    ∃ summary, AnalyticsRepository.getCustomerRecurrenceSummary fromDate toDate locationId orders = some summary ∧
      Divides (periodOrders fromDate toDate locationId orders) (ordersBefore fromDate locationId orders)
        (segments fromDate toDate locationId orders) summary := by
  have hs := segmented fromDate toDate locationId orders
  have hperm := hs.perm.trans (parsedPeriodOrders_perm fromDate toDate locationId orders)
  obtain ⟨hread, hsum⟩ := buildSegments hperm
  rw [List.forall_mem_append, List.forall_mem_append] at hread
  have hcustomers := (periodCustomerIds_perm fromDate toDate locationId orders).length_eq
  simp only [AnalyticsRepository.getCustomerRecurrenceSummary]
  generalize hcomes : comesBack (priorOrders fromDate toDate locationId orders)
    (segments fromDate toDate locationId orders).customerAllOrderDates = comes
  obtain ⟨firstTime, hfirst, hfirstCount, hfirstOrders, hfirstRevenue⟩ := buildSegment_eq hread.1.1
    ((periodCustomerIds (parsedPeriodOrders fromDate toDate locationId orders)).countP fun id => !comes id)
  obtain ⟨recurrent, hrecurrent, hrecurrentCount, hrecurrentOrders, hrecurrentRevenue⟩ := buildSegment_eq hread.1.2
    ((periodCustomerIds (parsedPeriodOrders fromDate toDate locationId orders)).countP comes)
  obtain ⟨unidentified, hunidentified, _, hunidentifiedOrders, hunidentifiedRevenue⟩ := buildSegment_eq hread.2 0
  rw [hfirst, hrecurrent, hunidentified]
  refine ⟨_, rfl, hperm, fun o ho => ?_, hs.identified, ?_, ?_, ?_, hfirstOrders, fun c hc => ?_⟩
  · rw [hs.unidentified] at ho
    exact of_decide_eq_true (List.mem_filter.1 ho).2
  · have hlength := hperm.length_eq
    rw [List.length_append, List.length_append, List.length_map] at hlength
    rw [hfirstOrders, hrecurrentOrders, hunidentifiedOrders, hlength]
  · have hrevenue := addMoneyStrings_map
      [((segments fromDate toDate locationId orders).firstTimeOrders.map centsOf).sum,
        ((segments fromDate toDate locationId orders).recurrentOrders.map centsOf).sum,
        ((segments fromDate toDate locationId orders).unidentifiedOrders.map centsOf).sum]
    rw [hfirstRevenue, hrecurrentRevenue, hunidentifiedRevenue, ← hsum]
    simpa [add_assoc] using hrevenue
  · rw [← hcustomers, List.length_eq_countP_add_countP comes, Nat.add_comm]
    simp
  · exact firstTimeOrders_of fromDate toDate locationId orders (List.mem_filterMap.1 hc)

end Komanda.Analytics
