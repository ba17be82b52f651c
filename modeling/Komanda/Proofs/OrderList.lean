import Komanda.OrderList
import Komanda.Proofs.JobScans

/-!
# What the pages of a listing show

A cursor asks for the orders that were created before the last one of the page. That fits the back office, where the
newest come first, unless the page ends between two orders of one millisecond: the others of that millisecond are left
out. In the kitchen, where the oldest come first, it leads back to the orders that the first page has shown.
-/

namespace Komanda
open OrderRepository OrderQueryService Keyset

/-! ## The law -/

/-- The orders that a listing is about. -/
def OrderListInput.matching (input : OrderListInput) (orders : List Order) : List Order :=
  orders.filter (conditions input)

/-- A client that starts without a cursor and goes on until there is none comes to an end, and it has seen each matching
order once, in the order of the listing. -/
def ListsExactly (input : OrderListInput) (orders : List Order) : Prop :=
  ∃ fuel seen, follow (fun cursor => OrderRepository.list { input with cursor } orders) fuel none = some seen ∧
    seen.Perm (input.matching orders) ∧ seen.Pairwise (orderBy input)

/-- All orders of the kitchen fit on the first page; elsewhere no page ends between two orders of one time. -/
def OrderListInput.FitsPages (input : OrderListInput) (orders : List Order) : Prop :=
  if input.scope = some .kitchen then (input.matching orders).length ≤ input.limit.getD 50
  else Unsplit Order.createdAt (input.limit.getD 50) ((input.matching orders).insertionSort (orderBy input))

/-! ## The order of a listing -/

section Sorted
variable {input : OrderListInput} {orders rows seen : List Order} {a b c : Order}

theorem ascending_total (a b : Order) : ascending a b ∨ ascending b a := by
  unfold ascending
  rcases lt_trichotomy a.createdAt b.createdAt with h | h | h
  · exact .inl (.inl h)
  · rcases le_total a.id b.id with hid | hid
    · exact .inl (.inr ⟨h, hid⟩)
    · exact .inr (.inr ⟨h.symm, hid⟩)
  · exact .inr (.inl h)

theorem ascending_trans (h : ascending a b) (h' : ascending b c) : ascending a c := by
  rcases h with h | ⟨h, hid⟩
  · rcases h' with h' | ⟨h', -⟩
    · exact .inl (h.trans h')
    · exact .inl (h' ▸ h)
  · rcases h' with h' | ⟨h', hid'⟩
    · exact .inl (h ▸ h')
    · exact .inr ⟨h.trans h', hid.trans hid'⟩

theorem ascending_antisymm (h : ascending a b) (h' : ascending b a) : a.id = b.id := by
  rcases h with h | ⟨h, hid⟩
  · rcases h' with h' | ⟨h', -⟩
    · exact absurd h' h.asymm
    · exact absurd h (h'.symm ▸ lt_irrefl _)
  · rcases h' with h' | ⟨-, hid'⟩
    · exact absurd h' (h ▸ lt_irrefl _)
    · exact le_antisymm hid hid'

theorem createdAt_le (h : ascending a b) : a.createdAt ≤ b.createdAt := by
  rcases h with h | ⟨h, -⟩
  · exact Nat.le_of_lt h
  · exact Nat.le_of_eq h

theorem orderBy_total (a b : Order) : orderBy input a b ∨ orderBy input b a := by
  unfold orderBy
  split
  · exact ascending_total a b
  · exact ascending_total b a

theorem orderBy_trans (h : orderBy input a b) (h' : orderBy input b c) : orderBy input a c := by
  unfold orderBy at h h' ⊢
  split
  · next hs =>
    rw [if_pos hs] at h h'
    exact ascending_trans h h'
  · next hs =>
    rw [if_neg hs] at h h'
    exact ascending_trans h' h

theorem orderBy_antisymm (h : orderBy input a b) (h' : orderBy input b a) : a.id = b.id := by
  unfold orderBy at h h'
  split at h
  · next hs =>
    rw [if_pos hs] at h'
    exact ascending_antisymm h h'
  · next hs =>
    rw [if_neg hs] at h'
    exact ascending_antisymm h' h

theorem sorted_orders (input : OrderListInput) (rows : List Order) :
    (rows.insertionSort (orderBy input)).Pairwise (orderBy input) :=
  haveI : Std.Total (orderBy input) := ⟨orderBy_total⟩
  haveI : IsTrans Order (orderBy input) := ⟨fun _ _ _ => orderBy_trans⟩
  List.pairwise_insertionSort _ _

/-- Orders of a listing come in one order only. -/
theorem orders_unique (hid : Table.UniqueOn Order.id orders) (hrows : ∀ o ∈ rows, o ∈ orders) (hperm : rows.Perm seen)
    (hr : rows.Pairwise (orderBy input)) (hs : seen.Pairwise (orderBy input)) : rows = seen := by
  refine hperm.eq_of_pairwise (fun a b ha hb hab hba => ?_) hr hs
  exact List.inj_on_of_nodup_map hid (hrows a ha) (hrows b (hperm.mem_iff.2 hb)) (orderBy_antisymm hab hba)

end Sorted

/-! ## The pages -/

section Pages
variable {input : OrderListInput} {orders : List Order}

/-- The rows that a listing without a cursor is cut from. -/
def OrderListInput.rows (input : OrderListInput) (orders : List Order) : List Order :=
  (input.matching orders).insertionSort (orderBy input)

/-- One row more than the page tells whether there is a next one. -/
theorem list_eq_page (input : OrderListInput) (orders : List Order) : OrderRepository.list input orders =
    page Order.createdAt (input.limit.getD 50) ((orders.filter fun o =>
      conditions input o && input.cursor.all (o.createdAt < ·)).insertionSort (orderBy input)) := by
  unfold OrderRepository.list page
  dsimp only
  generalize (orders.filter _).insertionSort (orderBy input) = rows
  generalize input.limit.getD 50 = limit
  have hmore : limit < (rows.take (limit + 1)).length ↔ limit < rows.length := by
    rw [List.length_take]
    omega
  rw [List.take_take, Nat.min_eq_left (Nat.le_succ _), if_congr hmore rfl rfl]

theorem list_first : OrderRepository.list { input with cursor := none } orders =
    page Order.createdAt (input.limit.getD 50) (input.rows orders) := by
  refine (list_eq_page _ _).trans (congrArg (page _ _) ?_)
  refine congrArg (List.insertionSort (orderBy input)) (List.filter_congr fun o _ => ?_)
  exact Bool.and_true _

theorem list_next (hid : Table.UniqueOn Order.id orders) (c : Instant) :
    OrderRepository.list { input with cursor := some c } orders =
      page Order.createdAt (input.limit.getD 50) ((input.rows orders).filter (·.createdAt < c)) := by
  refine (list_eq_page _ _).trans (congrArg (page _ _) ?_)
  have hfilter : (orders.filter fun o => conditions input o && decide (o.createdAt < c)) =
      (input.matching orders).filter (·.createdAt < c) := by
    rw [OrderListInput.matching, List.filter_filter]
    exact List.filter_congr fun o _ => Bool.and_comm _ _
  refine orders_unique hid (fun o ho => ?_) ?_ (sorted_orders input _) ((sorted_orders input _).filter _)
  · exact List.mem_of_mem_filter ((List.mem_insertionSort _).1 ho)
  · refine (List.perm_insertionSort _ _).trans ?_
    exact (List.Perm.of_eq hfilter).trans ((List.perm_insertionSort _ _).symm.filter _)

/-- What a client has seen of a listing that visits each matching order once. -/
theorem lists_exactly_iff (hid : Table.UniqueOn Order.id orders) : ListsExactly input orders ↔ ∃ fuel,
    follow (fun cursor => OrderRepository.list { input with cursor } orders) fuel none = some (input.rows orders) := by
  constructor
  · rintro ⟨fuel, seen, hseen, hperm, hsorted⟩
    have hrows : seen = input.rows orders := by
      refine orders_unique hid (fun o ho => ?_) (hperm.trans (List.perm_insertionSort _ _).symm) hsorted
        (sorted_orders input _)
      exact List.mem_of_mem_filter (hperm.mem_iff.1 ho)
    exact ⟨fuel, hrows ▸ hseen⟩
  · rintro ⟨fuel, hseen⟩
    exact ⟨fuel, _, hseen, List.perm_insertionSort _ _, sorted_orders input _⟩

/-- A listing shows each matching order once, page by page, exactly if it fits its pages. -/
theorem list_exact_iff (hid : Table.UniqueOn Order.id orders) :
    ListsExactly input orders ↔ input.FitsPages orders := by
  rw [lists_exactly_iff hid]
  have hcases : ∃ fuel seen,
      follow (fun cursor => OrderRepository.list { input with cursor } orders) fuel none = some seen ∧
        (seen = input.rows orders ↔ input.FitsPages orders) := by
    have hsorted := sorted_orders input (input.matching orders)
    unfold OrderListInput.FitsPages
    split
    · next hkitchen =>
      have hlength : (input.matching orders).length = (input.rows orders).length :=
        (List.length_insertionSort _ _).symm
      rw [hlength]
      refine follow_increasing (hsorted.imp fun h => ?_) list_first (list_next hid)
      rw [orderBy, if_pos hkitchen] at h
      exact createdAt_le h
    · next hall =>
      refine follow_decreasing (hsorted.imp fun h => ?_) list_first (list_next hid)
      rw [orderBy, if_neg hall] at h
      exact createdAt_le h
  obtain ⟨fuel, seen, hseen, hiff⟩ := hcases
  rw [← hiff]
  constructor
  · rintro ⟨fuel', hseen'⟩
    exact follow_unique hseen hseen'
  · rintro rfl
    exact ⟨fuel, hseen⟩

/-! ## What a request is answered with -/

theorem mem_list {o : Order} (h : o ∈ (OrderRepository.list input orders).data) :
    o ∈ orders ∧ conditions input o = true ∧ input.cursor.all (o.createdAt < ·) = true := by
  rw [list_eq_page] at h
  have hsel := (List.mem_insertionSort _).1 (List.mem_of_mem_take h)
  rw [List.mem_filter, Bool.and_eq_true] at hsel
  exact hsel

theorem OrderQueryService.list_ok {date : String → Option Instant} {status cursor scope paymentStatus : Option String}
    {limit : Option Nat} {page : OrderPage}
    (h : OrderQueryService.list date status cursor scope paymentStatus limit orders = .ok page) :
    ∃ input : OrderListInput, parseStatus status = .ok input.status ∧ parseScope scope = .ok input.scope ∧
      parsePaymentStatus paymentStatus = .ok input.paymentStatus ∧
      parse date "Invalid cursor." cursor = .ok input.cursor ∧ input.limit = limit ∧
        page = OrderRepository.list input orders := by
  unfold OrderQueryService.list at h
  cases hstatus : parseStatus status with
  | error e => rw [hstatus] at h; cases h
  | ok status =>
    cases hscope : parseScope scope with
    | error e => rw [hstatus, hscope] at h; cases h
    | ok scope =>
      cases hpayment : parsePaymentStatus paymentStatus with
      | error e => rw [hstatus, hscope, hpayment] at h; cases h
      | ok paymentStatus =>
        cases hcursor : parse date "Invalid cursor." cursor with
        | error e => rw [hstatus, hscope, hpayment, hcursor] at h; cases h
        | ok cursor =>
          rw [hstatus, hscope, hpayment, hcursor] at h
          exact ⟨{ status, scope, paymentStatus, cursor, limit }, rfl, rfl, rfl, rfl, rfl, (Except.ok.inj h).symm⟩

/-- The kitchen sees paid orders that it has to work on, whatever else is asked for. -/
theorem kitchen_sees_paid {date : String → Option Instant} {status cursor paymentStatus : Option String}
    {limit : Option Nat} {page : OrderPage} {o : Order}
    (h : OrderQueryService.list date status cursor (some "kitchen") paymentStatus limit orders = .ok page)
    (ho : o ∈ page.data) : o.paymentStatus = .paid ∧ o.fulfillmentStatus ∈ kitchenStatuses := by
  obtain ⟨input, -, hscope, -, -, -, rfl⟩ := OrderQueryService.list_ok h
  have hkitchen : input.scope = some .kitchen := (Except.ok.inj hscope).symm
  obtain ⟨-, hconditions, -⟩ := mem_list ho
  rw [conditions, if_pos hkitchen, Bool.and_eq_true, decide_eq_true_iff] at hconditions
  refine ⟨hconditions.1, ?_⟩
  cases hstatus : input.status with
  | none =>
    rw [hstatus] at hconditions
    exact List.contains_iff_mem.1 hconditions.2
  | some status =>
    rw [hstatus] at hconditions
    exact List.contains_iff_mem.1 (Bool.and_eq_true_iff.1 hconditions.2).2

end Pages

namespace Demo

/-- A paid order that waits for the kitchen. -/
def ticket (n : Nat) : Order := { unpaidOrder with
  id := toString n, paymentStatus := .paid, paymentExpiresAt := none, createdAt := n }

/-- One order more than a page holds. -/
def busyKitchen : List Order := (List.range 51).map ticket

end Demo

open Demo

theorem list_exact_three : Table.UniqueOn Order.id [ticket 1, ticket 2, ticket 3] ∧
    (ListsExactly { limit := some 2 } [ticket 1, ticket 2, ticket 3] ↔
      OrderListInput.FitsPages { limit := some 2 } [ticket 1, ticket 2, ticket 3]) := by
  have hid : Table.UniqueOn Order.id [ticket 1, ticket 2, ticket 3] := by decide +kernel
  exact ⟨hid, list_exact_iff hid⟩

/-- The second page of the kitchen holds orders of the first one, and not the last order. -/
theorem busy_kitchen_loses_order : ¬ ∀ (input : OrderListInput) (orders : List Order), 0 < input.limit.getD 50 →
    Table.UniqueOn Order.id orders → ListsExactly input orders := by
  intro hlaw
  have hid : Table.UniqueOn Order.id busyKitchen := by decide +kernel
  obtain ⟨fuel, seen, hseen, hperm, -⟩ := hlaw { scope := some .kitchen } busyKitchen (by decide) hid
  have hlength : (follow (fun cursor => OrderRepository.list { scope := some .kitchen, cursor } busyKitchen) 2 none).map
      List.length = some 99 := by decide +kernel
  obtain ⟨seen', hseen', hlength'⟩ := Option.map_eq_some_iff.1 hlength
  obtain rfl := follow_unique hseen hseen'
  have hmatching : (OrderListInput.matching { scope := some .kitchen } busyKitchen).length = 51 := by decide +kernel
  have hsame := hperm.length_eq
  rw [hlength', hmatching] at hsame
  exact absurd hsame (by decide)

end Komanda
