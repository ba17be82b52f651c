import Komanda.Proofs.CartArithmetic
import Komanda.Proofs.CashLedger
import Komanda.Proofs.SoldCarts

/-!
# The bill of an order

An order copies the lines and the amounts of the cart that its service has read, which another transaction may have
repriced since. Whatever it copied adds up, and stays: no request touches the bill of an order again.
-/

namespace Komanda
open Transaction Komanda.Core Table Runs ReadCommitted

/-! ## The bill -/

/-- A line costs its quantity at its price, and the order what its lines cost, less what its coupon took off. -/
structure Order.Bill (o : Order) : Prop where
  lines : ∀ l ∈ o.lines, l.lineTotal = l.unitPrice * l.quantity
  subtotal : (o.lines.map (·.lineTotal)).sum = o.subtotal
  total : o.discountTotal + o.total = o.subtotal
  /-- What is taken off is what the snapshot of the coupon says. -/
  coupon : ∀ snapshot ∈ o.discountSnapshot, snapshot.amountDeducted = o.discountTotal
  plain : o.discountSnapshot = none → o.discountTotal = 0

/-- The lines of the order are those of its cart. -/
def Order.Bills (o : Order) (carts : List Cart) : Prop :=
  ∃ c ∈ carts, c.id = o.cartId ∧ o.lines = c.lines.map OrderRepository.orderLine ∧ o.subtotal = c.subtotal

/-- A cart whose amounts may be copied. -/
structure Cart.Billable (c : Cart) : Prop where
  adds : c.AddsUp
  couponed : c.Couponed

section Bill
variable {o r : Order} {c : Cart} {carts carts' : List Cart} {input : SnapshotInput} {draw : Draw} {n active : Nat}

theorem Order.Bill.of_facts (h : r.Bill) (hf : o.facts = r.facts) : o.Bill := by
  have hlines : o.lines = r.lines := Order.column Order.lines hf
  have hsubtotal : o.subtotal = r.subtotal := Order.column Order.subtotal hf
  have hdiscount : o.discountTotal = r.discountTotal := Order.column Order.discountTotal hf
  have htotal : o.total = r.total := Order.column Order.total hf
  have hsnapshot : o.discountSnapshot = r.discountSnapshot := Order.column Order.discountSnapshot hf
  constructor
  · rw [hlines]
    exact h.lines
  · rw [hlines, hsubtotal]
    exact h.subtotal
  · rw [hdiscount, htotal, hsubtotal]
    exact h.total
  · rw [hsnapshot, hdiscount]
    exact h.coupon
  · rw [hsnapshot, hdiscount]
    exact h.plain

theorem Order.Bills.of_facts (h : r.Bills carts) (hf : o.facts = r.facts) : o.Bills carts := by
  obtain ⟨c, hc, hid, hlines, hsubtotal⟩ := h
  exact ⟨c, hc, hid.trans (Order.column Order.cartId hf).symm, (Order.column Order.lines hf).trans hlines,
    (Order.column Order.subtotal hf).trans hsubtotal⟩

/-- The lines of carts stay. -/
theorem Order.Bills.extends (h : o.Bills carts) (hx : Extends Cart.content carts carts') : o.Bills carts' := by
  obtain ⟨c, hc, hid, hlines, hsubtotal⟩ := h
  obtain ⟨c', hc', hcontent⟩ := hx.exists_mem hc
  exact ⟨c', hc', (Cart.content_id hcontent).trans hid, hlines.trans (congrArg _ (Cart.content_lines hcontent).symm),
    hsubtotal.trans (Cart.content_subtotal hcontent).symm⟩

theorem newOrder_bill (h : input.cart.Billable) : (OrderRepository.newOrder input draw n active).Bill where
  lines l hl := by
    obtain ⟨line, hline, rfl⟩ := List.mem_map.1 hl
    exact h.adds.lines line hline
  subtotal := by
    refine Eq.trans ?_ h.adds.subtotal
    exact congrArg List.sum (List.map_map (g := (·.lineTotal)) (f := OrderRepository.orderLine))
  total := h.adds.total
  coupon snapshot hs := by
    simp only [OrderRepository.newOrder, OrderRepository.discountSnapshot] at hs
    split at hs
    · cases hs
      rfl
    · cases hs
  plain hs := by
    cases hid : input.cart.appliedDiscountCodeId with
    | none => exact (h.couponed.plain hid).1
    | some id =>
      obtain ⟨m, hm⟩ := Option.ne_none_iff_exists'.1 (h.couponed.remembered (by rw [hid]; exact Option.some_ne_none _))
      simp [OrderRepository.newOrder, OrderRepository.discountSnapshot, hid, hm] at hs

end Bill

/-! ## The invariant -/

/-- The carts are billable, and the orders have been billed. -/
structure Billed (db : Db) : Prop where
  carts : CartsAddUp db
  couponed : ∀ x ∈ db.carts, x.Couponed
  bills : ∀ o ∈ db.orders, o.Bill
  billed : ∀ o ∈ db.orders, o.Bills db.carts

/-- The carts that a request has read may have been repriced, but they are billable, and their lines are there. -/
structure SeesBillable (v db : Db) : Prop where
  contents : SeesContents v db
  billable : ∀ x ∈ v.carts, x.Billable

section Invariant
variable {q : Request} {v db db' : Db} {x : Cart} {o : Order}

theorem Billed.billable (hi : Billed db) (hx : x ∈ db.carts) : x.Billable := ⟨hi.carts.adds x hx, hi.couponed x hx⟩

/-- A price is given to the cart it was computed of, however old that is. -/
theorem Billed.repriced (hi : Billed db) (hv : SeesContents v db) {r : CartRepository.Repricing} (hx : x ∈ db.carts)
    (hr : repricing q v = some (x.id, r)) : (r.apply x).Couponed := by
  obtain ⟨found, hfound, hprices⟩ := repricing_prices hr
  obtain ⟨z, hz, hcontent⟩ := hv found (lookup_mem hfound)
  have hzx : z = x := hi.carts.unique.eq hz hx ((Cart.content_id hcontent).trans (lookup_key hfound))
  have hsubtotal : found.subtotal = x.subtotal := hzx ▸ (Cart.content_subtotal hcontent).symm
  rw [hsubtotal] at hprices
  exact ⟨hprices.plain, hprices.remembered⟩

/-- The cart of a sale is billable, and its lines are in the table. -/
theorem Sale.billable {input : SnapshotInput} {order : Order} {new : Option Cart} {movement : Option CashMovement}
    {rows : List PaymentAttempt} (h : Sale q v db input order new movement rows) (hv : SeesBillable v db) :
    input.cart.Billable ∧ ∃ c ∈ db.carts ++ new.toList, c.content = input.cart.content := by
  rcases h.cart_cases with ⟨rfl, hmem⟩ | rfl
  · obtain ⟨c, hc, hcontent⟩ := hv.contents _ hmem
    exact ⟨hv.billable _ hmem, c, List.mem_append_left _ hc, hcontent⟩
  · refine ⟨?_, _, List.mem_append_right _ (List.mem_singleton_self _), rfl⟩
    cases h
    exact ⟨by assumption, by assumption⟩

theorem Effect.carts_couponed {c : Core} (h : Effect q v db c) (hv : SeesBillable v db) (hi : Billed db)
    (hx : x ∈ c.carts) : x.Couponed := by
  have hadd {cart : Cart} (hc : cart.Couponed) (hx : x ∈ db.carts ++ [cart]) : x.Couponed := by
    rcases List.mem_append.1 hx with hx | hx
    · exact hi.couponed x hx
    · rw [List.mem_singleton.1 hx]
      exact hc
  cases h with
  | editCarts rows h =>
    cases h with
    | same => exact hi.couponed x hx
    | add _ _ _ hc => exact hadd hc hx
    | reprice cartId r _ hr =>
      rcases mem_updateWhere_cases hx with ⟨hx, -⟩ | ⟨y, hy, hid, rfl⟩
      · exact hi.couponed x hx
      · exact hi.repriced hv.contents hy ((of_decide_eq_true hid : y.id = cartId) ▸ hr)
  | kiosk _ _ _ _ _ _ _ _ _ _ _ _ _ _ _ _ _ hc => exact hadd hc hx
  | sold input order _ _ new _ _ h =>
    rw [book_carts, sell_carts] at hx
    have hall : ∀ y ∈ db.carts ++ new.toList, y.Couponed := by
      intro y hy
      rcases List.mem_append.1 hy with hy | hy
      · exact hi.couponed y hy
      · rcases h.cart_cases with ⟨rfl, -⟩ | rfl
        · exact (List.not_mem_nil hy).elim
        · rw [List.mem_singleton.1 hy]
          exact (h.billable hv).1.couponed
    rcases mem_updateWhere_cases hx with ⟨hx, -⟩ | ⟨y, hy, -, rfl⟩
    · exact hall x hx
    · exact ⟨(hall y hy).plain, (hall y hy).remembered⟩
  | revised =>
    rw [release_carts, book_carts, revise_carts] at hx
    exact hi.couponed x hx
  | _ => exact hi.couponed x hx

/-- An order is an old one, or its sale has left the lines of its cart in the table. -/
theorem Effect.order_carts {c : Core} (h : Effect q v db c) (hv : SeesBillable v db) (ho : o ∈ c.orders) :
    (∃ r ∈ db.orders, o.facts = r.facts) ∨ o.Bill ∧ o.Bills c.carts := by
  cases h with
  | sold input order n active new _ _ h horder =>
    rw [book_orders, sell_orders] at ho
    rw [book_carts, sell_carts]
    rcases List.mem_append.1 ho with ho | ho
    · exact .inl ⟨o, ho, rfl⟩
    · obtain ⟨hbillable, cart, hcart, hcontent⟩ := h.billable hv
      obtain rfl : o = OrderRepository.newOrder input q.draw n active := (List.mem_singleton.1 ho).trans horder
      have hkept : Extends Cart.content (db.carts ++ new.toList)
          (Table.updateWhere (·.id = input.cart.id) (fun x : Cart => { x with status := .converted })
            (db.carts ++ new.toList)) := .of_eq (map_updateWhere fun _ _ => rfl)
      have hbills : (OrderRepository.newOrder input q.draw n active).Bills (db.carts ++ new.toList) :=
        ⟨cart, hcart, Cart.content_id hcontent, congrArg _ (Cart.content_lines hcontent).symm,
          (Cart.content_subtotal hcontent).symm⟩
      exact .inr ⟨newOrder_bill hbillable, hbills.extends hkept⟩
  | revised _ _ _ _ _ _ _ h =>
    rw [release_orders, book_orders, revise_orders] at ho
    rcases mem_updateWhere_cases ho with ⟨ho, -⟩ | ⟨r, hr, -, rfl⟩
    · exact .inl ⟨o, ho, rfl⟩
    · exact .inl ⟨r, hr, h.facts _ r⟩
  | _ => exact .inl ⟨o, ho, rfl⟩

theorem Effect.billed (h : Effect q v db db'.core) (hv : SeesBillable v db) (hi : Billed db) : Billed db' := by
  refine ⟨h.carts_add_up hv.contents hi.carts, fun x hx => h.carts_couponed hv hi hx, fun o ho => ?_, fun o ho => ?_⟩
  · rcases h.order_carts hv ho with ⟨r, hr, hfacts⟩ | ⟨hbill, -⟩
    · exact (hi.bills r hr).of_facts hfacts
    · exact hbill
  · rcases h.order_carts hv ho with ⟨r, hr, hfacts⟩ | ⟨-, hbills⟩
    · exact ((hi.billed r hr).of_facts hfacts).extends h.cartContents
    · exact hbills

theorem Billed.fresh (tenantId : Id) (settings : Settings) : Billed (Db.fresh tenantId settings) where
  carts := ⟨.nil, fun _ h => absurd h List.not_mem_nil⟩
  couponed _ h := absurd h List.not_mem_nil
  bills _ h := absurd h List.not_mem_nil
  billed _ h := absurd h List.not_mem_nil

theorem billed_rely : Rely Komanda.exec Komanda.reread Billed SeesBillable fun _ _ _ => True where
  refl _ hi := ⟨fun x hx => ⟨x, hx, rfl⟩, fun _ hx => hi.billable hx⟩
  reread part _ _ hi h := by
    cases part with
    | carts => exact ⟨fun x hx => ⟨x, hx, rfl⟩, fun _ hx => hi.billable hx⟩
    | _ => exact ⟨h.contents, h.billable⟩
  inv _ _ _ _ _ hi hv _ hx := (exec_effect hx).billed hv hi
  stable _ _ _ _ _ _ _ _ hx w hw := by
    refine ⟨fun x hx' => ?_, hw.billable⟩
    obtain ⟨y, hy, hcontent⟩ := hw.contents x hx'
    obtain ⟨z, hz, hcontent'⟩ := (exec_effect hx).cartContents.exists_mem hy
    exact ⟨z, hz, hcontent'.trans hcontent⟩

end Invariant

/-! ## Runs -/

theorem Extends.isPrefix_map {α κ : Type} {k : α → κ} {rows rows' : List α} (h : Extends k rows rows') :
    rows.map k <+: rows'.map k := by
  obtain ⟨new, h⟩ := h
  exact ⟨new.map k, by rw [h, List.map_append]⟩

/-- Every order of every interleaving adds up, on the lines of its cart; and whatever happens afterwards, the orders
stay on record, in their order, with the bills that they had. -/
theorem orders_billed {tenantId : Id} {settings : Settings} {es es' : List RcEvent} {s s' : RcState}
    (hr : Runs.exec rcStep (RcState.fresh tenantId settings) es = some s) (hr' : Runs.exec rcStep s es' = some s') :
    (∀ o ∈ s'.db.orders, o.Bill ∧ o.Bills s'.db.carts) ∧
      s.db.orders.map Order.facts <+: s'.db.orders.map Order.facts := by
  have hfresh : Inv Billed SeesBillable (RcState.fresh tenantId settings) :=
    ⟨.fresh tenantId settings, fun _ ho => absurd ho List.not_mem_nil⟩
  have hreached : Inv Billed SeesBillable s := billed_rely.run_inv hfresh hr
  have hrely := billed_rely.and (Q := fun db => s.db.orders.map Order.facts <+: db.orders.map Order.facts)
    fun _ _ _ _ _ _ _ _ hx hold => hold.trans (exec_effect hx).facts.isPrefix_map
  have hend := hrely.run_inv ⟨⟨hreached.db, List.prefix_rfl⟩, hreached.views⟩ hr'
  exact ⟨fun o ho => ⟨hend.db.1.bills o ho, hend.db.1.billed o ho⟩, hend.db.2⟩

open Demo in
theorem orders_billed_tenPercent : ∃ s s',
    Runs.exec rcStep (RcState.fresh "tenant" settings)
      (inTurn [setUp, offer tenPercent, fillCart "1" "cart", useCoupon 2 "cart", payInCash "3" "cart"]) = some s ∧
    Runs.exec rcStep s (inTurn [collect 5 "4" "order-3"]) = some s' ∧
    s'.db.orders.map (fun o => (o.discountTotal, o.total, o.paymentStatus)) = [(100, 900, .paid)] ∧
    (∀ o ∈ s'.db.orders, o.Bill ∧ o.Bills s'.db.carts) ∧
      s.db.orders.map Order.facts <+: s'.db.orders.map Order.facts := by
  have hread : ((Runs.exec rcStep (RcState.fresh "tenant" settings)
      (inTurn [setUp, offer tenPercent, fillCart "1" "cart", useCoupon 2 "cart", payInCash "3" "cart"])).bind fun s =>
        Runs.exec rcStep s (inTurn [collect 5 "4" "order-3"])).map
          (·.db.orders.map fun o => (o.discountTotal, o.total, o.paymentStatus)) = some [(100, 900, .paid)] := by
    decide +kernel
  obtain ⟨s', hs', horders⟩ := Option.map_eq_some_iff.1 hread
  obtain ⟨s, hr, hr'⟩ := Option.bind_eq_some_iff.1 hs'
  obtain ⟨hbills, hkept⟩ := orders_billed hr hr'
  exact ⟨s, s', hr, hr', horders, hbills, hkept⟩

end Komanda
