import Komanda.Proofs.CouponLimits
import Komanda.Proofs.SoldCarts

/-!
# Coupons of cancelled orders

Four services cancel orders. Each releases the coupon's redemption under the same condition, that the order
carries a snapshot of a coupon; an order has a redemption only with such a snapshot, because the cart that it was
made from remembers the terms of its coupon. So a redemption is marked exactly when its order is cancelled.
-/

namespace Komanda
open Runs Komanda.Core Table

section Operations
variable {q : Request} {v db : Db} {c : Core} {order : Order} {p : Order → Bool} {f : Order → Order}
  {movement : Option CashMovement} {released : Bool} {rows : List PaymentAttempt}

/-- Nothing leads out of `cancelled`. -/
theorem canTransition_cancelled {next : FulfillmentStatus} {source : OrderSource}
    (h : canTransition .cancelled next source = true) : next = .cancelled := by
  cases next with
  | cancelled => rfl
  | _ => cases source <;> cases h

theorem transition_allowed {request : TransitionOrderService.Request}
    (h : TransitionOrderService.obstacle order request = none) :
    canTransition order.fulfillmentStatus request.fulfillmentStatus order.source = true := by
  unfold TransitionOrderService.obstacle at h
  by_contra hno
  rw [if_pos hno] at h
  cases h

/-- An operation releases the coupon exactly when it cancels the order. -/
theorem Revision.releases_iff (h : Revision q v db order p f movement released rows) :
    (bump f q.draw.now order).fulfillmentStatus = .cancelled ↔
      released = true ∨ order.fulfillmentStatus = .cancelled := by
  cases h with
  | transition expectedVersion request _ hg hne =>
    have hnext : (bump (transitioned request.fulfillmentStatus
        (TransitionOrderService.refundsCash order request.fulfillmentStatus) q.draw.now) q.draw.now
          order).fulfillmentStatus = request.fulfillmentStatus := rfl
    rw [hnext, decide_eq_true_iff]
    refine ⟨Or.inl, fun h => h.resolve_right fun hc => ?_⟩
    have hnext := transition_allowed hg
    rw [hc] at hnext
    exact hne (hc.trans (canTransition_cancelled hnext).symm)
  | collect => simp [bump, CollectCashService.pay]
  | refund => simp [bump, RefundCashService.giveBack]
  | cancel => simp [bump, CancelUnpaidOrderService.cancelOrder]
  | expire => simp [bump, ExpireUnpaidOrdersJob.expireOrder]
  | confirm => simp [bump, settledAs]
  | refuse => simp [bump, settledAs]

end Operations

/-! ## The invariant -/

/-- The order of a redemption carries a coupon, and is cancelled when the redemption says so. -/
def DiscountRedemption.Follows (r : DiscountRedemption) (o : Order) : Prop :=
  o.id = r.orderId ∧ o.discountSnapshot.isSome = true ∧ (r.status = .orderCancelled ↔ o.fulfillmentStatus = .cancelled)

structure RedemptionInv (c : Core) : Prop where
  keyed : Keyed c
  sold : SoldInv c
  follows : ∀ r ∈ c.redemptions, ∃ o ∈ c.orders, r.Follows o

section Invariant
variable {q : Request} {v db : Db} {c : Core} {cart : Cart} {order : Order}

theorem RedemptionInv.fresh {tenantId : Id} {settings : Settings} : RedemptionInv (Db.fresh tenantId settings).core :=
  ⟨.empty, .fresh, fun _ h => (List.not_mem_nil h).elim⟩

/-- A cart whose coupon is redeemed gives its order a snapshot of the coupon. -/
theorem snapshot_of_redeemed {id : Id} (hc : cart.Couponed) (h : redeemed cart = some id) :
    (OrderRepository.discountSnapshot cart).isSome = true := by
  have hid := redeemed_eq h
  obtain ⟨m, hm⟩ := Option.ne_none_iff_exists'.1 (hc.remembered (by rw [hid]; exact Option.some_ne_none _))
  simp [OrderRepository.discountSnapshot, hid, hm]

/-- The redemptions that a sale leaves: the old ones, and one of the new order. -/
theorem redeem_cases {r : DiscountRedemption} (h : r ∈ (redeem cart order.id c).redemptions) :
    r ∈ c.redemptions ∨ ∃ id, redeemed cart = some id ∧ r = redemption cart id order.id := by
  unfold redeem at h
  cases hred : redeemed cart with
  | none => rw [hred] at h; exact .inl h
  | some id =>
    rw [hred] at h
    dsimp only at h
    split at h
    · exact .inl h
    · rcases List.mem_append.1 h with h | h
      · exact .inl h
      · exact .inr ⟨id, rfl, List.mem_singleton.1 h⟩

theorem RedemptionInv.sale (hi : RedemptionInv db.core) {input : SnapshotInput} {new : Option Cart}
    {movement : Option CashMovement} {rows : List PaymentAttempt} {n active : Nat}
    (h : Sale q db db input order new movement rows)
    (horder : order = OrderRepository.newOrder input q.draw n active) {r : DiscountRedemption}
    (hr : r ∈ (redeem input.cart order.id c).redemptions) (hc : c.redemptions = db.redemptions) :
    ∃ o ∈ db.orders ++ [order], r.Follows o := by
  rcases redeem_cases hr with hr | ⟨id, hred, rfl⟩
  · rw [hc] at hr
    obtain ⟨o, ho, hf⟩ := hi.follows r hr
    exact ⟨o, List.mem_append_left _ ho, hf⟩
  · have hcoupon : input.cart.Couponed := by
      rcases h.cart_cases with ⟨-, hmem⟩ | rfl
      · exact hi.sold.couponed _ hmem
      · cases h; assumption
    refine ⟨order, List.mem_append_right _ (List.mem_singleton_self _), rfl, ?_, ?_⟩
    · rw [horder]; exact snapshot_of_redeemed hcoupon hred
    · rw [horder]; simp [redemption, OrderRepository.newOrder]

/-- The redemptions that an operation leaves: those of other orders, and those of its own, marked or not. -/
theorem release_cases {released : Bool} {r : DiscountRedemption} (h : r ∈ (release released order c).redemptions) :
    (r ∈ c.redemptions ∧ (r.orderId = order.id → order.discountSnapshot.isSome = true → released = false)) ∨
      ∃ x ∈ c.redemptions, x.orderId = order.id ∧ released = true ∧ r = { x with status := .orderCancelled } := by
  unfold release at h
  dsimp only at h
  split at h
  · next hrel =>
    obtain ⟨hrel, -⟩ := Bool.and_eq_true_iff.1 hrel
    rcases mem_updateWhere_cases h with ⟨h, hne⟩ | ⟨x, hx, hid, rfl⟩
    · exact .inl ⟨h, fun hid => absurd hid (of_decide_eq_false hne)⟩
    · exact .inr ⟨x, hx, of_decide_eq_true hid, hrel, rfl⟩
  · next hrel => exact .inl ⟨h, fun _ hs => by simpa [hs] using hrel⟩

theorem RedemptionInv.operation (hi : RedemptionInv db.core) {row : Order} {p : Order → Bool} {f : Order → Order}
    {movement : Option CashMovement} {released : Bool} {rows : List PaymentAttempt}
    (h : Revision q db db order p f movement released rows) (hv : order ∈ db.orders)
    (hrow : db.orders.find? p = some row) {r : DiscountRedemption}
    (hr : r ∈ (release released order c).redemptions) (hc : c.redemptions = db.redemptions) :
    ∃ o ∈ Table.updateWhere p (bump f q.draw.now) db.orders, r.Follows o := by
  have hp : p row = true := List.find?_some hrow
  have hrow' : row = order := hi.keyed.orders.eq (List.mem_of_find?_eq_some hrow) hv (h.row_id hp)
  subst hrow'
  have hf := h.facts q.draw.now row
  have hmem : bump f q.draw.now row ∈ Table.updateWhere p (bump f q.draw.now) db.orders := mem_updateWhere_of hv hp
  have hid : (bump f q.draw.now row).id = row.id := Order.column Order.id hf
  have hcoupon : (bump f q.draw.now row).discountSnapshot = row.discountSnapshot :=
    Order.column Order.discountSnapshot hf
  rcases release_cases hr with ⟨hr, hmark⟩ | ⟨x, hx, hxid, hrel, rfl⟩
  · rw [hc] at hr
    obtain ⟨o, ho, hoid, hos, hstatus⟩ := hi.follows r hr
    by_cases hpo : p o = true
    · have ho' : o = row := hi.keyed.orders.eq ho hv (h.row_id hpo)
      subst ho'
      refine ⟨_, hmem, hid.trans hoid, hcoupon ▸ hos, ?_⟩
      rw [h.releases_iff, hmark hoid.symm hos]
      simpa using hstatus
    · exact ⟨o, mem_updateWhere_of_not ho (Bool.eq_false_iff.2 hpo), hoid, hos, hstatus⟩
  · rw [hc] at hx
    obtain ⟨o, ho, hoid, hos, -⟩ := hi.follows x hx
    have ho' : o = row := hi.keyed.orders.eq ho hv (hoid.trans hxid)
    subst ho'
    exact ⟨_, hmem, hid.trans hoid, hcoupon ▸ hos, iff_of_true rfl (h.releases_iff.2 (.inl hrel))⟩

theorem RedemptionInv.effect (hi : RedemptionInv db.core) (h : Effect q db db c) : RedemptionInv c := by
  have hkeyed := h.keyed hi.keyed
  have hsold := hi.sold.effect h
  refine ⟨hkeyed, hsold, fun r hr => ?_⟩
  cases h with
  | sold input order n active cart movement rows h horder =>
    rw [book_orders, sell_orders]
    exact hi.sale h horder hr rfl
  | revised order row p f movement released rows h hv hrow =>
    rw [release_orders, book_orders, revise_orders]
    exact hi.operation h hv hrow hr rfl
  | _ => exact hi.follows r hr

end Invariant

/-- Over every run of requests one at a time, the redemption of an order is marked exactly when the order is
cancelled. -/
theorem redemptions_follow {tenantId : Id} {settings : Settings} {qs : List Request} {db : Db}
    (hr : Runs.exec step (Db.fresh tenantId settings) qs = some db) :
    ∀ o ∈ db.orders, ∀ r ∈ db.redemptions, r.orderId = o.id →
      (r.status = .orderCancelled ↔ o.fulfillmentStatus = .cancelled) := by
  have hi : RedemptionInv db.core := run_inv (C := fun _ _ => True) (fun _ _ _ hi _ h => hi.effect h) .fresh
    (Along.of_forall fun _ _ => trivial) hr
  intro o ho r hmem hid
  obtain ⟨o', ho', hoid, -, hstatus⟩ := hi.follows r hmem
  have hoo : o' = o := hi.keyed.orders.eq ho' ho (hoid.trans hid)
  exact hoo ▸ hstatus

namespace Demo

/-- Two carts with a coupon are ordered in cash, and the customer of the first cancels. -/
def cancelsOne : List Request :=
  [setUp, offer tenPercent, fillCart "1" "cart-1", fillCart "2" "cart-2", useCoupon 2 "cart-1", useCoupon 2 "cart-2",
    payInCash "3" "cart-1", payInCash "4" "cart-2", call 5 "5" (.cancelUnpaid "order-3" "1234")]

end Demo

open Demo in
theorem redemptions_follow_cancelled : ∃ db, Runs.exec step (Db.fresh "tenant" settings) cancelsOne = some db ∧
    db.redemptions.map (·.status) = [.orderCancelled, .redeemed] ∧
    ∀ o ∈ db.orders, ∀ r ∈ db.redemptions, r.orderId = o.id →
      (r.status = .orderCancelled ↔ o.fulfillmentStatus = .cancelled) := by
  have hx : (Runs.exec step (Db.fresh "tenant" settings) cancelsOne).any
      (fun db => db.redemptions.map (·.status) = [.orderCancelled, .redeemed]) = true := by decide +kernel
  obtain ⟨db, hr, hs⟩ := (Option.any_eq_true _ _).1 hx
  exact ⟨db, hr, of_decide_eq_true hs, redemptions_follow hr⟩

end Komanda
