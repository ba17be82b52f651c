import Komanda.Proofs.SoldCarts
import Komanda.Proofs.StockAccounts

/-!
# What becomes of an approved notification

The webhook records the event, approves the attempt and makes the order in one transaction. Of all that it
writes, only the order can fail, and for want of stock alone: its number is new, its key is free when the
webhook makes one, and the coupon of its cart exists (`NoticeInv`). So a notification that is new is recorded
unless the order it would make lacks stock, and one whose event has been recorded before changes nothing.
-/

namespace Komanda
open Transaction Komanda.Core Table ReadCommitted

/-! ## Invariants -/

/-- What the webhook relies on: one attempt for each id, numbers that have been given, coupons that exist. -/
structure NoticeInv (db : Db) : Prop where
  keyed : Keyed db.core
  numbered : Numbered db
  coupons : ∀ x ∈ db.carts, x.CouponIn db

/-- The coupons of the view are still there. -/
def SeesCoupons (v db : Db) : Prop := ∀ d ∈ v.discounts, ∃ x ∈ db.discounts, x.id = d.id

section Invariants
variable {q : Request} {v w db db' : Db} {c : Core} {a : Answer}

/-- Coupons are never deleted. -/
theorem Effect.discountIds (h : Effect q v db c) : Extends Discount.id db.discounts c.discounts := by
  cases h with
  | coupons _ h =>
    cases h with
    | add d => exact .append _
    | update p f hid => exact .of_eq (map_updateWhere fun d _ => hid d)
  | sold input order _ _ _ _ _ _ =>
    rw [book_discounts, sell, redeem]
    split
    · exact .of_eq rfl
    · refine .of_eq (map_updateWhere fun _ _ => rfl)
  | revised => rw [release_discounts, book_discounts, revise_discounts]; exact .of_eq rfl
  | _ => exact .of_eq rfl

theorem Cart.CouponIn.mono {x : Cart} (h : x.CouponIn v)
    (hv : ∀ d ∈ v.discounts, ∃ y ∈ db.discounts, y.id = d.id) : x.CouponIn db := by
  intro id hid
  obtain ⟨d, hd, hdid⟩ := h id hid
  obtain ⟨y, hy, hyid⟩ := hv d hd
  exact ⟨y, hy, hyid.trans hdid⟩

/-- A sale at the counter has a coupon that its view knows. -/
theorem Sale.couponIn {input : SnapshotInput} {order : Order} {x : Cart} {movement : Option CashMovement}
    {rows : List PaymentAttempt} (h : Sale q v db input order (some x) movement rows) : x.CouponIn v := by
  cases h with
  | items request _ _ _ _ _ _ _ price hprice hpc =>
    intro id hid
    rw [hpc.1] at hid
    obtain ⟨lines, -, hprice⟩ := Option.bind_eq_some_iff.1 hprice
    cases hdirect : CreateOrderService.directPrice lines request.discountCode request.tender q.draw.now v with
    | error e => rw [hdirect] at hprice; cases hprice
    | ok p =>
      rw [hdirect] at hprice
      cases hprice
      exact (directPrice_prices hdirect).known id hid

/-- A cart has the coupon that it had, or one that the view knows. -/
theorem Effect.cart_coupon (h : Effect q v db c) {x : Cart} (hx : x ∈ c.carts) :
    x.CouponIn v ∨ ∃ y ∈ db.carts, y.appliedDiscountCodeId = x.appliedDiscountCodeId := by
  cases h with
  | editCarts rows h =>
    cases h with
    | same => exact .inr ⟨x, hx, rfl⟩
    | add cart _ _ _ hd =>
      rcases List.mem_append.1 hx with hx | hx
      · exact .inr ⟨x, hx, rfl⟩
      · rw [List.mem_singleton.1 hx]
        exact .inl hd
    | reprice cartId r _ hr =>
      obtain ⟨cart, -, hprices⟩ := repricing_prices hr
      rcases mem_updateWhere_cases hx with ⟨hx, -⟩ | ⟨y, -, -, rfl⟩
      · exact .inr ⟨x, hx, rfl⟩
      · exact .inl hprices.known
  | kiosk cart _ _ _ _ _ _ _ _ _ _ _ _ _ _ _ _ _ hd =>
    rcases List.mem_append.1 hx with hx | hx
    · exact .inr ⟨x, hx, rfl⟩
    · rw [List.mem_singleton.1 hx]
      exact .inl hd
  | sold input order _ _ cart movement rows h =>
    rw [book_carts, sell_carts] at hx
    obtain ⟨y, hy, rfl⟩ := mem_updateWhere.1 hx
    have hconvert : (if y.id = input.cart.id then { y with status := .converted } else y).appliedDiscountCodeId =
        y.appliedDiscountCodeId := by
      split <;> rfl
    rcases List.mem_append.1 hy with hy | hy
    · exact .inr ⟨y, hy, by simpa using hconvert.symm⟩
    · rw [Option.mem_toList] at hy
      cases hy
      have hknown := h.couponIn
      rw [Cart.CouponIn, ← hconvert] at hknown
      exact .inl (by simpa [Cart.CouponIn] using hknown)
  | revised =>
    rw [release_carts, book_carts, revise_carts] at hx
    exact .inr ⟨x, hx, rfl⟩
  | _ => exact .inr ⟨x, hx, rfl⟩

theorem Effect.coupons_known (h : Effect q v db db'.core) (hv : SeesCoupons v db)
    (hi : ∀ x ∈ db.carts, x.CouponIn db) : ∀ x ∈ db'.carts, x.CouponIn db' := by
  have hlater (d : Discount) (hd : d ∈ db.discounts) : ∃ y ∈ db'.discounts, y.id = d.id :=
    h.discountIds.exists_mem hd
  intro x hx
  rcases h.cart_coupon hx with hx | ⟨y, hy, hyx⟩
  · exact (hx.mono hv).mono hlater
  · have hy := (hi y hy).mono hlater
    rw [Cart.CouponIn, hyx] at hy
    exact hy

/-- No request gives a number twice. -/
theorem exec_numbered (h : exec q v db = some (a, db')) (hn : Numbered db) : Numbered db' := by
  by_cases hq : q.trades
  · exact (exec_sells hq h).numbered hn
  · obtain ⟨config, hconf⟩ := not_forall.1 hq
    have hconf := not_not.1 hconf
    have hsame : (db'.orders, db'.purchaseNumber) = (db.orders, db.purchaseNumber) :=
      exec_frame h .orders (by simp [hconf])
    exact Numbered.congr (by rw [(Prod.mk.inj hsame).1]) (Prod.mk.inj hsame).2 hn

theorem NoticeInv.exec (hi : NoticeInv db) (hv : SeesCoupons v db) (h : exec q v db = some (a, db')) :
    NoticeInv db' :=
  ⟨(exec_effect h).keyed hi.keyed, exec_numbered h hi.numbered, (exec_effect h).coupons_known hv hi.coupons⟩

theorem notice_rely : Rely Komanda.exec Komanda.reread NoticeInv SeesCoupons fun _ _ _ => True where
  refl _ _ d hd := ⟨d, hd, rfl⟩
  reread part v db _ h := by
    cases part with
    | discounts => exact fun d hd => ⟨d, hd, rfl⟩
    | _ => exact h
  inv _ _ _ _ _ hi hv _ hx := hi.exec hv hx
  stable _ _ _ _ _ _ _ _ hx w hw d hd := by
    obtain ⟨x, hx', hid⟩ := hw d hd
    obtain ⟨y, hy, hyid⟩ := (exec_effect hx).discountIds.exists_mem hx'
    exact ⟨y, hy, hyid.trans hid⟩

theorem NoticeInv.reached {tenantId : Id} {settings : Settings} {es : List RcEvent} {s : RcState}
    (hr : Runs.exec rcStep (RcState.fresh tenantId settings) es = some s) : NoticeInv s.db := by
  have hfresh : Inv NoticeInv SeesCoupons (RcState.fresh tenantId settings) := by
    refine ⟨⟨Keyed.empty, fun o ho => ?_, fun x hx => ?_⟩, fun o ho => ?_⟩
    · exact (List.not_mem_nil ho).elim
    · exact (List.not_mem_nil hx).elim
    · exact (List.not_mem_nil ho).elim
  exact (notice_rely.run_inv hfresh hr).db

end Invariants

/-! ## The order of an approval -/

section Creation
variable {v s s' : Db} {draw : Draw} {cart : Cart} {input : SnapshotInput}

/-- Counting a redemption leaves every coupon. -/
theorem any_counted {id : Id} (h : ∃ d ∈ s.discounts, d.id = id) :
    (updateWhere (DiscountRepository.countable id) DiscountRepository.countRedemption s.discounts).any
      (·.id = id) = true := by
  have hids : (updateWhere (DiscountRepository.countable id) DiscountRepository.countRedemption
      s.discounts).map Discount.id = s.discounts.map Discount.id := map_updateWhere fun _ _ => rfl
  obtain ⟨d, hd, hdid⟩ := h
  have hmem : id ∈ s.discounts.map Discount.id := List.mem_map.2 ⟨d, hd, hdid⟩
  rw [← hids] at hmem
  obtain ⟨x, hx, hxid⟩ := List.mem_map.1 hmem
  exact List.any_eq_true.2 ⟨x, hx, decide_eq_true hxid⟩

theorem redeemCoupon_succeeds (orderId : Id) (h : cart.CouponIn s) :
    Succeeds (OrderRepository.redeemCoupon cart orderId) v s := by
  unfold OrderRepository.redeemCoupon
  cases hid : cart.appliedDiscountCodeId with
  | none => exact Total.pure () v s
  | some id =>
    unfold runIf
    dsimp only
    split
    · refine (succeeds_bind_total fun _ => Total.pure _).2 ?_
      unfold DiscountRepository.recordRedemption
      rw [succeeds_current_bind, succeeds_write_bind, succeeds_current_bind, succeeds_throwIf_bind, not_not]
      exact ⟨any_counted (h id hid), Total.bind (Total.write _) (fun _ => Total.pure _) _ _⟩
    · exact Total.pure () v s

/-- What lets the insertion of an order fail only for want of stock. -/
structure Insertable (input : SnapshotInput) (draw : Draw) (s : Db) : Prop where
  stocked : Stocked s.items
  numbered : Numbered s
  freshId : ∀ o ∈ s.orders, o.id ≠ draw.orderId
  freshKey : ∀ o ∈ s.orders, o.idempotencyKey ≠ input.idempotencyKey
  coupon : input.cart.CouponIn s

theorem insertSnapshot_succeeds_iff (h : Insertable input draw s) :
    Succeeds (OrderRepository.insertSnapshot input draw) v s ↔ ¬ Short input.cart.lines s.items := by
  constructor
  · rintro ⟨order, s', hc⟩
    exact ((Accounts.insertSnapshot_cases hc).2.2.2 h.stocked).1
  · intro hshort
    have hfree : ¬ (s.orders.any (OrderRepository.conflicts (OrderRepository.newOrder input draw
        (s.purchaseNumber + 1) (OrderRepository.activeCount input.cart.locationId s)))) = true := by
      rw [List.any_eq_true]
      rintro ⟨o, ho, hc⟩
      have hnumber := h.numbered o ho
      simp only [OrderRepository.conflicts, Bool.or_eq_true, decide_eq_true_eq] at hc
      rcases hc with (hid | hkey) | hn
      · exact h.freshId o ho hid
      · exact h.freshKey o ho hkey
      · rw [hn] at hnumber
        exact absurd hnumber (Nat.not_succ_le_self _)
    unfold OrderRepository.insertSnapshot OrderRepository.nextPurchaseNumber OrderRepository.insert
    simp only [bind_assoc, succeeds_write_bind, succeeds_current_bind, succeeds_throwIf_bind]
    refine ⟨hfree, ?_⟩
    rw [succeeds_bind ((each_deductStock (by exact h.stocked)).2 (by exact hshort)), OrderRepository.convertCart,
      succeeds_write_bind]
    have hlast (order : Order) (e : String) (p : Payload) :
        Total (OrderRepository.appendEvent order.id e none (some .approved) p >>= fun _ => pure order) :=
      Total.bind (Total.write _) fun _ => Total.pure _
    exact (succeeds_bind_total fun _ => hlast _ _ _).2 (redeemCoupon_succeeds _ (by exact h.coupon))

/-- The webhook would make an order of the attempt, and an item of it has too few units in stock. -/
def LacksStock (db : Db) (attempt : PaymentAttempt) : Prop :=
  Sellable db attempt ∧ ∃ cart, Table.lookup Cart.id attempt.cartId db.carts = some cart ∧ Short cart.lines db.items

theorem enqueueOrderTicket_total (order : Order) : Total (enqueueOrderTicket order draw) := by
  refine Total.bind (Total.current _) fun _ => Total.bind (Total.zoom ?_) fun _ => Total.pure _
  unfold PrintJobService.enqueueOrderTicket
  split
  · exact Total.pure _
  · split
    · exact Total.pure _
    · refine Total.bind (Total.current _) fun taken => ?_
      split
      · exact Total.current _
      · exact Total.bind (Total.write _) fun _ => Total.pure _

/-- The order of an approval can be had unless its stock is lacking. -/
theorem orderOfApproved_succeeds_iff {updated : PaymentAttempt} {event : ReceivedMercadoPagoWebhook}
    (hs : Stocked s.items) (hn : Numbered s) (hid : ∀ o ∈ s.orders, o.id ≠ draw.orderId)
    (hc : ∀ x ∈ v.carts, x.CouponIn s) (horders : s.orders = v.orders) (hitems : s.items = v.items) :
    Succeeds (Webhook.orderOfApproved updated event draw) v s ↔ ¬ LacksStock v updated := by
  unfold Webhook.orderOfApproved LacksStock Sellable
  rw [succeeds_look_bind, CartRepository.find]
  cases hcart : Table.lookup Cart.id updated.cartId v.carts with
  | none => exact iff_of_true (Total.look _ v s) (by simp)
  | some cart =>
    by_cases hconv : cart.status = .converted
    · rw [Option.filter_some, if_neg (by simp [hconv])]
      exact iff_of_true (Total.look _ v s) (by simp [hconv])
    · rw [Option.filter_some, if_pos (by simp [hconv])]
      -- what follows the insertion cannot fail
      refine (succeeds_bind_total fun p => ?_).trans ?_
      · exact Total.bind (Total.runIf (Total.bind (Total.write _) fun _ => Total.bind (Total.write _) fun _ =>
          enqueueOrderTicket_total _)) fun _ => Total.pure _
      unfold OrderRepository.createFromCartSnapshot OrderRepository.createFromCartSnapshotWith
      rw [succeeds_look_bind, OrderRepository.findByIdempotencyKey]
      have hkeyed : (Webhook.paidSnapshot cart updated (updated.processedAt.getD draw.now)).idempotencyKey =
          "payment-attempt:" ++ updated.id := rfl
      rw [hkeyed]
      cases hkey : Table.lookup Order.idempotencyKey ("payment-attempt:" ++ updated.id) v.orders with
      | some order => exact iff_of_true (Total.pure _ v s) (by simp)
      | none =>
        have hfound : CartRepository.find cart.id v = some cart := by
          rw [CartRepository.find, lookup_key hcart, hcart]
        have hinsert : Insertable (Webhook.paidSnapshot cart updated (updated.processedAt.getD draw.now)) draw s := by
          refine ⟨hs, hn, hid, fun o ho => ?_, hc cart (lookup_mem hcart)⟩
          exact lookup_eq_none.1 hkey o (horders ▸ ho)
        dsimp only
        rw [succeeds_look_bind, succeeds_throwIf_bind, succeeds_bind_total fun _ => Total.pure _,
          insertSnapshot_succeeds_iff hinsert]
        have hopen : ¬ ((CartRepository.find cart.id v).all (·.status = .converted)) = true := by
          rw [hfound]
          simp [hconv]
        constructor
        · rintro ⟨-, hshort⟩ ⟨-, c, hcc, hc⟩
          cases hcc
          exact hshort (hitems ▸ hc)
        · intro hlacks
          refine ⟨hopen, fun hshort => hlacks ⟨⟨by simp [hconv], rfl⟩, cart, rfl, ?_⟩⟩
          exact hitems ▸ hshort

end Creation

/-! ## The webhook -/

/-- The event has been received. -/
def Heard (event : ReceivedMercadoPagoWebhook) (db : Db) : Prop :=
  ∃ e ∈ db.webhookEvents, e.providerEventId = event.providerEventId ∧ e.topic = event.topic

/-- The payment that the event names can be asked for: its account is known, and its tokens can be read. -/
def Asks (event : ReceivedMercadoPagoWebhook) (db : Db) : Prop :=
  ∃ account, db.accounts.find? (·.webhookRoutingKey = event.routingKey) = some account ∧ account.decryptable = true

/-- The row of an event. -/
def eventRow (event : ReceivedMercadoPagoWebhook) (status : WebhookEventStatus) (eventId : Id) : WebhookEvent where
  id := eventId
  providerEventId := event.providerEventId
  topic := event.topic
  status

section Receive
variable {v s s' : Db} {draw : Draw} {event : ReceivedMercadoPagoWebhook} {payment : MercadoPagoPayment}
  {eventId : Id} {attempt : PaymentAttempt} {outcome : Webhook.Outcome} {isNew : Bool} {status : WebhookEventStatus}

theorem persistEvent_iff : Commits (Webhook.persistEvent event status eventId) v s isNew s' ↔
    (Webhook.known event eventId s = true ∧ isNew = false ∧ s' = s) ∨
      (Webhook.known event eventId s = false ∧ isNew = true ∧
        s' = { s with webhookEvents := s.webhookEvents ++ [eventRow event status eventId] }) := by
  unfold Webhook.persistEvent
  rw [commits_current_bind]
  show Commits (do
    runIf (¬ Webhook.known event eventId s = true) _
    pure (decide ¬ Webhook.known event eventId s = true)) v s isNew s' ↔ _
  cases Webhook.known event eventId s with
  | true => simp [-bind_pure_comp, eq_comm]
  | false => simp [-bind_pure_comp, eventRow, eq_comm, and_comm]

/-- A notification of an event that has been received changes nothing. -/
theorem receive_known (ha : Asks event v) (hk : Webhook.known event eventId s = true) :
    ∃ outcome, Commits (Webhook.receive event payment eventId draw) v s outcome s := by
  obtain ⟨account, hfound, hdec⟩ := ha
  simp only [Webhook.receive, commits_look_bind, commits_orThrow_bind, commits_throwIf_bind]
  simp only [hfound, Option.some.injEq, exists_eq_left', hdec, not_true_eq_false, not_false_eq_true, true_and]
  have hpersist (status : WebhookEventStatus) : Commits (Webhook.persistEvent event status eventId) v s false s :=
    persistEvent_iff.2 (.inl ⟨hk, rfl, rfl⟩)
  cases (Webhook.attemptIdOf account.id payment v).bind (Webhook.findPaymentAttempt account.id · v) with
  | none => exact ⟨_, commits_bind.2 ⟨_, _, hpersist _, commits_pure.2 ⟨rfl, rfl⟩⟩⟩
  | some attempt =>
    refine ⟨_, commits_bind.2 ⟨_, _, hpersist _, commits_bind.2 ⟨(), s, ?_, commits_pure.2 ⟨rfl, rfl⟩⟩⟩⟩
    rw [commits_runIf]
    exact .inr ⟨fun h => Bool.false_ne_true h.1, rfl⟩

/-- A new notification of an approved payment is written down. -/
theorem receive_new (ha : Asks event v) (hr : Webhook.routed event payment v = some attempt)
    (hp : payment.status = .approved) (hk : Webhook.known event eventId s = false) :
    Commits (Webhook.receive event payment eventId draw) v s outcome s' ↔
      ⟨false, true, false, some attempt.id⟩ = outcome ∧ Commits (Webhook.record attempt event payment draw) v
        { s with webhookEvents := s.webhookEvents ++ [eventRow event .processed eventId] } () s' := by
  obtain ⟨account, hfound, hdec⟩ := ha
  rw [Webhook.routed, hfound, Option.bind_some] at hr
  have hpersist : Commits (Webhook.persistEvent event .processed eventId) v s true
      { s with webhookEvents := s.webhookEvents ++ [eventRow event .processed eventId] } :=
    persistEvent_iff.2 (.inr ⟨hk, rfl, rfl⟩)
  have horder : ¬ Webhook.priority (Webhook.paymentStatus payment.status) < Webhook.priority attempt.status := by
    rw [hp]
    cases attempt.status <;> decide
  simp only [Webhook.receive, commits_look_bind, commits_orThrow_bind, commits_throwIf_bind]
  simp only [hfound, Option.some.injEq, exists_eq_left', hdec, not_true_eq_false, not_false_eq_true, true_and, hr,
    Option.isSome_some, if_true]
  rw [commits_bind_of hpersist, decide_eq_false horder]
  constructor
  · intro h
    obtain ⟨_, _, hrecord, houtcome⟩ := commits_bind.1 h
    obtain ⟨rfl, rfl⟩ := commits_pure.1 houtcome
    rcases commits_runIf.1 hrecord with ⟨-, hrecord⟩ | ⟨hne, -⟩
    · exact ⟨rfl, hrecord⟩
    · exact (hne ⟨rfl, by simp⟩).elim
  · rintro ⟨rfl, hrecord⟩
    exact commits_bind.2 ⟨(), s', commits_runIf.2 (.inl ⟨⟨rfl, by simp⟩, hrecord⟩), commits_pure.2 ⟨rfl, rfl⟩⟩

/-- What the webhook writes of an approved payment before it makes the order. -/
def reportedDb (attempt : PaymentAttempt) (event : ReceivedMercadoPagoWebhook) (payment : MercadoPagoPayment)
    (now : Instant) (s : Db) : Db :=
  let routes := if s.routes.any fun r => r.resourceType = .payment && r.externalId = payment.id then s.routes
    else s.routes ++
      [{ resourceType := .payment, externalId := payment.id,
         integrationAccountId := attempt.integrationAccountId, localResourceId := attempt.id }]
  { s with
    routes
    attempts := updateAttempt attempt.id (Webhook.reported payment now) s.attempts
    outboxSequence := s.outboxSequence + 1
    outbox := s.outbox ++
      [{ aggregateType := "payment_attempt", aggregateId := attempt.id,
         eventType := "mercadopago.payment.updated",
         payload := [("providerEventId", .str event.providerEventId),
           ("status", .str (Webhook.statusText (Webhook.paymentStatus payment.status)))],
         sequence := s.outboxSequence + 1 }] }

/-- Of what the webhook writes of an approved payment only the order may fail. -/
theorem record_eq (hu : UniqueOn PaymentAttempt.id s.attempts) (hm : attempt ∈ s.attempts)
    (hp : payment.status = .approved) : Webhook.record attempt event payment draw v s =
      (do
        let target ← Webhook.orderOfApproved (Webhook.reported payment draw.now attempt) event draw
        forSome target fun order =>
          Webhook.upsertFinancialRecord (Webhook.financialRecord payment attempt order draw.now) : DbTx Unit) v
        (reportedDb attempt event payment draw.now s) := by
  have hroute : Commits (IntegrationRepository.insertRoute
      { resourceType := .payment, externalId := payment.id,
        integrationAccountId := attempt.integrationAccountId, localResourceId := attempt.id }) v s ()
      { s with routes := (reportedDb attempt event payment draw.now s).routes } := by
    refine commits_write.2 ?_
    simp only [reportedDb]
    split <;> rfl
  have hlookup : OrderRepository.loadPaymentAttempt attempt.id
      { s with attempts := updateAttempt attempt.id (Webhook.reported payment draw.now) s.attempts } =
        some (Webhook.reported payment draw.now attempt) :=
    lookup_updateAttempt _ (fun _ => rfl) hu hm
  unfold Webhook.record
  rw [bind_ok hroute]
  show (runIf _ (forSome (OrderRepository.loadPaymentAttempt attempt.id
    { s with attempts := updateAttempt attempt.id (Webhook.reported payment draw.now) s.attempts }) _) : DbTx Unit) v _ = _
  rw [hlookup, runIf, if_pos hp]
  rfl

/-- The webhook keeps the events that have been received. -/
theorem receive_events (h : Commits (Webhook.receive event payment eventId draw) v s outcome s') {e : WebhookEvent}
    (he : e ∈ s.webhookEvents) : e ∈ s'.webhookEvents := by
  simp only [Webhook.receive, commits_look_bind, commits_orThrow_bind, commits_throwIf_bind] at h
  obtain ⟨account, -, -, h⟩ := h
  obtain ⟨isNew, s₁, hpersist, h⟩ := commits_bind.1 h
  have he₁ : e ∈ s₁.webhookEvents := by
    rcases persistEvent_iff.1 hpersist with ⟨-, -, rfl⟩ | ⟨-, -, rfl⟩
    · exact he
    · exact List.mem_append_left _ he
  split at h
  · rw [← (commits_pure.1 h).2]
    exact he₁
  · obtain ⟨_, s₂, hrecord, h⟩ := commits_bind.1 h
    rw [← (commits_pure.1 h).2]
    rcases commits_runIf.1 hrecord with ⟨-, hrecord⟩ | ⟨-, rfl⟩
    · let S : List TableName := [.attempts, .routes, .outbox, .audit, .financialRecords, .printJobs] ++ snapshotTables
      have hsame : s₂.webhookEvents = s₁.webhookEvents :=
        writes_record (S := S) (List.subset_append_right _ _) (by decide) (by decide) _ _ _ (by decide) (by decide)
          (by decide) (by decide) _ _ _ _ hrecord .webhookEvents (by decide)
      rw [hsame]
      exact he₁
    · exact he₁

end Receive

/-! ## Deliveries -/

/-- A delivery reports an approved payment, in its amount, of an attempt of the tenant. The ids it draws are
new. -/
structure ApprovedNotice (q : Request) (event : ReceivedMercadoPagoWebhook) (attempt : PaymentAttempt) (db : Db) :
    Prop where
  request : ∃ payment eventId, q.action = .webhook event payment eventId ∧ payment.status = .approved ∧
    payment.transactionAmount = some attempt.amount ∧ Webhook.routed event payment db = some attempt ∧
    ∀ e ∈ db.webhookEvents, e.id ≠ eventId
  asks : Asks event db
  freshId : ∀ o ∈ db.orders, o.id ≠ q.draw.orderId

/-- The delivery commits with the attempt approved and the event received, and whatever happens then, no later
delivery of the event fails. -/
def Recorded (s : RcState) (q : Request) (event : ReceivedMercadoPagoWebhook) (attempt : PaymentAttempt) : Prop :=
  ∃ db', step s.db q = some db' ∧
    (∃ a, Table.lookup PaymentAttempt.id attempt.id db'.attempts = some a ∧ a.status = .approved) ∧ Heard event db' ∧
    ∀ es s' q' payment eventId, Runs.exec rcStep { s with db := db' } es = some s' →
      q'.action = .webhook event payment eventId → Asks event s'.db → (step s'.db q').isSome

section Deliveries
variable {q : Request} {v db db' : Db} {a : Answer} {event : ReceivedMercadoPagoWebhook} {attempt : PaymentAttempt}
  {s s' : RcState} {es : List RcEvent}

/-- An event that has been received stays so. -/
theorem exec_heard (h : exec q v db = some (a, db')) (hh : Heard event db) : Heard event db' := by
  obtain ⟨e, he, hevent⟩ := hh
  refine ⟨e, ?_, hevent⟩
  by_cases htable : .webhookEvents ∈ q.action.tables
  · have h := exec_eq.1 h
    cases hq : q.action with
    | webhook event' payment eventId =>
      rw [hq] at h
      obtain ⟨outcome, h⟩ := commits_effect h
      exact receive_events h he
    | _ => rw [hq] at htable; exact absurd htable (by simp [snapshotTables, operationTables])
  · have hsame : db'.webhookEvents = db.webhookEvents := exec_frame h .webhookEvents htable
    rw [hsame]
    exact he

theorem exec_heard_run (hr : Runs.exec rcStep s es = some s') (hh : Heard event s.db) : Heard event s'.db := by
  refine Runs.exec_inv (I := fun s => Heard event s.db) (C := fun _ _ => True) (fun s e s' hi _ hs => ?_) hh
    (Runs.Along.of_forall fun _ _ => trivial) hr
  cases e with
  | start q => cases hs; exact hi
  | reread i r => obtain ⟨o, -, rfl⟩ := Option.map_eq_some_iff.1 hs; exact hi
  | abort i => obtain ⟨o, -, rfl⟩ := Option.map_eq_some_iff.1 hs; exact hi
  | commit i =>
    obtain ⟨o, -, hs⟩ := Option.bind_eq_some_iff.1 hs
    obtain ⟨⟨a, db'⟩, hx, rfl⟩ := Option.map_eq_some_iff.1 hs
    exact exec_heard hx hi

theorem step_webhook {payment : MercadoPagoPayment} {eventId : Id} (hq : q.action = .webhook event payment eventId) :
    step db q = some db' ↔ ∃ outcome, Commits (Webhook.receive event payment eventId q.draw) db db outcome db' := by
  rw [step_eq]
  constructor
  · rintro ⟨a, h⟩
    have h := exec_eq.1 h
    rw [hq] at h
    exact commits_effect h
  · rintro ⟨outcome, h⟩
    refine ⟨.done, exec_eq.2 ?_⟩
    rw [hq]
    exact commits_bind.2 ⟨outcome, db', h, commits_pure.2 ⟨rfl, rfl⟩⟩

theorem known_of_heard {eventId : Id} (hh : Heard event db) : Webhook.known event eventId db = true := by
  obtain ⟨e, he, hid, htopic⟩ := hh
  exact List.any_eq_true.2 ⟨e, he, by simp [hid, htopic]⟩

/-- A later delivery of a received event commits. -/
theorem heard_commits {payment : MercadoPagoPayment} {eventId : Id} (hq : q.action = .webhook event payment eventId)
    (ha : Asks event db) (hh : Heard event db) : (step db q).isSome := by
  have hknown : ∃ outcome, Commits (Webhook.receive event payment eventId q.draw) db db outcome db :=
    receive_known ha (known_of_heard hh)
  obtain ⟨outcome, h⟩ := hknown
  exact Option.isSome_iff_exists.2 ⟨db, (step_webhook hq).2 ⟨outcome, h⟩⟩

/-- A delivery of a new event commits unless its order lacks stock, and then it is written down. -/
theorem new_notice_iff (hi : NoticeInv db) (hs : Stocked db.items) (hn : ApprovedNotice q event attempt db)
    (hh : ¬ Heard event db) : ((∃ db', step db q = some db') ↔ ¬ LacksStock db attempt) ∧
      ∀ db', step db q = some db' → Heard event db' ∧
        ∃ a, Table.lookup PaymentAttempt.id attempt.id db'.attempts = some a ∧ a.status = .approved := by
  obtain ⟨⟨payment, eventId, hq, hp, -, hrouted, hfresh⟩, hasks, hid⟩ := hn
  have hknown : Webhook.known event eventId db = false := by
    rw [Webhook.known, List.any_eq_false]
    intro e he hc
    simp only [Bool.or_eq_true, Bool.and_eq_true, decide_eq_true_eq] at hc
    rcases hc with hc | hc
    · exact hfresh e he hc
    · exact hh ⟨e, he, hc⟩
  have hm : attempt ∈ db.attempts := Webhook.routed_mem hrouted
  let heard : Db := { db with webhookEvents := db.webhookEvents ++ [eventRow event .processed eventId] }
  have hrecord : Webhook.record attempt event payment q.draw db heard = _ :=
    record_eq (s := heard) hi.keyed.attempts hm hp
  have hfinish (target : Option Order) : Total (forSome target fun order =>
      Webhook.upsertFinancialRecord (Webhook.financialRecord payment attempt order q.draw.now) : DbTx Unit) :=
    Total.forSome fun _ => Total.write _
  have hstep (db' : Db) : step db q = some db' ↔
      Commits (Webhook.record attempt event payment q.draw) db heard () db' := by
    rw [step_webhook hq]
    constructor
    · rintro ⟨outcome, h⟩
      exact ((receive_new hasks hrouted hp hknown).1 h).2
    · intro h
      exact ⟨_, (receive_new hasks hrouted hp hknown).2 ⟨rfl, h⟩⟩
  constructor
  · have hsucceeds : (∃ db', step db q = some db') ↔
        Succeeds (Webhook.record attempt event payment q.draw) db heard := by
      simp only [hstep]
      constructor
      · rintro ⟨db', h⟩
        exact ⟨(), db', h⟩
      · rintro ⟨_, db', h⟩
        exact ⟨db', h⟩
    rw [hsucceeds, Succeeds]
    simp only [Commits, hrecord]
    exact (succeeds_bind_total hfinish).trans
      (orderOfApproved_succeeds_iff hs hi.numbered hid hi.coupons rfl rfl)
  · intro db' h
    have h := (hstep db').1 h
    rw [Commits, hrecord] at h
    -- the order leaves the attempts and the events alone
    let S : List TableName := [.outbox, .audit, .printJobs, .financialRecords] ++ snapshotTables
    have hframe : Writes S (reportedDb attempt event payment q.draw.now heard) db' :=
      Within.bind (writes_orderOfApproved (List.subset_append_right _ _) (by decide) (by decide) _ _ (by decide))
        (fun _ => Within.forSome fun _ => writes_financialRecord _ (by decide)) _ _ _ _ h
    constructor
    · refine ⟨eventRow event .processed eventId, ?_, rfl, rfl⟩
      rw [show db'.webhookEvents = _ from hframe .webhookEvents (by decide)]
      exact List.mem_append_right _ (List.mem_singleton_self _)
    · refine ⟨Webhook.reported payment q.draw.now attempt, ?_, ?_⟩
      · rw [show db'.attempts = _ from hframe .attempts (by decide)]
        exact lookup_updateAttempt _ (fun _ => rfl) hi.keyed.attempts hm
      · rw [Webhook.reported, hp]
        rfl

/-- A delivery of an event that has been received leaves the attempt as it is. -/
theorem heard_notice (hn : ApprovedNotice q event attempt db) (hh : Heard event db) : step db q = some db := by
  obtain ⟨⟨payment, eventId, hq, -⟩, hasks, -⟩ := hn
  exact (step_webhook hq).2 (receive_known hasks (known_of_heard hh))

end Deliveries

/-- A notification of an approved payment is recorded exactly when its event is new and its order does not lack
stock, or its event has been received before and the attempt has been approved. -/
theorem approval_recorded_iff {tenantId : Id} {settings : Settings} {es : List RcEvent} {s : RcState} {q : Request}
    {event : ReceivedMercadoPagoWebhook} {attempt : PaymentAttempt}
    (hr : Runs.exec rcStep (RcState.fresh tenantId settings) es = some s) (hs : Stocked s.db.items)
    (hn : ApprovedNotice q event attempt s.db) : Recorded s q event attempt ↔
      (Heard event s.db → attempt.status = .approved) ∧ (¬ Heard event s.db → ¬ LacksStock s.db attempt) := by
  have hi : NoticeInv s.db := NoticeInv.reached hr
  have hlater {db' : Db} (hh : Heard event db') : ∀ es s' q' payment eventId,
      Runs.exec rcStep { s with db := db' } es = some s' → q'.action = .webhook event payment eventId →
        Asks event s'.db → (step s'.db q').isSome := by
    intro es s' q' payment eventId hrun hq' hasks
    exact heard_commits hq' hasks (exec_heard_run hrun hh)
  by_cases hh : Heard event s.db
  · have hstep := heard_notice hn hh
    obtain ⟨⟨payment, eventId, -, -, -, hrouted, -⟩, -, -⟩ := hn
    have hlookup : Table.lookup PaymentAttempt.id attempt.id s.db.attempts = some attempt :=
      hi.keyed.attempts.lookup (Webhook.routed_mem hrouted)
    constructor
    · rintro ⟨db', hdb', ⟨a, ha, hok⟩, -⟩
      rw [hstep] at hdb'
      cases hdb'
      rw [hlookup] at ha
      cases ha
      exact ⟨fun _ => hok, fun hnew => absurd hh hnew⟩
    · rintro ⟨hok, -⟩
      exact ⟨s.db, hstep, ⟨attempt, hlookup, hok hh⟩, hh, hlater hh⟩
  · obtain ⟨hcommits, hleaves⟩ := new_notice_iff hi hs hn hh
    constructor
    · rintro ⟨db', hdb', -⟩
      exact ⟨fun hold => absurd hold hh, fun _ => hcommits.1 ⟨db', hdb'⟩⟩
    · rintro ⟨-, hstock⟩
      obtain ⟨db', hdb'⟩ := hcommits.2 (hstock hh)
      obtain ⟨hheard, happroved⟩ := hleaves db' hdb'
      exact ⟨db', hdb', happroved, hheard, hlater hheard⟩

namespace Demo

def noticeEvent : ReceivedMercadoPagoWebhook := { routingKey := "route", providerEventId := "notice", topic := "payment" }

def noticePayment : MercadoPagoPayment :=
  { id := "payment", status := .approved, preferenceId := some "preference-3", transactionAmount := some 1000 }

/-- The provider reports that the burger is paid. -/
def notice : Request := call 9 "9" (.webhook noticeEvent noticePayment "event-9")

def paidOnline : List RcEvent := inTurn [setUp, fillCart "1" "cart", payOnline "2" "cart" "attempt", issued "3"]

/-- The last burger is sold in cash while it is being paid online. -/
def soldMeanwhile : List RcEvent := inTurn [lastBurger, fillCart "1" "cart", payOnline "2" "cart" "attempt", issued "3",
  fillCart "4" "other", payInCash "5" "other"]

theorem notice_approved {db : Db} {attempt : PaymentAttempt} (ha : attempt.amount = 1000)
    (hr : Webhook.routed noticeEvent noticePayment db = some attempt) (he : db.webhookEvents = [])
    (hacc : db.accounts = [account]) (ho : db.orders.all (·.id ≠ "order-9") = true) :
    ApprovedNotice notice noticeEvent attempt db := by
  refine ⟨⟨noticePayment, "event-9", rfl, rfl, ?_, hr, fun e hm => ?_⟩, ⟨account, ?_, rfl⟩, fun o hm => ?_⟩
  · rw [ha]
    rfl
  · rw [he] at hm
    exact (List.not_mem_nil hm).elim
  · rw [hacc]
    rfl
  · exact of_decide_eq_true (List.all_eq_true.1 ho o hm)

end Demo

open Demo

theorem approval_recorded_iff_online : ∃ s attempt,
    Runs.exec rcStep (RcState.fresh "tenant" settings) paidOnline = some s ∧ Recorded s notice noticeEvent attempt := by
  have hx : (Runs.exec rcStep (RcState.fresh "tenant" settings) paidOnline).any (fun s =>
      (Webhook.routed noticeEvent noticePayment s.db).any (fun a => a.amount = 1000) &&
        s.db.webhookEvents = [] && s.db.accounts = [account] && s.db.orders.all (·.id ≠ "order-9") &&
          s.db.items = [burger]) = true := by decide +kernel
  obtain ⟨s, hr, hdb⟩ := (Option.any_eq_true _ _).1 hx
  simp only [Bool.and_eq_true, decide_eq_true_eq] at hdb
  obtain ⟨⟨⟨⟨hrouted, hevents⟩, haccounts⟩, horders⟩, hitems⟩ := hdb
  obtain ⟨attempt, hrouted, hamount⟩ := (Option.any_eq_true _ _).1 hrouted
  have hn := notice_approved (of_decide_eq_true hamount) hrouted hevents haccounts horders
  have hstocked : Stocked s.db.items := by
    rw [hitems]
    exact ⟨List.nodup_singleton _, by decide⟩
  refine ⟨s, attempt, hr, (approval_recorded_iff hr hstocked hn).2 ⟨?_, ?_⟩⟩
  · rintro ⟨e, he, -⟩
    rw [hevents] at he
    exact (List.not_mem_nil he).elim
  · rintro - ⟨-, cart, -, x, hx, htracked, -⟩
    rw [hitems, List.mem_singleton] at hx
    rw [hx] at htracked
    cases htracked

/-- The notification of a payment whose burger has been sold meanwhile is rolled back, with the approval. -/
theorem notice_lost_without_stock :
    ¬ ∀ (tenantId : Id) (settings : Settings) (es : List RcEvent) (s : RcState) (q : Request)
      (event : ReceivedMercadoPagoWebhook) (attempt : PaymentAttempt),
      Runs.exec rcStep (RcState.fresh tenantId settings) es = some s → Stocked s.db.items →
        ApprovedNotice q event attempt s.db → Recorded s q event attempt := by
  intro h
  have hx : (Runs.exec rcStep (RcState.fresh "tenant" settings) soldMeanwhile).any (fun s =>
      (Webhook.routed noticeEvent noticePayment s.db).any (fun a => a.amount = 1000) &&
        s.db.webhookEvents = [] && s.db.accounts = [account] && s.db.orders.all (·.id ≠ "order-9") &&
          s.db.items = [{ burger with trackStock := true, stockQuantity := 0 }] &&
            (step s.db notice).isNone) = true := by decide +kernel
  obtain ⟨s, hr, hdb⟩ := (Option.any_eq_true _ _).1 hx
  simp only [Bool.and_eq_true, decide_eq_true_eq] at hdb
  obtain ⟨⟨⟨⟨⟨hrouted, hevents⟩, haccounts⟩, horders⟩, hitems⟩, hnone⟩ := hdb
  obtain ⟨attempt, hrouted, hamount⟩ := (Option.any_eq_true _ _).1 hrouted
  have hn := notice_approved (of_decide_eq_true hamount) hrouted hevents haccounts horders
  have hstocked : Stocked s.db.items := by
    rw [hitems]
    exact ⟨List.nodup_singleton _, by decide⟩
  obtain ⟨db', hdb', -⟩ := h _ _ _ s notice noticeEvent attempt hr hstocked hn
  rw [hdb'] at hnone
  cases hnone

end Komanda
