import Komanda.System

/-!
# What a request may do to the tables of the sale

`Core` is the tables that the laws of the system speak about: carts, payment attempts, orders, coupons
and cash. `Effect q v c c'` says which changes a committed request `q` may make to them, with the guards
it has passed on the view `v`; `Proofs/Effects` proves that every committed request has one. The
invariants are proved of effects.
-/

namespace Komanda

structure Core where
  carts : List Cart
  attempts : List PaymentAttempt
  orders : List Order
  movements : List CashMovement
  redemptions : List DiscountRedemption
  discounts : List Discount
  shifts : List CashShift
deriving DecidableEq, Repr

def Db.core (db : Db) : Core where
  carts := db.carts
  attempts := db.attempts
  orders := db.orders
  movements := db.movements
  redemptions := db.redemptions
  discounts := db.discounts
  shifts := db.shifts

namespace Core

/-! ## Changes -/

def convertCart (cartId : Id) (c : Core) : Core :=
  let convert (x : Cart) := { x with status := .converted }
  { c with carts := Table.updateWhere (·.id = cartId) convert c.carts }

/-- The row that a redeemed coupon leaves. -/
def redemption (cart : Cart) (discountId orderId : Id) : DiscountRedemption where
  discountId
  orderId
  cartId := cart.id
  amountDeducted := cart.discountTotal
  codeSnapshot := (cart.discountMetadata.map (·.code)).getD "DISCOUNT"
  status := .redeemed

/-- The coupon that an order from a cart redeems. -/
def redeemed (cart : Cart) : Option Id := cart.appliedDiscountCodeId.filter fun _ => cart.discountTotal > 0

def redeem (cart : Cart) (orderId : Id) (c : Core) : Core :=
  match redeemed cart with
  | none => c
  | some discountId => { c with
      discounts := Table.updateWhere (DiscountRepository.countable discountId)
        DiscountRepository.countRedemption c.discounts
      redemptions := if c.redemptions.any (·.orderId = orderId) then c.redemptions
        else c.redemptions ++ [redemption cart discountId orderId] }

/-- A cart becomes an order. -/
def sell (cart : Cart) (order : Order) (c : Core) : Core :=
  redeem cart order.id (convertCart cart.id { c with orders := c.orders ++ [order] })

def bump (f : Order → Order) (now : Instant) (o : Order) : Order :=
  { f o with version := o.version + 1, updatedAt := now }

def revise (p : Order → Bool) (f : Order → Order) (now : Instant) (c : Core) : Core :=
  { c with orders := Table.updateWhere p (bump f now) c.orders }

def book (movement : Option CashMovement) (c : Core) : Core :=
  { c with movements := c.movements ++ movement.toList }

def release (released : Bool) (order : Order) (c : Core) : Core :=
  let cancel (r : DiscountRedemption) := { r with status := .orderCancelled }
  if released && order.discountSnapshot.isSome then
    { c with redemptions := Table.updateWhere (·.orderId = order.id) cancel c.redemptions }
  else c

section Reads
variable {cart : Cart} {order : Order} {orderId cartId : Id} {c : Core} {p : Order → Bool}
  {f : Order → Order} {now : Instant} {movement : Option CashMovement} {released : Bool}

@[simp] theorem redeem_carts : (redeem cart orderId c).carts = c.carts := by unfold redeem; split <;> rfl
@[simp] theorem redeem_attempts : (redeem cart orderId c).attempts = c.attempts := by
  unfold redeem; split <;> rfl
@[simp] theorem redeem_orders : (redeem cart orderId c).orders = c.orders := by unfold redeem; split <;> rfl
@[simp] theorem redeem_movements : (redeem cart orderId c).movements = c.movements := by
  unfold redeem; split <;> rfl
@[simp] theorem redeem_shifts : (redeem cart orderId c).shifts = c.shifts := by unfold redeem; split <;> rfl

theorem redeem_none (h : redeemed cart = none) : redeem cart orderId c = c := by rw [redeem, h]

/-- An order that has no redemption yet gets one. -/
theorem redeem_some {id : Id} (h : redeemed cart = some id)
    (hnew : ∀ r ∈ c.redemptions, r.orderId ≠ orderId) :
    redeem cart orderId c = { c with
      discounts := Table.updateWhere (DiscountRepository.countable id) DiscountRepository.countRedemption
        c.discounts
      redemptions := c.redemptions ++ [redemption cart id orderId] } := by
  have hany : ¬ (c.redemptions.any (·.orderId = orderId)) = true := by simpa using hnew
  rw [redeem, h]
  dsimp only
  rw [if_neg hany]

@[simp] theorem sell_carts : (sell cart order c).carts = (convertCart cart.id c).carts := redeem_carts
@[simp] theorem sell_attempts : (sell cart order c).attempts = c.attempts := redeem_attempts
@[simp] theorem sell_orders : (sell cart order c).orders = c.orders ++ [order] := redeem_orders
@[simp] theorem sell_movements : (sell cart order c).movements = c.movements := redeem_movements
@[simp] theorem sell_shifts : (sell cart order c).shifts = c.shifts := redeem_shifts

@[simp] theorem release_carts : (release released order c).carts = c.carts := by
  unfold release; split <;> rfl
@[simp] theorem release_attempts : (release released order c).attempts = c.attempts := by
  unfold release; split <;> rfl
@[simp] theorem release_orders : (release released order c).orders = c.orders := by
  unfold release; split <;> rfl
@[simp] theorem release_movements : (release released order c).movements = c.movements := by
  unfold release; split <;> rfl
@[simp] theorem release_discounts : (release released order c).discounts = c.discounts := by
  unfold release; split <;> rfl
@[simp] theorem release_shifts : (release released order c).shifts = c.shifts := by
  unfold release; split <;> rfl

@[simp] theorem revise_orders :
    (revise p f now c).orders = Table.updateWhere p (bump f now) c.orders := rfl
@[simp] theorem revise_attempts : (revise p f now c).attempts = c.attempts := rfl
@[simp] theorem revise_movements : (revise p f now c).movements = c.movements := rfl
@[simp] theorem revise_shifts : (revise p f now c).shifts = c.shifts := rfl
@[simp] theorem revise_carts : (revise p f now c).carts = c.carts := rfl
@[simp] theorem revise_discounts : (revise p f now c).discounts = c.discounts := rfl
@[simp] theorem revise_redemptions : (revise p f now c).redemptions = c.redemptions := rfl

@[simp] theorem book_none : book none c = c := by simp [book]
@[simp] theorem release_false : release false order c = c := by simp [release]

@[simp] theorem book_movements : (book movement c).movements = c.movements ++ movement.toList := rfl
@[simp] theorem book_attempts : (book movement c).attempts = c.attempts := rfl
@[simp] theorem book_orders : (book movement c).orders = c.orders := rfl
@[simp] theorem book_carts : (book movement c).carts = c.carts := rfl
@[simp] theorem book_shifts : (book movement c).shifts = c.shifts := rfl
@[simp] theorem book_discounts : (book movement c).discounts = c.discounts := rfl
@[simp] theorem book_redemptions : (book movement c).redemptions = c.redemptions := rfl

end Reads

/-- No movement has the id, the order and type, or the key of `m`. -/
def Bookable (m : CashMovement) (ms : List CashMovement) : Prop :=
  ∀ x ∈ ms, x.id ≠ m.id ∧ (x.orderId.isSome → x.orderId = m.orderId → x.type ≠ m.type) ∧
    (x.idempotencyKey.isSome → x.idempotencyKey ≠ m.idempotencyKey)

end Core

open Komanda.Core

/-! ## Guards -/

/-- What a request may do to the coupons. -/
inductive CouponEdit (rows : List Discount) : List Discount → Prop
  | add (d : Discount) (hid : ∀ x ∈ rows, x.id ≠ d.id) (hcount : d.redemptionsCount = 0)
      (hd : DiscountRepository.rowChecks d = true) : CouponEdit rows (rows ++ [d])
  | update (p : Discount → Bool) (f : Discount → Discount) (hid : ∀ d, (f d).id = d.id)
      (hcount : ∀ d, (f d).redemptionsCount = d.redemptionsCount)
      (hd : ∀ d ∈ rows, p d = true → DiscountRepository.rowChecks d = true →
        DiscountRepository.rowChecks (f d) = true) : CouponEdit rows (Table.updateWhere p f rows)

/-- The cart that a request would reprice, and the total it would give it. -/
def repriced (q : Request) (db : Db) : Option (Id × Cents) :=
  match q.action with
  | .getCart cartId => (CartRepository.find cartId db).bind fun cart =>
      (cart.appliedDiscountCodeId.bind fun discountId =>
        CartService.revalidateDiscount cart discountId q.draw.now db).map fun r => (cartId, r.total)
  | .applyDiscount cartId code _ => (CartRepository.find cartId db).bind fun cart =>
      (DiscountRepository.findByCode code db).map fun discount => (cartId,
        (calculateDiscountAmounts (CartService.linesForDiscount cart.lines) discount q.draw.now
          none).totalCents)
  | .removeDiscount cartId => (CartRepository.find cartId db).map fun cart => (cartId, cart.subtotal)
  | _ => none

/-- The price that a request would give a cart. -/
def repricing (q : Request) (db : Db) : Option (Id × CartRepository.Repricing) :=
  match q.action with
  | .getCart cartId => (CartRepository.find cartId db).bind fun cart =>
      (cart.appliedDiscountCodeId.bind fun discountId =>
        CartService.revalidateDiscount cart discountId q.draw.now db).map fun r => (cartId, r)
  | .applyDiscount cartId code _ => (CartRepository.find cartId db).bind fun cart =>
      (DiscountRepository.findByCode code db).map fun discount =>
        let result := calculateDiscountAmounts (CartService.linesForDiscount cart.lines) discount q.draw.now none
        (cartId,
          { discountTotal := result.discountTotalCents, total := result.totalCents,
            appliedDiscountCodeId := some discount.id,
            discountMetadata := some (CartService.metadata discount result.discountTotalCents) })
  | .removeDiscount cartId => (CartRepository.find cartId db).map fun cart => (cartId,
      { discountTotal := 0, total := cart.subtotal, appliedDiscountCodeId := none, discountMetadata := none })
  | _ => none

theorem repriced_eq (q : Request) (db : Db) :
    repriced q db = (repricing q db).map fun p => (p.1, p.2.total) := by
  unfold repriced repricing
  split
  · cases CartRepository.find _ db with
    | none => rfl
    | some cart => simp [Option.map_map, Function.comp_def]
  · cases CartRepository.find _ db with
    | none => rfl
    | some cart => simp [Option.map_map, Function.comp_def]
  · simp [Option.map_map, Function.comp_def]
  · rfl

/-- A cart without a coupon costs its subtotal, and one with a coupon remembers its terms. -/
structure Cart.Couponed (c : Cart) : Prop where
  plain : c.appliedDiscountCodeId = none → c.discountTotal = 0 ∧ c.total = c.subtotal
  remembered : c.appliedDiscountCodeId ≠ none → c.discountMetadata ≠ none

/-- A line costs its quantity at its price, the cart what its lines cost, less what the coupon takes off. -/
structure Cart.AddsUp (c : Cart) : Prop where
  lines : ∀ l ∈ c.lines, l.lineTotal = l.unitPriceSnapshot * l.quantity
  subtotal : (c.lines.map (·.lineTotal)).sum = c.subtotal
  total : c.discountTotal + c.total = c.subtotal

/-- The coupon of a cart, if it has one, is among the coupons of `db`. -/
def Cart.CouponIn (c : Cart) (db : Db) : Prop := ∀ id ∈ c.appliedDiscountCodeId, ∃ d ∈ db.discounts, d.id = id

/-- What a request may do to the carts without selling one. -/
inductive CartEdit (q : Request) (v db : Db) : List Cart → Prop
  | same : CartEdit q v db db.carts
  | add (cart : Cart) (hid : ∀ x ∈ db.carts, x.id ≠ cart.id) (hs : cart.status = .validated)
      (hc : cart.Couponed) (hd : cart.CouponIn v) (ha : cart.AddsUp) : CartEdit q v db (db.carts ++ [cart])
  | reprice (cartId : Id) (r : CartRepository.Repricing) (hr : repriced q v = some (cartId, r.total))
      (hx : repricing q v = some (cartId, r)) : CartEdit q v db (Table.updateWhere (·.id = cartId) r.apply db.carts)

/-- A payment attempt of a cart, new or found by its key. -/
inductive AttemptFor (input : IntegrationRepository.CreateAttemptInput) (newId : Id)
    (rows : List PaymentAttempt) : PaymentAttempt → List PaymentAttempt → Prop
  | new (hid : ∀ x ∈ rows, x.id ≠ newId ∧ x.idempotencyKey ≠ input.idempotencyKey) :
      AttemptFor input newId rows (input.row newId) (rows ++ [input.row newId])
  | existing (a : PaymentAttempt) (ha : a ∈ rows) (hk : a.idempotencyKey = input.idempotencyKey)
      (hc : a.cartId = input.cartId) : AttemptFor input newId rows a rows

def preferredAt (attemptId accountId : Id) (preferenceId : String) (rows : List PaymentAttempt) :
    List PaymentAttempt :=
  Table.updateWhere (fun a => a.id = attemptId && a.integrationAccountId = accountId)
    (IntegrationRepository.preferred preferenceId) rows

def updateAttempt (attemptId : Id) (f : PaymentAttempt → PaymentAttempt) (rows : List PaymentAttempt) :
    List PaymentAttempt :=
  Table.updateWhere (·.id = attemptId) f rows

/-- The attempt that an event names, if its account knows one. -/
def Webhook.routed (event : ReceivedMercadoPagoWebhook) (payment : MercadoPagoPayment) (db : Db) :
    Option PaymentAttempt :=
  (db.accounts.find? (·.webhookRoutingKey = event.routingKey)).bind fun account =>
    (Webhook.attemptIdOf account.id payment db).bind (Webhook.findPaymentAttempt account.id · db)

/-- The event has been received before. -/
def Webhook.known (event : ReceivedMercadoPagoWebhook) (eventId : Id) (db : Db) : Bool :=
  db.webhookEvents.any fun e =>
    e.id = eventId || (e.providerEventId = event.providerEventId && e.topic = event.topic)

/-- A webhook that writes down what it reports of `attempt`. -/
structure Reports (q : Request) (v db : Db) (attempt : PaymentAttempt) (payment : MercadoPagoPayment) :
    Prop where
  request : ∃ event eventId, q.action = .webhook event payment eventId ∧
    Webhook.routed event payment v = some attempt ∧ Webhook.known event eventId db = false
  inOrder : ¬ Webhook.priority (Webhook.paymentStatus payment.status) < Webhook.priority attempt.status

/-- A reconciliation that writes down what the provider answers of `attempt`. -/
structure Reconciles (q : Request) (v : Db) (attempt : PaymentAttempt) (payment : MercadoPagoPayment) :
    Prop where
  request : q.action = .reconcile attempt.id (some payment)
  read : Table.lookup PaymentAttempt.id attempt.id v.attempts = some attempt
  unsettled : Reconciliation.settled attempt = false
  asked : attempt.providerPaymentId ≠ none

/-- A confirmation that approves `attempt`: the row that its order is made from, and the attempts it
leaves. -/
inductive Approval (q : Request) (v db : Db) (attempt : PaymentAttempt) :
    Option PaymentAttempt → List PaymentAttempt → Prop
  | webhook (payment : MercadoPagoPayment) (rows : List PaymentAttempt) (h : Reports q v db attempt payment)
      (hp : payment.status = .approved)
      (hrows : rows = updateAttempt attempt.id (Webhook.reported payment q.draw.now) db.attempts) :
      Approval q v db attempt (Table.lookup PaymentAttempt.id attempt.id rows) rows
  | reconcile (payment : MercadoPagoPayment) (rows : List PaymentAttempt)
      (h : Reconciles q v attempt payment) (hp : payment.status = .approved)
      (hrows : rows = updateAttempt attempt.id
        (Reconciliation.approved (payment.dateApproved.getD q.draw.now)) db.attempts) :
      Approval q v db attempt (some attempt) rows

/-- What a request that approves nothing may do to the attempts. -/
inductive AttemptEdit (q : Request) (v db : Db) : List PaymentAttempt → Prop
  | same : AttemptEdit q v db db.attempts
  | prepare (tenant : PublicTenant) (cartId : Id) (request : CheckoutRequest) (key : String)
      (recordId attemptId : Id) (cart : Cart) (input : IntegrationRepository.CreateAttemptInput)
      (a : PaymentAttempt) (rows : List PaymentAttempt)
      (hq : q.action = .prepareSession tenant cartId request key recordId attemptId)
      (hcart : Table.lookup Cart.id cartId v.carts = some cart) (hopen : cart.status ≠ .converted)
      (hactive : IntegrationRepository.findActiveByCartId cartId v = none)
      (hi : input.cartId = cartId ∧ input.amount = cart.total)
      (h : AttemptFor input attemptId db.attempts a rows) (hk : input.idempotencyKey = key) :
      AttemptEdit q v db rows
  | attach (i : Nat) (preference : Preference) (session : PreparedSession)
      (hq : q.action = .attachSession i preference) (hs : db.sessions[i]? = some session) :
      AttemptEdit q v db
        (preferredAt session.attemptId session.integrationAccountId preference.preferenceId db.attempts)
  | cancel (attempt : PaymentAttempt) (key : String) (recordId : Id)
      (hq : q.action = .kioskCancel attempt.id key recordId)
      (hv : Table.lookup PaymentAttempt.id attempt.id v.attempts = some attempt)
      (hc : KioskPaymentService.cancellable attempt = true) :
      AttemptEdit q v db (updateAttempt attempt.id KioskPaymentService.cancelled db.attempts)
  | report (attempt : PaymentAttempt) (payment : MercadoPagoPayment)
      (h : Reports q v db attempt payment) (hp : payment.status ≠ .approved) :
      AttemptEdit q v db (updateAttempt attempt.id (Webhook.reported payment q.draw.now) db.attempts)
  | reject (attempt : PaymentAttempt) (payment : MercadoPagoPayment)
      (h : Reconciles q v attempt payment)
      (hp : payment.status = .rejected ∨ payment.status = .cancelled) :
      AttemptEdit q v db (updateAttempt attempt.id Reconciliation.rejected db.attempts)
  | doubt (attempt : PaymentAttempt) (payment : MercadoPagoPayment)
      (h : Reconciles q v attempt payment) (hp : payment.status ≠ .approved)
      (hs : attempt.status ≠ .verificationRequired)
      (hd : payment.status ≠ .rejected ∧ payment.status ≠ .cancelled) :
      AttemptEdit q v db (updateAttempt attempt.id Reconciliation.uncertain db.attempts)

/-- The deposit of a cash sale. -/
def depositOf (order : Order) (shift : Option CashShift) (draw : Draw) : CashMovement where
  id := draw.movementId
  locationId := order.locationId
  shiftId := shift.map (·.id)
  orderId := some order.id
  type := .saleDeposit
  amount := order.total
  occurredAt := draw.now
  reason := none
  idempotencyKey := some ("cash_deposit:" ++ order.id)

/-- The price of a sale at the counter. -/
def counterPrice (request : CreateOrderService.DirectItemsRequest) (now : Instant) (db : Db) :
    Option CartRepository.Repricing :=
  (request.items.mapM (CreateOrderService.directLine db.settings.defaultCurrency db)).toOption.bind
    fun lines => (CreateOrderService.directPrice lines request.discountCode request.tender now db).toOption

/-- A sale: the snapshot it makes its order from, the cart it has just inserted, its deposit, and the
attempts it leaves. -/
inductive Sale (q : Request) (v db : Db) (input : SnapshotInput) (order : Order) :
    Option Cart → Option CashMovement → List PaymentAttempt → Prop
  | cash (tenant : PublicTenant) (request : CheckoutRequest) (recordId : Id)
      (hq : q.action = .createCashOrder tenant input.cart.id request input.idempotencyKey recordId)
      (hcart : Table.lookup Cart.id input.cart.id v.carts = some input.cart)
      (hs : input.source = .storefrontCash) (hp : input.paymentStatus = .pending)
      (ht : input.tender = some .cash) (ha : input.paymentAttemptId = none) :
      Sale q v db input order none none db.attempts
  | direct (customer : Customer) (notes : Option String)
      (hq : q.action = .createDirect input.cart.id customer notes input.idempotencyKey)
      (hcart : Table.lookup Cart.id input.cart.id v.carts = some input.cart)
      (hs : input.source = .adminDirect) (hp : input.paymentStatus = .paid)
      (ht : input.tender = some .cash) (ha : input.paymentAttemptId = none) :
      Sale q v db input order none (some (depositOf order none q.draw)) db.attempts
  | items (request : CreateOrderService.DirectItemsRequest)
      (hq : q.action = .createDirectFromItems request input.idempotencyKey input.cart.id)
      (hs : input.source = .adminDirect) (hp : input.paymentStatus = request.paymentStatus)
      (ht : input.tender = some request.tender) (ha : input.paymentAttemptId = none)
      (hc : input.cart.status = .validated)
      (hl : v.settings.primaryLocationId = some input.cart.locationId) (price : CartRepository.Repricing)
      (hprice : counterPrice request q.draw.now v = some price)
      (hpc : input.cart.appliedDiscountCodeId = price.appliedDiscountCodeId ∧
        input.cart.discountTotal = price.discountTotal) (hcoupon : input.cart.Couponed)
      (hadds : input.cart.AddsUp) :
      Sale q v db input order (some input.cart)
        (if request.tender = .cash ∧ request.paymentStatus = .paid then
          some (depositOf order none q.draw) else none) db.attempts
  | paid (attempt : PaymentAttempt) (approvedAt : Option Instant)
      (hq : q.action = .createPaid attempt.id approvedAt)
      (hv : Table.lookup PaymentAttempt.id attempt.id v.attempts = some attempt)
      (hok : attempt.status = .approved)
      (hcart : Table.lookup Cart.id attempt.cartId v.carts = some input.cart)
      (hs : input.source = .mercadopagoWebhook) (hp : input.paymentStatus = .paid)
      (ht : input.tender = none) (hk : input.idempotencyKey = "payment-attempt:" ++ attempt.id)
      (ha : input.paymentAttemptId = some attempt.id) : Sale q v db input order none none db.attempts
  | confirmed (attempt updated : PaymentAttempt) (rows : List PaymentAttempt) (approvedAt : Instant)
      (h : Approval q v db attempt (some updated) rows)
      (hcart : Table.lookup Cart.id updated.cartId v.carts = some input.cart)
      (hi : input = Webhook.paidSnapshot input.cart updated approvedAt) :
      Sale q v db input order none none rows

/-- The update of a transition. -/
def transitioned (next : FulfillmentStatus) (refunds : Bool) (now : Instant) (o : Order) : Order :=
  { o with
    fulfillmentStatus := next
    deliveredAt := if next = .delivered then some now else o.deliveredAt
    paymentStatus := if refunds then .refunded else o.paymentStatus }

/-- The cash that a transition gives back. -/
def transitionMovement (order : Order) (request : TransitionOrderService.Request)
    (shift : Option CashShift) (draw : Draw) : Option CashMovement :=
  if TransitionOrderService.refundsCash order request.fulfillmentStatus then
    some (withdrawal order shift none "cash_withdrawal:" draw)
  else none

def settledAs (paymentStatus : PaymentStatus) (o : Order) : Order := { o with paymentStatus }

/-- An operation on an existing order: the rows it updates, its update, the cash it moves, whether it
releases the coupon, and the attempts it leaves. `order` is the row its guards saw. -/
inductive Revision (q : Request) (v db : Db) (order : Order) : (Order → Bool) → (Order → Order) →
    Option CashMovement → Bool → List PaymentAttempt → Prop
  | transition (expectedVersion : Nat) (request : TransitionOrderService.Request)
      (hq : q.action = .transition order.id expectedVersion request)
      (hg : TransitionOrderService.obstacle order request = none)
      (hne : order.fulfillmentStatus ≠ request.fulfillmentStatus) :
      Revision q v db order (OrderRepository.atVersion order.id expectedVersion)
        (transitioned request.fulfillmentStatus
          (TransitionOrderService.refundsCash order request.fulfillmentStatus) q.draw.now)
        (transitionMovement order request (openShiftAt order.locationId v) q.draw)
        (request.fulfillmentStatus = .cancelled) db.attempts
  | collect (actor : Actor) (key : String) (request : CollectCashRequest) (recordId : Id)
      (hq : q.action = .collect actor order.id key request recordId) (hpaid : order.paymentStatus ≠ .paid)
      (hg : CollectCashService.obstacle order q.draw.now = none) :
      Revision q v db order (OrderRepository.atVersion order.id order.version) CollectCashService.pay
        (some (depositOf order (openShiftAt order.locationId v) q.draw)) false db.attempts
  | refund (actor : Actor) (key : String) (request : RefundCashRequest) (recordId : Id)
      (hq : q.action = .refund actor order.id key request recordId)
      (hg : RefundCashService.obstacle order = none) :
      Revision q v db order (OrderRepository.atVersion order.id order.version) RefundCashService.giveBack
        (some (withdrawal order (openShiftAt order.locationId v) (some request.reason) "cash_refund:"
          q.draw)) true db.attempts
  | cancel (pickupPin : String) (hq : q.action = .cancelUnpaid order.id pickupPin)
      (hne : order.fulfillmentStatus ≠ .cancelled)
      (hg : CancelUnpaidOrderService.obstacle order pickupPin = none) :
      Revision q v db order (OrderRepository.atVersion order.id order.version)
        CancelUnpaidOrderService.cancelOrder none true db.attempts
  | expire (hq : q.action = .expire order.id)
      (hg : ExpireUnpaidOrdersJob.expires order q.draw.now = true) :
      Revision q v db order (OrderRepository.atVersion order.id order.version)
        ExpireUnpaidOrdersJob.expireOrder none true db.attempts
  | confirm (attempt : PaymentAttempt) (rows : List PaymentAttempt)
      (h : Approval q v db attempt (some attempt) rows) (ha : order.paymentAttemptId = some attempt.id)
      (hpaid : order.paymentStatus ≠ .paid) (payment : MercadoPagoPayment)
      (hr : Reconciles q v attempt payment) (hok : payment.status = .approved)
      (hread : OrderRepository.findByPaymentAttempt attempt.id v = some order) :
      Revision q v db order (·.id = order.id) (settledAs .paid) none false rows
  | refuse (attempt : PaymentAttempt) (payment : MercadoPagoPayment)
      (h : Reconciles q v attempt payment)
      (hp : payment.status = .rejected ∨ payment.status = .cancelled)
      (ha : order.paymentAttemptId = some attempt.id)
      (hs : order.paymentStatus = .verificationRequired)
      (hread : OrderRepository.findByPaymentAttempt attempt.id v = some order) :
      Revision q v db order (·.id = order.id) (settledAs .failed) none false
        (updateAttempt attempt.id Reconciliation.rejected db.attempts)

/-- Why an approved attempt gets no order: its cart is gone or converted, or its key is taken. -/
def Unsold (v : Db) (attempt : PaymentAttempt) : Prop :=
  (∀ cart, Table.lookup Cart.id attempt.cartId v.carts = some cart → cart.status = .converted) ∨
    ∃ o, Table.lookup Order.idempotencyKey ("payment-attempt:" ++ attempt.id) v.orders = some o

/-- The row that a closing leaves. -/
def closedShift (closingBalance expectedCash : Cents) (now : Instant) (notes : Option String)
    (s : CashShift) : CashShift :=
  { s with
    status := .closed, closingBalance := some closingBalance, expectedCash := some expectedCash,
    closedAt := some now, notes }

/-- What a committed request may leave of the tables of the sale. -/
inductive Effect (q : Request) (v db : Db) : Core → Prop
  | coupons (ds : List Discount) (h : CouponEdit db.discounts ds) :
      Effect q v db { db.core with discounts := ds }
  | editCarts (rows : List Cart) (h : CartEdit q v db rows) : Effect q v db { db.core with carts := rows }
  | editAttempts (rows : List PaymentAttempt) (h : AttemptEdit q v db rows) :
      Effect q v db { db.core with attempts := rows }
  | kiosk (cart : Cart) (request : KioskPaymentSessionRequest) (key : String)
      (recordId cartId attemptId : Id) (preference : Except AppError Preference)
      (input : IntegrationRepository.CreateAttemptInput) (accountId : Id) (preferenceId : String)
      (a : PaymentAttempt) (rows : List PaymentAttempt)
      (hq : q.action = .kioskSession request key recordId cartId attemptId preference)
      (hid : ∀ x ∈ db.carts, x.id ≠ cart.id) (hs : cart.status = .validated)
      (hi : input.cartId = cart.id ∧ input.amount = cart.total)
      (ha : AttemptFor input attemptId db.attempts a rows) (hc : cart.Couponed) (hd : cart.CouponIn v)
      (hadds : cart.AddsUp) :
      Effect q v db { db.core with
        carts := db.carts ++ [cart], attempts := preferredAt a.id accountId preferenceId rows }
  /-- A payment is approved, and no order of it created or changed. -/
  | approved (attempt : PaymentAttempt) (row : Option PaymentAttempt) (rows : List PaymentAttempt)
      (h : Approval q v db attempt row rows)
      (hu : ∀ a ∈ row, Unsold v a ∨ ∃ o ∈ v.orders, o.paymentAttemptId = some attempt.id) :
      Effect q v db { db.core with attempts := rows }
  | sold (input : SnapshotInput) (order : Order) (purchaseNumber activeCount : Nat)
      (cart : Option Cart) (movement : Option CashMovement) (attempts : List PaymentAttempt)
      (h : Sale q v db input order cart movement attempts)
      (horder : order = OrderRepository.newOrder input q.draw purchaseNumber activeCount)
      (hkey : Table.lookup Order.idempotencyKey input.idempotencyKey v.orders = none)
      (hopen : input.cart.status ≠ .converted)
      (hnew : ∀ o ∈ db.orders, OrderRepository.conflicts order o = false)
      (hcart : ∀ c ∈ cart, ∀ x ∈ db.carts, x.id ≠ c.id)
      (hm : ∀ m ∈ movement, Bookable m db.movements) :
      Effect q v db ((sell input.cart order
        { db.core with carts := db.carts ++ cart.toList, attempts }).book movement)
  | revised (order row : Order) (p : Order → Bool) (f : Order → Order)
      (movement : Option CashMovement) (released : Bool) (attempts : List PaymentAttempt)
      (h : Revision q v db order p f movement released attempts) (hv : order ∈ v.orders)
      (hrow : db.orders.find? p = some row) (hm : ∀ m ∈ movement, Bookable m db.movements) :
      Effect q v db ((({ db.core with attempts }.revise p f q.draw.now).book movement).release released
        order)
  | openShift (userId : String) (openingBalance : Cents) (locationId : Option Id) (shift : CashShift)
      (hq : q.action = .openShift userId openingBalance locationId shift.id)
      (hopen : shift.status = .open) (hat : shift.openedAt = q.draw.now)
      (hnone : ∀ s ∈ v.shifts, s.status ≠ .open) (hid : ∀ s ∈ db.shifts, s.id ≠ shift.id) :
      Effect q v db { db.core with shifts := db.shifts ++ [shift] }
  | closeShift (shift : CashShift) (closingBalance : Cents)
      (hq : q.action = .closeShift shift.id closingBalance)
      (hv : Table.lookup CashShift.id shift.id v.shifts = some shift) (hopen : shift.status = .open) :
      Effect q v db { db.core with
        shifts := Table.updateWhere (·.id = shift.id)
          (closedShift closingBalance
            (shift.openingBalance + CashShiftService.cashSales (v.orders.filter fun o =>
              CashShiftService.isCashSale shift.openedAt o && o.createdAt ≤ q.draw.now))
            q.draw.now shift.notes) db.shifts }

end Komanda
