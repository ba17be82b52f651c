import Komanda.System

/-!
# What each request may write

A table is written by few services. `Action.tables` names those that a request may write, and a committed
request leaves every other one as it was (`exec_frame`).
-/

namespace Komanda
open Transaction Idempotency

inductive TableName
  | tenant
  /-- Settings, accounts and the catalog, but for its items. -/
  | backOffice
  | items
  | discounts
  | redemptions
  | carts
  | attempts
  | orders
  | orderEvents
  | shifts
  | movements
  | routes
  | webhookEvents
  | financialRecords
  | outbox
  | audit
  | printJobs
  | billing
  | idempotency
  | sessions
deriving DecidableEq, Repr

/-- The table, with the counter that numbers its rows, is as it was. -/
def TableName.Same : TableName → Db → Db → Prop
  | .tenant, s, s' => s'.tenantId = s.tenantId
  | .backOffice, s, s' => (s'.settings, s'.accounts, s'.combos, s'.addonGroups, s'.itemAddonGroups) =
      (s.settings, s.accounts, s.combos, s.addonGroups, s.itemAddonGroups)
  | .items, s, s' => s'.items = s.items
  | .discounts, s, s' => s'.discounts = s.discounts
  | .redemptions, s, s' => s'.redemptions = s.redemptions
  | .carts, s, s' => s'.carts = s.carts
  | .attempts, s, s' => s'.attempts = s.attempts
  | .orders, s, s' => (s'.orders, s'.purchaseNumber) = (s.orders, s.purchaseNumber)
  | .orderEvents, s, s' => (s'.orderEvents, s'.orderEventSequence) = (s.orderEvents, s.orderEventSequence)
  | .shifts, s, s' => s'.shifts = s.shifts
  | .movements, s, s' => s'.movements = s.movements
  | .routes, s, s' => s'.routes = s.routes
  | .webhookEvents, s, s' => s'.webhookEvents = s.webhookEvents
  | .financialRecords, s, s' => s'.financialRecords = s.financialRecords
  | .outbox, s, s' => (s'.outbox, s'.outboxSequence) = (s.outbox, s.outboxSequence)
  | .audit, s, s' => s'.audit = s.audit
  | .printJobs, s, s' => s'.printJobs = s.printJobs
  | .billing, s, s' => s'.billing = s.billing
  | .idempotency, s, s' => s'.idempotency = s.idempotency
  | .sessions, s, s' => s'.sessions = s.sessions

theorem TableName.Same.refl (t : TableName) (s : Db) : t.Same s s := by cases t <;> rfl

theorem TableName.Same.trans {t : TableName} {s s' s'' : Db} (h : t.Same s s') (h' : t.Same s' s'') :
    t.Same s s'' := by
  cases t <;> exact Eq.trans h' h

/-- Only tables of `S` change. -/
def Writes (S : List TableName) (s s' : Db) : Prop := ∀ t, t ∉ S → t.Same s s'

instance (S : List TableName) : Std.Refl (Writes S) := ⟨fun s t _ => .refl t s⟩

instance (S : List TableName) : Trans (Writes S) (Writes S) (Writes S) :=
  ⟨fun h h' t ht => (h t ht).trans (h' t ht)⟩

/-- The tables that the creation of an order may write. -/
def snapshotTables : List TableName := [.orders, .items, .carts, .discounts, .redemptions, .orderEvents]

/-- The tables that an operation on an order may write. -/
def operationTables : List TableName := [.orders, .movements, .redemptions, .orderEvents, .audit, .outbox]

/-- The tables that a request may write. -/
@[simp] def Action.tables : Action → List TableName
  | configure _ => [.backOffice, .items]
  | createDiscount _ => [.discounts]
  | updateDiscount _ _ _ => [.discounts]
  | deleteDiscount _ => [.discounts]
  | createCart _ _ _ _ _ => [.carts, .idempotency]
  | getCart _ => [.carts]
  | applyDiscount _ _ _ => [.carts]
  | removeDiscount _ => [.carts]
  | createCashOrder _ _ _ _ _ => .idempotency :: snapshotTables
  | prepareSession _ _ _ _ _ _ => [.attempts, .idempotency, .sessions]
  | attachSession _ _ => [.attempts, .routes, .idempotency, .sessions]
  | giveUpSession _ => [.idempotency, .sessions]
  | kioskSession _ _ _ _ _ _ => [.carts, .attempts, .routes, .idempotency]
  | kioskCancel _ _ _ => [.attempts, .idempotency]
  | webhook _ _ _ =>
    [.webhookEvents, .attempts, .routes, .outbox, .audit, .financialRecords, .printJobs] ++ snapshotTables
  | reconcile _ _ => [.attempts, .outbox, .audit] ++ snapshotTables
  | createDirect _ _ _ _ => [.movements, .outbox, .audit, .printJobs, .billing] ++ snapshotTables
  | createDirectFromItems _ _ _ => [.movements, .outbox, .audit, .printJobs, .billing] ++ snapshotTables
  | createPaid _ _ => [.outbox, .audit, .printJobs, .billing] ++ snapshotTables
  | transition _ _ _ => operationTables
  | collect _ _ _ _ _ => [.idempotency, .printJobs] ++ operationTables
  | refund _ _ _ _ _ => .idempotency :: operationTables
  | cancelUnpaid _ _ => operationTables
  | expire _ => operationTables
  | openShift _ _ _ _ => [.shifts]
  | closeShift _ _ => [.shifts]

section Footprints
variable {α : Type} {S : List TableName} {now : Instant} {draw : Draw}

/-- A statement that writes one table. -/
theorem writes_table {f : Db → Db} (name : TableName) (h : name ∈ S)
    (hf : ∀ db t, t = name ∨ t.Same db (f db)) : Within (Writes S) (write f : DbTx Unit) :=
  Within.write fun db t ht => (hf db t).resolve_left fun he => ht (he ▸ h)

/-! ## Repositories -/

@[grind ←] theorem writes_onIdempotency
    (x : Tx (List (Idempotency.Record IdemRequest IdemResponse)) Idempotency.IdempotencyError α)
    (h : .idempotency ∈ S) : Within (Writes S) (onIdempotency x) := by
  refine Within.zoom (Q := fun _ _ => True) (fun _ _ _ _ _ => trivial) fun s t _ name hname => ?_
  cases name with
  | idempotency => exact absurd h hname
  | _ => rfl

@[grind ←] theorem writes_claim (scope key : String) (request : IdemRequest) (retention : Option Nat) (id : Id)
    (h : .idempotency ∈ S) :
    Within (Writes S) (IdempotencyService.claim scope key request retention id now) :=
  Within.bind (Within.current _) fun _ => writes_onIdempotency _ h

@[grind ←] theorem writes_complete (id : Id) (status : Nat) (body : IdemResponse) (h : .idempotency ∈ S) :
    Within (Writes S) (IdempotencyService.complete id status body) := writes_onIdempotency _ h

@[grind ←] theorem writes_fail (id : Id) (h : .idempotency ∈ S) :
    Within (Writes S) (IdempotencyService.fail id) := writes_onIdempotency _ h

@[grind ←] theorem writes_outbox (t : String) (i : Id) (e : String) (p : Payload) (h : .outbox ∈ S) :
    Within (Writes S) (appendOutboxEvent t i e p) :=
  writes_table .outbox h fun _ t => by cases t <;> simp [TableName.Same]

@[grind ←] theorem writes_audit (a t : String) (i : Id) (m : Payload) (h : .audit ∈ S) :
    Within (Writes S) (appendAuditEvent a t i m) :=
  writes_table .audit h fun _ t => by cases t <;> simp [TableName.Same]

@[grind ←] theorem writes_event (i : Id) (e : String) (s t : Option FulfillmentStatus) (m : Payload)
    (h : .orderEvents ∈ S) : Within (Writes S) (OrderRepository.appendEvent i e s t m) :=
  writes_table .orderEvents h fun _ t => by cases t <;> simp [TableName.Same]

@[grind ←] theorem writes_ticket (order : Order) (h : .printJobs ∈ S) :
    Within (Writes S) (enqueueOrderTicket order draw) := by
  refine Within.bind (Within.current _) fun _ => Within.bind ?_ fun _ => Within.pure _
  refine Within.zoom (Q := fun _ _ => True) (fun _ _ _ _ _ => trivial) fun s t _ name hname => ?_
  cases name with
  | printJobs => exact absurd h hname
  | _ => rfl

@[grind ←] theorem writes_document (input : BillingRepository.IssueInput) (h : .billing ∈ S) :
    Within (Writes S) (BillingRepository.issueDocument input) :=
  Within.bind (Within.current _) fun _ => Within.bind (Within.orThrow _ _) fun _ =>
    Within.bind (Within.look _) fun _ => Within.bind (Within.throwIf _ _) fun _ =>
      Within.bind (Within.current _) fun _ => Within.bind (Within.throwIf _ _) fun _ =>
        writes_table .billing h fun _ t => by cases t <;> simp [TableName.Same]

@[grind ←] theorem writes_movement (m : CashMovement) (e : AppError) (h : .movements ∈ S) :
    Within (Writes S) (recordMovement m e) :=
  Within.bind (Within.current _) fun _ => Within.bind (Within.throwIf _ _) fun _ =>
    writes_table .movements h fun _ t => by cases t <;> simp [TableName.Same]

@[grind ←] theorem writes_redemption (o c d : Id) (amount : Cents) (code : String) (h : .discounts ∈ S)
    (h' : .redemptions ∈ S) : Within (Writes S) (DiscountRepository.recordRedemption o c d amount code) := by
  unfold DiscountRepository.recordRedemption
  refine Within.bind (Within.current _) fun _ => Within.bind ?_ fun _ => Within.bind (Within.current _) fun _ =>
    Within.bind (Within.throwIf _ _) fun _ => Within.bind ?_ fun _ => Within.pure _
  · exact writes_table .discounts h fun _ t => by cases t <;> simp [TableName.Same]
  · refine writes_table .redemptions h' fun _ t => ?_
    split <;> cases t <;> simp [TableName.Same]

@[grind ←] theorem writes_cancelRedemption (i : Id) (h : .redemptions ∈ S) :
    Within (Writes S) (DiscountRepository.markRedemptionCancelled i) :=
  writes_table .redemptions h fun _ t => by cases t <;> simp [TableName.Same]

@[grind ←] theorem writes_releaseCoupon (order : Order) (h : .redemptions ∈ S) :
    Within (Writes S) (releaseCoupon order) := by
  unfold releaseCoupon; grind

@[grind ←] theorem writes_stock (line : CartLine) (h : .items ∈ S) :
    Within (Writes S) (OrderRepository.deductStock line) := by
  unfold OrderRepository.deductStock
  split
  · refine Within.bind (Within.current _) fun _ => Within.bind ?_ fun _ =>
      Within.bind (Within.current _) fun _ => Within.throwIf _ _
    exact writes_table .items h fun _ t => by cases t <;> simp [TableName.Same]
  · exact Within.pure _

@[grind ←] theorem writes_nextPurchaseNumber (h : .orders ∈ S) :
    Within (Writes S) OrderRepository.nextPurchaseNumber := by
  have hw : Within (Writes S) (write fun db => { db with purchaseNumber := db.purchaseNumber + 1 }) :=
    writes_table .orders h fun _ t => by cases t <;> simp [TableName.Same]
  exact Within.bind hw fun _ => Within.current _

@[grind ←] theorem writes_insert (order : Order) (h : .orders ∈ S) :
    Within (Writes S) (OrderRepository.insert order) :=
  Within.bind (Within.current _) fun _ => Within.bind (Within.throwIf _ _) fun _ =>
    writes_table .orders h fun _ t => by cases t <;> simp [TableName.Same]

@[grind ←] theorem writes_convertCart (cartId : Id) (h : .carts ∈ S) :
    Within (Writes S) (OrderRepository.convertCart cartId) :=
  writes_table .carts h fun _ t => by cases t <;> simp [TableName.Same]

@[grind ←] theorem writes_updateReturning (p : Order → Bool) (f : Order → Order) (h : .orders ∈ S) :
    Within (Writes S) (OrderRepository.updateReturning p f now) := by
  refine Within.bind (Within.current _) fun _ => Within.bind ?_ fun _ => Within.pure _
  exact writes_table .orders h fun _ t => by cases t <;> simp [TableName.Same]

@[grind ←] theorem writes_updatePaymentStatus (id : Id) (status : PaymentStatus) (h : .orders ∈ S) :
    Within (Writes S) (OrderRepository.updatePaymentStatus id status now) := writes_updateReturning _ _ h

@[grind ←] theorem writes_createCart (input : CartRepository.CreateInput) (id : Id) (h : .carts ∈ S) :
    Within (Writes S) (CartRepository.create input id) := by
  refine Within.bind (Within.current _) fun _ => Within.bind (Within.throwIf _ _) fun _ =>
    Within.bind ?_ fun _ => Within.pure _
  exact writes_table .carts h fun _ t => by cases t <;> simp [TableName.Same]

@[grind ←] theorem writes_reprice (cartId : Id) (r : CartRepository.Repricing) (h : .carts ∈ S) :
    Within (Writes S) (CartRepository.reprice cartId r) := by
  refine Within.bind ?_ fun _ => Within.current _
  exact writes_table .carts h fun _ t => by cases t <;> simp [TableName.Same]

@[grind ←] theorem writes_updateAttempt (id : Id) (f : PaymentAttempt → PaymentAttempt) (h : .attempts ∈ S) :
    Within (Writes S) (IntegrationRepository.updateAttempt id f) :=
  writes_table .attempts h fun _ t => by cases t <;> simp [TableName.Same]

@[grind ←] theorem writes_createAttempt (input : IntegrationRepository.CreateAttemptInput) (id : Id)
    (h : .attempts ∈ S) : Within (Writes S) (IntegrationRepository.createPaymentAttempt input id) := by
  have hw : Within (Writes S) (write fun db => { db with attempts := db.attempts ++ [input.row id] }) :=
    writes_table .attempts h fun _ t => by cases t <;> simp [TableName.Same]
  unfold IntegrationRepository.createPaymentAttempt
  grind

@[grind ←] theorem writes_route (route : ProviderResourceRoute) (h : .routes ∈ S) :
    Within (Writes S) (IntegrationRepository.insertRoute route) := by
  refine writes_table .routes h fun _ t => ?_
  split <;> cases t <;> simp [TableName.Same]

@[grind ←] theorem writes_preference (a i : Id) (p : String) (h : .attempts ∈ S) (h' : .routes ∈ S) :
    Within (Writes S) (IntegrationRepository.attachPreference a i p) := by
  refine Within.bind (Within.current _) fun _ => Within.bind ?_ fun _ =>
    Within.bind (Within.throwIf _ _) fun _ => writes_route _ h'
  exact writes_table .attempts h fun _ t => by cases t <;> simp [TableName.Same]

@[grind ←] theorem writes_financialRecord (r : MpFinancialRecord) (h : .financialRecords ∈ S) :
    Within (Writes S) (Webhook.upsertFinancialRecord r) := by
  refine writes_table .financialRecords h fun _ t => ?_
  split <;> cases t <;> simp [TableName.Same]

@[grind ←] theorem writes_webhookEvent (e : ReceivedMercadoPagoWebhook) (s : WebhookEventStatus) (i : Id)
    (h : .webhookEvents ∈ S) : Within (Writes S) (Webhook.persistEvent e s i) := by
  refine Within.bind (Within.current _) fun _ => Within.bind (Within.runIf ?_) fun _ => Within.pure _
  exact writes_table .webhookEvents h fun _ t => by cases t <;> simp [TableName.Same]

/-! ## Orders -/

@[grind ←] theorem writes_redeemCoupon (cart : Cart) (i : Id) (h : .discounts ∈ S) (h' : .redemptions ∈ S) :
    Within (Writes S) (OrderRepository.redeemCoupon cart i) := by
  unfold OrderRepository.redeemCoupon; grind

@[grind ←] theorem writes_insertSnapshot (input : SnapshotInput) (h : snapshotTables ⊆ S) :
    Within (Writes S) (OrderRepository.insertSnapshot input draw) := by
  simp only [snapshotTables, List.cons_subset] at h
  obtain ⟨horders, hitems, hcarts, hdiscounts, hredemptions, hevents, -⟩ := h
  unfold OrderRepository.insertSnapshot
  grind

@[grind ←] theorem writes_snapshotWith {readCart : DbTx (Option Cart)} (input : SnapshotInput)
    (hread : Within (Writes S) readCart) (h : snapshotTables ⊆ S) :
    Within (Writes S) (OrderRepository.createFromCartSnapshotWith readCart input draw) := by
  unfold OrderRepository.createFromCartSnapshotWith
  grind

@[grind ←] theorem writes_snapshot (input : SnapshotInput) (h : snapshotTables ⊆ S) :
    Within (Writes S) (OrderRepository.createFromCartSnapshot input draw) :=
  writes_snapshotWith input (Within.look _) h

@[grind ←] theorem writes_announce (order : Order) (action : String) (m c : Payload) (h : .audit ∈ S)
    (h' : .outbox ∈ S) : Within (Writes S) (CreateOrderService.announce order action m c) := by
  unfold CreateOrderService.announce; grind

@[grind ←] theorem writes_orStale (updated : Option Order) : Within (Writes S) (orStale updated) :=
  Within.orThrow _ _

@[grind ←] theorem writes_announceCancellation (order updated : Order) (reason : String) (h : .redemptions ∈ S)
    (h₁ : .orderEvents ∈ S) (h₂ : .audit ∈ S) (h₃ : .outbox ∈ S) :
    Within (Writes S) (announceCancellation order updated reason) := by
  unfold announceCancellation OrderRepository.appendTransitionEvent
  grind

@[grind ←] theorem writes_effect {x : DbTx α} (h : Within (Writes S) x) : Within (Writes S) (effect x) := by
  unfold effect; grind

/-! ## Services. A long body is taken bind by bind. -/

theorem writes_CartService_create (tenant : PublicTenant) (request : CreateCartRequest) (key : String)
    (recordId cartId : Id) (h : .carts ∈ S) (h' : .idempotency ∈ S) :
    Within (Writes S) (CartService.create tenant request key recordId cartId now) := by
  unfold CartService.create
  repeat refine Within.bind (by grind) fun _ => ?_
  split
  · grind
  · repeat refine Within.bind (by grind) fun _ => ?_
    grind

theorem writes_findAvailable (cartId : Id) : Within (Writes S) (CartService.findAvailable cartId now) := by
  unfold CartService.findAvailable; grind

theorem writes_getCart (cartId : Id) (h : .carts ∈ S) : Within (Writes S) (CartService.get cartId now) := by
  unfold CartService.get
  refine Within.bind (writes_findAvailable _) fun _ => ?_
  grind

theorem writes_applyDiscount (cartId : Id) (code : String) (retry : Option Nat) (h : .carts ∈ S) :
    Within (Writes S) (CartService.applyDiscount cartId code retry now) := by
  unfold CartService.applyDiscount CartRepository.applyDiscount
  refine Within.bind (Within.throwIf _ _) fun _ => Within.bind (writes_findAvailable _) fun _ => ?_
  repeat refine Within.bind (by grind) fun _ => ?_
  dsimp only
  split <;> grind

theorem writes_removeDiscount (cartId : Id) (h : .carts ∈ S) :
    Within (Writes S) (CartService.removeDiscount cartId now) := by
  unfold CartService.removeDiscount CartRepository.removeDiscount
  refine Within.bind (writes_findAvailable _) fun _ => ?_
  grind

theorem writes_prepare (tenant : PublicTenant) (cartId : Id) (request : CheckoutRequest) (key : String)
    (recordId attemptId : Id) (h : .attempts ∈ S) (h' : .idempotency ∈ S) :
    Within (Writes S) (PaymentSessionService.prepare tenant cartId request key recordId attemptId now) := by
  unfold PaymentSessionService.prepare
  repeat refine Within.bind (by grind) fun _ => ?_
  split
  · grind
  · repeat refine Within.bind (by grind) fun _ => ?_
    grind

theorem writes_attach (session : PreparedSession) (preference : Preference) (h : .attempts ∈ S)
    (h₁ : .routes ∈ S) (h₂ : .idempotency ∈ S) :
    Within (Writes S) (PaymentSessionService.attach session preference) := by
  unfold PaymentSessionService.attach
  repeat refine Within.bind (by grind) fun _ => ?_
  grind

theorem writes_endSession {finish : PreparedSession → DbTx α} (i : Nat) (h : .sessions ∈ S)
    (hf : ∀ session, Within (Writes S) (finish session)) : Within (Writes S) (endSession i finish) := by
  refine Within.bind (Within.current _) fun _ => Within.bind (Within.orThrow _ _) fun _ =>
    Within.bind (hf _) fun _ => ?_
  exact writes_table .sessions h fun _ t => by cases t <;> simp [TableName.Same]

theorem writes_beginSession {prepare : DbTx PaymentSessionService.Prepared} (h : .sessions ∈ S)
    (hp : Within (Writes S) prepare) : Within (Writes S) (beginSession prepare) := by
  refine Within.bind hp fun prepared => ?_
  cases prepared with
  | replayed body => exact Within.pure _
  | ready session => exact writes_table .sessions h fun _ t => by cases t <;> simp [TableName.Same]

theorem writes_kioskSession (request : KioskPaymentSessionRequest) (key : String)
    (recordId cartId attemptId : Id) (preference : Except AppError Preference) (h : .carts ∈ S)
    (h₁ : .attempts ∈ S) (h₂ : .routes ∈ S) (h₃ : .idempotency ∈ S) : Within (Writes S)
    (KioskPaymentService.createSession request key recordId cartId attemptId preference now) := by
  unfold KioskPaymentService.createSession
  repeat refine Within.bind (by grind) fun _ => ?_
  split
  · grind
  · repeat refine Within.bind (by grind) fun _ => ?_
    grind

theorem writes_kioskCancel (attemptId : Id) (key : String) (recordId : Id) (h : .attempts ∈ S)
    (h' : .idempotency ∈ S) :
    Within (Writes S) (KioskPaymentService.cancelAttempt attemptId key recordId now) := by
  unfold KioskPaymentService.cancelAttempt
  repeat refine Within.bind (by grind) fun _ => ?_
  split
  · grind
  · repeat refine Within.bind (by grind) fun _ => ?_
    grind

theorem writes_createCashOrder (tenant : PublicTenant) (cartId : Id) (request : CheckoutRequest) (key : String)
    (recordId : Id) (h : snapshotTables ⊆ S) (h' : .idempotency ∈ S) :
    Within (Writes S) (CreateCashOrderService.create tenant cartId request key recordId draw) := by
  unfold CreateCashOrderService.create CreateCashOrderService.convert
  repeat refine Within.bind (by grind) fun _ => ?_
  split
  · grind
  · repeat refine Within.bind (by grind) fun _ => ?_
    grind

section Creation
variable (hsnap : snapshotTables ⊆ S) (hout : .outbox ∈ S) (haudit : .audit ∈ S)
include hsnap hout haudit

theorem writes_createDirect (cartId : Id) (customer : Customer) (notes : Option String) (key : String)
    (h : .movements ∈ S) (h₁ : .printJobs ∈ S) (h₂ : .billing ∈ S) :
    Within (Writes S) (CreateOrderService.createDirect cartId customer notes key draw) := by
  unfold CreateOrderService.createDirect CreateOrderService.deposit CreateOrderService.announceDirect
  repeat refine Within.bind (by grind) fun _ => ?_
  grind

theorem writes_createDirectFromItems (request : CreateOrderService.DirectItemsRequest) (key : String)
    (cartId : Id) (h : .movements ∈ S) (h₁ : .printJobs ∈ S) (h₂ : .billing ∈ S) :
    Within (Writes S) (CreateOrderService.createDirectFromItems request key cartId draw) := by
  have hcarts : .carts ∈ S := hsnap (by decide)
  unfold CreateOrderService.createDirectFromItems CreateOrderService.deposit CreateOrderService.announceDirect
  repeat refine Within.bind (by grind) fun _ => ?_
  grind

theorem writes_createPaid (attemptId : Id) (approvedAt : Option Instant) (h₁ : .printJobs ∈ S)
    (h₂ : .billing ∈ S) :
    Within (Writes S) (CreateOrderService.createPaidFromPaymentAttempt attemptId approvedAt draw) := by
  unfold CreateOrderService.createPaidFromPaymentAttempt
  repeat refine Within.bind (by grind) fun _ => ?_
  grind

theorem writes_orderOfApproved (updated : PaymentAttempt) (event : ReceivedMercadoPagoWebhook)
    (h₁ : .printJobs ∈ S) : Within (Writes S) (Webhook.orderOfApproved updated event draw) := by
  unfold Webhook.orderOfApproved
  refine Within.bind (Within.look _) fun _ => ?_
  split
  · repeat refine Within.bind (by grind) fun _ => ?_
    grind
  · grind

theorem writes_record (attempt : PaymentAttempt) (event : ReceivedMercadoPagoWebhook) (payment : MercadoPagoPayment)
    (h₁ : .attempts ∈ S) (h₂ : .routes ∈ S) (h₃ : .financialRecords ∈ S) (h₄ : .printJobs ∈ S) :
    Within (Writes S) (Webhook.record attempt event payment draw) := by
  have horder (a : PaymentAttempt) : Within (Writes S) (Webhook.orderOfApproved a event draw) :=
    writes_orderOfApproved hsnap hout haudit a event h₄
  unfold Webhook.record
  repeat refine Within.bind (by grind) fun _ => ?_
  grind

theorem writes_webhook (event : ReceivedMercadoPagoWebhook) (payment : MercadoPagoPayment) (eventId : Id)
    (h : .webhookEvents ∈ S) (h₁ : .attempts ∈ S) (h₂ : .routes ∈ S) (h₃ : .financialRecords ∈ S)
    (h₄ : .printJobs ∈ S) : Within (Writes S) (Webhook.receive event payment eventId draw) := by
  have hrecord (attempt : PaymentAttempt) : Within (Writes S) (Webhook.record attempt event payment draw) :=
    writes_record hsnap hout haudit attempt event payment h₁ h₂ h₃ h₄
  unfold Webhook.receive
  repeat refine Within.bind (by grind) fun _ => ?_
  grind

theorem writes_reconcile (attemptId : Id) (lookup : Option MercadoPagoPayment) (h : .attempts ∈ S) :
    Within (Writes S) (Reconciliation.reconcilePaymentAttempt attemptId lookup draw) := by
  have horders : .orders ∈ S := hsnap (by decide)
  have hcreate (attempt : PaymentAttempt) (approvedAt : Instant) :
      Within (Writes S) (Reconciliation.createOrder attempt approvedAt draw) := by
    unfold Reconciliation.createOrder
    refine Within.bind (Within.look _) fun _ => ?_
    split
    · grind
    · repeat refine Within.bind (by grind) fun _ => ?_
      grind
  have hconfirm (attempt : PaymentAttempt) (order : Option Order) (approvedAt : Instant) :
      Within (Writes S) (Reconciliation.confirm attempt order approvedAt draw) := by
    unfold Reconciliation.confirm
    refine Within.bind (writes_updateAttempt _ _ h) fun _ => ?_
    split
    · exact hcreate _ _
    · refine Within.bind (Within.runIf ?_) fun _ => Within.pure _
      exact Within.bind (writes_updatePaymentStatus _ _ horders) fun _ => writes_outbox _ _ _ _ hout
  have hrefuse (attempt : PaymentAttempt) (order : Option Order) :
      Within (Writes S) (Reconciliation.refuse attempt order draw) := by
    unfold Reconciliation.refuse
    grind
  unfold Reconciliation.reconcilePaymentAttempt
  repeat refine Within.bind (by grind) fun _ => ?_
  refine Within.ite (by grind) (Within.ite (by grind) ?_)
  repeat refine Within.bind (by grind) fun _ => ?_
  split
  · grind
  · refine Within.bind (Within.look _) fun _ => Within.ite (by grind) (Within.ite (by grind) (by grind))

end Creation

section Operation
variable (hops : operationTables ⊆ S)
include hops

theorem writes_transition (orderId : Id) (expectedVersion : Nat) (request : TransitionOrderService.Request) :
    Within (Writes S) (TransitionOrderService.transition orderId expectedVersion request draw) := by
  simp only [operationTables, List.cons_subset] at hops
  obtain ⟨horders, hmovements, hredemptions, hevents, haudit, hout, -⟩ := hops
  have hnotify (order : Order) (next : FulfillmentStatus) :
      Within (Writes S) (TransitionOrderService.notifyReady order next) := by
    unfold TransitionOrderService.notifyReady
    grind
  have happly (order : Order) :
      Within (Writes S) (TransitionOrderService.apply order expectedVersion request draw) := by
    unfold TransitionOrderService.apply OrderRepository.transition OrderRepository.appendTransitionEvent
    repeat refine Within.bind (by grind) fun _ => ?_
    grind
  unfold TransitionOrderService.transition
  grind

theorem writes_collect (actor : Actor) (orderId : Id) (key : String) (request : CollectCashRequest)
    (recordId : Id) (h : .idempotency ∈ S) (h' : .printJobs ∈ S) :
    Within (Writes S) (CollectCashService.collect actor orderId key request recordId draw) := by
  simp only [operationTables, List.cons_subset] at hops
  obtain ⟨horders, hmovements, hredemptions, hevents, haudit, hout, -⟩ := hops
  have happly (order : Order) (recordId : Id) :
      Within (Writes S) (CollectCashService.apply order recordId request draw) := by
    unfold CollectCashService.apply OrderRepository.appendTransitionEvent
    repeat refine Within.bind (by grind) fun _ => ?_
    grind
  unfold CollectCashService.collect
  repeat refine Within.bind (by grind) fun _ => ?_
  split
  · grind
  · repeat refine Within.bind (by grind) fun _ => ?_
    refine Within.ite ?_ ?_
    · repeat refine Within.bind (by grind) fun _ => ?_
      grind
    · split <;> grind

theorem writes_refund (actor : Actor) (orderId : Id) (key : String) (request : RefundCashRequest)
    (recordId : Id) (h : .idempotency ∈ S) :
    Within (Writes S) (RefundCashService.refund actor orderId key request recordId draw) := by
  simp only [operationTables, List.cons_subset] at hops
  obtain ⟨horders, hmovements, hredemptions, hevents, haudit, hout, -⟩ := hops
  have happly (order : Order) (recordId : Id) :
      Within (Writes S) (RefundCashService.apply order recordId request draw) := by
    unfold RefundCashService.apply OrderRepository.appendTransitionEvent
    repeat refine Within.bind (by grind) fun _ => ?_
    grind
  unfold RefundCashService.refund
  repeat refine Within.bind (by grind) fun _ => ?_
  split
  · grind
  · repeat refine Within.bind (by grind) fun _ => ?_
    refine Within.ite ?_ ?_
    · repeat refine Within.bind (by grind) fun _ => ?_
      grind
    · split <;> grind

theorem writes_cancelUnpaid (orderId : Id) (pin : String) :
    Within (Writes S) (CancelUnpaidOrderService.cancel orderId pin draw) := by
  simp only [operationTables, List.cons_subset] at hops
  obtain ⟨horders, hmovements, hredemptions, hevents, haudit, hout, -⟩ := hops
  unfold CancelUnpaidOrderService.cancel
  grind

theorem writes_expire (orderId : Id) : Within (Writes S) (ExpireUnpaidOrdersJob.run orderId draw) := by
  simp only [operationTables, List.cons_subset] at hops
  obtain ⟨horders, hmovements, hredemptions, hevents, haudit, hout, -⟩ := hops
  unfold ExpireUnpaidOrdersJob.run
  grind

end Operation

/-! ## Requests -/

theorem writes_run (action : Action) : Within (Writes action.tables) (action.run draw) := by
  cases action with
  | configure c =>
    refine writes_effect (Within.write fun db t ht => ?_)
    cases t <;> first | rfl | exact absurd (by simp) ht
  | createDiscount d =>
    refine writes_effect (Within.bind (Within.throwIf _ _) fun _ => Within.bind (Within.current _) fun _ =>
      Within.bind (Within.throwIf _ _) fun _ => Within.bind (Within.throwIf _ _) fun _ => ?_)
    exact writes_table .discounts (by simp) fun _ t => by cases t <;> simp [TableName.Same]
  | updateDiscount id input v =>
    refine writes_effect (Within.bind (Within.current _) fun _ => Within.bind (Within.throwIf _ _) fun _ => ?_)
    exact writes_table .discounts (by simp) fun _ t => by cases t <;> simp [TableName.Same]
  | deleteDiscount id =>
    refine writes_effect ?_
    exact writes_table .discounts (by simp) fun _ t => by cases t <;> simp [TableName.Same]
  | createCart tenant request key recordId cartId =>
    exact writes_effect (writes_CartService_create _ _ _ _ _ (by simp) (by simp))
  | getCart cartId => exact writes_effect (writes_getCart _ (by simp))
  | applyDiscount cartId code retry => exact writes_effect (writes_applyDiscount _ _ _ (by simp))
  | removeDiscount cartId => exact writes_effect (writes_removeDiscount _ (by simp))
  | createCashOrder tenant cartId request key recordId =>
    exact Within.bind (writes_createCashOrder _ _ _ _ _ (List.subset_cons_self _ _) (by simp))
      fun _ => Within.pure _
  | prepareSession tenant cartId request key recordId attemptId =>
    exact writes_effect (writes_beginSession (by simp)
      (writes_prepare _ _ _ _ _ _ (by simp) (by simp)))
  | attachSession i preference =>
    exact writes_effect (writes_endSession i (by simp) fun session =>
      writes_attach session preference (by simp) (by simp) (by simp))
  | giveUpSession i =>
    exact writes_effect (writes_endSession i (by simp) fun session => writes_fail _ (by simp))
  | kioskSession request key recordId cartId attemptId preference =>
    exact writes_effect (writes_kioskSession _ _ _ _ _ _ (by simp) (by simp) (by simp) (by simp))
  | kioskCancel attemptId key recordId =>
    exact writes_effect (writes_kioskCancel _ _ _ (by simp) (by simp))
  | webhook event payment eventId =>
    exact writes_effect (writes_webhook (List.subset_append_right _ _) (by simp) (by simp) _ _ _ (by simp)
      (by simp) (by simp) (by simp) (by simp))
  | reconcile attemptId lookup =>
    exact writes_effect (writes_reconcile (List.subset_append_right _ _) (by simp) (by simp) _ _ (by simp))
  | createDirect cartId customer notes key =>
    exact Within.bind (writes_createDirect (List.subset_append_right _ _) (by simp) (by simp) _ _ _ _ (by simp)
      (by simp) (by simp)) fun _ => Within.pure _
  | createDirectFromItems request key cartId =>
    exact Within.bind (writes_createDirectFromItems (List.subset_append_right _ _) (by simp) (by simp) _ _ _
      (by simp) (by simp) (by simp)) fun _ => Within.pure _
  | createPaid attemptId approvedAt =>
    exact Within.bind (writes_createPaid (List.subset_append_right _ _) (by simp) (by simp) _ _ (by simp)
      (by simp)) fun _ => Within.pure _
  | transition orderId expectedVersion request =>
    exact writes_effect (writes_transition (List.Subset.refl _) _ _ _)
  | collect actor orderId key request recordId =>
    exact writes_effect (writes_collect (List.subset_append_right _ _) _ _ _ _ _ (by simp) (by simp))
  | refund actor orderId key request recordId =>
    exact writes_effect (writes_refund (List.subset_cons_self _ _) _ _ _ _ _ (by simp))
  | cancelUnpaid orderId pin => exact writes_effect (writes_cancelUnpaid (List.Subset.refl _) _ _)
  | expire orderId => exact writes_effect (writes_expire (List.Subset.refl _) _)
  | openShift userId balance locationId shiftId =>
    refine writes_effect (Within.bind (Within.look _) fun _ => Within.bind (Within.throwIf _ _) fun _ =>
      Within.bind (Within.current _) fun _ => Within.bind (Within.throwIf _ _) fun _ =>
      Within.bind ?_ fun _ => Within.pure _)
    exact writes_table .shifts List.mem_cons_self fun _ t => by cases t <;> simp [TableName.Same]
  | closeShift shiftId balance =>
    refine writes_effect (Within.bind (Within.look _) fun _ => Within.bind (Within.orThrow _ _) fun _ =>
      Within.bind (Within.throwIf _ _) fun _ => Within.bind (Within.look _) fun _ =>
      Within.bind ?_ fun _ => Within.pure _)
    exact writes_table .shifts List.mem_cons_self fun _ t => by cases t <;> simp [TableName.Same]

end Footprints

/-- A committed request leaves every table outside its footprint as it was. -/
theorem exec_frame {q : Request} {v db db' : Db} {answer : Answer} (h : exec q v db = some (answer, db'))
    (t : TableName) (ht : t ∉ q.action.tables) : t.Same db db' :=
  writes_run q.action v db answer db' (exec_eq.1 h) t ht

end Komanda
