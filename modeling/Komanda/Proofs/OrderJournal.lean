import Komanda.Lib.Journal
import Komanda.Proofs.OrderVersions
import Komanda.Proofs.StockAccounts
import Komanda.Proofs.Tickets

/-!
# The log of an order is its history

Every service that writes `orders.fulfillment_status` appends an event in the same transaction, with the status it has
read and the status it writes. What it has read is the status it replaces, since the update is on the version that was
read; only the transition updates on a version that its client sends. So, unless a client foresees a version, the log
can be replayed: the events of an order form a chain from its creation to the status in its row, in every interleaving.
The numbers of the orders and of the events have no gaps.
-/

namespace Komanda
open Transaction ReadCommitted Runs Komanda.Core Table

/-! ## The law -/

def OrderEvent.entry (e : OrderEvent) : Journal.Entry Id FulfillmentStatus := ⟨e.orderId, e.fromStatus, e.toStatus⟩

def Db.journal (db : Db) : List (Journal.Entry Id FulfillmentStatus) := db.orderEvents.map OrderEvent.entry

/-- The events are the history of the orders. -/
structure OrderJournal (db : Db) : Prop where
  unique : UniqueOn Order.id db.orders
  sound : Journal.Sound db.journal
  current : ∀ o ∈ db.orders, Journal.state db.journal o.id = some o.fulfillmentStatus
  known : ∀ e ∈ db.orderEvents, ∃ o ∈ db.orders, o.id = e.orderId
  purchases : db.orders.map (·.purchaseNumber) = List.range' 1 db.purchaseNumber
  sequences : db.orderEvents.map (·.sequence) = List.range' 1 db.orderEventSequence

/-- The version that a transition is sent had been reached when its guards read the order. -/
def KnownVersion (q : Request) (v _db : Db) : Prop :=
  match q.action with
  | .transition orderId expectedVersion _ => ∀ o ∈ OrderRepository.findById orderId v, expectedVersion ≤ o.version
  | _ => True

instance (q : Request) (v db : Db) : Decidable (KnownVersion q v db) := by
  apply Action.casesOn (motive := fun a => Decidable (KnownVersion ⟨a, q.draw⟩ v db)) q.action
  all_goals intros; dsimp only [KnownVersion]; infer_instance

/-! ## What leaves the journal alone -/

/-- An order as the journal sees it. -/
def Order.stub (o : Order) : Id × FulfillmentStatus × Nat := (o.id, o.fulfillmentStatus, o.purchaseNumber)

/-- The orders with their numbers, and the events with theirs. -/
def Db.ledger (db : Db) : List (Id × FulfillmentStatus × Nat) × Nat × List OrderEvent × Nat :=
  (db.orders.map Order.stub, db.purchaseNumber, db.orderEvents, db.orderEventSequence)

/-- The tables beside the orders and their events. -/
def silentTables : List TableName :=
  [.carts, .discounts, .redemptions, .items, .attempts, .shifts, .movements, .routes, .webhookEvents, .financialRecords,
    .outbox, .audit, .printJobs, .billing, .idempotency, .sessions]

@[grind =] theorem mem_silentTables {t : TableName} :
    t ∈ silentTables ↔ t ≠ .tenant ∧ t ≠ .backOffice ∧ t ≠ .orders ∧ t ≠ .orderEvents := by
  cases t <;> decide

section Ledger
variable {α : Type} {v s s₁ s' : Db}

theorem ledger_of_writes {S : List TableName} (h : Writes S s s') (horders : .orders ∉ S) (hevents : .orderEvents ∉ S) :
    s'.ledger = s.ledger := by
  obtain ⟨ho, hn⟩ := Prod.mk.inj (h .orders horders)
  obtain ⟨he, hs⟩ := Prod.mk.inj (h .orderEvents hevents)
  rw [Db.ledger, Db.ledger, ho, hn, he, hs]

theorem ledger_of_silent {x : DbTx α} {a : α} (h : Within (Writes silentTables) x) (hx : Commits x v s a s') :
    s'.ledger = s.ledger := ledger_of_writes (h _ _ _ _ hx) (by decide) (by decide)

theorem OrderJournal.of_ledger (hi : OrderJournal s) (h : s'.ledger = s.ledger) : OrderJournal s' := by
  obtain ⟨hstubs, h⟩ := Prod.mk.inj h
  obtain ⟨hnumber, h⟩ := Prod.mk.inj h
  obtain ⟨hevents, hsequence⟩ := Prod.mk.inj h
  have hcolumn {β : Type} (g : Id × FulfillmentStatus × Nat → β) :
      (s'.orders.map fun o => g o.stub) = s.orders.map fun o => g o.stub := by
    rw [← Function.comp_def, ← List.map_map, hstubs, List.map_map]
  have hjournal : s'.journal = s.journal := by rw [Db.journal, hevents, Db.journal]
  have hrow : ∀ o' ∈ s'.orders, ∃ o ∈ s.orders, o.stub = o'.stub := by
    intro o' ho'
    have hmem : o'.stub ∈ s.orders.map Order.stub := hstubs ▸ List.mem_map_of_mem ho'
    exact List.mem_map.1 hmem
  have hrow' : ∀ o ∈ s.orders, ∃ o' ∈ s'.orders, o'.stub = o.stub := by
    intro o ho
    have hmem : o.stub ∈ s'.orders.map Order.stub := hstubs ▸ List.mem_map_of_mem ho
    exact List.mem_map.1 hmem
  constructor
  · exact (congrArg List.Nodup (hcolumn fun p => p.1)).mpr hi.unique
  · rw [hjournal]
    exact hi.sound
  · intro o' ho'
    obtain ⟨o, ho, hstub⟩ := hrow o' ho'
    obtain ⟨hid, hrest⟩ := Prod.mk.inj hstub
    rw [hjournal, ← hid, hi.current o ho, (Prod.mk.inj hrest).1]
  · rw [hevents]
    intro e he
    obtain ⟨o, ho, hid⟩ := hi.known e he
    obtain ⟨o', ho', hstub⟩ := hrow' o ho
    exact ⟨o', ho', (congrArg Prod.fst hstub).trans hid⟩
  · rw [hnumber, ← hi.purchases]
    exact hcolumn fun p => p.2.2
  · rw [hevents, hi.sequences, hsequence]

end Ledger

/-! ## Entries -/

/-- The events of `s'` are those of `s` and one more, with its number. -/
def Appends (entry : Journal.Entry Id FulfillmentStatus) (s s' : Db) : Prop :=
  ∃ e : OrderEvent, e.entry = entry ∧ s'.orderEvents = s.orderEvents ++ [e] ∧ e.sequence = s.orderEventSequence + 1 ∧
    s'.orderEventSequence = s.orderEventSequence + 1

section Appends
variable {v s s₁ s₂ s' : Db} {entry : Journal.Entry Id FulfillmentStatus}

theorem appendEvent_appends {orderId : Id} {eventType : String} {source target : Option FulfillmentStatus}
    {metadata : Payload} {u : Unit}
    (h : Commits (OrderRepository.appendEvent orderId eventType source target metadata) v s u s') :
    Appends ⟨orderId, source, target⟩ s s' := by
  rw [OrderRepository.appendEvent, commits_write] at h
  subst h
  exact ⟨_, rfl, rfl, rfl, rfl⟩

/-- The statements before and after write no event. -/
theorem Appends.frame {S T : List TableName} (h : Appends entry s₁ s₂) (hpre : Writes S s s₁)
    (hS : .orderEvents ∉ S) (hpost : Writes T s₂ s') (hT : .orderEvents ∉ T) : Appends entry s s' := by
  obtain ⟨e, hentry, hevents, hnumber, hsequence⟩ := h
  obtain ⟨hevents₁, hsequence₁⟩ := Prod.mk.inj (hpre .orderEvents hS)
  obtain ⟨hevents₂, hsequence₂⟩ := Prod.mk.inj (hpost .orderEvents hT)
  refine ⟨e, hentry, ?_, ?_, ?_⟩
  · rw [hevents₂, hevents, hevents₁]
  · rw [hnumber, hsequence₁]
  · rw [hsequence₂, hsequence, hsequence₁]

theorem Appends.journal (h : Appends entry s s') : s'.journal = s.journal ++ [entry] := by
  obtain ⟨e, rfl, hevents, -⟩ := h
  rw [Db.journal, hevents, List.map_append, List.map_singleton, Db.journal]

theorem Appends.known {orders : List Order} (h : Appends entry s s')
    (hknown : ∀ e ∈ s.orderEvents, ∃ o ∈ orders, o.id = e.orderId) (hentry : ∃ o ∈ orders, o.id = entry.key) :
    ∀ e ∈ s'.orderEvents, ∃ o ∈ orders, o.id = e.orderId := by
  obtain ⟨e, rfl, hevents, -⟩ := h
  rw [hevents]
  exact List.forall_mem_append.2 ⟨hknown, List.forall_mem_singleton.2 hentry⟩

theorem Appends.sequences (h : Appends entry s s')
    (hs : s.orderEvents.map (·.sequence) = List.range' 1 s.orderEventSequence) :
    s'.orderEvents.map (·.sequence) = List.range' 1 s'.orderEventSequence := by
  obtain ⟨e, -, hevents, hsequence, hcounter⟩ := h
  rw [hevents, List.map_append, hs, List.map_singleton, hsequence, hcounter, List.range'_1_concat, Nat.add_comm]

end Appends

section Entries
variable {s s' : Db}

theorem OrderJournal.fresh (tenantId : Id) (settings : Settings) : OrderJournal (Db.fresh tenantId settings) where
  unique := .nil
  sound := .nil
  current _ h := absurd h List.not_mem_nil
  known _ h := absurd h List.not_mem_nil
  purchases := rfl
  sequences := rfl

/-- An order comes into being. -/
theorem OrderJournal.create (hi : OrderJournal s) {order : Order} (hnew : ∀ o ∈ s.orders, o.id ≠ order.id)
    (hnumber : order.purchaseNumber = s.purchaseNumber + 1) (horders : s'.orders = s.orders ++ [order])
    (hcounter : s'.purchaseNumber = s.purchaseNumber + 1)
    (hevent : Appends ⟨order.id, none, some order.fulfillmentStatus⟩ s s') : OrderJournal s' := by
  have hnone : Journal.state s.journal order.id = none := by
    refine Journal.state_eq_none fun x hx hid => ?_
    obtain ⟨event, hevent, rfl⟩ := List.mem_map.1 hx
    obtain ⟨o, ho, hoid⟩ := hi.known event hevent
    exact hnew o ho (hoid.trans hid)
  constructor
  case unique =>
    rw [horders]
    exact hi.unique.append hnew
  case sound =>
    rw [hevent.journal, Journal.sound_concat]
    exact ⟨hi.sound, hnone.symm⟩
  case current =>
    rw [horders, hevent.journal]
    intro o ho
    rcases List.mem_append.1 ho with ho | ho
    · rw [Journal.state_concat_of_ne (hnew o ho).symm, hi.current o ho]
    · rw [List.mem_singleton.1 ho]
      exact Journal.state_concat_self
  case known =>
    rw [horders]
    refine hevent.known (fun x hx => ?_) ⟨order, List.mem_append_right _ (List.mem_singleton_self _), rfl⟩
    obtain ⟨o, ho, hid⟩ := hi.known x hx
    exact ⟨o, List.mem_append_left _ ho, hid⟩
  case purchases =>
    rw [horders, List.map_append, hi.purchases, List.map_singleton, hnumber, hcounter, List.range'_1_concat,
      Nat.add_comm]
  case sequences => exact hevent.sequences hi.sequences

/-- A row that an event is about moves to the status the event names. -/
theorem OrderJournal.move (hi : OrderJournal s) {row : Order} {p : Order → Bool} {f : Order → Order} {now : Instant}
    (hrow : row ∈ s.orders) (hp : ∀ o ∈ s.orders, p o = true ↔ o = row)
    (hfacts : ∀ o, (bump f now o).facts = o.facts) (horders : s'.orders = updateWhere p (bump f now) s.orders)
    (hcounter : s'.purchaseNumber = s.purchaseNumber)
    (hevent : Appends ⟨row.id, some row.fulfillmentStatus, some (f row).fulfillmentStatus⟩ s s') : OrderJournal s' := by
  have hid (o : Order) : (bump f now o).id = o.id := Order.column Order.id (hfacts o)
  have hkept : ∀ o ∈ s.orders, ∃ o' ∈ updateWhere p (bump f now) s.orders, o'.id = o.id := by
    intro o ho
    refine ⟨_, mem_updateWhere.2 ⟨o, ho, rfl⟩, ?_⟩
    split
    · exact hid o
    · rfl
  constructor
  case unique =>
    rw [horders]
    exact hi.unique.updateWhere fun o _ => hid o
  case sound =>
    rw [hevent.journal, Journal.sound_concat]
    exact ⟨hi.sound, (hi.current row hrow).symm⟩
  case current =>
    rw [horders, hevent.journal]
    intro o' ho'
    rcases mem_updateWhere_cases ho' with ⟨ho, hpo⟩ | ⟨o, ho, hpo, rfl⟩
    · have hne : row.id ≠ o'.id := by
        intro hsame
        rw [(hp o' ho).2 (hi.unique.eq ho hrow hsame.symm)] at hpo
        cases hpo
      rw [Journal.state_concat_of_ne hne, hi.current o' ho]
    · rw [(hp o ho).1 hpo, hid]
      exact Journal.state_concat_self
  case known =>
    rw [horders]
    refine hevent.known (fun x hx => ?_) (hkept row hrow)
    obtain ⟨o, ho, hox⟩ := hi.known x hx
    obtain ⟨o', ho', hoid⟩ := hkept o ho
    exact ⟨o', ho', hoid.trans hox⟩
  case purchases =>
    rw [horders, hcounter, ← hi.purchases]
    exact map_updateWhere fun o _ => Order.column Order.purchaseNumber (hfacts o)
  case sequences => exact hevent.sequences hi.sequences

end Entries

/-! ## Creating orders -/

/-- The history stays one. -/
def KeepsJournal (s s' : Db) : Prop := OrderJournal s → OrderJournal s'

instance : Std.Refl KeepsJournal := ⟨fun _ h => h⟩

instance : Trans KeepsJournal KeepsJournal KeepsJournal := ⟨fun h h' hi => h' (h hi)⟩

section Creation
variable {α : Type} {draw : Draw} {now : Instant}

@[grind ←] theorem journal_of_silent {x : DbTx α} (h : Within (Writes silentTables) x) : Within KeepsJournal x :=
  fun _ _ _ _ hx hi => hi.of_ledger (ledger_of_silent h hx)

/-- The last statement of an insertion is its event. -/
theorem insertSnapshot_appends {input : SnapshotInput} {v s s' : Db} {order : Order}
    (h : Commits (OrderRepository.insertSnapshot input draw) v s order s') :
    Appends ⟨order.id, none, some .approved⟩ s s' := by
  unfold OrderRepository.insertSnapshot at h
  obtain ⟨number, s₁, hnumber, h⟩ := commits_bind.1 h
  rw [commits_current_bind] at h
  obtain ⟨_, s₂, hinsert, h⟩ := commits_bind.1 h
  obtain ⟨_, s₃, hdeduct, h⟩ := commits_bind.1 h
  obtain ⟨_, s₄, hconvert, h⟩ := commits_bind.1 h
  obtain ⟨_, s₅, hredeem, h⟩ := commits_bind.1 h
  obtain ⟨_, s₆, hevent, h⟩ := commits_bind.1 h
  obtain ⟨rfl, rfl⟩ := commits_pure.1 h
  let S : List TableName := [.orders, .items, .carts, .discounts, .redemptions]
  have h₁ : Writes S s s₁ := writes_nextPurchaseNumber (by decide) _ _ _ _ hnumber
  have h₂ : Writes S s₁ s₂ := writes_insert _ (by decide) _ _ _ _ hinsert
  have h₃ : Writes S s₂ s₃ := Within.each (fun line => writes_stock line (by decide)) _ _ _ _ _ hdeduct
  have h₄ : Writes S s₃ s₄ := writes_convertCart _ (by decide) _ _ _ _ hconvert
  have h₅ : Writes S s₄ s₅ := writes_redeemCoupon _ _ (by decide) (by decide) _ _ _ _ hredeem
  exact (appendEvent_appends hevent).frame (h₁.trans (h₂.trans (h₃.trans (h₄.trans h₅)))) (by decide)
    (Std.Refl.refl (r := Writes S) s₆) (by decide)

theorem journal_insertSnapshot (input : SnapshotInput) :
    Within KeepsJournal (OrderRepository.insertSnapshot input draw) := by
  intro v s order s' h hi
  obtain ⟨⟨k, active, rfl⟩, hnew, -⟩ := insertSnapshot_core h
  obtain ⟨hnumber, hcounter, horders, -⟩ := Accounts.insertSnapshot_cases h
  refine hi.create (fun o ho => ?_) hnumber horders hcounter (insertSnapshot_appends h)
  have hfree := hnew o ho
  simp only [OrderRepository.conflicts, Bool.or_eq_false_iff, decide_eq_false_iff_not] at hfree
  exact hfree.1.1

@[grind ←] theorem journal_snapshotWith {readCart : DbTx (Option Cart)} (input : SnapshotInput)
    (hread : Within KeepsJournal readCart) :
    Within KeepsJournal (OrderRepository.createFromCartSnapshotWith readCart input draw) := by
  have hinsert : Within KeepsJournal (OrderRepository.insertSnapshot input draw) := journal_insertSnapshot input
  unfold OrderRepository.createFromCartSnapshotWith
  grind

@[grind ←] theorem journal_snapshot (input : SnapshotInput) :
    Within KeepsJournal (OrderRepository.createFromCartSnapshot input draw) :=
  journal_snapshotWith input (Within.look _)

/-- The payment of an order is no event of it. -/
@[grind ←] theorem journal_updatePaymentStatus (id : Id) (status : PaymentStatus) :
    Within KeepsJournal (OrderRepository.updatePaymentStatus id status now) := by
  refine Within.bind (Within.current _) fun _ => Within.bind (Within.write fun s hi => ?_) fun _ => Within.pure _
  refine hi.of_ledger (congrArg (·, _) ?_)
  exact map_updateWhere fun _ _ => rfl

/-! A long body is taken bind by bind: a statement is silent, or it creates an order. -/

theorem journal_createCashOrder (tenant : PublicTenant) (cartId : Id) (request : CheckoutRequest) (key : String)
    (recordId : Id) :
    Within KeepsJournal (CreateCashOrderService.create tenant cartId request key recordId draw) := by
  unfold CreateCashOrderService.create CreateCashOrderService.convert
  repeat refine Within.bind (by grind) fun _ => ?_
  split
  · grind
  · repeat refine Within.bind (by grind) fun _ => ?_
    grind

theorem journal_createDirect (cartId : Id) (customer : Customer) (notes : Option String) (key : String) :
    Within KeepsJournal (CreateOrderService.createDirect cartId customer notes key draw) := by
  unfold CreateOrderService.createDirect CreateOrderService.deposit CreateOrderService.announceDirect
  repeat refine Within.bind (by grind) fun _ => ?_
  grind

theorem journal_createDirectFromItems (request : CreateOrderService.DirectItemsRequest) (key : String) (cartId : Id) :
    Within KeepsJournal (CreateOrderService.createDirectFromItems request key cartId draw) := by
  unfold CreateOrderService.createDirectFromItems CreateOrderService.deposit CreateOrderService.announceDirect
  repeat refine Within.bind (by grind) fun _ => ?_
  refine Within.bind (Within.runIf ?_) fun _ => Within.pure _
  repeat refine Within.bind (by grind) fun _ => ?_
  grind

theorem journal_createPaid (attemptId : Id) (approvedAt : Option Instant) :
    Within KeepsJournal (CreateOrderService.createPaidFromPaymentAttempt attemptId approvedAt draw) := by
  unfold CreateOrderService.createPaidFromPaymentAttempt
  repeat refine Within.bind (by grind) fun _ => ?_
  grind

theorem journal_webhook (event : ReceivedMercadoPagoWebhook) (payment : MercadoPagoPayment) (eventId : Id) :
    Within KeepsJournal (Webhook.receive event payment eventId draw) := by
  have horder (a : PaymentAttempt) : Within KeepsJournal (Webhook.orderOfApproved a event draw) := by
    unfold Webhook.orderOfApproved
    refine Within.bind (Within.look _) fun _ => ?_
    split
    · repeat refine Within.bind (by grind) fun _ => ?_
      grind
    · grind
  have hrecord (attempt : PaymentAttempt) : Within KeepsJournal (Webhook.record attempt event payment draw) := by
    unfold Webhook.record
    repeat refine Within.bind (by grind) fun _ => ?_
    grind
  unfold Webhook.receive
  repeat refine Within.bind (by grind) fun _ => ?_
  grind

theorem journal_reconcile (attemptId : Id) (lookup : Option MercadoPagoPayment) :
    Within KeepsJournal (Reconciliation.reconcilePaymentAttempt attemptId lookup draw) := by
  have hcreate (attempt : PaymentAttempt) (approvedAt : Instant) :
      Within KeepsJournal (Reconciliation.createOrder attempt approvedAt draw) := by
    unfold Reconciliation.createOrder
    refine Within.bind (Within.look _) fun _ => ?_
    split
    · grind
    · repeat refine Within.bind (by grind) fun _ => ?_
      grind
  have hconfirm (attempt : PaymentAttempt) (order : Option Order) (approvedAt : Instant) :
      Within KeepsJournal (Reconciliation.confirm attempt order approvedAt draw) := by
    unfold Reconciliation.confirm
    refine Within.bind (by grind) fun _ => ?_
    split
    · exact hcreate _ _
    · refine Within.bind (Within.runIf ?_) fun _ => Within.pure _
      exact Within.bind (journal_updatePaymentStatus _ _) fun _ => by grind
  have hrefuse (attempt : PaymentAttempt) (order : Option Order) :
      Within KeepsJournal (Reconciliation.refuse attempt order draw) := by
    unfold Reconciliation.refuse
    grind
  unfold Reconciliation.reconcilePaymentAttempt
  repeat refine Within.bind (by grind) fun _ => ?_
  refine Within.ite (by grind) (Within.ite (by grind) ?_)
  repeat refine Within.bind (by grind) fun _ => ?_
  split
  · grind
  · exact Within.bind (Within.look _) fun _ => Within.ite (by grind) (Within.ite (by grind) (by grind))

end Creation

/-! ## Operations on orders -/

/-- A request moves the order its guards have read, on its version or on one that a client sends. -/
structure MovesOrder (q : Request) (v s s' : Db) (order : Order) (version : Nat) (f : Order → Order) : Prop where
  read : OrderRepository.findById order.id v = some order
  sent : version = order.version ∨ ∃ request, q.action = .transition order.id version request
  facts : ∀ o, (bump f q.draw.now o).facts = o.facts
  matched : ∃ row ∈ s.orders, OrderRepository.atVersion order.id version row = true
  orders : s'.orders = updateWhere (OrderRepository.atVersion order.id version) (bump f q.draw.now) s.orders
  counter : s'.purchaseNumber = s.purchaseNumber
  appends : Appends ⟨order.id, some order.fulfillmentStatus, some (f order).fulfillmentStatus⟩ s s'

section Operations
variable {q : Request} {v s s₁ s₂ s₃ s' : Db} {order : Order} {version : Nat} {f : Order → Order} {u : Unit}

/-- An operation whose update has matched a row, and that appends its event after other writes. -/
theorem MovesOrder.of_body {S T : List TableName} {returned : Option Order} {updated : Order}
    {target : FulfillmentStatus}
    {reason : Option String}
    (hread : OrderRepository.findById order.id v = some order)
    (hsent : version = order.version ∨ ∃ request, q.action = .transition order.id version request)
    (hup : Commits (OrderRepository.updateReturning (OrderRepository.atVersion order.id version) f q.draw.now) v s
      returned s₁) (hreturned : returned = some updated)
    (hfacts : ∀ o, (bump f q.draw.now o).facts = o.facts) (htarget : target = (f order).fulfillmentStatus)
    (hpre : Writes S s₁ s₂) (hS : .orders ∉ S ∧ .orderEvents ∉ S)
    (hevent : Commits (OrderRepository.appendTransitionEvent order.id order.fulfillmentStatus target reason) v s₂ u s₃)
    (hpost : Writes T s₃ s') (hT : .orders ∉ T ∧ .orderEvents ∉ T) : MovesOrder q v s s' order version f := by
  have hupdates : Writes [.orders] s s₁ := writes_updateReturning _ _ (by decide) _ _ _ _ hup
  have hevents : Writes [.orderEvents] s₂ s₃ := writes_event _ _ _ _ _ (by decide) _ _ _ _ hevent
  obtain ⟨⟨row, hrow, -⟩, -⟩ := updated_core hup hreturned
  simp only [OrderRepository.updateReturning, commits_bind, commits_current, commits_write, commits_pure] at hup
  obtain ⟨_, _, ⟨rfl, rfl⟩, _, _, rfl, -, rfl⟩ := hup
  obtain ⟨horders₁, hcounter₁⟩ := Prod.mk.inj (hpre .orders hS.1)
  obtain ⟨horders₂, hcounter₂⟩ := Prod.mk.inj (hevents .orders (by decide))
  obtain ⟨horders₃, hcounter₃⟩ := Prod.mk.inj (hpost .orders hT.1)
  have happends := (appendEvent_appends hevent).frame hpre hS.2 hpost hT.2
  obtain ⟨e, hentry, hlog, hnumber, hsequence⟩ := happends
  refine ⟨hread, hsent, hfacts, ⟨row, List.mem_of_find?_eq_some hrow, List.find?_some hrow⟩, ?_, ?_,
    e, ?_, hlog, hnumber, hsequence⟩
  · rw [horders₃, horders₂, horders₁]
    rfl
  · rw [hcounter₃, hcounter₂, hcounter₁]
  · rw [hentry, htarget]

theorem MovesOrder.journal (h : MovesOrder q v s s' order version f) (hi : OrderJournal s) (hv : SeesVersions v s)
    (hc : KnownVersion q v s) : OrderJournal s' := by
  obtain ⟨row, hrow, hat⟩ := h.matched
  simp only [OrderRepository.atVersion, Bool.and_eq_true, decide_eq_true_eq] at hat
  have hmem : order ∈ v.orders := lookup_mem h.read
  have hknown : version ≤ order.version := by
    rcases h.sent with hown | ⟨request, hq⟩
    · exact Nat.le_of_eq hown
    · unfold KnownVersion at hc
      rw [hq] at hc
      exact hc order h.read
  have hsame : order = row := by
    obtain ⟨o, ho, hid, hle, heq⟩ := hv.orders order hmem
    have hor : o = row := hi.unique.eq ho hrow (hid.trans hat.1.symm)
    subst hor
    exact heq (Nat.le_antisymm hle (hat.2 ▸ hknown))
  subst hsame
  refine hi.move hrow (fun o ho => ?_) h.facts h.orders h.counter h.appends
  rw [OrderRepository.atVersion, Bool.and_eq_true, decide_eq_true_eq, decide_eq_true_eq]
  constructor
  · exact fun ho' => hi.unique.eq ho hrow ho'.1
  · rintro rfl
    exact hat

theorem journal_transition {orderId : Id} {expectedVersion : Nat} {request : TransitionOrderService.Request}
    {answer : Order} (hq : q.action = .transition orderId expectedVersion request) (hi : OrderJournal s)
    (hv : SeesVersions v s) (hc : KnownVersion q v s)
    (h : Commits (TransitionOrderService.transition orderId expectedVersion request q.draw) v s answer s') :
    OrderJournal s' := by
  unfold TransitionOrderService.transition at h
  rw [commits_look_bind, commits_orThrow_bind] at h
  obtain ⟨order, hread, h⟩ := h
  obtain rfl : order.id = orderId := lookup_key hread
  split at h
  · exact absurd h (commits_throw.1 · |>.elim)
  rcases commits_ite.1 h with ⟨-, h⟩ | ⟨-, h⟩
  · rw [← (commits_pure.1 h).2]
    exact hi
  unfold TransitionOrderService.apply at h
  obtain ⟨returned, s₁, hup, h⟩ := commits_bind.1 h
  rw [OrderRepository.transition] at hup
  obtain ⟨updated, s₂, hstale, h⟩ := commits_bind.1 h
  obtain ⟨hreturned, rfl⟩ := orStale_core hstale
  obtain ⟨_, s₃, hcash, h⟩ := commits_bind.1 h
  obtain ⟨_, s₄, hcoupon, h⟩ := commits_bind.1 h
  obtain ⟨_, s₅, hevent, hrest⟩ := commits_bind.1 h
  have hcash : Writes silentTables s₁ s₃ := (show Within (Writes silentTables) _ by grind) _ _ _ _ hcash
  have hcoupon : Writes silentTables s₃ s₄ := (show Within (Writes silentTables) _ by grind) _ _ _ _ hcoupon
  have hrest : Writes silentTables s₅ s' := by
    have hnotify (order : Order) (next : FulfillmentStatus) :
        Within (Writes silentTables) (TransitionOrderService.notifyReady order next) := by
      unfold TransitionOrderService.notifyReady
      grind
    exact (show Within (Writes silentTables) _ by grind) _ _ _ _ hrest
  have hmoves := MovesOrder.of_body hread (.inr ⟨request, hq⟩) hup hreturned (fun _ => rfl) rfl
    (hcash.trans hcoupon) (by decide) hevent hrest (by decide)
  exact hmoves.journal hi hv hc

theorem SeesVersions.of_orders (hv : SeesVersions v s) (h : s'.orders = s.orders) : SeesVersions v s' :=
  ⟨hv.ids, fun r hr => h ▸ hv.orders r hr⟩

/-- A claim comes before the order is read, and leaves the journal alone. -/
theorem claim_frame {scope key : String} {request : IdemRequest} {retention : Option Nat} {recordId : Id}
    {claim : Idempotency.Answer IdemRequest IdemResponse}
    (hi : OrderJournal s) (hv : SeesVersions v s)
    (h : Commits (IdempotencyService.claim scope key request retention recordId q.draw.now) v s claim s') :
    OrderJournal s' ∧ SeesVersions v s' := by
  have hwrites : Writes silentTables s s' := writes_claim _ _ _ _ _ (by decide) _ _ _ _ h
  exact ⟨hi.of_ledger (ledger_of_writes hwrites (by decide) (by decide)), hv.of_orders (hwrites.orders (by decide))⟩

theorem journal_collect {actor : Actor} {orderId : Id} {key : String} {request : CollectCashRequest} {recordId : Id}
    {response : CollectCashResponse} (hi : OrderJournal s) (hv : SeesVersions v s) (hc : KnownVersion q v s)
    (h : Commits (CollectCashService.collect actor orderId key request recordId q.draw) v s response s') :
    OrderJournal s' := by
  unfold CollectCashService.collect at h
  obtain ⟨-, h⟩ := commits_throwIf_bind.1 h
  obtain ⟨claim, s₀, hclaim, hbody⟩ := commits_bind.1 h
  obtain ⟨hi, hv⟩ := claim_frame hi hv hclaim
  split at hbody
  · split at hbody
    · rw [← (commits_pure.1 hbody).2]
      exact hi
    · exact absurd hbody (commits_throw.1 · |>.elim)
  rw [commits_look_bind, commits_orThrow_bind] at hbody
  obtain ⟨order, hread, hcase⟩ := hbody
  obtain rfl : order.id = orderId := lookup_key hread
  rcases commits_ite.1 hcase with ⟨-, hcase⟩ | ⟨-, hcase⟩
  · exact hi.of_ledger (ledger_of_silent (by grind) hcase)
  split at hcase
  · exact absurd hcase (commits_throw.1 · |>.elim)
  · exact absurd hcase (commits_throw.1 · |>.elim)
  rw [CollectCashService.apply, commits_look_bind] at hcase
  obtain ⟨returned, s₁, hup, hcase⟩ := commits_bind.1 hcase
  obtain ⟨updated, s₂, hstale, hcase⟩ := commits_bind.1 hcase
  obtain ⟨hreturned, rfl⟩ := orStale_core hstale
  obtain ⟨_, s₃, hbook, hcase⟩ := commits_bind.1 hcase
  obtain ⟨_, s₄, hticket, hcase⟩ := commits_bind.1 hcase
  obtain ⟨_, s₅, hevent, hrest⟩ := commits_bind.1 hcase
  have hbook : Writes silentTables s₁ s₃ := writes_movement _ _ (by decide) _ _ _ _ hbook
  have hticket : Writes silentTables s₃ s₄ := writes_ticket _ (by decide) _ _ _ _ hticket
  have hrest : Writes silentTables s₅ s' := (show Within (Writes silentTables) _ by grind) _ _ _ _ hrest
  have hmoves := MovesOrder.of_body hread (.inl rfl) hup hreturned (fun _ => rfl) rfl (hbook.trans hticket) (by decide)
    hevent hrest (by decide)
  exact hmoves.journal hi hv hc

theorem journal_refund {actor : Actor} {orderId : Id} {key : String} {request : RefundCashRequest} {recordId : Id}
    {response : RefundCashResponse} (hi : OrderJournal s) (hv : SeesVersions v s) (hc : KnownVersion q v s)
    (h : Commits (RefundCashService.refund actor orderId key request recordId q.draw) v s response s') :
    OrderJournal s' := by
  unfold RefundCashService.refund at h
  obtain ⟨-, h⟩ := commits_throwIf_bind.1 h
  obtain ⟨claim, s₀, hclaim, hbody⟩ := commits_bind.1 h
  obtain ⟨hi, hv⟩ := claim_frame hi hv hclaim
  split at hbody
  · split at hbody
    · rw [← (commits_pure.1 hbody).2]
      exact hi
    · exact absurd hbody (commits_throw.1 · |>.elim)
  rw [commits_look_bind, commits_orThrow_bind] at hbody
  obtain ⟨order, hread, hcase⟩ := hbody
  obtain rfl : order.id = orderId := lookup_key hread
  rcases commits_ite.1 hcase with ⟨-, hcase⟩ | ⟨-, hcase⟩
  · exact hi.of_ledger (ledger_of_silent (by grind) hcase)
  split at hcase
  · exact absurd hcase (commits_throw.1 · |>.elim)
  rw [RefundCashService.apply, commits_look_bind] at hcase
  obtain ⟨returned, s₁, hup, hcase⟩ := commits_bind.1 hcase
  obtain ⟨updated, s₂, hstale, hcase⟩ := commits_bind.1 hcase
  obtain ⟨hreturned, rfl⟩ := orStale_core hstale
  obtain ⟨_, s₃, hbook, hcase⟩ := commits_bind.1 hcase
  obtain ⟨_, s₄, hcoupon, hcase⟩ := commits_bind.1 hcase
  obtain ⟨_, s₅, hevent, hrest⟩ := commits_bind.1 hcase
  have hbook : Writes silentTables s₁ s₃ := writes_movement _ _ (by decide) _ _ _ _ hbook
  have hcoupon : Writes silentTables s₃ s₄ := writes_releaseCoupon _ (by decide) _ _ _ _ hcoupon
  have hrest : Writes silentTables s₅ s' := (show Within (Writes silentTables) _ by grind) _ _ _ _ hrest
  have hmoves := MovesOrder.of_body hread (.inl rfl) hup hreturned (fun _ => rfl) rfl (hbook.trans hcoupon) (by decide)
    hevent hrest (by decide)
  exact hmoves.journal hi hv hc

/-- An order that is cancelled without a payment. -/
theorem MovesOrder.of_cancellation {returned : Option Order} {updated : Order} {reason : String}
    (hread : OrderRepository.findById order.id v = some order)
    (hup : Commits (OrderRepository.updateReturning (OrderRepository.atVersion order.id order.version) f q.draw.now) v s
      returned s₁) (hreturned : returned = some updated) (hfacts : ∀ o, (bump f q.draw.now o).facts = o.facts)
    (hcancelled : FulfillmentStatus.cancelled = (f order).fulfillmentStatus)
    (h : Commits (announceCancellation order updated reason) v s₁ u s') :
    MovesOrder q v s s' order order.version f := by
  unfold announceCancellation at h
  obtain ⟨_, s₂, hcoupon, h⟩ := commits_bind.1 h
  obtain ⟨_, s₃, hevent, hrest⟩ := commits_bind.1 h
  have hcoupon : Writes silentTables s₁ s₂ := writes_releaseCoupon _ (by decide) _ _ _ _ hcoupon
  have hrest : Writes silentTables s₃ s' := (show Within (Writes silentTables) _ by grind) _ _ _ _ hrest
  exact .of_body hread (.inl rfl) hup hreturned hfacts hcancelled hcoupon (by decide) hevent hrest (by decide)

theorem journal_cancelUnpaid {orderId : Id} {pickupPin : String} {answer : Order} (hi : OrderJournal s)
    (hv : SeesVersions v s) (hc : KnownVersion q v s)
    (h : Commits (CancelUnpaidOrderService.cancel orderId pickupPin q.draw) v s answer s') : OrderJournal s' := by
  unfold CancelUnpaidOrderService.cancel at h
  rw [commits_look_bind, commits_orThrow_bind] at h
  obtain ⟨order, hread, h⟩ := h
  obtain rfl : order.id = orderId := lookup_key hread
  rcases commits_ite.1 h with ⟨-, h⟩ | ⟨-, h⟩
  · rw [← (commits_pure.1 h).2]
    exact hi
  split at h
  · exact absurd h (commits_throw.1 · |>.elim)
  obtain ⟨returned, s₁, hup, h⟩ := commits_bind.1 h
  obtain ⟨updated, s₂, hstale, h⟩ := commits_bind.1 h
  obtain ⟨hreturned, rfl⟩ := orStale_core hstale
  obtain ⟨_, s₃, hannounce, h⟩ := commits_bind.1 h
  obtain ⟨-, rfl⟩ := commits_pure.1 h
  exact (MovesOrder.of_cancellation hread hup hreturned (fun _ => rfl) rfl hannounce).journal hi hv hc

theorem journal_expire {orderId : Id} (hi : OrderJournal s) (hv : SeesVersions v s) (hc : KnownVersion q v s)
    (h : Commits (ExpireUnpaidOrdersJob.run orderId q.draw) v s u s') : OrderJournal s' := by
  rw [ExpireUnpaidOrdersJob.run, commits_look_bind] at h
  rcases commits_forSome.1 h with ⟨order, hfound, hcase⟩ | ⟨-, rfl⟩
  · obtain ⟨hread, -⟩ := Option.filter_eq_some_iff.1 hfound
    obtain rfl : order.id = orderId := lookup_key hread
    obtain ⟨returned, s₁, hup, hcase⟩ := commits_bind.1 hcase
    rcases commits_forSome.1 hcase with ⟨updated, hreturned, hannounce⟩ | ⟨hreturned, rfl⟩
    · exact (MovesOrder.of_cancellation hread hup hreturned (fun _ => rfl) rfl hannounce).journal hi hv hc
    · -- no row has the version any more
      have hup' := hup
      obtain ⟨hrow, -⟩ := updateReturning_core hup
      simp only [OrderRepository.updateReturning, commits_bind, commits_current, commits_write, commits_pure] at hup'
      obtain ⟨_, _, ⟨-, rfl⟩, _, _, rfl, -, rfl⟩ := hup'
      have hnone : s.orders.find? (OrderRepository.atVersion order.id order.version) = none :=
        Option.map_eq_none_iff.1 (hrow.symm.trans hreturned)
      refine hi.of_ledger (congrArg (·, _) (congrArg (List.map Order.stub) ?_))
      exact updateWhere_eq_self fun o ho => Bool.eq_false_iff.2 (List.find?_eq_none.1 hnone o ho)
  · exact hi

end Operations

/-! ## Runs -/

section Runs
variable {q : Request} {v s s' : Db} {answer : Answer}

theorem exec_journal (hi : OrderJournal s) (hv : SeesVersions v s) (hc : KnownVersion q v s)
    (h : exec q v s = some (answer, s')) : OrderJournal s' := by
  have hrun : Commits (q.action.run q.draw) v s answer s' := exec_eq.1 h
  by_cases htables : .orders ∈ q.action.tables ∨ .orderEvents ∈ q.action.tables
  · cases hq : q.action with
    | createCashOrder =>
      rw [hq] at hrun
      exact Within.bind (journal_createCashOrder _ _ _ _ _) (fun _ => Within.pure _) _ _ _ _ hrun hi
    | createDirect =>
      rw [hq] at hrun
      exact Within.bind (journal_createDirect _ _ _ _) (fun _ => Within.pure _) _ _ _ _ hrun hi
    | createDirectFromItems =>
      rw [hq] at hrun
      exact Within.bind (journal_createDirectFromItems _ _ _) (fun _ => Within.pure _) _ _ _ _ hrun hi
    | createPaid =>
      rw [hq] at hrun
      exact Within.bind (journal_createPaid _ _) (fun _ => Within.pure _) _ _ _ _ hrun hi
    | webhook =>
      rw [hq] at hrun
      exact Within.bind (journal_webhook _ _ _) (fun _ => Within.pure _) _ _ _ _ hrun hi
    | reconcile =>
      rw [hq] at hrun
      exact Within.bind (journal_reconcile _ _) (fun _ => Within.pure _) _ _ _ _ hrun hi
    | transition => rw [hq] at hrun; obtain ⟨_, h⟩ := commits_effect hrun; exact journal_transition hq hi hv hc h
    | collect => rw [hq] at hrun; obtain ⟨_, h⟩ := commits_effect hrun; exact journal_collect hi hv hc h
    | refund => rw [hq] at hrun; obtain ⟨_, h⟩ := commits_effect hrun; exact journal_refund hi hv hc h
    | cancelUnpaid => rw [hq] at hrun; obtain ⟨_, h⟩ := commits_effect hrun; exact journal_cancelUnpaid hi hv hc h
    | expire => rw [hq] at hrun; obtain ⟨_, h⟩ := commits_effect hrun; exact journal_expire hi hv hc h
    | _ =>
      rw [hq] at htables
      simp at htables
  · obtain ⟨horders, hevents⟩ := not_or.1 htables
    exact hi.of_ledger (ledger_of_writes (exec_frame h) horders hevents)

theorem journal_rely :
    Rely exec Komanda.reread (fun db => OrderJournal db) SeesVersions KnownVersion where
  refl _ hi := .refl hi.unique
  reread part _ _ hi h := h.reread hi.unique part
  inv _ _ _ _ _ hi hv hc hx := exec_journal hi hv hc hx
  stable _ _ _ _ _ _ _ _ hx _ hw := hw.effect (exec_effect hx)

/-- In every interleaving, unless a transition is sent a version that its order had not reached, the events of the
orders are their history. -/
theorem order_journal {tenantId : Id} {settings : Settings} {es : List RcEvent} {s : RcState}
    (hr : Runs.exec rcStep (RcState.fresh tenantId settings) es = some s)
    (hC : Along rcStep (AtCommit KnownVersion) (RcState.fresh tenantId settings) es) : OrderJournal s.db :=
  (exec_inv journal_rely ⟨.fresh tenantId settings, fun _ h => absurd h List.not_mem_nil⟩ hC hr).db

end Runs

namespace Demo

/-- Two orders; one goes to the kitchen, with the version it has. -/
def kitchenRun : List RcEvent :=
  inTurn [setUp, fillCart "1" "cart", payInCash "2" "cart", collect 5 "3" "order-2"] ++
    [.start (prepare "4" 2), .commit 0]

end Demo

open Demo in
theorem order_journal_kitchen : ∃ s, Runs.exec rcStep (RcState.fresh "tenant" settings) kitchenRun = some s ∧
    s.db.orderEvents.map (·.toStatus) = [some .approved, some .approved, some .preparing] ∧ OrderJournal s.db := by
  have hread : (Runs.exec rcStep (RcState.fresh "tenant" settings) kitchenRun).map
      (·.db.orderEvents.map (·.toStatus)) = some [some .approved, some .approved, some .preparing] := by
    decide +kernel
  obtain ⟨s, hr, hevents⟩ := Option.map_eq_some_iff.1 hread
  exact ⟨s, hr, hevents, order_journal hr (by decide +kernel)⟩

end Komanda
