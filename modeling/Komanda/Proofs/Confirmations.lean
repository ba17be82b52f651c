import Komanda.Proofs.OwnOrders

/-!
# What the two confirmations of a payment leave

The webhook and the reconciliation confirm an approved payment with bodies of their own. The orders they make
agree column by column (`confirmed_content`). What follows the order does not: only the webhook writes the
financial record of the payment and queues the kitchen ticket, so after reconciliations alone an order stands
without either (`Unrecorded`).
-/

namespace Komanda
open Transaction Komanda.Core Table Runs

/-! ## Outcomes -/

/-- An order without what is generated for it, and without what the operations on it change. -/
def Order.content (o : Order) : Order :=
  { o.facts with
    id := "", purchaseNumber := 0, pickupPin := none, estimatedWaitMinutes := none,
    estimatedReadyAt := o.scheduledFor, approvedAt := none, createdAt := 0 }

/-- What a confirmation leaves of an order and its follow-ups, up to generated ids, numbers and timestamps. -/
structure Confirmed where
  content : Order
  paymentStatus : PaymentStatus
  redemptions : List DiscountRedemption
  financialRecords : List MpFinancialRecord
  events : List String
  outbox : List String
  printJobs : Nat
  documents : Nat
deriving DecidableEq, Repr

def confirmed (db : Db) (o : Order) : Confirmed where
  content := o.content
  paymentStatus := o.paymentStatus
  redemptions := (db.redemptions.filter (·.orderId = o.id)).map fun r => { r with orderId := "" }
  financialRecords := (db.financialRecords.filter (·.orderId = o.id)).map fun f =>
    { f with orderId := "", moneyReleasedAt := none, settlementDate := 0 }
  events := (db.orderEvents.filter (·.orderId = o.id)).map (·.eventType)
  outbox := (db.outbox.filter (·.aggregateId = o.id)).map (·.eventType)
  printJobs := (db.printJobs.filter (·.orderId = o.id)).length
  documents := (db.billing.filter (·.orderId = o.id)).length

/-- What has been confirmed of the attempt. -/
def outcome (attemptId : Id) (db : Db) : List Confirmed :=
  (db.orders.filter (·.paymentAttemptId = some attemptId)).map (confirmed db)

/-- In both databases the attempt has one order, with one financial record, and they agree on it. -/
def SameOutcome (attemptId : Id) (d d' : Db) : Prop :=
  ∃ c : Confirmed, outcome attemptId d = [c] ∧ outcome attemptId d' = [c] ∧ c.financialRecords.length = 1

/-- The reconciliation of the attempt, whatever the provider answers. -/
def Reconciling (attemptId : Id) (q : Request) : Prop := ∃ lookup, q.action = .reconcile attemptId lookup

/-! ## Financial records -/

section Records
variable {q : Request} {v s s' db db' : Db} {draw : Draw}

theorem orderOfApproved_target {updated : PaymentAttempt} {event : ReceivedMercadoPagoWebhook} {o : Order}
    (h : Commits (Webhook.orderOfApproved updated event draw) v s (some o) s') : o ∈ s'.orders ∨ o ∈ v.orders := by
  simp only [Webhook.orderOfApproved, commits_bind, commits_look] at h
  obtain ⟨found, _, ⟨-, rfl⟩, h⟩ := h
  split at h
  · simp only [commits_bind, commits_runIf, commits_pure] at h
    obtain ⟨⟨order, created⟩, s₁, hcreate, _, s₂, hrest, ho, rfl⟩ := h
    cases ho
    have horders : s₂.orders = s₁.orders := by
      rcases hrest with ⟨-, _, _, ha, _, _, ho, ht⟩ | ⟨-, rfl⟩
      · have hcore := ((keeps_enqueueOrderTicket _ _ _ _ _ _ ht).trans
          (keeps_appendOutboxEvent _ _ _ _ _ _ _ _ ho)).trans (keeps_appendAuditEvent _ _ _ _ _ _ _ _ ha)
        exact congrArg Core.orders hcore
      · rfl
    rcases createFromCartSnapshot_mem hcreate with hm | ⟨hm, -⟩
    · exact .inl (horders ▸ hm)
    · exact .inr hm
  · exact .inr (List.mem_of_find?_eq_some (commits_look.1 h).1)

/-- A webhook writes the record of its payment, for an order of its own or of its view. -/
theorem webhook_records {event : ReceivedMercadoPagoWebhook} {payment : MercadoPagoPayment} {eventId : Id}
    {result : Webhook.Outcome} (h : Commits (Webhook.receive event payment eventId draw) v s result s')
    {f : MpFinancialRecord} (hf : f ∈ s'.financialRecords) :
    f ∈ s.financialRecords ∨ ∃ attempt o, (o ∈ s'.orders ∨ o ∈ v.orders) ∧
      f = Webhook.financialRecord payment attempt o draw.now := by
  have hlow {α : Type} {x : DbTx α} {s s' : Db} {a : α} {S : List TableName} (hx : Within (Writes S) x)
      (h : Commits x v s a s') (hS : .financialRecords ∉ S) : s'.financialRecords = s.financialRecords :=
    hx v s a s' h .financialRecords hS
  simp only [Webhook.receive, commits_bind, commits_look, commits_orThrow, commits_throwIf] at h
  obtain ⟨_, _, ⟨-, rfl⟩, account, _, ⟨-, rfl⟩, _, _, ⟨-, rfl⟩, attemptId, _, ⟨-, rfl⟩, found, _, ⟨-, rfl⟩, isNew,
    s₁, hpersist, h⟩ := h
  have h₁ := hlow (writes_webhookEvent (S := [.webhookEvents]) _ _ _ (by simp)) hpersist (by simp)
  cases found with
  | none => rw [← (commits_pure.1 h).2, h₁] at hf; exact .inl hf
  | some attempt =>
    simp only [commits_bind, commits_runIf, commits_pure] at h
    obtain ⟨_, _, ⟨-, h⟩ | ⟨-, rfl⟩, -, rfl⟩ := h
    · simp only [Webhook.record, commits_bind, commits_current, commits_runIf, commits_forSome] at h
      obtain ⟨_, s₂, hroute, _, s₃, hupdate, updated, _, ⟨-, rfl⟩, _, s₄, hout, h⟩ := h
      have h₂ := hlow (writes_route (S := [.routes]) _ (by simp)) hroute (by simp)
      have h₃ := hlow (writes_updateAttempt (S := [.attempts]) _ _ (by simp)) hupdate (by simp)
      have h₄ := hlow (writes_outbox (S := [.outbox]) _ _ _ _ (by simp)) hout (by simp)
      have hs₄ : s₄.financialRecords = s.financialRecords := ((h₄.trans h₃).trans h₂).trans h₁
      obtain ⟨-, ⟨a, -, target, s₅, htarget, hfin⟩ | ⟨-, rfl⟩⟩ | ⟨-, rfl⟩ := h
      · let S : List TableName := [.outbox, .audit, .printJobs] ++ snapshotTables
        have h₅ := hlow (writes_orderOfApproved (S := S) (List.subset_append_right _ _) (by simp [S])
          (by simp [S]) a event (by simp [S])) htarget (by simp [S, snapshotTables])
        obtain ⟨o, rfl, hfin⟩ | ⟨-, rfl⟩ := hfin
        · rw [Webhook.upsertFinancialRecord, commits_write] at hfin
          subst hfin
          have ho := orderOfApproved_target htarget
          split at hf
          · rcases mem_updateWhere_cases hf with ⟨hf, -⟩ | ⟨_, -, -, rfl⟩
            · exact .inl (hs₄ ▸ h₅ ▸ hf)
            · refine .inr ⟨attempt, o, ?_, rfl⟩
              split <;> exact ho
          · rcases List.mem_append.1 hf with hf | hf
            · exact .inl (hs₄ ▸ h₅ ▸ hf)
            · rw [List.mem_singleton] at hf; subst hf
              refine .inr ⟨attempt, o, ?_, rfl⟩
              split <;> exact ho
        · exact .inl (hs₄ ▸ h₅ ▸ hf)
      · exact .inl (hs₄ ▸ hf)
      · exact .inl (hs₄ ▸ hf)
    · exact .inl (h₁ ▸ hf)

/-- Every financial record is of an order. -/
def RecordsKnown (db : Db) : Prop := ∀ f ∈ db.financialRecords, ∃ o ∈ db.orders, o.id = f.orderId

theorem RecordsKnown.step (hi : RecordsKnown db) (hs : step db q = some db') : RecordsKnown db' := by
  obtain ⟨answer, hx⟩ := step_eq.1 hs
  have heff := exec_effect hx
  have hkept (o : Order) (ho : o ∈ db.orders) : ∃ r ∈ db'.orders, r.id = o.id := by
    obtain ⟨r, hr, hf⟩ := heff.facts.exists_mem ho
    exact ⟨r, hr, Order.column Order.id hf⟩
  have hold (f : MpFinancialRecord) (hf : f ∈ db.financialRecords) : ∃ o ∈ db'.orders, o.id = f.orderId := by
    obtain ⟨o, ho, hid⟩ := hi f hf
    obtain ⟨r, hr, hrid⟩ := hkept o ho
    exact ⟨r, hr, hrid.trans hid⟩
  intro f hf
  by_cases hw : .financialRecords ∈ q.action.tables
  · cases hq : q.action with
    | webhook event payment eventId =>
      have hrun := exec_eq.1 hx
      rw [hq] at hrun
      obtain ⟨result, s, hreceive, hp⟩ := commits_bind.1 hrun
      obtain ⟨-, rfl⟩ := commits_pure.1 hp
      rcases webhook_records hreceive hf with hf | ⟨attempt, o, ho | ho, rfl⟩
      · exact hold f hf
      · exact ⟨o, ho, rfl⟩
      · exact hkept o ho
    | _ => simp [hq, snapshotTables, operationTables] at hw
  · have hsame : db'.financialRecords = db.financialRecords := exec_frame hx .financialRecords hw
    exact hold f (hsame ▸ hf)

end Records

/-! ## The orders agree -/

/-- The content of the order that a confirmation makes from the cart of the attempt. -/
def paidContent (cart : Cart) (attempt : PaymentAttempt) : Order :=
  (OrderRepository.newOrder (Webhook.paidSnapshot cart attempt 0)
    { now := 0, orderId := "", pickupPin := "", movementId := "", printJobId := "" } 0 0).content

section Content
variable {q : Request} {db d : Db} {answer : Komanda.Answer} {attemptId : Id} {o : Order}

/-- The order of a confirmed attempt, whichever of the two made it. -/
theorem confirmed_content (hkeyed : Keyed db.core) (hnone : ∀ o ∈ db.orders, o.paymentAttemptId ≠ some attemptId)
    (hq : (∃ event payment eventId, q.action = .webhook event payment eventId) ∨ ∃ id, Reconciling id q)
    (hx : exec q db db = some (answer, d)) (ho : o ∈ d.orders) (ha : o.paymentAttemptId = some attemptId) :
    ∃ attempt cart, lookup PaymentAttempt.id attemptId db.attempts = some attempt ∧
      lookup Cart.id attempt.cartId db.carts = some cart ∧ o.content = paidContent cart attempt ∧
      o.paymentStatus = .paid := by
  rcases (exec_effect hx).order_cases ho with ⟨r, hr, hf⟩ | ⟨input, n, active, cart, movement, rows, hsale, rfl, -⟩
  · exact absurd ((Order.column Order.paymentAttemptId hf).symm.trans ha) (hnone r hr)
  · have hconfirms {P : Prop} (hother : (∀ event payment eventId, q.action ≠ .webhook event payment eventId) ∧
        ∀ id, ¬ Reconciling id q) : P := by
      rcases hq with ⟨event, payment, eventId, hq⟩ | ⟨id, hq⟩
      · exact absurd hq (hother.1 _ _ _)
      · exact absurd hq (hother.2 _)
    cases hsale with
    | confirmed attempt updated _ approvedAt h hcart hi =>
      have hterms := h.row_terms hkeyed.attempts .refl
      have hm : attempt ∈ db.attempts := h.mem
      rw [hi] at ha ⊢
      have hid : updated.id = attemptId := Option.some.inj ha
      have haid : attempt.id = attemptId := (PaymentAttempt.column PaymentAttempt.id hterms).symm.trans hid
      have hcartId : updated.cartId = attempt.cartId := PaymentAttempt.column PaymentAttempt.cartId hterms
      refine ⟨attempt, input.cart, haid ▸ hkeyed.attempts.lookup hm, hcartId ▸ hcart, ?_, rfl⟩
      have hcustomer : updated.customerSnapshot = attempt.customerSnapshot :=
        PaymentAttempt.column PaymentAttempt.customerSnapshot hterms
      have hnotes : updated.notes = attempt.notes := PaymentAttempt.column PaymentAttempt.notes hterms
      simp only [Order.content, Order.facts, paidContent, OrderRepository.newOrder, Webhook.paidSnapshot, hcustomer,
        hnotes, hid, haid]
    | cash _ _ _ hq => exact hconfirms (by simp [hq, Reconciling])
    | direct _ _ hq => exact hconfirms (by simp [hq, Reconciling])
    | items _ hq => exact hconfirms (by simp [hq, Reconciling])
    | paid _ _ hq => exact hconfirms (by simp [hq, Reconciling])

end Content

/-! ## The follow-ups do not -/

/-- No order of the attempt has a financial record. -/
structure Unrecorded (attemptId : Id) (db : Db) : Prop where
  keyed : Keyed db.core
  known : RecordsKnown db
  unrecorded : ∀ o ∈ db.orders, o.paymentAttemptId = some attemptId → ∀ f ∈ db.financialRecords, f.orderId ≠ o.id

section Unrecorded
variable {q : Request} {db db' : Db} {attemptId : Id}

/-- A reconciliation may make an order, and records nothing of its payment. -/
theorem Unrecorded.step (hi : Unrecorded attemptId db) (hq : Reconciling attemptId q) (hs : step db q = some db') :
    Unrecorded attemptId db' := by
  obtain ⟨answer, hx⟩ := step_eq.1 hs
  obtain ⟨payment, haction⟩ := hq
  have heff := exec_effect hx
  have hsame : db'.financialRecords = db.financialRecords :=
    exec_frame hx .financialRecords (by simp [haction, snapshotTables])
  refine ⟨heff.keyed hi.keyed, hi.known.step hs, fun o ho ha f hf hid => ?_⟩
  rw [hsame] at hf
  obtain ⟨o₀, ho₀, hid₀⟩ := hi.known f hf
  obtain ⟨r, hr, hfacts⟩ := heff.facts.exists_mem ho₀
  have hrid : r.id = o.id := (Order.column Order.id hfacts).trans (hid₀.trans hid)
  have hro : r = o := (heff.keyed hi.keyed).orders.eq hr ho hrid
  have hattempt : o₀.paymentAttemptId = some attemptId :=
    (Order.column Order.paymentAttemptId hfacts).symm.trans (hro ▸ ha)
  exact hi.unrecorded o₀ ho₀ hattempt f hf hid₀.symm

theorem Unrecorded.outcome (hi : Unrecorded attemptId db) {c : Confirmed} (hc : c ∈ outcome attemptId db) :
    c.financialRecords = [] := by
  obtain ⟨o, ho, rfl⟩ := List.mem_map.1 hc
  obtain ⟨ho, ha⟩ := List.mem_filter.1 ho
  have hnil : db.financialRecords.filter (·.orderId = o.id) = [] :=
    List.filter_eq_nil_iff.2 fun f hf => by simpa using hi.unrecorded o ho (of_decide_eq_true ha) f hf
  simp [confirmed, hnil]

end Unrecorded

/-- Once an attempt without an order has been confirmed by reconciliations, however many, the outcome is not that
of any other way. -/
theorem confirmations_differ {tenantId : Id} {settings : Settings} {qs rs : List Request} {db d d' : Db}
    {attemptId : Id} (hr : Runs.exec step (Db.fresh tenantId settings) qs = some db)
    (hnone : ∀ o ∈ db.orders, o.paymentAttemptId ≠ some attemptId)
    (hrs : Along step (fun _ => Reconciling attemptId) db rs) (hrun : Runs.exec step db rs = some d') :
    ¬ SameOutcome attemptId d d' := by
  rintro ⟨c, -, hc, hone⟩
  have hall : Along step (fun _ _ => True) (Db.fresh tenantId settings) qs := .of_forall fun _ _ => trivial
  have hkeyed : Keyed db.core := run_inv (fun _ _ _ hi _ h => h.keyed hi) .empty hall hr
  have hknown : RecordsKnown db :=
    Runs.exec_inv (fun _ _ _ hi _ hs => hi.step hs) (fun _ h => (List.not_mem_nil h).elim) hall hr
  have hstart : Unrecorded attemptId db := ⟨hkeyed, hknown, fun o ho ha => absurd ha (hnone o ho)⟩
  have hend : Unrecorded attemptId d' := Runs.exec_inv (fun _ _ _ hi hq hs => hi.step hq hs) hstart hrs hrun
  have hnil := hend.outcome (c := c) (by rw [hc]; simp)
  rw [hnil] at hone
  cases hone

namespace Demo

/-- A payment that the provider has reported as pending. -/
def pendingPayment : List Request :=
  [setUp, fillCart "1" "cart", payOnline "2" "cart" "attempt", issued "3", paid 5 "4" "3" .pending]

/-- The worker asks for the payment, and the provider answers that it is approved. -/
def reconciled (now : Instant) (n : String) : Request :=
  call now n (.reconcile "attempt" (some { id := "payment-3", status := .approved }))

end Demo

open Demo

theorem confirmations_differ_pending : ∃ d d', Runs.exec step (Db.fresh "tenant" settings)
      (pendingPayment ++ [paid 6 "5" "3" .approved]) = some d ∧
    Runs.exec step (Db.fresh "tenant" settings) (pendingPayment ++ [reconciled 6 "5"]) = some d' ∧
    ¬ SameOutcome "attempt" d d' := by
  have hw : (Runs.exec step (Db.fresh "tenant" settings)
      (pendingPayment ++ [paid 6 "5" "3" .approved])).isSome = true := by decide +kernel
  have hx : (Runs.exec step (Db.fresh "tenant" settings) pendingPayment).any (fun db =>
      db.orders.isEmpty && (Runs.exec step db [reconciled 6 "5"]).isSome) = true := by
    decide +kernel
  obtain ⟨d, hd⟩ := Option.isSome_iff_exists.1 hw
  obtain ⟨db, hr, hdb⟩ := (Option.any_eq_true _ _).1 hx
  obtain ⟨hnil, hsome⟩ := Bool.and_eq_true_iff.1 hdb
  obtain ⟨d', hd'⟩ := Option.isSome_iff_exists.1 hsome
  have horders : db.orders = [] := List.isEmpty_iff.1 hnil
  have hrs : Along step (fun _ => Reconciling "attempt") db [reconciled 6 "5"] := by
    simp [Along, Reconciling, reconciled, call]
  exact ⟨d, d', hd, exec_append.2 ⟨db, hr, hd'⟩, confirmations_differ hr (by simp [horders]) hrs hd'⟩

/-- The webhook and the reconciliation confirm the same pending payment, and leave different outcomes. -/
theorem reconciliation_leaves_no_record :
    ¬ ∀ (tenantId : Id) (settings : Settings) (qs : List Request) (db d d' : Db) (attempt : PaymentAttempt)
      (webhook reconciliation : Request),
      Runs.exec step (Db.fresh tenantId settings) qs = some db →
      (∃ event payment eventId, webhook.action = .webhook event payment eventId) →
      Reconciling attempt.id reconciliation →
      approves webhook db db = some attempt → approves reconciliation db db = some attempt →
      Sellable db attempt → step db webhook = some d → step db reconciliation = some d' →
      SameOutcome attempt.id d d' := by
  intro h
  let webhook := paid 6 "5" "3" .approved
  let reconciliation := reconciled 6 "5"
  have hx : (Runs.exec step (Db.fresh "tenant" settings) pendingPayment).any (fun db =>
      (step db webhook).isSome && (step db reconciliation).any (fun d' =>
        (outcome "attempt" d').all (·.financialRecords.length ≠ 1)) &&
        (approves webhook db db).any fun a =>
          a.id = "attempt" ∧ Sellable db a ∧ approves reconciliation db db = some a) = true := by
    decide +kernel
  obtain ⟨db, hr, hdb⟩ := (Option.any_eq_true _ _).1 hx
  simp only [Bool.and_eq_true] at hdb
  obtain ⟨⟨hw, hrec⟩, ha⟩ := hdb
  obtain ⟨d, hd⟩ := Option.isSome_iff_exists.1 hw
  obtain ⟨d', hd', hout⟩ := (Option.any_eq_true _ _).1 hrec
  obtain ⟨attempt, happ, hdec⟩ := (Option.any_eq_true _ _).1 ha
  obtain ⟨hid, hsell, happ'⟩ := of_decide_eq_true hdec
  have hreconciling : Reconciling attempt.id reconciliation := ⟨_, by rw [hid]; rfl⟩
  obtain ⟨c, -, hc, hone⟩ :=
    h _ _ _ db d d' attempt _ _ hr ⟨_, _, _, rfl⟩ hreconciling happ happ' hsell hd hd'
  have hmem : c ∈ outcome "attempt" d' := by rw [← hid, hc]; simp
  exact of_decide_eq_true (List.all_eq_true.1 hout c hmem) hone

end Komanda
