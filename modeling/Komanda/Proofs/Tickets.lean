import Komanda.Proofs.Footprints
import Komanda.Proofs.OwnOrders
import Komanda.Proofs.PrintQueue

/-!
# Kitchen tickets

The services reach the print queue through `enqueueOrderTicket` only: a committed request leaves the print
jobs as they are, or makes one `enqueue` call on the queue, for an order of the table (`exec_tickets`). So the
runs of the system are runs of `Printing` on its queue.
-/

namespace Komanda
open Transaction Idempotency Komanda.Core

/-- The jobs go from `s` to `s'` by the enqueuing of a ticket for `order`. -/
def Enqueues (draw : Draw) (order : Order) (s s' : Db) : Prop :=
  ∃ job, CommitsAlone (ε := AppError) (PrintJobService.enqueueOrderTicket order s.settings.printingEnabled
    draw.printJobId draw.now) s.printJobs job s'.printJobs

/-- The jobs stay, or a ticket is enqueued for an order of the table. -/
def Ticketed (draw : Draw) (s s' : Db) : Prop :=
  s'.printJobs = s.printJobs ∨ ∃ order ∈ s'.orders, Enqueues draw order s s'

/-- Enqueuing reads the current jobs only, and never fails. -/
theorem enqueueOrderTicket_iff {ε ε' : Type} {order : Order} {printingEnabled : Bool} {newId : Id} {now : Instant}
    {w w' jobs jobs' : List PrintJob} {job : Option PrintJob} :
    Commits (ε := ε) (PrintJobService.enqueueOrderTicket order printingEnabled newId now) w jobs job jobs' ↔
      Commits (ε := ε') (PrintJobService.enqueueOrderTicket order printingEnabled newId now) w' jobs job jobs' := by
  simp only [PrintJobService.enqueueOrderTicket, PrintJobRepository.create, commits_ite, commits_bind,
    commits_pure, commits_current, commits_write]

section Services
variable {v s s' : Db} {draw : Draw} {order : Order}

theorem Writes.jobs {S : List TableName} (h : Writes S s s') (hn : .printJobs ∉ S) :
    s'.printJobs = s.printJobs := h .printJobs hn

theorem Writes.orders {S : List TableName} (h : Writes S s s') (hn : .orders ∉ S) : s'.orders = s.orders :=
  congrArg Prod.fst (h .orders hn)

theorem Writes.settings {S : List TableName} (h : Writes S s s') (hn : .backOffice ∉ S) :
    s'.settings = s.settings := congrArg Prod.fst (h .backOffice hn)

theorem mem_of_core {c : Core} (h : s'.core = c) (ho : order ∈ c.orders) : order ∈ s'.orders := by
  rw [show s'.orders = c.orders from congrArg Core.orders h]
  exact ho

theorem Writes.trans {S : List TableName} {s₁ : Db} (h : Writes S s s₁) (h' : Writes S s₁ s') : Writes S s s' :=
  Trans.trans h h'

/-- A service whose call of the queue stands between writes to other tables. -/
theorem Ticketed.of_call {S T : List TableName} {s₁ s₂ : Db} {u : Unit} (hpre : Writes S s s₁)
    (hS : .printJobs ∉ S ∧ .backOffice ∉ S) (ho : order ∈ s₁.orders)
    (ht : Commits (enqueueOrderTicket order draw) v s₁ u s₂) (hpost : Writes T s₂ s')
    (hT : .printJobs ∉ T ∧ .orders ∉ T) : Ticketed draw s s' := by
  have hticket : Writes [.printJobs] s₁ s₂ := writes_ticket order (List.mem_singleton_self _) _ _ _ _ ht
  simp only [enqueueOrderTicket, commits_bind, commits_current, commits_zoom, commits_pure] at ht
  obtain ⟨enabled, _, ⟨rfl, rfl⟩, job, _, ⟨jobs, hjobs, rfl⟩, -, rfl⟩ := ht
  refine .inr ⟨order, ?_, job, ?_⟩
  · rw [hpost.orders hT.2]; exact ho
  · rw [hpost.jobs hT.1, ← hpre.jobs hS.1, ← hpre.settings hS.2]
    exact enqueueOrderTicket_iff.1 hjobs

theorem Ticketed.of_writes {S : List TableName} (h : Writes S s s') (hn : .printJobs ∉ S) :
    Ticketed draw s s' := .inl (h.jobs hn)

/-- Writes to other tables before and after change nothing. -/
theorem Ticketed.frame {S T : List TableName} {s₁ s₂ : Db} (hpre : Writes S s s₁)
    (hS : .printJobs ∉ S ∧ .backOffice ∉ S) (h : Ticketed draw s₁ s₂) (hpost : Writes T s₂ s')
    (hT : .printJobs ∉ T ∧ .orders ∉ T) : Ticketed draw s s' := by
  rcases h with h | ⟨order, ho, job, hjob⟩
  · exact .inl (by rw [hpost.jobs hT.1, h, hpre.jobs hS.1])
  · refine .inr ⟨order, by rw [hpost.orders hT.2]; exact ho, job, ?_⟩
    rw [hpre.settings hS.2, hpre.jobs hS.1] at hjob
    rw [hpost.jobs hT.1]
    exact hjob

/-- A created order is in the table. -/
theorem createFromCartSnapshotWith_created {readCart : DbTx (Option Cart)} {input : SnapshotInput}
    {created : Bool} (hread : Keeps id readCart)
    (h : Commits (OrderRepository.createFromCartSnapshotWith readCart input draw) v s (order, created) s') :
    created = true ∧ order ∈ s'.orders ∨ created = false := by
  rcases createFromCartSnapshotWith_core hread h with ⟨hf, -⟩ | ⟨ht, -, -, hins⟩
  · exact .inr hf
  · have horders : s'.orders = s.orders ++ [order] :=
      (congrArg Core.orders (insertSnapshot_core hins).2.2).trans sell_orders
    exact .inl ⟨ht, by rw [horders]; simp⟩

/-- What a sale writes before its ticket. -/
def beforeTicket : List TableName := snapshotTables ++ [.movements, .audit, .outbox, .idempotency]

theorem createDirect_tickets {cartId : Id} {customer : Customer} {notes : Option String} {key : String}
    (h : Commits (CreateOrderService.createDirect cartId customer notes key draw) v s order s') :
    Ticketed draw s s' := by
  simp only [CreateOrderService.createDirect, commits_bind, commits_look, commits_orThrow, commits_throwIf] at h
  obtain ⟨_, _, ⟨-, rfl⟩, cart, _, ⟨-, rfl⟩, _, _, ⟨-, rfl⟩, _, _, ⟨-, rfl⟩, ⟨o, created⟩, s₁, hcreate, h⟩ := h
  simp only [commits_bind, commits_runIf, commits_pure] at h
  have hsnap : Writes beforeTicket s s₁ := writes_snapshot _ (by decide) _ _ _ _ hcreate
  rcases createFromCartSnapshotWith_created (readCart_keeps _) hcreate with ⟨rfl, ho⟩ | rfl
  · obtain ⟨_, _, ⟨-, _, s₂, hdep, _, s₃, hann, _, s₄, htick, hbill⟩ | ⟨hf, -⟩, -, rfl⟩ := h
    · have hcore : s₃.core = book (some _) s₁.core :=
        (keeps_announce _ _ _ _ _ _ _ _ hann).trans (recordMovement_core hdep).2
      have ho₃ : o ∈ s₃.orders := mem_of_core hcore ho
      have hdep : Writes beforeTicket s₁ s₂ := writes_movement _ _ (by decide) _ _ _ _ hdep
      have hann : Writes beforeTicket s₂ s₃ := writes_announce _ _ _ _ (by decide) (by decide) _ _ _ _ hann
      exact .of_call (hsnap.trans (hdep.trans hann)) (by decide) ho₃ htick
        (writes_document _ (List.mem_singleton_self _) _ _ _ _ hbill) (by decide)
    · exact (hf rfl).elim
  · obtain ⟨_, _, ⟨⟨⟩, -⟩ | ⟨-, rfl⟩, -, rfl⟩ := h
    exact .of_writes hsnap (by decide)

theorem createDirectFromItems_tickets {request : CreateOrderService.DirectItemsRequest} {key : String}
    {cartId : Id}
    (h : Commits (CreateOrderService.createDirectFromItems request key cartId draw) v s order s') :
    Ticketed draw s s' := by
  simp only [CreateOrderService.createDirectFromItems, commits_bind, commits_look, commits_orThrow,
    commits_fromExcept] at h
  obtain ⟨settings, _, ⟨rfl, rfl⟩, locationId, _, ⟨-, rfl⟩, _, _, ⟨-, rfl⟩, lines, _, ⟨-, rfl⟩, _, _,
    ⟨-, rfl⟩, price, _, ⟨-, rfl⟩, cart, s₁, hcart, ⟨o, created⟩, s₂, hcreate, h⟩ := h
  simp only [commits_bind, commits_runIf, commits_pure] at h
  have hcart : Writes beforeTicket s s₁ := writes_createCart _ _ (by decide) _ _ _ _ hcart
  have hsnap : Writes beforeTicket s₁ s₂ :=
    writes_snapshotWith _ (Within.current _) (by decide) _ _ _ _ hcreate
  rcases createFromCartSnapshotWith_created (currentCart_keeps _) hcreate with ⟨rfl, ho⟩ | rfl
  · obtain ⟨_, s₇, ⟨-, _, s₃, hdep, _, s₄, hann, _, s₅, htick, _, s₆, hbill, hwa⟩ | ⟨hf, -⟩, -, rfl⟩ := h
    · have hdep : Writes beforeTicket s₂ s₃ ∧ s₃.orders = s₂.orders := by
        rcases hdep with ⟨-, hdep⟩ | ⟨-, rfl⟩
        · exact ⟨writes_movement _ _ (by decide) _ _ _ _ hdep,
            congrArg Core.orders (recordMovement_core hdep).2⟩
        · exact ⟨Std.Refl.refl _, rfl⟩
      have ho₄ : o ∈ s₄.orders := by
        refine mem_of_core (keeps_announce _ _ _ _ _ _ _ _ hann) ?_
        show o ∈ s₃.orders
        rw [hdep.2]; exact ho
      have hann : Writes beforeTicket s₃ s₄ := writes_announce _ _ _ _ (by decide) (by decide) _ _ _ _ hann
      have hbill : Writes [.billing, .outbox] s₅ s₆ := by
        rcases hbill with ⟨-, hbill⟩ | ⟨-, rfl⟩
        · exact writes_document _ (by decide) _ _ _ _ hbill
        · exact Std.Refl.refl _
      have hwa : Writes [.billing, .outbox] s₆ s₇ := by
        rcases hwa with ⟨-, hwa⟩ | ⟨-, rfl⟩
        · exact writes_outbox _ _ _ _ (by decide) _ _ _ _ hwa
        · exact Std.Refl.refl _
      exact .of_call (hcart.trans (hsnap.trans (hdep.1.trans hann))) (by decide) ho₄ htick (hbill.trans hwa)
        (by decide)
    · exact (hf rfl).elim
  · obtain ⟨_, _, ⟨⟨⟩, -⟩ | ⟨-, rfl⟩, -, rfl⟩ := h
    exact .of_writes (hcart.trans hsnap) (by decide)

theorem createPaid_tickets {attemptId : Id} {approvedAt : Option Instant}
    (h : Commits (CreateOrderService.createPaidFromPaymentAttempt attemptId approvedAt draw) v s order s') :
    Ticketed draw s s' := by
  simp only [CreateOrderService.createPaidFromPaymentAttempt, commits_bind, commits_look, commits_orThrow,
    commits_throwIf] at h
  obtain ⟨_, _, ⟨-, rfl⟩, attempt, _, ⟨-, rfl⟩, _, _, ⟨-, rfl⟩, _, _, ⟨-, rfl⟩, cart, _, ⟨-, rfl⟩,
    ⟨o, created⟩, s₁, hcreate, h⟩ := h
  simp only [commits_bind, commits_runIf, commits_pure] at h
  have hsnap : Writes beforeTicket s s₁ := writes_snapshot _ (by decide) _ _ _ _ hcreate
  rcases createFromCartSnapshotWith_created (readCart_keeps _) hcreate with ⟨rfl, ho⟩ | rfl
  · obtain ⟨_, _, ⟨-, _, s₂, hann, _, s₃, htick, hbill⟩ | ⟨hf, -⟩, -, rfl⟩ := h
    · have ho₂ : o ∈ s₂.orders := mem_of_core (keeps_announce _ _ _ _ _ _ _ _ hann) ho
      have hann : Writes beforeTicket s₁ s₂ := writes_announce _ _ _ _ (by decide) (by decide) _ _ _ _ hann
      exact .of_call (hsnap.trans hann) (by decide) ho₂ htick
        (writes_document _ (List.mem_singleton_self _) _ _ _ _ hbill) (by decide)
    · exact (hf rfl).elim
  · obtain ⟨_, _, ⟨⟨⟩, -⟩ | ⟨-, rfl⟩, -, rfl⟩ := h
    exact .of_writes hsnap (by decide)

theorem orderOfApproved_tickets {updated : PaymentAttempt} {event : ReceivedMercadoPagoWebhook}
    {target : Option Order} (h : Commits (Webhook.orderOfApproved updated event draw) v s target s') :
    Ticketed draw s s' := by
  simp only [Webhook.orderOfApproved, commits_bind, commits_look] at h
  obtain ⟨found, _, ⟨-, rfl⟩, h⟩ := h
  cases hf : found.filter (·.status ≠ .converted) with
  | none =>
    simp only [hf, commits_look] at h
    obtain ⟨-, rfl⟩ := h
    exact .inl rfl
  | some cart =>
    simp only [hf, commits_bind, commits_runIf, commits_pure] at h
    obtain ⟨⟨o, created⟩, s₁, hcreate, _, _, h, -, rfl⟩ := h
    have hsnap : Writes beforeTicket s s₁ := writes_snapshot _ (by decide) _ _ _ _ hcreate
    rcases createFromCartSnapshotWith_created (readCart_keeps _) hcreate with ⟨rfl, ho⟩ | rfl
    · obtain ⟨-, _, s₂, haudit, _, s₃, hout, htick⟩ | ⟨hf, -⟩ := h
      · have ho₃ : o ∈ s₃.orders := by
          have hcore : s₃.core = s₁.core :=
            (keeps_appendOutboxEvent _ _ _ _ _ _ _ _ hout).trans (keeps_appendAuditEvent _ _ _ _ _ _ _ _ haudit)
          exact mem_of_core hcore ho
        have haudit : Writes beforeTicket s₁ s₂ := writes_audit _ _ _ _ (by decide) _ _ _ _ haudit
        have hout : Writes beforeTicket s₂ s₃ := writes_outbox _ _ _ _ (by decide) _ _ _ _ hout
        exact .of_call (T := []) (hsnap.trans (haudit.trans hout)) (by decide) ho₃ htick (Std.Refl.refl _)
          (by decide)
      · exact (hf rfl).elim
    · obtain ⟨⟨⟩, -⟩ | ⟨-, rfl⟩ := h
      exact .of_writes hsnap (by decide)

theorem webhook_tickets {event : ReceivedMercadoPagoWebhook} {payment : MercadoPagoPayment} {eventId : Id}
    {outcome : Webhook.Outcome} (h : Commits (Webhook.receive event payment eventId draw) v s outcome s') :
    Ticketed draw s s' := by
  let S : List TableName := [.webhookEvents, .routes, .attempts, .outbox]
  simp only [Webhook.receive, commits_bind, commits_look, commits_orThrow, commits_throwIf] at h
  obtain ⟨_, _, ⟨-, rfl⟩, account, _, ⟨-, rfl⟩, _, _, ⟨-, rfl⟩, attemptId, _, ⟨-, rfl⟩, found, _, ⟨-, rfl⟩,
    isNew, s₁, hpersist, h⟩ := h
  have hwrites : Writes S s s₁ := writes_webhookEvent _ _ _ (by decide) _ _ _ _ hpersist
  cases found with
  | none =>
    obtain ⟨-, rfl⟩ := commits_pure.1 h
    exact .of_writes hwrites (by decide)
  | some attempt =>
    simp only [commits_bind, commits_runIf, commits_pure, Webhook.record, commits_current] at h
    obtain ⟨_, _, ⟨-, _, s₂, hroute, _, s₃, hupdate, updated, _, ⟨-, rfl⟩, _, s₄, hout, h⟩ | ⟨-, rfl⟩, -, rfl⟩ := h
    · have hroute : Writes S s₁ s₂ := writes_route _ (by decide) _ _ _ _ hroute
      have hupdate : Writes S s₂ s₃ := writes_updateAttempt _ _ (by decide) _ _ _ _ hupdate
      have hout : Writes S s₃ s₄ := writes_outbox _ _ _ _ (by decide) _ _ _ _ hout
      have hpre : Writes S s s₄ := hwrites.trans (hroute.trans (hupdate.trans hout))
      rcases h with ⟨-, h⟩ | ⟨-, rfl⟩
      · rcases commits_forSome.1 h with ⟨a, rfl, h⟩ | ⟨rfl, rfl⟩
        · obtain ⟨target, s₅, htarget, hfin⟩ := commits_bind.1 h
          have hfin : Writes [.financialRecords] s₅ _ :=
            Within.forSome (fun _ => writes_financialRecord _ (List.mem_singleton_self _)) _ _ _ _ hfin
          exact (orderOfApproved_tickets htarget).frame hpre (by decide) hfin (by decide)
        · exact .of_writes hpre (by decide)
      · exact .of_writes hpre (by decide)
    · exact .of_writes hwrites (by decide)

theorem collect_tickets {actor : Actor} {orderId : Id} {key : String} {request : CollectCashRequest}
    {recordId : Id} {response : CollectCashResponse}
    (h : Commits (CollectCashService.collect actor orderId key request recordId draw) v s response s') :
    Ticketed draw s s' := by
  simp only [CollectCashService.collect, commits_bind, commits_throwIf] at h
  obtain ⟨_, _, ⟨-, rfl⟩, claim, s₁, hclaim, h⟩ := h
  have hwrites : Writes beforeTicket s s₁ := writes_claim _ _ _ _ _ (by decide) _ _ _ _ hclaim
  cases claim with
  | replay status body =>
    dsimp only at h
    split at h
    · obtain ⟨-, rfl⟩ := commits_pure.1 h
      exact .of_writes hwrites (by decide)
    · exact (commits_throw.1 h).elim
  | claimed claimId hash =>
    simp only [commits_bind, commits_look, commits_orThrow] at h
    obtain ⟨_, _, ⟨-, rfl⟩, order, _, ⟨-, rfl⟩, h⟩ := h
    rcases commits_ite.1 h with ⟨-, h⟩ | ⟨-, h⟩
    · simp only [commits_bind, commits_pure] at h
      obtain ⟨_, _, hcomplete, -, rfl⟩ := h
      exact .of_writes (hwrites.trans (writes_complete _ _ _ (by decide) _ _ _ _ hcomplete)) (by decide)
    split at h
    · exact (commits_throw.1 h).elim
    · exact (commits_throw.1 h).elim
    · simp only [CollectCashService.apply, commits_bind, commits_look, commits_pure] at h
      obtain ⟨shift, _, ⟨-, rfl⟩, returned, s₂, hup, updated, _, hst, _, s₃, hbook, _, s₄, htick, _, s₅, hevent, _,
        s₆, haudit, _, s₇, hout, _, s₈, hout', _, s₉, hcomplete, -, rfl⟩ := h
      obtain ⟨hret, rfl⟩ := orStale_core hst
      obtain ⟨⟨row, hrow, hrowUpdated⟩, h₂⟩ := updated_core hup hret
      have ho₂ : updated ∈ s₂.orders := by
        refine mem_of_core h₂ ?_
        rw [hrowUpdated]
        exact Table.mem_updateWhere_of (List.mem_of_find?_eq_some hrow) (List.find?_some hrow)
      have ho₃ : updated ∈ s₃.orders := mem_of_core (recordMovement_core hbook).2 ho₂
      have hup : Writes beforeTicket s₁ s₂ := writes_updateReturning _ _ (by decide) _ _ _ _ hup
      have hbook : Writes beforeTicket s₂ s₃ := writes_movement _ _ (by decide) _ _ _ _ hbook
      let T : List TableName := [.orderEvents, .audit, .outbox, .idempotency]
      have hevent : Writes T s₄ s₅ := writes_event _ _ _ _ _ (by decide) _ _ _ _ hevent
      have haudit : Writes T s₅ s₆ := writes_audit _ _ _ _ (by decide) _ _ _ _ haudit
      have hout : Writes T s₆ s₇ := writes_outbox _ _ _ _ (by decide) _ _ _ _ hout
      have hout' : Writes T s₇ s₈ := writes_outbox _ _ _ _ (by decide) _ _ _ _ hout'
      have hcomplete : Writes T s₈ s₉ := writes_complete _ _ _ (by decide) _ _ _ _ hcomplete
      exact .of_call (hwrites.trans (hup.trans hbook)) (by decide) ho₃ htick
        (hevent.trans (haudit.trans (hout.trans (hout'.trans hcomplete)))) (by decide)

end Services

/-- What a committed request does to the print jobs. -/
theorem exec_tickets {q : Request} {v db db' : Db} {a : Komanda.Answer} (h : exec q v db = some (a, db')) :
    Ticketed q.draw db db' := by
  have hrun := exec_eq.1 h
  by_cases hjobs : TableName.printJobs ∈ q.action.tables
  · cases hq : q.action with
    | webhook event payment eventId =>
      rw [hq] at hrun
      obtain ⟨_, hrun⟩ := commits_effect hrun
      exact webhook_tickets hrun
    | createDirect cartId customer notes key =>
      rw [hq] at hrun
      obtain ⟨_, hrun, -⟩ := order_answer hrun
      exact createDirect_tickets hrun
    | createDirectFromItems request key cartId =>
      rw [hq] at hrun
      obtain ⟨_, hrun, -⟩ := order_answer hrun
      exact createDirectFromItems_tickets hrun
    | createPaid attemptId approvedAt =>
      rw [hq] at hrun
      obtain ⟨_, hrun, -⟩ := order_answer hrun
      exact createPaid_tickets hrun
    | collect actor orderId key request recordId =>
      rw [hq] at hrun
      obtain ⟨_, hrun⟩ := commits_effect hrun
      exact collect_tickets hrun
    | _ => simp [hq, snapshotTables, operationTables] at hjobs
  · exact .inl (exec_frame h .printJobs hjobs)

/-- The system as a client of the queue: a request that changes the jobs is one `enqueue` call. -/
theorem exec_enqueues {q : Request} {v db db' : Db} {a : Komanda.Answer} (h : exec q v db = some (a, db'))
    (floor : Printing.PrintFloor) (hf : floor.queue.jobs = db.printJobs) :
    db'.printJobs = db.printJobs ∨ ∃ order ∈ db'.orders, ∃ answer floor',
      Printing.exec (.enqueue order db.settings.printingEnabled q.draw.printJobId q.draw.now) floor floor =
        some (answer, floor') ∧ floor'.queue.jobs = db'.printJobs := by
  refine (exec_tickets h).imp_right fun ⟨order, ho, job, hjob⟩ => ⟨order, ho, .enqueued job, ?_⟩
  refine ⟨⟨{ floor.queue with jobs := db'.printJobs }, floor.handouts⟩, ?_, rfl⟩
  refine Printing.exec_eq.2 ⟨_, ?_, rfl⟩
  simp only [Printing.Call.run, commits_bind, commits_zoom, commits_pure]
  refine ⟨job, _, ⟨_, ?_, rfl⟩, rfl, rfl⟩
  rw [hf]
  exact enqueueOrderTicket_iff.1 hjob

end Komanda
