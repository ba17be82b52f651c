import Komanda.Core

/-!
# The statements of the repositories on the tables of the sale

One lemma for each repository function: what it leaves of `Db.core`. Follow-ups (events, outbox, audit,
tickets, documents, routes, idempotency records, stock) leave it alone.
-/

namespace Komanda
open Transaction Komanda.Core

/-! ## Follow-ups -/

section Frame
variable {α : Type}

theorem keeps_onIdempotency
    (x : Tx (List (Idempotency.Record IdemRequest IdemResponse)) Idempotency.IdempotencyError α) :
    Keeps Db.core (onIdempotency x) :=
  Keeps.zoom fun _ _ => rfl

theorem keeps_claim (scope key : String) (request : IdemRequest) (retention : Option Nat) (id : Id)
    (now : Instant) : Keeps Db.core (IdempotencyService.claim scope key request retention id now) :=
  Within.bind (Within.current _) fun _ => keeps_onIdempotency _

theorem keeps_appendOutboxEvent (t : String) (i : Id) (e : String) (p : Payload) :
    Keeps Db.core (appendOutboxEvent t i e p) := Within.write fun _ => rfl

theorem keeps_appendAuditEvent (a t : String) (i : Id) (m : Payload) :
    Keeps Db.core (appendAuditEvent a t i m) := Within.write fun _ => rfl

theorem keeps_appendEvent (i : Id) (e : String) (s t : Option FulfillmentStatus) (m : Payload) :
    Keeps Db.core (OrderRepository.appendEvent i e s t m) := Within.write fun _ => rfl

theorem keeps_enqueueOrderTicket (order : Order) (draw : Draw) :
    Keeps Db.core (enqueueOrderTicket order draw) :=
  Within.bind (Within.current _) fun _ => Within.bind (Keeps.zoom fun _ _ => rfl) fun _ => Within.pure _

theorem keeps_issueDocument (input : BillingRepository.IssueInput) :
    Keeps Db.core (BillingRepository.issueDocument input) :=
  Within.bind (Within.current _) fun _ => Within.bind (Within.orThrow _ _) fun _ =>
    Within.bind (Within.look _) fun _ => Within.bind (Within.throwIf _ _) fun _ =>
      Within.bind (Within.current _) fun _ => Within.bind (Within.throwIf _ _) fun _ => Within.write fun _ => rfl

theorem keeps_insertRoute (r : ProviderResourceRoute) :
    Keeps Db.core (IntegrationRepository.insertRoute r) :=
  Within.write fun db => by split <;> rfl

theorem keeps_upsertFinancialRecord (r : MpFinancialRecord) :
    Keeps Db.core (Webhook.upsertFinancialRecord r) :=
  Within.write fun db => by split <;> rfl

theorem keeps_persistEvent (e : ReceivedMercadoPagoWebhook) (s : WebhookEventStatus) (i : Id) :
    Keeps Db.core (Webhook.persistEvent e s i) :=
  Within.bind (Within.current _) fun _ => Within.bind (Within.runIf (Within.write fun _ => rfl)) fun _ =>
    Within.pure _

theorem keeps_announce (order : Order) (action : String) (m c : Payload) :
    Keeps Db.core (CreateOrderService.announce order action m c) :=
  Within.bind (keeps_appendAuditEvent _ _ _ _) fun _ =>
    Within.bind (keeps_appendOutboxEvent _ _ _ _) fun _ => keeps_appendOutboxEvent _ _ _ _

theorem keeps_notifyReady (order : Order) (next : FulfillmentStatus) :
    Keeps Db.core (TransitionOrderService.notifyReady order next) :=
  Within.runIf (Within.bind (Within.current _) fun _ => Within.runIf (keeps_appendOutboxEvent _ _ _ _))

theorem keeps_deductStock (line : CartLine) : Keeps Db.core (OrderRepository.deductStock line) := by
  unfold OrderRepository.deductStock
  split
  · exact Within.bind (Within.current _) fun _ => Within.bind (Within.write fun _ => rfl) fun _ =>
      Within.bind (Within.current _) fun _ => Within.throwIf _ _
  · exact Within.pure _

end Frame

/-! ## Writes -/

section Writes
variable {v s s' : Db} {u : Unit}

theorem create_core {input : CartRepository.CreateInput} {id : Id} {cart : Cart}
    (h : Commits (CartRepository.create input id) v s cart s') :
    cart = input.row id ∧ (∀ x ∈ s.carts, x.id ≠ cart.id) ∧
      s'.core = { s.core with carts := s.carts ++ [cart] } := by
  simp only [CartRepository.create, commits_bind, commits_current, commits_throwIf, commits_write,
    commits_pure] at h
  obtain ⟨_, _, ⟨rfl, rfl⟩, _, _, ⟨hn, rfl⟩, _, _, rfl, rfl, rfl⟩ := h
  exact ⟨rfl, fun x hx he => hn (by simpa using ⟨x, hx, he⟩), rfl⟩

theorem reprice_core {cartId : Id} {r : CartRepository.Repricing} {cart : Option Cart}
    (h : Commits (CartRepository.reprice cartId r) v s cart s') :
    s'.core = { s.core with carts := Table.updateWhere (·.id = cartId) r.apply s.carts } := by
  simp only [CartRepository.reprice, commits_bind, commits_write, commits_current] at h
  obtain ⟨_, _, rfl, -, rfl⟩ := h
  rfl

theorem redeemCoupon_core {cart : Cart} {orderId : Id}
    (h : Commits (OrderRepository.redeemCoupon cart orderId) v s u s') :
    s'.core = redeem cart orderId s.core ∧
      ∀ d ∈ redeemed cart, ∃ x ∈ s.discounts, x.id = d := by
  unfold OrderRepository.redeemCoupon at h
  unfold redeem redeemed
  cases hc : cart.appliedDiscountCodeId with
  | none => simp only [hc, commits_pure] at h; simp [h.2]
  | some discountId =>
    simp only [hc, commits_runIf, commits_bind, commits_pure, DiscountRepository.recordRedemption,
      commits_current, commits_write, commits_throwIf] at h
    rcases h with ⟨hpos, _, _, ⟨_, _, ⟨rfl, rfl⟩, _, _, rfl, _, _, ⟨rfl, rfl⟩, _, _, ⟨hk, rfl⟩, _, _, rfl,
      rfl, rfl⟩, -, rfl⟩ | ⟨hpos, rfl⟩
    · refine ⟨?_, fun d hd => ?_⟩
      · simp only [Option.filter_some, hpos, decide_true, if_true, Db.core, redemption]
        split <;> simp_all
      · simp only [Option.filter_some, hpos, decide_true, if_true, Option.mem_def,
          Option.some.injEq] at hd
        subst hd
        rw [not_not, List.any_eq_true] at hk
        obtain ⟨x, hx, he⟩ := hk
        obtain ⟨q, hq, rfl⟩ := Table.mem_updateWhere.1 hx
        refine ⟨q, hq, ?_⟩
        have he : (if DiscountRepository.countable discountId q then DiscountRepository.countRedemption q
          else q).id = discountId := of_decide_eq_true he
        split at he <;> exact he
    · simp [hpos]

theorem insertSnapshot_core {input : SnapshotInput} {draw : Draw} {order : Order}
    (h : Commits (OrderRepository.insertSnapshot input draw) v s order s') :
    (∃ n active, order = OrderRepository.newOrder input draw n active) ∧
      (∀ o ∈ s.orders, OrderRepository.conflicts order o = false) ∧
      s'.core = sell input.cart order s.core := by
  simp only [OrderRepository.insertSnapshot, OrderRepository.nextPurchaseNumber, OrderRepository.insert,
    OrderRepository.convertCart, commits_bind, commits_write, commits_current, commits_throwIf,
    commits_pure] at h
  obtain ⟨n, _, ⟨_, _, rfl, -, rfl⟩, active, _, ⟨-, rfl⟩, _, _, ⟨_, _, ⟨rfl, rfl⟩, _, _, ⟨hn, rfl⟩, rfl⟩, _,
    s₂, hd, _, _, rfl, _, s₃, hr, _, s₄, he, rfl, rfl⟩ := h
  refine ⟨⟨_, _, rfl⟩, fun o ho => by simpa using fun hc => hn (List.any_eq_true.2 ⟨o, ho, hc⟩), ?_⟩
  have hd := Within.each keeps_deductStock _ _ _ _ _ hd
  rw [keeps_appendEvent _ _ _ _ _ _ _ _ _ he, (redeemCoupon_core hr).1, sell]
  congr 1
  have hcore (s₁ s₂ : Db) (h : s₂.core = s₁.core) :
      { s₂ with carts := (convertCart input.cart.id s₂.core).carts }.core =
        convertCart input.cart.id s₁.core := by
    rw [← h]; rfl
  exact hcore _ _ hd

/-- `createFromCartSnapshot` gives the order that holds the key, or sells the cart. -/
theorem createFromCartSnapshotWith_core {readCart : DbTx (Option Cart)} {input : SnapshotInput}
    {draw : Draw} {order : Order} {created : Bool} (hread : Keeps id readCart)
    (h : Commits (OrderRepository.createFromCartSnapshotWith readCart input draw) v s (order, created) s') :
    (created = false ∧ Table.lookup Order.idempotencyKey input.idempotencyKey v.orders = some order ∧
      s' = s) ∨
    (created = true ∧ Table.lookup Order.idempotencyKey input.idempotencyKey v.orders = none ∧
      (∃ cart, Commits readCart v s (some cart) s ∧ cart.status ≠ .converted) ∧
      Commits (OrderRepository.insertSnapshot input draw) v s order s') := by
  simp only [OrderRepository.createFromCartSnapshotWith, commits_bind, commits_look] at h
  obtain ⟨existing, _, ⟨he, rfl⟩, h⟩ := h
  cases existing with
  | some o =>
    simp only [commits_pure, Prod.mk.injEq] at h
    obtain ⟨⟨rfl, rfl⟩, rfl⟩ := h
    exact .inl ⟨rfl, he, rfl⟩
  | none =>
    simp only [commits_bind, commits_throwIf, commits_pure, Prod.mk.injEq] at h
    obtain ⟨check, s₁, hc, _, _, ⟨hs, rfl⟩, o, _, ho, ⟨rfl, rfl⟩, rfl⟩ := h
    obtain rfl : s₁ = s := hread _ _ _ _ hc
    cases check with
    | none => exact absurd rfl hs
    | some cart => exact .inr ⟨rfl, he, ⟨cart, hc, by simpa using hs⟩, ho⟩

theorem updateReturning_core {p : Order → Bool} {f : Order → Order} {now : Instant}
    {returned : Option Order} (h : Commits (OrderRepository.updateReturning p f now) v s returned s') :
    returned = (s.orders.find? p).map (bump f now) ∧ s'.core = revise p f now s.core := by
  simp only [OrderRepository.updateReturning, commits_bind, commits_current, commits_write,
    commits_pure] at h
  obtain ⟨_, _, ⟨rfl, rfl⟩, _, _, rfl, rfl, rfl⟩ := h
  exact ⟨rfl, rfl⟩

theorem recordMovement_core {movement : CashMovement} {e : AppError}
    (h : Commits (recordMovement movement e) v s u s') :
    Bookable movement s.movements ∧ s'.core = book (some movement) s.core := by
  simp only [recordMovement, commits_bind, commits_current, commits_throwIf, commits_write] at h
  obtain ⟨_, _, ⟨rfl, rfl⟩, _, _, ⟨hn, rfl⟩, rfl⟩ := h
  refine ⟨fun x hx => ?_, rfl⟩
  have := List.any_eq_false.1 (Bool.eq_false_iff.2 hn) x hx
  simp only [Bool.or_eq_true, Bool.and_eq_true, decide_eq_true_eq, not_or, not_and] at this
  exact ⟨this.1.1, fun h₁ h₂ h₃ => this.1.2 ⟨h₁, h₂⟩ h₃, fun h₁ h₂ => this.2 h₁ h₂⟩

theorem expires_guards {order : Order} {now : Instant} (h : ExpireUnpaidOrdersJob.expires order now = true) :
    order.source = .storefrontCash ∧ order.paymentStatus = .pending ∧ order.fulfillmentStatus = .approved ∧
      order.paymentExpiresAt.any (· ≤ now) = true := by
  simp only [ExpireUnpaidOrdersJob.expires, Bool.and_eq_true, decide_eq_true_eq] at h
  exact ⟨h.1.1.1, h.1.1.2, h.1.2, h.2⟩

theorem releaseCoupon_core {order : Order} (h : Commits (releaseCoupon order) v s u s') :
    s'.core = release true order s.core := by
  simp only [releaseCoupon, DiscountRepository.markRedemptionCancelled, commits_runIf, commits_write] at h
  rcases h with ⟨hs, rfl⟩ | ⟨hs, rfl⟩
  · simp only [release, hs, Bool.and_self, if_true]; rfl
  · simp [release, hs]

theorem createPaymentAttempt_cases {input : IntegrationRepository.CreateAttemptInput} {newId : Id}
    {a : PaymentAttempt} (h : Commits (IntegrationRepository.createPaymentAttempt input newId) v s a s') :
    ∃ rows, AttemptFor input newId s.attempts a rows ∧ s' = { s with attempts := rows } := by
  simp only [IntegrationRepository.createPaymentAttempt, commits_bind, commits_throwIf, commits_current,
    commits_ite, commits_write, commits_pure, commits_orThrow] at h
  obtain ⟨_, _, ⟨-, rfl⟩, _, _, ⟨rfl, rfl⟩, ⟨hn, _, _, rfl, rfl, rfl⟩ |
    ⟨-, _, _, ⟨rfl, rfl⟩, x, _, ⟨hx, rfl⟩, _, _, ⟨hc, rfl⟩, rfl, rfl⟩⟩ := h
  · refine ⟨_, .new fun x hx => ?_, rfl⟩
    have := List.any_eq_false.1 (Bool.eq_false_iff.2 hn) x hx
    simpa [not_or] using this
  · exact ⟨_, .existing x (Table.lookup_mem hx) (Table.lookup_key hx) (not_not.1 hc), rfl⟩

theorem createPaymentAttempt_core {input : IntegrationRepository.CreateAttemptInput} {newId : Id}
    {a : PaymentAttempt} (h : Commits (IntegrationRepository.createPaymentAttempt input newId) v s a s') :
    ∃ rows, AttemptFor input newId s.attempts a rows ∧ s'.core = { s.core with attempts := rows } := by
  obtain ⟨rows, hfor, rfl⟩ := createPaymentAttempt_cases h
  exact ⟨rows, hfor, rfl⟩

/-- A new attempt with a free id and key. -/
theorem createPaymentAttempt_new {input : IntegrationRepository.CreateAttemptInput} {newId : Id}
    (hamount : input.amount ≠ 0) (hfree : ∀ x ∈ s.attempts, x.id ≠ newId ∧ x.idempotencyKey ≠ input.idempotencyKey) :
    Commits (IntegrationRepository.createPaymentAttempt input newId) v s (input.row newId)
      { s with attempts := s.attempts ++ [input.row newId] } := by
  have hnone : ¬ (s.attempts.any fun a => a.id = newId || a.idempotencyKey = input.idempotencyKey) = true := by
    rw [Bool.not_eq_true, List.any_eq_false]
    intro x hx
    simpa [not_or] using hfree x hx
  simp only [IntegrationRepository.createPaymentAttempt, commits_bind, commits_throwIf, commits_current, commits_ite,
    commits_write, commits_pure]
  exact ⟨(), s, ⟨hamount, rfl⟩, _, s, ⟨rfl, rfl⟩, .inl ⟨hnone, (), _, rfl, trivial, rfl⟩⟩

theorem updateAttempt_core {attemptId : Id} {f : PaymentAttempt → PaymentAttempt}
    (h : Commits (IntegrationRepository.updateAttempt attemptId f) v s u s') :
    s'.core = { s.core with attempts := updateAttempt attemptId f s.attempts } := by
  simp only [IntegrationRepository.updateAttempt, commits_write] at h
  rw [← h]; rfl

theorem attachPreference_core {attemptId accountId : Id} {preferenceId : String}
    (h : Commits (IntegrationRepository.attachPreference attemptId accountId preferenceId) v s u s') :
    s'.core = { s.core with attempts := preferredAt attemptId accountId preferenceId s.attempts } := by
  simp only [IntegrationRepository.attachPreference, commits_bind, commits_current, commits_write,
    commits_throwIf] at h
  obtain ⟨_, _, ⟨rfl, rfl⟩, _, _, rfl, _, _, ⟨-, rfl⟩, hr⟩ := h
  rw [keeps_insertRoute _ _ _ _ _ hr]; rfl

end Writes

end Komanda
