import Mathlib.Data.Fintype.EquivFin
import Komanda.Proofs.IdempotencyRuns
import Komanda.Proofs.SoldOnce

/-!
# An attempt that is over for the customer and still holds the cart

While an attempt is active, `prepare` refuses every other session of its cart. Two ways to end an attempt do not
end it: a rejection that the webhook takes for old news, because `processing` ranks above every rejection; and a
session that fails before its preference is attached, which leaves the attempt as it was recorded.
-/

namespace Komanda
open Transaction Idempotency Komanda.Core Table Runs

/-! ## Rejections -/

/-- `findActiveByCartId` does not search the attempt. -/
def Released (db : Db) (attemptId : Id) : Prop := ∀ a ∈ db.attempts, a.id = attemptId → a.active = false

/-- A notification of the provider, and the status that it finds. -/
def Notice (status : ProviderStatus) (q : Request) : Prop :=
  ∃ event payment eventId, q.action = .webhook event payment eventId ∧ payment.status = status

/-- The notifications contain no approval. -/
def NoApproval (notices : List Request) : Prop := ∀ q ∈ notices, ∃ status, Notice status q ∧ status ≠ .approved

/-- The last of them finds the payment rejected or cancelled. -/
def EndsRejected (notices : List Request) : Prop :=
  ∃ q ∈ notices.getLast?, Notice .rejected q ∨ Notice .cancelled q

/-- The attempt waits for its payment. -/
def Awaited (id : Id) (rows : List PaymentAttempt) : Prop :=
  ∃ a ∈ rows, a.id = id ∧ (a.status = .processing ∨ a.status = .pending)

section Rejections
variable {q : Request} {db db' : Db} {c : Core} {rows : List PaymentAttempt} {id : Id}

theorem Awaited.not_released (h : Awaited id db.attempts) : ¬ Released db id := by
  intro hr
  obtain ⟨a, ha, hid, hs⟩ := h
  have hactive := hr a ha hid
  rcases hs with hs | hs
  · rw [PaymentAttempt.active, hs] at hactive; cases hactive
  · rw [PaymentAttempt.active, hs] at hactive; cases hactive

/-- A notification does not approve the attempt it finds if it finds no approval. -/
theorem not_approval {attempt : PaymentAttempt} {row : Option PaymentAttempt} {status : ProviderStatus}
    (hq : Notice status q) (hne : status ≠ .approved) (h : Approval q db db attempt row rows) : False := by
  obtain ⟨event, payment, eventId, hq, hs⟩ := hq
  cases h with
  | webhook payment' _ h hp =>
    obtain ⟨event', eventId', hq', -⟩ := h.request
    rw [hq] at hq'
    cases hq'
    exact hne (hs.symm.trans hp)
  | reconcile payment' _ h =>
    have hq' := h.request
    rw [hq] at hq'
    cases hq'

/-- An awaited attempt that is reported on is reported as pending. -/
theorem Awaited.edit (ha : Awaited id db.attempts) (hu : UniqueOn PaymentAttempt.id db.attempts)
    {status : ProviderStatus} (hq : Notice status q) (h : AttemptEdit q db db rows) : Awaited id rows := by
  obtain ⟨event, payment, eventId, hq, hs⟩ := hq
  cases h with
  | same => exact ha
  | prepare _ _ _ _ _ _ _ _ _ _ hq' => rw [hq] at hq'; cases hq'
  | attach _ _ _ hq' => rw [hq] at hq'; cases hq'
  | cancel _ _ _ hq' => rw [hq] at hq'; cases hq'
  | report attempt payment' h hp =>
    obtain ⟨event', eventId', hq', hr, -⟩ := h.request
    rw [hq] at hq'
    cases hq'
    obtain ⟨a, hm, hid, hstatus⟩ := ha
    by_cases hx : a.id = attempt.id
    · -- the stored status ranks with the pending ones, so the news must
      have hax : a = attempt := hu.eq hm (Webhook.routed_mem hr) hx
      subst hax
      refine ⟨_, mem_updateWhere_of hm (decide_eq_true rfl), hid, .inr ?_⟩
      have hle := Nat.not_lt.1 h.inOrder
      have hrank : Webhook.priority a.status = 3 := by
        rcases hstatus with hstatus | hstatus
        · rw [hstatus]; rfl
        · rw [hstatus]; rfl
      rw [hrank] at hle
      show Webhook.paymentStatus payment.status = .pending
      cases hst : payment.status with
      | approved => exact absurd hst hp
      | pending => rfl
      | inProcess => rfl
      | authorized => rfl
      | rejected => rw [hst] at hle; exact absurd hle (by decide)
      | cancelled => rw [hst] at hle; exact absurd hle (by decide)
      | other => rw [hst] at hle; exact absurd hle (by decide)
    · exact ⟨a, mem_updateWhere_of_not hm (decide_eq_false hx), hid, hstatus⟩
  | reject _ _ h => have hq' := h.request; rw [hq] at hq'; cases hq'
  | doubt _ _ h => have hq' := h.request; rw [hq] at hq'; cases hq'

/-- A notification that finds no approval leaves an awaited attempt awaited. -/
theorem Awaited.effect (ha : Awaited id db.attempts) (hu : UniqueOn PaymentAttempt.id db.attempts)
    {status : ProviderStatus} (hq : Notice status q) (hne : status ≠ .approved) (h : Effect q db db c) :
    Awaited id c.attempts := by
  cases h with
  | editAttempts rows h => exact ha.edit hu hq h
  | kiosk _ _ _ _ _ _ _ _ _ _ _ _ hq' =>
    obtain ⟨_, _, _, hq, -⟩ := hq
    rw [hq] at hq'; cases hq'
  | approved _ _ _ h => exact (not_approval hq hne h).elim
  | sold _ _ _ _ _ _ _ h =>
    rw [book_attempts, sell_attempts]
    cases h with
    | confirmed _ _ _ _ h => exact (not_approval hq hne h).elim
    | _ => exact ha
  | revised _ _ _ _ _ _ _ h =>
    rw [release_attempts, book_attempts, revise_attempts]
    cases h with
    | confirm _ _ h => exact (not_approval hq hne h).elim
    | refuse _ _ h =>
      obtain ⟨_, _, _, hq, -⟩ := hq
      have hq' := h.request
      rw [hq] at hq'; cases hq'
    | _ => exact ha
  | _ => exact ha

/-- All notifications of a run. -/
theorem Awaited.run {notices : List Request} (hn : NoApproval notices) (ha : Awaited id db.attempts)
    (hi : Keyed db.core) (hr : Runs.exec step db notices = some db') : Awaited id db'.attempts := by
  induction notices generalizing db with
  | nil => rw [Runs.exec_nil] at hr; exact hr ▸ ha
  | cons q notices ih =>
    obtain ⟨db₁, hs, hr⟩ := Runs.exec_cons.1 hr
    obtain ⟨answer, hx⟩ := step_eq.1 hs
    obtain ⟨status, hq, hne⟩ := hn q List.mem_cons_self
    have heffect := exec_effect hx
    exact ih (fun q hq => hn q (List.mem_cons_of_mem _ hq)) (ha.effect hi.attempts hq hne heffect)
      (heffect.keyed hi) hr

/-- The preference makes the attempt `processing`. -/
theorem attachSession_awaited {i : Nat} {preference : Preference} {draw : Draw} {session : PreparedSession}
    (hs : db.sessions[i]? = some session) (h : step db ⟨.attachSession i preference, draw⟩ = some db') :
    Awaited session.attemptId db'.attempts := by
  obtain ⟨answer, hx⟩ := step_eq.1 h
  have hrun := exec_eq.1 hx
  simp only [Action.run, effect, endSession, PaymentSessionService.attach, IntegrationRepository.attachPreference,
    commits_bind, commits_current, commits_orThrow, commits_throwIf, commits_pure, commits_write] at hrun
  obtain ⟨_, _, ⟨_, _, ⟨rfl, rfl⟩, session', _, ⟨hs', rfl⟩, _, _, ⟨_, s₁, ⟨_, _, ⟨rfl, rfl⟩, _, _, rfl, _, _,
    ⟨hmatched, rfl⟩, hroute⟩, _, s₂, hcomplete, -, rfl⟩, rfl⟩, -, rfl⟩ := hrun
  cases hs.symm.trans hs'
  obtain ⟨a, ha, hp⟩ := List.any_eq_true.1 (not_not.1 hmatched)
  have hcore := (keeps_onIdempotency _ _ _ _ _ hcomplete).trans (keeps_insertRoute _ _ _ _ _ hroute)
  refine ⟨IntegrationRepository.preferred preference.preferenceId a, ?_,
    of_decide_eq_true (Bool.and_eq_true_iff.1 hp).1, .inl rfl⟩
  show _ ∈ s₂.core.attempts
  rw [hcore]
  exact mem_updateWhere_of ha hp

end Rejections

/-- Whatever the provider reports once the preference is attached, short of an approval, the attempt holds its
cart. -/
theorem rejection_never_releases {tenantId : Id} {settings : Settings} {qs notices : List Request}
    {db db₁ db₂ : Db} {i : Nat} {preference : Preference} {draw : Draw} {session : PreparedSession}
    (hr : Runs.exec step (Db.fresh tenantId settings) qs = some db) (hs : db.sessions[i]? = some session)
    (hattach : step db ⟨.attachSession i preference, draw⟩ = some db₁)
    (hnotices : Runs.exec step db₁ notices = some db₂) (hn : NoApproval notices) :
    ¬ Released db₂ session.attemptId := by
  have hkeyed : Keyed db.core := run_inv (I := Keyed) (C := fun _ _ => True) (fun _ _ _ hi _ h => h.keyed hi)
    .empty (.of_forall fun _ _ => trivial) hr
  obtain ⟨answer, hx⟩ := step_eq.1 hattach
  exact ((attachSession_awaited hs hattach).run hn ((exec_effect hx).keyed hkeyed) hnotices).not_released

namespace Demo

/-- A session whose preference is issued. -/
def preparedSession : List Request := [setUp, fillCart "1" "cart", payOnline "2" "cart" "attempt"]

end Demo

open Demo

theorem rejection_never_releases_checkout : ∃ db db₁ db₂ session, db.sessions[0]? = some session ∧
    step db (issued "3") = some db₁ ∧ Runs.exec step db₁ [paid 4 "4" "3" .rejected] = some db₂ ∧
    ¬ Released db₂ session.attemptId := by
  have hx : (Runs.exec step (Db.fresh "tenant" settings) preparedSession).any (fun db =>
      db.sessions[0]?.isSome && (step db (issued "3")).any fun db₁ =>
        (Runs.exec step db₁ [paid 4 "4" "3" .rejected]).isSome) = true := by decide +kernel
  obtain ⟨db, hr, hdb⟩ := (Option.any_eq_true _ _).1 hx
  obtain ⟨hs, hdb⟩ := Bool.and_eq_true_iff.1 hdb
  obtain ⟨session, hs⟩ := Option.isSome_iff_exists.1 hs
  obtain ⟨db₁, hattach, hdb⟩ := (Option.any_eq_true _ _).1 hdb
  obtain ⟨db₂, hnotices⟩ := Option.isSome_iff_exists.1 hdb
  refine ⟨db, db₁, db₂, session, hs, hattach, hnotices, rejection_never_releases hr hs hattach hnotices ?_⟩
  intro q hq
  rw [List.mem_singleton] at hq
  subst hq
  exact ⟨.rejected, ⟨_, _, _, rfl, rfl⟩, by decide⟩

/-- The payment is rejected, and the cart stays taken. -/
theorem rejected_attempt_stays_active :
    ¬ ∀ (tenantId : Id) (settings : Settings) (qs notices : List Request) (db db₁ db₂ : Db) (i : Nat)
      (preference : Preference) (draw : Draw) (session : PreparedSession),
      Runs.exec step (Db.fresh tenantId settings) qs = some db → db.sessions[i]? = some session →
      step db ⟨.attachSession i preference, draw⟩ = some db₁ → Runs.exec step db₁ notices = some db₂ →
      NoApproval notices → EndsRejected notices → Released db₂ session.attemptId := by
  intro h
  have hx : (Runs.exec step (Db.fresh "tenant" settings) preparedSession).any (fun db =>
      db.sessions[0]?.any fun session => (step db (issued "3")).any fun db₁ =>
        (Runs.exec step db₁ [paid 4 "4" "3" .rejected]).any fun db₂ =>
          db₂.attempts.any fun a => a.id = session.attemptId && a.active) = true := by decide +kernel
  obtain ⟨db, hr, hdb⟩ := (Option.any_eq_true _ _).1 hx
  obtain ⟨session, hs, hdb⟩ := (Option.any_eq_true _ _).1 hdb
  obtain ⟨db₁, hattach, hdb⟩ := (Option.any_eq_true _ _).1 hdb
  obtain ⟨db₂, hnotices, hdb⟩ := (Option.any_eq_true _ _).1 hdb
  obtain ⟨a, ha, hrow⟩ := List.any_eq_true.1 hdb
  obtain ⟨hid, hactive⟩ := Bool.and_eq_true_iff.1 hrow
  have hreleased := h _ _ _ _ db db₁ db₂ 0 _ _ session hr hs hattach hnotices
    (fun q hq => by rw [List.mem_singleton] at hq; subst hq; exact ⟨.rejected, ⟨_, _, _, rfl, rfl⟩, by decide⟩)
    ⟨paid 4 "4" "3" .rejected, rfl, .inl ⟨_, _, _, rfl, rfl⟩⟩
  rw [hreleased a ha (of_decide_eq_true hid)] at hactive
  cases hactive

/-! ## Failures -/

/-- A call of `PaymentSessionService.create` for the cart. -/
def CallsFor (cartId : Id) (q : Request) : Prop :=
  ∃ tenant request key recordId attemptId, q.action = .prepareSession tenant cartId request key recordId attemptId

/-- A call has recorded its attempt, and has then failed: the provider has not answered, or its answer could not
be attached. The clock is past the epoch. -/
structure FailedSession (cartId : Id) (attempt : PaymentAttempt) (q : Request) (db db' : Db) : Prop where
  call : CallsFor cartId q
  clock : 0 < q.draw.now
  failed : ∃ db₁ draw, step db q = some db₁ ∧ db₁.attempts = db.attempts ++ [attempt] ∧
    step db₁ ⟨.giveUpSession db.sessions.length, draw⟩ = some db'

/-- The database without the attempt. -/
def Db.without (db : Db) (attemptId : Id) : Db := { db with attempts := db.attempts.filter (·.id ≠ attemptId) }

/-- The call begins a session. -/
def Begins (db : Db) (q : Request) : Prop := ∃ db' ∈ step db q, db'.sessions ≠ db.sessions

/-- No call for the cart that could begin a session if the attempt were not there is turned down. -/
def LeavesPayable (cartId attemptId : Id) (db : Db) : Prop :=
  ∀ q, CallsFor cartId q → Begins (db.without attemptId) q → Begins db q

/-- What `prepare` asks of the store, the cart and the request. -/
structure Admits (tenant : PublicTenant) (cartId : Id) (request : CheckoutRequest) (now : Instant) (v : Db)
    (account : IntegrationAccount) (cart : Cart) (scheduledFor : Option Instant) : Prop where
  ordering : ¬ tenant.expressRetail = true
  online : v.settings.onlinePayments = true
  connected : (IntegrationRepository.currentMercadoPago v).filter (·.status = .active) = some account
  decryptable : account.decryptable = true
  found : CartRepository.find cartId v = some cart
  available : ¬ (CartService.unavailable now cart = true ∨ cart.status = .converted)
  version : ¬ request.cartVersion.any (· ≠ cart.version) = true
  payable : ¬ (cart.lines = [] ∨ cart.total = 0)
  coupon : CreateCashOrderService.couponObstacle cart now .mercadopago v = none
  lines : cart.lines.forM (PaymentSessionService.revalidateLine cart v) = .ok ()
  schedule : validateScheduledPickupTime request.scheduledFor now tenant = .ok scheduledFor

/-- The attempt that a session asks for. -/
def sessionInput (cart : Cart) (accountId : Id) (request : CheckoutRequest) (scheduledFor : Option Instant)
    (key : String) : IntegrationRepository.CreateAttemptInput where
  cartId := cart.id
  integrationAccountId := accountId
  amount := cart.total
  currency := cart.currency
  customer := request.customer
  notes := request.notes
  scheduledFor
  idempotencyKey := key

/-- A session is prepared: the claim is granted, everything is in order, and no attempt is under way. -/
inductive Prepares (tenant : PublicTenant) (cartId : Id) (request : CheckoutRequest) (key : String)
    (recordId attemptId : Id) (now : Instant) (v s : Db) : PreparedSession → Db → Prop
  | intro (account : IntegrationAccount) (cart : Cart) (scheduledFor : Option Instant) (claimId : Id)
      (hash : IdemRequest) (t : List (Idempotency.Record IdemRequest IdemResponse)) (attempt : PaymentAttempt) (s' : Db)
      (hadmits : Admits tenant cartId request now v account cart scheduledFor)
      (hclaim : Commits (Idempotency.claim id
        { tenantId := some s.tenantId, scope := "payment-session:" ++ cartId, key, request := .paymentSession request,
          retentionSeconds := some 3600 } recordId now)
        v.idempotency s.idempotency (.claimed claimId hash) t)
      (hactive : IntegrationRepository.findActiveByCartId cart.id v = none)
      (hattempt : Commits (IntegrationRepository.createPaymentAttempt
        (sessionInput cart account.id request scheduledFor key) attemptId) v { s with idempotency := t } attempt s') :
      Prepares tenant cartId request key recordId attemptId now v s
        { attemptId := attempt.id, integrationAccountId := account.id, cartId := cart.id, total := cart.total,
          currency := cart.currency, recordId := claimId } s'

section Failures
variable {tenant : PublicTenant} {cartId recordId attemptId : Id} {request : CheckoutRequest} {key : String}
  {now : Instant} {v s s' : Db} {session : PreparedSession}

theorem service_claim_iff {scope : String} {body : IdemRequest} {retention : Option Nat}
    {a : Idempotency.Answer IdemRequest IdemResponse} :
    Commits (IdempotencyService.claim scope key body retention recordId now) v s a s' ↔
      ∃ t, Commits (Idempotency.claim id
        { tenantId := some s.tenantId, scope, key, request := body, retentionSeconds := retention } recordId now)
        v.idempotency s.idempotency a t ∧ { s with idempotency := t } = s' := by
  simp only [IdempotencyService.claim, onIdempotency, commits_bind, commits_current, commits_zoom]
  constructor
  · rintro ⟨_, _, ⟨rfl, rfl⟩, t, ht, rfl⟩
    exact ⟨t, ht, rfl⟩
  · rintro ⟨t, ht, rfl⟩
    exact ⟨_, s, ⟨rfl, rfl⟩, t, ht, rfl⟩

/-- A key that no row has is claimed. -/
theorem claim_granted {scope : String} {db : Db}
    (hvalid : ¬ (Text.trim key = "" ∨ Text.length (Text.trim key) > 255))
    (hunused : ∀ r ∈ db.idempotency,
      r.id ≠ recordId ∧ recordIdentity (some db.tenantId) scope (Text.trim key) r = false)
    (view : Db) (body : IdemRequest) (retention : Option Nat) (now : Instant) :
    ∃ rows, Commits (IdempotencyService.claim scope key body retention recordId now) view db
      (.claimed recordId body) { db with idempotency := rows } := by
  have hnone : ∀ record : Idempotency.Record IdemRequest IdemResponse, record.id = recordId →
      record.tenantId = some db.tenantId → record.scope = scope → record.idempotencyKey = Text.trim key →
      db.idempotency.find? (conflicts record) = none := by
    intro record hid htenant hscope hkey
    rw [List.find?_eq_none]
    intro r hr
    obtain ⟨hne, hother⟩ := hunused r hr
    rw [conflicts, hid, htenant, hscope, hkey, hother, decide_eq_false hne]
    exact Bool.false_ne_true
  have hgranted : ∃ rows, Commits (Idempotency.claim id
      { tenantId := some db.tenantId, scope, key, request := body, retentionSeconds := retention }
      recordId now) view.idempotency db.idempotency (.claimed recordId body) rows := by
    rw [Idempotency.claim]
    dsimp only
    simp only [commits_throwIf_bind, commits_current_bind]
    rw [hnone _ rfl rfl rfl rfl]
    exact ⟨_, hvalid, rfl⟩
  obtain ⟨rows, hgranted⟩ := hgranted
  exact ⟨rows, service_claim_iff.2 ⟨rows, hgranted, rfl⟩⟩

/-- The first transaction replays an answer, or prepares a session. -/
theorem prepare_cases {p : PaymentSessionService.Prepared}
    (h : Commits (PaymentSessionService.prepare tenant cartId request key recordId attemptId now) v s p s') :
    (∃ body t, p = .replayed body ∧ s' = { s with idempotency := t }) ∨
      ∃ session, p = .ready session ∧ Prepares tenant cartId request key recordId attemptId now v s session s' := by
  simp only [PaymentSessionService.prepare, commits_throwIf_bind, commits_look_bind, commits_orThrow_bind] at h
  obtain ⟨hordering, honline, account, haccount, h⟩ := h
  obtain ⟨claim, s₁, hclaim, h⟩ := commits_bind.1 h
  obtain ⟨t, hgranted, ht⟩ := service_claim_iff.1 hclaim
  cases claim with
  | replay status body =>
    rw [commits_pure] at h
    exact .inl ⟨body, t, h.1.symm, h.2.symm.trans ht.symm⟩
  | claimed claimId hash =>
    simp only [commits_look_bind, commits_orThrow_bind, commits_throwIf_bind, commits_fromExcept_bind] at h
    obtain ⟨cart, hcart, havailable, hversion, hpayable, -, hcoupon, _, hlines, hactive, scheduledFor, hschedule, h⟩ := h
    obtain ⟨attempt, s₂, hattempt, h⟩ := commits_bind.1 h
    obtain ⟨hdecryptable, h⟩ := commits_throwIf_bind.1 h
    obtain ⟨hsession, rfl⟩ := commits_pure.1 h
    rw [← ht] at hattempt
    refine .inr ⟨_, hsession.symm, .intro account cart scheduledFor claimId hash t attempt _
      { ordering := hordering, online := not_not.1 honline, connected := haccount,
        decryptable := not_not.1 hdecryptable, found := hcart, available := havailable, version := hversion,
        payable := hpayable, coupon := ?_, lines := hlines, schedule := hschedule } hgranted ?_ hattempt⟩
    · simpa using hcoupon
    · simpa using hactive

theorem Prepares.commits
    (h : Prepares tenant cartId request key recordId attemptId now v s session s') :
    Commits (PaymentSessionService.prepare tenant cartId request key recordId attemptId now) v s (.ready session) s' := by
  obtain ⟨account, cart, scheduledFor, claimId, hash, t, attempt, s', hadmits, hclaim, hactive, hattempt⟩ := h
  simp only [PaymentSessionService.prepare, commits_throwIf_bind, commits_look_bind, commits_orThrow_bind]
  refine ⟨hadmits.ordering, not_not.2 hadmits.online, account, hadmits.connected, commits_bind.2
    ⟨.claimed claimId hash, _, service_claim_iff.2 ⟨t, hclaim, rfl⟩, ?_⟩⟩
  simp only [commits_look_bind, commits_orThrow_bind, commits_throwIf_bind, commits_fromExcept_bind]
  refine ⟨cart, hadmits.found, hadmits.available, hadmits.version, hadmits.payable, ?_, ?_, (), hadmits.lines, ?_,
    scheduledFor, hadmits.schedule, commits_bind.2 ⟨attempt, s', hattempt, ?_⟩⟩
  · rw [hadmits.coupon]; exact (Option.some_ne_none _).symm
  · rw [hadmits.coupon]; exact Bool.false_ne_true
  · rw [hactive]; exact Bool.false_ne_true
  · exact commits_throwIf_bind.2 ⟨not_not.2 hadmits.decryptable, rfl⟩

/-- `prepare` asks nothing else of the attempts, the claims and the sessions. -/
theorem Admits.elsewhere {account : IntegrationAccount} {cart : Cart} {scheduledFor : Option Instant}
    {attempts : List PaymentAttempt} {idempotency : List (Idempotency.Record IdemRequest IdemResponse)}
    {sessions : List PreparedSession} (h : Admits tenant cartId request now v account cart scheduledFor) :
    Admits tenant cartId request now { v with attempts, idempotency, sessions } account cart scheduledFor :=
  ⟨h.ordering, h.online, h.connected, h.decryptable, h.found, h.available, h.version, h.payable, h.coupon, h.lines,
    h.schedule⟩

/-- A prepared session is not among the sessions yet. -/
theorem Prepares.sessions (h : Prepares tenant cartId request key recordId attemptId now v s session s') :
    s'.sessions = s.sessions := by
  obtain ⟨account, cart, scheduledFor, claimId, hash, t, attempt, s', hadmits, hclaim, hactive, hattempt⟩ := h
  obtain ⟨rows, -, rfl⟩ := createPaymentAttempt_cases hattempt
  rfl

variable {q : Request} {db db' : Db}

/-- A call that commits replays an answer, or begins a session. -/
theorem prepareSession_cases (hq : q.action = .prepareSession tenant cartId request key recordId attemptId)
    (h : step db q = some db') : (db'.sessions = db.sessions ∧ db'.attempts = db.attempts) ∨
      ∃ session s, Prepares tenant cartId request key recordId attemptId q.draw.now db db session s ∧
        db' = { s with sessions := s.sessions ++ [session] } := by
  obtain ⟨answer, hx⟩ := step_eq.1 h
  have hrun := exec_eq.1 hx
  rw [hq] at hrun
  obtain ⟨_, hrun⟩ := commits_effect hrun
  obtain ⟨prepared, s, hprepare, hend⟩ := commits_bind.1 hrun
  rcases prepare_cases hprepare with ⟨body, t, rfl, rfl⟩ | ⟨session, rfl, hprepares⟩
  · rw [commits_pure] at hend
    rw [← hend.2]
    exact .inl ⟨rfl, rfl⟩
  · rw [commits_write] at hend
    exact .inr ⟨session, s, hprepares, hend.symm⟩

theorem begins_iff (hq : q.action = .prepareSession tenant cartId request key recordId attemptId) :
    Begins db q ↔ ∃ session s, Prepares tenant cartId request key recordId attemptId q.draw.now db db session s := by
  constructor
  · rintro ⟨db', hs, hne⟩
    rcases prepareSession_cases hq hs with ⟨hsame, -⟩ | ⟨session, s, hprepares, -⟩
    · exact absurd hsame hne
    · exact ⟨session, s, hprepares⟩
  · rintro ⟨session, s, hprepares⟩
    refine ⟨{ s with sessions := s.sessions ++ [session] }, step_eq.2 ⟨.done, exec_eq.2 ?_⟩, ?_⟩
    · rw [hq]
      simp only [Action.run, effect, beginSession, commits_bind, commits_pure]
      exact ⟨(), _, ⟨.ready session, s, hprepares.commits, commits_write.2 rfl⟩, trivial, rfl⟩
    · intro hsame
      rw [← hprepares.sessions] at hsame
      simpa using congrArg List.length hsame

/-- An active attempt keeps every call for its cart from beginning a session. -/
theorem not_begins {a : PaymentAttempt} (hq : CallsFor cartId q) (ha : a ∈ db.attempts) (hactive : a.active = true)
    (hcart : a.cartId = cartId) : ¬ Begins db q := by
  obtain ⟨tenant, request, key, recordId, attemptId, hq⟩ := hq
  rw [begins_iff hq]
  rintro ⟨session, s, hprepares⟩
  obtain ⟨account, cart, scheduledFor, claimId, hash, t, attempt, s', hadmits, hclaim, hfree, hattempt⟩ := hprepares
  have hid : cart.id = cartId := lookup_key hadmits.found
  have hnone := List.find?_eq_none.1 hfree a ha
  exact hnone (Bool.and_eq_true_iff.2 ⟨decide_eq_true (hcart.trans hid.symm), hactive⟩)

/-- The second transaction of a session that has failed marks its record, and ends it. -/
theorem giveUp_leaves {draw : Draw} {i : Nat} (h : step db ⟨.giveUpSession i, draw⟩ = some db') :
    ∃ session rest, db.sessions[i]? = some session ∧ db' = { db with
      idempotency := Table.updateWhere (·.id = session.recordId)
        (fun r => { r with state := .failed, lockedUntil := 0 }) db.idempotency
      sessions := rest } := by
  obtain ⟨answer, hx⟩ := step_eq.1 h
  obtain ⟨_, hrun⟩ := commits_effect (exec_eq.1 hx)
  simp only [endSession, commits_current_bind, commits_orThrow_bind] at hrun
  obtain ⟨session, hsession, hrun⟩ := hrun
  obtain ⟨_, s, hfail, hrun⟩ := commits_bind.1 hrun
  rw [commits_write] at hrun
  simp only [PaymentSessionService.giveUp, IdempotencyService.fail, onIdempotency, Idempotency.fail, commits_zoom,
    commits_write] at hfail
  obtain ⟨t, rfl, rfl⟩ := hfail
  exact ⟨session, _, hsession, hrun.symm⟩

theorem exists_free_id (ids : List Id) : ∃ id, id ∉ ids := by
  obtain ⟨id, hid⟩ := Infinite.exists_notMem_finset ids.toFinset
  exact ⟨id, fun h => hid (List.mem_toFinset.2 h)⟩

/-- The call itself could be made again if its attempt were not there. -/
theorem FailedSession.retry {attempt : PaymentAttempt} (h : FailedSession cartId attempt q db db') :
    attempt ∈ db'.attempts ∧ attempt.active = true ∧ attempt.cartId = cartId ∧
      ∃ q', CallsFor cartId q' ∧ Begins (db'.without attempt.id) q' := by
  obtain ⟨tenant, request, key, recordId, attemptId, hq⟩ := h.call
  obtain ⟨db₁, draw, hprepare, hrecorded, hfailed⟩ := h.failed
  rcases prepareSession_cases hq hprepare with ⟨-, hsame⟩ | ⟨session, s, hprepares, hdb₁⟩
  · rw [hsame] at hrecorded
    exact absurd (congrArg List.length hrecorded) (by simp)
  obtain ⟨account, cart, scheduledFor, claimId, hash, t, a, s, hadmits, hclaim, hactive, hattempt⟩ := hprepares
  obtain ⟨rows, hfor, hs⟩ := createPaymentAttempt_cases hattempt
  have hrows : db.attempts ++ [attempt] = rows := by rw [← hrecorded, hdb₁, hs]
  have hcart : cart.id = cartId := lookup_key hadmits.found
  cases hfor with
  | existing => exact absurd (congrArg List.length hrows) (by simp)
  | new hfree =>
    have hrow : attempt = (sessionInput cart account.id request scheduledFor key).row attemptId := by
      simpa using hrows
    obtain ⟨session', rest, hsession, hdb'⟩ := giveUp_leaves hfailed
    have hrecord : session'.recordId = claimId := by
      rw [hdb₁, hs] at hsession
      simp at hsession
      rw [← hsession]
    rw [hdb₁, hs, hrecord] at hdb'
    have hattempts : db'.attempts = db.attempts ++ [attempt] := by rw [hdb', hrow]
    refine ⟨by rw [hattempts]; simp, by rw [hrow]; rfl, by rw [hrow]; exact hcart, ?_⟩
    -- the same request again, with an attempt id that is free
    obtain ⟨fresh, hfresh⟩ := exists_free_id (db'.attempts.map PaymentAttempt.id)
    have hnew (x : PaymentAttempt) (hx : x ∈ db'.attempts) : x.id ≠ fresh := by
      intro hid
      exact hfresh (List.mem_map.2 ⟨x, hx, hid⟩)
    have hold {x : PaymentAttempt} (hx : x ∈ (db'.without attempt.id).attempts) : x ∈ db.attempts ∧ x ∈ db'.attempts := by
      obtain ⟨hx, hne⟩ := List.mem_filter.1 hx
      refine ⟨?_, hx⟩
      rw [hattempts] at hx
      rcases List.mem_append.1 hx with hx | hx
      · exact hx
      · rw [List.mem_singleton.1 hx] at hne
        exact absurd rfl (of_decide_eq_true hne)
    refine ⟨{ q with action := .prepareSession tenant cartId request key recordId fresh },
      ⟨tenant, request, key, recordId, fresh, rfl⟩, (begins_iff rfl).2 ?_⟩
    -- the claim finds the record that has failed
    obtain ⟨hkey, r, hfound, rfl, hrhash⟩ := Idempotency.claim_leaves hclaim
    let fail (r : Idempotency.Record IdemRequest IdemResponse) : Idempotency.Record IdemRequest IdemResponse :=
      { r with state := .failed, lockedUntil := 0 }
    have hfailed := (Table.find?_updateWhere (f := fail) (p := (·.id = r.id)) (by intro _ _; rfl)).trans
      (congrArg (Option.map _) hfound)
    rw [Option.map_some, if_pos (decide_eq_true rfl)] at hfailed
    obtain ⟨t', hgranted⟩ := Idempotency.claim_granted recordId q.draw.now hkey hfailed hrhash
      (by intro hc; cases hc) h.clock
    have hw : db'.without attempt.id = { db with
        attempts := db'.attempts.filter (·.id ≠ attempt.id)
        idempotency := Table.updateWhere (·.id = r.id) fail t
        sessions := rest } := by rw [Db.without, hdb']
    rw [hw] at hold ⊢
    have hfree (x : PaymentAttempt) (hx : x ∈ db'.attempts.filter (·.id ≠ attempt.id)) :
        x.id ≠ fresh ∧ x.idempotencyKey ≠ key := ⟨hnew x (hold hx).2, (hfree x (hold hx).1).2⟩
    refine ⟨_, _, .intro account cart scheduledFor (fail r).id (fail r).requestHash t' _ _ hadmits.elsewhere hgranted ?_
      (createPaymentAttempt_new (not_or.1 hadmits.payable).2 hfree)⟩
    rw [IntegrationRepository.findActiveByCartId, List.find?_eq_none]
    intro x hx
    exact List.find?_eq_none.1 hactive x (hold hx).1

end Failures

/-- A call that fails once its attempt is recorded leaves a cart that no call can begin a session for. -/
theorem failed_session_blocks_cart {cartId : Id} {attempt : PaymentAttempt} {q : Request} {db db' : Db}
    (h : FailedSession cartId attempt q db db') :
    ¬ LeavesPayable cartId attempt.id db' ∧ ∀ q', CallsFor cartId q' → ¬ Begins db' q' := by
  obtain ⟨hmem, hactive, hcart, q', hq', hbegins⟩ := h.retry
  have hnot (q' : Request) (hq' : CallsFor cartId q') : ¬ Begins db' q' := not_begins hq' hmem hactive hcart
  exact ⟨fun hleaves => hnot q' hq' (hleaves q' hq' hbegins), hnot⟩

namespace Demo

/-- The provider does not answer the first session of a cart. -/
theorem firstSession_fails : ∃ db db' attempt,
    Runs.exec step (Db.fresh "tenant" settings) [setUp, fillCart "1" "cart"] = some db ∧
      FailedSession "cart" attempt (payOnline "2" "cart" "attempt") db db' := by
  have hx : (Runs.exec step (Db.fresh "tenant" settings) [setUp, fillCart "1" "cart"]).any (fun db =>
      (step db (payOnline "2" "cart" "attempt")).any fun db₁ =>
        (db₁.attempts.any fun a => db₁.attempts = db.attempts ++ [a]) &&
          (step db₁ (call 3 "3" (.giveUpSession db.sessions.length))).isSome) = true := by decide +kernel
  obtain ⟨db, hr, hdb⟩ := (Option.any_eq_true _ _).1 hx
  obtain ⟨db₁, hprepare, hdb⟩ := (Option.any_eq_true _ _).1 hdb
  obtain ⟨hrecorded, hdb⟩ := Bool.and_eq_true_iff.1 hdb
  obtain ⟨attempt, -, hrecorded⟩ := List.any_eq_true.1 hrecorded
  obtain ⟨db', hfailed⟩ := Option.isSome_iff_exists.1 hdb
  exact ⟨db, db', attempt, hr, ⟨_, _, _, _, _, rfl⟩, by decide, db₁, _, hprepare, of_decide_eq_true hrecorded, hfailed⟩

end Demo

theorem failed_session_blocks_cart_checkout : ∃ db db' attempt,
    FailedSession "cart" attempt (payOnline "2" "cart" "attempt") db db' ∧
      ¬ LeavesPayable "cart" attempt.id db' ∧ ∀ q', CallsFor "cart" q' → ¬ Begins db' q' := by
  obtain ⟨db, db', attempt, -, h⟩ := firstSession_fails
  exact ⟨db, db', attempt, h, failed_session_blocks_cart h⟩

/-- The attempt is as it was recorded, and the same call is turned down for it. -/
theorem unanswered_session_holds_cart : ¬ ∀ (tenantId : Id) (settings : Settings) (qs : List Request) (cartId : Id)
    (attempt : PaymentAttempt) (q : Request) (db db' : Db),
    Runs.exec step (Db.fresh tenantId settings) qs = some db → FailedSession cartId attempt q db db' →
      LeavesPayable cartId attempt.id db' := by
  intro h
  obtain ⟨db, db', attempt, hr, hfailed⟩ := firstSession_fails
  obtain ⟨hmem, hactive, hcart, q', hq', hbegins⟩ := hfailed.retry
  exact not_begins hq' hmem hactive hcart (h _ _ _ _ _ _ _ _ hr hfailed q' hq' hbegins)

end Komanda
