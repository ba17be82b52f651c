import Komanda.Proofs.IdempotencyRuns
import Komanda.Proofs.Footprints

/-!
# The stored answers of the cash checkout

Every idempotent service writes its answers to one table. Records are never deleted and keep their identity;
whatever the others do to them, the answers of the cash checkout that stand there were there before, under the
same scope. `Stored` is this preorder, and the frame rules carry it through every service but the checkout
itself.
-/

namespace Komanda
open Transaction Idempotency

abbrev IdemRecord := Record IdemRequest IdemResponse

/-- The columns of the unique constraint. -/
def identityOf (r : IdemRecord) : Option Id × String × String :=
  (r.tenantId, r.scope, r.idempotencyKey)

/-- From one table to the next, rows stay, and stay unique. -/
structure Retains (t t' : List IdemRecord) : Prop where
  ids : Table.UniqueOn Record.id t → Table.UniqueOn Record.id t'
  identities : Table.UniqueOn identityOf t → Table.UniqueOn identityOf t'
  rows : ∀ r ∈ t, ∃ r' ∈ t', r'.id = r.id ∧ identityOf r' = identityOf r

/-- Besides, no answer of a cash checkout is new. -/
structure Passes (t t' : List IdemRecord) : Prop extends Retains t t' where
  answers : ∀ r' ∈ t', ∀ response, r'.responseBody = some (.cashOrder response) →
    ∃ r ∈ t, r.scope = r'.scope ∧ r.responseBody = some (.cashOrder response)

/-- The two tables of a step of the database. -/
def Stored (s s' : Db) : Prop := Passes s.idempotency s'.idempotency

section Passes
variable {t t' t'' : List IdemRecord} {p : IdemRecord → Bool} {f : IdemRecord → IdemRecord}

theorem Retains.refl : Retains t t := ⟨id, id, fun r hr => ⟨r, hr, rfl, rfl⟩⟩

theorem Retains.trans (h : Retains t t') (h' : Retains t' t'') : Retains t t'' := by
  refine ⟨fun hu => h'.ids (h.ids hu), fun hu => h'.identities (h.identities hu), fun r hr => ?_⟩
  obtain ⟨r', hr', hid, hidentity⟩ := h.rows r hr
  obtain ⟨r'', hr'', hid', hidentity'⟩ := h'.rows r' hr'
  exact ⟨r'', hr'', hid'.trans hid, hidentity'.trans hidentity⟩

theorem Retains.update (hid : ∀ r, (f r).id = r.id) (hidentity : ∀ r, identityOf (f r) = identityOf r) :
    Retains t (Table.updateWhere p f t) := by
  refine ⟨fun hu => hu.updateWhere fun r _ => hid r, fun hu => hu.updateWhere fun r _ => hidentity r,
    fun r hr => ?_⟩
  cases hp : p r with
  | false => exact ⟨r, Table.mem_updateWhere_of_not hr hp, rfl, rfl⟩
  | true => exact ⟨f r, Table.mem_updateWhere_of hr hp, hid r, hidentity r⟩

theorem Passes.refl : Passes t t := ⟨.refl, fun r hr _ h => ⟨r, hr, rfl, h⟩⟩

theorem Passes.trans (h : Passes t t') (h' : Passes t' t'') : Passes t t'' := by
  refine ⟨h.toRetains.trans h'.toRetains, fun r'' hr'' response hb => ?_⟩
  obtain ⟨r', hr', hs', hb'⟩ := h'.answers r'' hr'' response hb
  obtain ⟨r, hr, hs, hb⟩ := h.answers r' hr' response hb'
  exact ⟨r, hr, hs.trans hs', hb⟩

instance : Std.Refl Stored := ⟨fun _ => .refl⟩

instance : Trans Stored Stored Stored := ⟨fun h h' => Passes.trans h h'⟩

@[grind ←] theorem Stored.of_eq {s s' : Db} (h : s'.idempotency = s.idempotency) : Stored s s' := by
  rw [Stored, h]; exact .refl

/-- An update that leaves the identity of a row alone and gives it no answer of a cash checkout. -/
theorem Passes.update (hid : ∀ r, (f r).id = r.id) (hidentity : ∀ r, identityOf (f r) = identityOf r)
    (hf : ∀ r response, (f r).responseBody = some (.cashOrder response) →
      r.responseBody = some (.cashOrder response)) : Passes t (Table.updateWhere p f t) := by
  refine ⟨.update hid hidentity, fun r' hr' response hb => ?_⟩
  rcases Table.mem_updateWhere_cases hr' with ⟨hr', -⟩ | ⟨r, hr, -, rfl⟩
  · exact ⟨r', hr', rfl, hb⟩
  · have hscope : (f r).scope = r.scope := congrArg (·.2.1) (hidentity r)
    exact ⟨r, hr, hscope.symm, hf r response hb⟩

section Claim
variable {input : ClaimInput IdemRequest} {newId : Id} {now : Instant} {v : List IdemRecord}
  {a : Idempotency.Answer IdemRequest IdemResponse}

theorem Idempotency.Claimed.passes (h : Claimed id input newId now v t a t') : Passes t t' := by
  cases h with
  | inserted record hr hnew =>
    have hfresh (q : IdemRecord) (hq : q ∈ t) : q.id ≠ record.id ∧ identityOf q ≠ identityOf record := by
      have hn := hnew q hq
      simp only [conflicts, Bool.or_eq_false_iff, decide_eq_false_iff_not] at hn
      refine ⟨hn.1, fun he => ?_⟩
      rw [recordIdentity_iff.2 he] at hn
      cases hn.2
    refine ⟨⟨fun hu => hu.append fun q hq => (hfresh q hq).1, fun hu => hu.append fun q hq => (hfresh q hq).2,
      fun r hr => ⟨r, List.mem_append_left _ hr, rfl, rfl⟩⟩, fun r' hr' response hb => ?_⟩
    rcases List.mem_append.1 hr' with hr' | hr'
    · exact ⟨r', hr', rfl, hb⟩
    · rw [List.mem_singleton] at hr'; subst hr'
      rw [hr] at hb; cases hb
  | replayed => exact .refl
  | reclaimed => exact .update (fun _ => rfl) (fun _ => rfl) fun _ _ h => h

/-- The columns that a claim looks for. -/
def claimIdentity (input : ClaimInput IdemRequest) : Option Id × String × String :=
  (input.tenantId, input.scope, Text.trim input.key)

/-- The record that a claim holds has its identity. -/
theorem Idempotency.Claimed.record {recordId : Id} {hash : IdemRequest}
    (h : Claimed id input newId now v t (.claimed recordId hash) t')
    (hrows : ∀ r ∈ v, ∃ q ∈ t, q.id = r.id ∧ identityOf q = identityOf r) :
    ∃ r ∈ t', r.id = recordId ∧ identityOf r = claimIdentity input := by
  cases h with
  | inserted record hr hnew => exact ⟨record, by simp, by rw [hr]; rfl, by rw [hr]; rfl⟩
  | reclaimed r hv hid hh hc hl q hq hqr =>
    obtain ⟨q', hq', hid', hidentity⟩ := hrows r hv
    have hid : identityOf r = claimIdentity input := recordIdentity_iff.1 hid
    let take (r : IdemRecord) : IdemRecord :=
      { r with state := .processing, lockedUntil := now + input.lockSeconds.getD 30 * 1000 }
    obtain ⟨r', hr', hr'id, hr'identity⟩ := (Retains.update (p := reclaimable r.id now) (f := take) (t := t)
      (fun _ => rfl) (fun _ => rfl)).rows q' hq'
    exact ⟨r', hr', hr'id.trans hid', hr'identity.trans (hidentity.trans hid)⟩

/-- A claim takes no record that its view shows completed. -/
theorem Idempotency.Claimed.not_completed {recordId : Id} {hash : IdemRequest} {r : IdemRecord}
    (h : Claimed id input newId now v t (.claimed recordId hash) t') (hr : r ∈ v)
    (hid : identityOf r = claimIdentity input) (hu : Table.UniqueOn identityOf v)
    (hrows : ∀ r ∈ v, ∃ q ∈ t, q.id = r.id ∧ identityOf q = identityOf r) : r.state ≠ .completed := by
  cases h with
  | inserted record hrecord hnew =>
    obtain ⟨q, hq, -, hidentity⟩ := hrows r hr
    have hn := (Bool.or_eq_false_iff.1 (hnew q hq)).2
    have hi : identityOf q = identityOf record := by rw [hidentity, hid, hrecord]; rfl
    rw [recordIdentity_iff.2 hi] at hn; cases hn
  | reclaimed r' hv hid' hh hc =>
    have hi : identityOf r' = claimIdentity input := recordIdentity_iff.1 hid'
    rwa [hu.eq hr hv (hid.trans hi.symm)]

end Claim

end Passes

/-! ## Services -/

section Frame
variable {α : Type} {now : Instant} {draw : Draw}

theorem stored_onIdempotency {x : Tx (List IdemRecord) IdempotencyError α} (h : Within Passes x) :
    Within Stored (onIdempotency x) := Within.zoom h fun _ _ h => h

@[grind ←] theorem stored_claim (scope key : String) (request : IdemRequest) (retention : Option Nat) (id : Id) :
    Within Stored (IdempotencyService.claim scope key request retention id now) :=
  Within.bind (Within.current _) fun _ => stored_onIdempotency fun _ _ _ _ h => (claim_cases h).passes

/-- A body that does not write the table. -/
theorem stored_of_writes {x : DbTx α} {S : List TableName} (hx : Within (Writes S) x)
    (h : .idempotency ∉ S) : Within Stored x :=
  fun v s a s' hc => .of_eq (hx v s a s' hc .idempotency h)

/-- The answer of another service. -/
@[grind ←] theorem stored_complete (recordId : Id) (status : Nat) {body : IdemResponse}
    (hb : ∀ response, body ≠ .cashOrder response) :
    Within Stored (IdempotencyService.complete recordId status body) := by
  refine stored_onIdempotency (Within.write fun t => Passes.update (fun _ => rfl) (fun _ => rfl) ?_)
  intro r response h
  exact absurd (Option.some.inj h) (hb response)

@[grind ←] theorem stored_fail (recordId : Id) : Within Stored (IdempotencyService.fail recordId) := by
  refine stored_onIdempotency (Within.write fun t => Passes.update (fun _ => rfl) (fun _ => rfl) ?_)
  intro r response h
  exact h

@[grind ←] theorem stored_outbox (t : String) (i : Id) (e : String) (p : Payload) :
    Within Stored (appendOutboxEvent t i e p) := by
  unfold appendOutboxEvent; grind

@[grind ←] theorem stored_audit (a t : String) (i : Id) (m : Payload) :
    Within Stored (appendAuditEvent a t i m) := by
  unfold appendAuditEvent; grind

@[grind ←] theorem stored_event (i : Id) (e : String) (s t : Option FulfillmentStatus) (m : Payload) :
    Within Stored (OrderRepository.appendEvent i e s t m) := by
  unfold OrderRepository.appendEvent; grind

@[grind ←] theorem stored_ticket (order : Order) : Within Stored (enqueueOrderTicket order draw) :=
  stored_of_writes (writes_ticket order (List.mem_singleton_self _)) (by simp)

@[grind ←] theorem stored_movement (m : CashMovement) (e : AppError) : Within Stored (recordMovement m e) := by
  unfold recordMovement; grind

@[grind ←] theorem stored_createCart (input : CartRepository.CreateInput) (id : Id) :
    Within Stored (CartRepository.create input id) := by
  unfold CartRepository.create; grind

@[grind ←] theorem stored_updateReturning (p : Order → Bool) (f : Order → Order) :
    Within Stored (OrderRepository.updateReturning p f now) := by
  unfold OrderRepository.updateReturning; grind

@[grind ←] theorem stored_releaseCoupon (order : Order) : Within Stored (releaseCoupon order) := by
  unfold releaseCoupon DiscountRepository.markRedemptionCancelled; grind

@[grind ←] theorem stored_createPaymentAttempt (input : IntegrationRepository.CreateAttemptInput) (id : Id) :
    Within Stored (IntegrationRepository.createPaymentAttempt input id) := by
  unfold IntegrationRepository.createPaymentAttempt; grind

@[grind ←] theorem stored_updateAttempt (id : Id) (f : PaymentAttempt → PaymentAttempt) :
    Within Stored (IntegrationRepository.updateAttempt id f) := by
  unfold IntegrationRepository.updateAttempt; grind

@[grind ←] theorem stored_insertRoute (route : ProviderResourceRoute) :
    Within Stored (IntegrationRepository.insertRoute route) :=
  Within.write fun db => Stored.of_eq (by split <;> rfl)

@[grind ←] theorem stored_attachPreference (a i : Id) (p : String) :
    Within Stored (IntegrationRepository.attachPreference a i p) := by
  unfold IntegrationRepository.attachPreference; grind

@[grind ←] theorem stored_effect {x : DbTx α} (h : Within Stored x) : Within Stored (effect x) := by
  unfold effect; grind

@[grind ←] theorem stored_orStale (updated : Option Order) : Within Stored (orStale updated) :=
  Within.orThrow _ _

/-! A long body is taken bind by bind. -/

@[grind ←] theorem stored_CartService_create (tenant : PublicTenant) (request : CreateCartRequest) (key : String)
    (recordId cartId : Id) : Within Stored (CartService.create tenant request key recordId cartId now) := by
  unfold CartService.create
  repeat refine Within.bind (by grind) fun _ => ?_
  split
  · grind
  · repeat refine Within.bind (by grind) fun _ => ?_
    grind

@[grind ←] theorem stored_prepare (tenant : PublicTenant) (cartId : Id) (request : CheckoutRequest) (key : String)
    (recordId attemptId : Id) :
    Within Stored (PaymentSessionService.prepare tenant cartId request key recordId attemptId now) := by
  unfold PaymentSessionService.prepare
  repeat refine Within.bind (by grind) fun _ => ?_
  split
  · grind
  · repeat refine Within.bind (by grind) fun _ => ?_
    grind

@[grind ←] theorem stored_attach (session : PreparedSession) (preference : Preference) :
    Within Stored (PaymentSessionService.attach session preference) := by
  unfold PaymentSessionService.attach
  repeat refine Within.bind (by grind) fun _ => ?_
  grind

@[grind ←] theorem stored_kioskSession (request : KioskPaymentSessionRequest) (key : String)
    (recordId cartId attemptId : Id) (preference : Except AppError Preference) : Within Stored
    (KioskPaymentService.createSession request key recordId cartId attemptId preference now) := by
  unfold KioskPaymentService.createSession
  repeat refine Within.bind (by grind) fun _ => ?_
  split
  · grind
  · repeat refine Within.bind (by grind) fun _ => ?_
    grind

@[grind ←] theorem stored_kioskCancel (attemptId : Id) (key : String) (recordId : Id) :
    Within Stored (KioskPaymentService.cancelAttempt attemptId key recordId now) := by
  unfold KioskPaymentService.cancelAttempt
  repeat refine Within.bind (by grind) fun _ => ?_
  split
  · grind
  · repeat refine Within.bind (by grind) fun _ => ?_
    grind

@[grind ←] theorem stored_collect (actor : Actor) (orderId : Id) (key : String) (request : CollectCashRequest)
    (recordId : Id) : Within Stored (CollectCashService.collect actor orderId key request recordId draw) := by
  have happly (order : Order) (recordId : Id) : Within Stored (CollectCashService.apply order recordId request draw) := by
    unfold CollectCashService.apply OrderRepository.appendTransitionEvent
    repeat refine Within.bind (by grind) fun _ => ?_
    grind
  unfold CollectCashService.collect
  repeat refine Within.bind (by grind) fun _ => ?_
  split
  · grind
  · repeat refine Within.bind (by grind) fun _ => ?_
    refine Within.ite ?_ ?_
    · repeat refine Within.bind (by grind) fun _ => ?_
      grind
    · split <;> grind

@[grind ←] theorem stored_refund (actor : Actor) (orderId : Id) (key : String) (request : RefundCashRequest)
    (recordId : Id) : Within Stored (RefundCashService.refund actor orderId key request recordId draw) := by
  have happly (order : Order) (recordId : Id) : Within Stored (RefundCashService.apply order recordId request draw) := by
    unfold RefundCashService.apply OrderRepository.appendTransitionEvent
    repeat refine Within.bind (by grind) fun _ => ?_
    grind
  unfold RefundCashService.refund
  repeat refine Within.bind (by grind) fun _ => ?_
  split
  · grind
  · repeat refine Within.bind (by grind) fun _ => ?_
    refine Within.ite ?_ ?_
    · repeat refine Within.bind (by grind) fun _ => ?_
      grind
    · split <;> grind

theorem stored_createFromCartSnapshot (input : SnapshotInput) :
    Within Stored (OrderRepository.createFromCartSnapshot input draw) :=
  stored_of_writes (writes_snapshot input (List.Subset.refl _)) (by decide)

/-- What every request but the cash checkout does to the table. -/
theorem stored_run {action : Action} (h : ∀ tenant cartId request key recordId,
    action ≠ .createCashOrder tenant cartId request key recordId) : Within Stored (action.run draw) := by
  by_cases hmem : .idempotency ∈ action.tables
  · cases action with
    | createCashOrder => exact absurd rfl (h _ _ _ _ _)
    | prepareSession => unfold Action.run beginSession; grind
    | attachSession => unfold Action.run endSession; grind
    | giveUpSession => unfold Action.run endSession PaymentSessionService.giveUp; grind
    | createCart => unfold Action.run; grind
    | kioskSession => unfold Action.run; grind
    | kioskCancel => unfold Action.run; grind
    | collect => unfold Action.run; grind
    | refund => unfold Action.run; grind
    | _ => simp [snapshotTables, operationTables] at hmem
  · exact stored_of_writes (writes_run action) hmem

end Frame

end Komanda
