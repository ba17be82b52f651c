import Komanda.Proofs.CashLedger
import Komanda.Proofs.FinalApprovals

/-!
# The version of an order

An operation on an order looks at a row it has read without a lock, and updates the row on a condition on
the version. Four of them ask for the version they have read. The transition asks for the version that its
client sends, and the reconciliation for none, so these two can update a row that their guards never saw.
-/

namespace Komanda
open Komanda.Core Table Runs ReadCommitted Transaction

/-! ## The law -/

/-- The order that the guards of a request look at. -/
def guardedRow (q : Request) (v : Db) : Option Order :=
  match q.action with
  | .transition orderId _ _ => OrderRepository.findById orderId v
  | .collect _ orderId _ _ _ => OrderRepository.findById orderId v
  | .refund _ orderId _ _ _ => OrderRepository.findById orderId v
  | .cancelUnpaid orderId _ => OrderRepository.findById orderId v
  | .expire orderId => OrderRepository.findById orderId v
  | .reconcile attemptId _ => OrderRepository.findByPaymentAttempt attemptId v
  | _ => none

/-- Everything but the payment attempts and the idempotency records. -/
def Db.rest (db : Db) : Db := { db with attempts := [], idempotency := [] }

/-- What a commit of the request does to the orders. -/
structure DecidesOnRow (q : Request) (v db db' : Db) : Prop where
  /-- A row that it changes is the row its view had, and gets the next version. -/
  changed : ∀ o ∈ db.orders, ∀ o' ∈ db'.orders, o'.id = o.id → o' ≠ o →
    OrderRepository.findById o.id v = some o ∧ o'.version = o.version + 1
  /-- With guards that saw another version it does nothing. -/
  refused : ∀ r ∈ guardedRow q v, ∀ o ∈ OrderRepository.findById r.id db, r.version ≠ o.version →
    db'.rest = db.rest

def OptimisticallySound (q : Request) (v db : Db) : Prop :=
  ∀ a db', exec q v db = some (a, db') → DecidesOnRow q v db db'

/-! ## The condition -/

/-- The reconciliation changes the order, whose payment status it has read. -/
def Reconciliation.settles (provider : ProviderStatus) (stored : PaymentStatus) : Prop :=
  (provider = .approved ∧ stored ≠ .paid) ∨
    ((provider = .rejected ∨ provider = .cancelled) ∧ stored = .verificationRequired)

instance (provider : ProviderStatus) (stored : PaymentStatus) :
    Decidable (Reconciliation.settles provider stored) := inferInstanceAs (Decidable (_ ∨ _))

/-- The row that a transition updates, or a reconciliation, has the version that its guards have read. -/
def UpdatesReadVersion (q : Request) (v db : Db) : Prop :=
  match q.action with
  | .transition orderId expectedVersion request =>
    ∀ r ∈ OrderRepository.findById orderId v, ∀ o ∈ OrderRepository.findById orderId db,
      TransitionOrderService.obstacle r request = none → r.fulfillmentStatus ≠ request.fulfillmentStatus →
      o.version = expectedVersion → r.version = expectedVersion
  | .reconcile attemptId (some payment) =>
    ∀ a ∈ Table.lookup PaymentAttempt.id attemptId v.attempts, Reconciliation.settled a = false →
      a.providerPaymentId ≠ none → ∀ r ∈ OrderRepository.findByPaymentAttempt attemptId v,
      Reconciliation.settles payment.status r.paymentStatus →
      ∀ o ∈ OrderRepository.findById r.id db, o.version = r.version
  | _ => True

instance (q : Request) (v db : Db) : Decidable (UpdatesReadVersion q v db) := by
  apply Action.casesOn (motive := fun a => Decidable (UpdatesReadVersion ⟨a, q.draw⟩ v db)) q.action
  case reconcile =>
    intro attemptId lookup
    apply Option.casesOn (motive := fun l => Decidable (UpdatesReadVersion ⟨.reconcile attemptId l, q.draw⟩ v db))
      lookup <;> intros <;> dsimp only [UpdatesReadVersion] <;> infer_instance
  all_goals intros; dsimp only [UpdatesReadVersion]; infer_instance

/-! ## Views -/

/-- A row of the view has been stored since, and is the stored one if its version is. -/
structure SeesVersions (v db : Db) : Prop where
  ids : UniqueOn Order.id v.orders
  orders : ∀ r ∈ v.orders, ∃ o ∈ db.orders, o.id = r.id ∧ r.version ≤ o.version ∧
    (r.version = o.version → r = o)

section Views
variable {q : Request} {v w db db' : Db} {r o : Order}

theorem SeesVersions.refl (hu : UniqueOn Order.id db.orders) : SeesVersions db db :=
  ⟨hu, fun r hr => ⟨r, hr, rfl, Nat.le_refl _, fun _ => rfl⟩⟩

theorem SeesVersions.reread (h : SeesVersions v db) (hu : UniqueOn Order.id db.orders) (part : Part) :
    SeesVersions (reread part v db) db := by
  cases part with
  | orders => exact ⟨hu, (SeesVersions.refl hu).orders⟩
  | _ => exact ⟨h.ids, h.orders⟩

/-- Every change of a row gives it a version that no view has seen of it. -/
theorem SeesVersions.effect (h : SeesVersions w db) (hx : Effect q v db db'.core) : SeesVersions w db' := by
  refine ⟨h.ids, fun r hr => ?_⟩
  obtain ⟨o, ho, hid, hle, heq⟩ := h.orders r hr
  have hkept (hm : o ∈ db'.orders) : ∃ o ∈ db'.orders, o.id = r.id ∧ r.version ≤ o.version ∧
      (r.version = o.version → r = o) := ⟨o, hm, hid, hle, heq⟩
  generalize hc : db'.core = c at hx
  have hrows : db'.orders = c.orders := congrArg Core.orders hc
  rw [hrows] at hkept ⊢
  cases hx with
  | sold => rw [book_orders, sell_orders] at hkept ⊢; exact hkept (List.mem_append_left _ ho)
  | revised order row p f movement released rows hrev =>
    rw [release_orders, book_orders, revise_orders] at hkept ⊢
    by_cases hp : p o = true
    · refine ⟨bump f q.draw.now o, mem_updateWhere_of ho hp, ?_, ?_, ?_⟩
      · exact (Order.column Order.id (hrev.facts q.draw.now o)).trans hid
      · exact Nat.le_succ_of_le hle
      · intro hver
        have hver : r.version = o.version + 1 := hver
        omega
    · exact hkept (mem_updateWhere_of_not ho (Bool.eq_false_iff.2 hp))
  | _ => exact hkept ho

/-- The row of the view and the stored row of one version are the same. -/
theorem SeesVersions.same (h : SeesVersions v db) (hu : UniqueOn Order.id db.orders) (hr : r ∈ v.orders)
    (ho : o ∈ db.orders) (hid : o.id = r.id) (hver : o.version = r.version) : r = o := by
  obtain ⟨x, hx, hxid, -, heq⟩ := h.orders r hr
  have hxo : x = o := hu.eq hx ho (hxid.trans hid.symm)
  subst hxo
  exact heq hver.symm

end Views

/-! ## A change is decided on the row it replaces -/

section Changes
variable {q : Request} {v db : Db} {c : Core} {order o : Order} {p : Order → Bool} {f : Order → Order}
  {movement : Option CashMovement} {released : Bool} {rows : List PaymentAttempt}

/-- The row that an operation updates has the version its guards have read. -/
theorem Revision.version (h : Revision q v db order p f movement released rows)
    (hc : UpdatesReadVersion q v db) (hv : UniqueOn Order.id v.orders) (hu : UniqueOn Order.id db.orders)
    (hmem : order ∈ v.orders) (ho : o ∈ db.orders) (hp : p o = true) : o.version = order.version := by
  have hid : o.id = order.id := h.row_id hp
  have hstored : OrderRepository.findById order.id db = some o := hid ▸ hu.lookup ho
  cases h with
  | transition expectedVersion request hq hg hne =>
    rw [UpdatesReadVersion, hq] at hc
    have hver : o.version = expectedVersion := of_decide_eq_true (Bool.and_eq_true_iff.1 hp).2
    rw [hver, hc order (hv.lookup hmem) o hstored hg hne hver]
  | confirm attempt _ _ _ hpaid payment h hok hread =>
    rw [UpdatesReadVersion, h.request] at hc
    exact hc attempt h.read h.unsettled h.asked order hread (.inl ⟨hok, hpaid⟩) o hstored
  | refuse attempt payment h hrefused _ hs hread =>
    rw [UpdatesReadVersion, h.request] at hc
    exact hc attempt h.read h.unsettled h.asked order hread (.inr ⟨hrefused, hs⟩) o hstored
  | _ => exact of_decide_eq_true (Bool.and_eq_true_iff.1 hp).2

theorem Effect.changed (h : Effect q v db c) (hc : UpdatesReadVersion q v db) (hv : SeesVersions v db)
    (hu : UniqueOn Order.id db.orders) {o' : Order} (ho : o ∈ db.orders) (ho' : o' ∈ c.orders)
    (hid : o'.id = o.id) (hne : o' ≠ o) :
    OrderRepository.findById o.id v = some o ∧ o'.version = o.version + 1 := by
  have hkept (ho' : o' ∈ db.orders) : OrderRepository.findById o.id v = some o ∧
      o'.version = o.version + 1 := absurd (hu.eq ho' ho hid) hne
  cases h with
  | sold input order n active cart movement rows h horder hkey hopen hnew =>
    rw [book_orders, sell_orders] at ho'
    rcases List.mem_append.1 ho' with ho' | ho'
    · exact hkept ho'
    · rw [List.mem_singleton] at ho'; subst ho'
      have hn := hnew o ho
      simp only [OrderRepository.conflicts, Bool.or_eq_false_iff, decide_eq_false_iff_not] at hn
      exact absurd hid.symm hn.1.1
  | revised order row p f movement released rows h hmem =>
    rw [release_orders, book_orders, revise_orders] at ho'
    rcases mem_updateWhere_cases ho' with ⟨ho', -⟩ | ⟨x, hx, hp, rfl⟩
    · exact hkept ho'
    · have hxo : x = o := hu.eq hx ho ((Order.column Order.id (h.facts q.draw.now x)).symm.trans hid)
      subst hxo
      have hver := h.version hc hv.ids hu hmem hx hp
      have hsame : order = x := hv.same hu hmem hx (h.row_id hp) hver
      subst hsame
      exact ⟨hv.ids.lookup hmem, rfl⟩
  | _ => exact hkept ho'

end Changes

/-! ## A request whose guards saw another version -/

section Refusals
variable {v s s' : Db} {draw : Draw} {orderId : Id} {r o : Order}

theorem keeps_rest_onIdempotency {α : Type}
    (x : Tx (List (Idempotency.Record IdemRequest IdemResponse)) Idempotency.IdempotencyError α) :
    Keeps Db.rest (onIdempotency x) :=
  Keeps.zoom fun _ _ => rfl

theorem keeps_rest_claim (scope key : String) (request : IdemRequest) (retention : Option Nat) (id : Id)
    (now : Instant) : Keeps Db.rest (IdempotencyService.claim scope key request retention id now) :=
  Within.bind (Within.current _) fun _ => keeps_rest_onIdempotency _

theorem keeps_rest_updateAttempt (id : Id) (f : PaymentAttempt → PaymentAttempt) :
    Keeps Db.rest (IntegrationRepository.updateAttempt id f) := Within.write fun _ => rfl

theorem rest_orders (h : s'.rest = s.rest) : s'.orders = s.orders := by
  have horders : s'.rest.orders = s.rest.orders := by rw [h]
  exact horders

/-- No stored row is at another version of the order. -/
theorem find_atVersion (hu : UniqueOn Order.id s.orders) (ho : OrderRepository.findById orderId s = some o)
    {version : Nat} (hne : o.version ≠ version) :
    s.orders.find? (OrderRepository.atVersion orderId version) = none := by
  refine List.find?_eq_none.2 fun x hx hp => ?_
  obtain ⟨hid, hver⟩ := Bool.and_eq_true_iff.1 hp
  have hxo : x = o :=
    hu.eq hx (lookup_mem ho) ((of_decide_eq_true hid).trans (lookup_key ho).symm)
  exact hne (hxo ▸ of_decide_eq_true hver)

/-- An update that finds no row returns none and writes none. -/
theorem updateReturning_none {p : Order → Bool} {f : Order → Order} {now : Instant} {returned : Option Order}
    (h : Commits (OrderRepository.updateReturning p f now) v s returned s') (hn : s.orders.find? p = none) :
    returned = none ∧ s' = s := by
  simp only [OrderRepository.updateReturning, commits_bind, commits_current, commits_write, commits_pure] at h
  obtain ⟨_, _, ⟨rfl, rfl⟩, _, _, rfl, rfl, rfl⟩ := h
  have hsame {g : Order → Order} : Table.updateWhere p g s.orders = s.orders :=
    updateWhere_eq_self fun x hx => Bool.eq_false_iff.2 (List.find?_eq_none.1 hn x hx)
  exact ⟨by rw [hn]; rfl, by rw [hsame]⟩

/-- The update of a stale version rolls the request back. -/
theorem stale_rolls_back {p : Order → Bool} {f : Order → Order} {now : Instant} {returned : Option Order}
    {updated : Order} {s₁ s₂ : Db} (h : Commits (OrderRepository.updateReturning p f now) v s returned s₁)
    (hst : Commits (orStale returned) v s₁ updated s₂) (hn : s.orders.find? p = none) : False := by
  obtain ⟨hnone, -⟩ := updateReturning_none h hn
  obtain ⟨hsome, -⟩ := orStale_core hst
  rw [hnone] at hsome; cases hsome

theorem transition_refused {expectedVersion : Nat} {request : TransitionOrderService.Request} {a : Order}
    (hr : OrderRepository.findById orderId v = some r)
    (hn : TransitionOrderService.obstacle r request = none → r.fulfillmentStatus ≠ request.fulfillmentStatus →
      s.orders.find? (OrderRepository.atVersion orderId expectedVersion) = none)
    (h : Commits (TransitionOrderService.transition orderId expectedVersion request draw) v s a s') :
    s'.rest = s.rest := by
  simp only [TransitionOrderService.transition, commits_bind, commits_look, commits_orThrow] at h
  obtain ⟨_, _, ⟨rfl, rfl⟩, order, _, ⟨hfound, rfl⟩, h⟩ := h
  rw [hr] at hfound; cases hfound
  cases hg : TransitionOrderService.obstacle r request with
  | some e => rw [hg] at h; exact (commits_throw.1 h).elim
  | none =>
    rw [hg] at h
    rcases commits_ite.1 h with ⟨-, h⟩ | ⟨hne, h⟩
    · rw [(commits_pure.1 h).2]
    · simp only [TransitionOrderService.apply, OrderRepository.transition, commits_bind] at h
      obtain ⟨returned, s₁, hup, updated, s₂, hst, -⟩ := h
      rw [lookup_key hr] at hup
      exact (stale_rolls_back hup hst (hn hg hne)).elim

theorem collect_refused {actor : Actor} {key : String} {request : CollectCashRequest} {recordId : Id}
    {a : CollectCashResponse} (hr : OrderRepository.findById orderId v = some r)
    (hn : s.orders.find? (OrderRepository.atVersion r.id r.version) = none)
    (h : Commits (CollectCashService.collect actor orderId key request recordId draw) v s a s') :
    s'.rest = s.rest := by
  simp only [CollectCashService.collect, commits_bind, commits_throwIf] at h
  obtain ⟨_, _, ⟨-, rfl⟩, claim, s₁, hclaim, h⟩ := h
  have h₁ := keeps_rest_claim _ _ _ _ _ _ _ _ _ _ hclaim
  have hn : s₁.orders.find? (OrderRepository.atVersion r.id r.version) = none := by
    rw [rest_orders h₁]; exact hn
  cases claim with
  | replay status body =>
    dsimp only at h
    split at h
    · rw [← (commits_pure.1 h).2, h₁]
    · exact (commits_throw.1 h).elim
  | claimed claimId hash =>
    simp only [commits_bind, commits_look, commits_orThrow] at h
    obtain ⟨_, _, ⟨rfl, rfl⟩, order, _, ⟨hfound, rfl⟩, h⟩ := h
    rw [hr] at hfound; cases hfound
    rcases commits_ite.1 h with ⟨-, h⟩ | ⟨-, h⟩
    · simp only [commits_bind, commits_pure] at h
      obtain ⟨_, _, hcomplete, -, rfl⟩ := h
      exact (keeps_rest_onIdempotency _ _ _ _ _ hcomplete).trans h₁
    · split at h
      · exact (commits_throw.1 h).elim
      · exact (commits_throw.1 h).elim
      · simp only [CollectCashService.apply, commits_bind, commits_look] at h
        obtain ⟨_, _, ⟨-, rfl⟩, returned, s₂, hup, updated, s₃, hst, -⟩ := h
        exact (stale_rolls_back hup hst hn).elim

theorem refund_refused {actor : Actor} {key : String} {request : RefundCashRequest} {recordId : Id}
    {a : RefundCashResponse} (hr : OrderRepository.findById orderId v = some r)
    (hn : s.orders.find? (OrderRepository.atVersion r.id r.version) = none)
    (h : Commits (RefundCashService.refund actor orderId key request recordId draw) v s a s') :
    s'.rest = s.rest := by
  simp only [RefundCashService.refund, commits_bind, commits_throwIf] at h
  obtain ⟨_, _, ⟨-, rfl⟩, claim, s₁, hclaim, h⟩ := h
  have h₁ := keeps_rest_claim _ _ _ _ _ _ _ _ _ _ hclaim
  have hn : s₁.orders.find? (OrderRepository.atVersion r.id r.version) = none := by
    rw [rest_orders h₁]; exact hn
  cases claim with
  | replay status body =>
    dsimp only at h
    split at h
    · rw [← (commits_pure.1 h).2, h₁]
    · exact (commits_throw.1 h).elim
  | claimed claimId hash =>
    simp only [commits_bind, commits_look, commits_orThrow] at h
    obtain ⟨_, _, ⟨rfl, rfl⟩, order, _, ⟨hfound, rfl⟩, h⟩ := h
    rw [hr] at hfound; cases hfound
    rcases commits_ite.1 h with ⟨-, h⟩ | ⟨-, h⟩
    · simp only [commits_bind, commits_look, commits_pure] at h
      obtain ⟨_, _, ⟨-, rfl⟩, _, _, hcomplete, -, rfl⟩ := h
      exact (keeps_rest_onIdempotency _ _ _ _ _ hcomplete).trans h₁
    · split at h
      · exact (commits_throw.1 h).elim
      · simp only [RefundCashService.apply, commits_bind, commits_look] at h
        obtain ⟨_, _, ⟨-, rfl⟩, returned, s₂, hup, updated, s₃, hst, -⟩ := h
        exact (stale_rolls_back hup hst hn).elim

theorem cancel_refused {pickupPin : String} {a : Order} (hr : OrderRepository.findById orderId v = some r)
    (hn : s.orders.find? (OrderRepository.atVersion r.id r.version) = none)
    (h : Commits (CancelUnpaidOrderService.cancel orderId pickupPin draw) v s a s') : s'.rest = s.rest := by
  simp only [CancelUnpaidOrderService.cancel, commits_bind, commits_look, commits_orThrow] at h
  obtain ⟨_, _, ⟨rfl, rfl⟩, order, _, ⟨hfound, rfl⟩, h⟩ := h
  rw [hr] at hfound; cases hfound
  rcases commits_ite.1 h with ⟨-, h⟩ | ⟨-, h⟩
  · rw [(commits_pure.1 h).2]
  · split at h
    · exact (commits_throw.1 h).elim
    · simp only [commits_bind] at h
      obtain ⟨returned, s₁, hup, updated, s₂, hst, -⟩ := h
      exact (stale_rolls_back hup hst hn).elim

/-- The job skips an order that has moved on. -/
theorem expire_refused {u : Unit} (hr : OrderRepository.findById orderId v = some r)
    (hn : s.orders.find? (OrderRepository.atVersion r.id r.version) = none)
    (h : Commits (ExpireUnpaidOrdersJob.run orderId draw) v s u s') : s'.rest = s.rest := by
  simp only [ExpireUnpaidOrdersJob.run, commits_bind, commits_look] at h
  obtain ⟨found, _, ⟨rfl, rfl⟩, h⟩ := h
  rcases commits_forSome.1 h with ⟨order, ho, hrun⟩ | ⟨-, rfl⟩
  · obtain ⟨hfound, -⟩ := Option.filter_eq_some_iff.1 ho
    rw [hr] at hfound; cases hfound
    obtain ⟨returned, s₁, hup, hann⟩ := commits_bind.1 hrun
    obtain ⟨hnone, rfl⟩ := updateReturning_none hup hn
    rcases commits_forSome.1 hann with ⟨updated, hret, -⟩ | ⟨-, rfl⟩
    · rw [hnone] at hret; cases hret
    · rfl
  · rfl

/-- A reconciliation that does not change the order it has read writes the attempt only. -/
theorem reconcile_refused {attemptId : Id} {lookup : Option MercadoPagoPayment} {a : Reconciliation.Result}
    (hr : OrderRepository.findByPaymentAttempt attemptId v = some r)
    (hn : ∀ attempt payment, Table.lookup PaymentAttempt.id attemptId v.attempts = some attempt →
      Reconciliation.settled attempt = false → attempt.providerPaymentId ≠ none → lookup = some payment →
      ¬ Reconciliation.settles payment.status r.paymentStatus)
    (h : Commits (Reconciliation.reconcilePaymentAttempt attemptId lookup draw) v s a s') :
    s'.rest = s.rest := by
  simp only [Reconciliation.reconcilePaymentAttempt, commits_bind, commits_look, commits_orThrow] at h
  obtain ⟨_, _, ⟨rfl, rfl⟩, attempt, _, ⟨hfound, rfl⟩, h⟩ := h
  have hid : attempt.id = attemptId := lookup_key hfound
  rcases commits_ite.1 h with ⟨-, h⟩ | ⟨hset, h⟩
  · rw [(commits_pure.1 h).2]
  rcases commits_ite.1 h with ⟨-, h⟩ | ⟨hasked, h⟩
  · rw [(commits_pure.1 h).2]
  simp only [commits_bind, commits_look, commits_orThrow, commits_throwIf] at h
  obtain ⟨_, _, ⟨-, rfl⟩, _, _, ⟨-, rfl⟩, _, _, ⟨-, rfl⟩, h⟩ := h
  cases lookup with
  | none => rw [(commits_pure.1 h).2]
  | some payment =>
    have hno := hn attempt payment hfound (Bool.eq_false_iff.2 hset) hasked rfl
    simp only [commits_bind, commits_look] at h
    obtain ⟨_, _, ⟨rfl, rfl⟩, h⟩ := h
    rw [hid, hr] at h
    rcases commits_ite.1 h with ⟨hp, h⟩ | ⟨-, h⟩
    · simp only [Reconciliation.confirm, commits_bind, commits_runIf, commits_pure] at h
      obtain ⟨_, _, ⟨_, _, hup, _, _, ⟨hpaid, -⟩ | ⟨-, rfl⟩, -, rfl⟩, -, rfl⟩ := h
      · exact absurd (.inl ⟨hp, hpaid⟩) hno
      · exact keeps_rest_updateAttempt _ _ _ _ _ _ hup
    rcases commits_ite.1 h with ⟨hp, h⟩ | ⟨-, h⟩
    · simp only [Reconciliation.refuse, commits_bind, commits_pure] at h
      obtain ⟨_, _, ⟨_, _, hup, hsome⟩, -, rfl⟩ := h
      rcases commits_forSome.1 hsome with ⟨order, ho, -⟩ | ⟨-, rfl⟩
      · obtain ⟨he, hs⟩ := Option.filter_eq_some_iff.1 ho
        cases he
        exact absurd (.inr ⟨hp, of_decide_eq_true hs⟩) hno
      · exact keeps_rest_updateAttempt _ _ _ _ _ _ hup
    · simp only [commits_bind, commits_runIf, commits_pure] at h
      obtain ⟨_, _, ⟨-, hup⟩ | ⟨-, rfl⟩, -, rfl⟩ := h
      · exact keeps_rest_updateAttempt _ _ _ _ _ _ hup
      · rfl

/-- One commit, by the request. -/
theorem exec_refused {q : Request} {a : Answer} (hu : UniqueOn Order.id s.orders)
    (hc : UpdatesReadVersion q v s) (hx : exec q v s = some (a, s')) (hr : guardedRow q v = some r)
    (ho : OrderRepository.findById r.id s = some o) (hne : r.version ≠ o.version) : s'.rest = s.rest := by
  have hn : s.orders.find? (OrderRepository.atVersion r.id r.version) = none :=
    find_atVersion hu ho hne.symm
  have h := exec_eq.1 hx
  unfold guardedRow at hr
  split at hr
  · rename_i orderId expectedVersion request hq
    rw [hq] at h
    obtain ⟨_, h⟩ := commits_effect h
    have hid : r.id = orderId := lookup_key hr
    rw [UpdatesReadVersion, hq] at hc
    refine transition_refused hr (fun hg hst => ?_) h
    refine find_atVersion hu (hid ▸ ho) fun hver => hne ?_
    rw [hver, hc r hr o (hid ▸ ho) hg hst hver]
  · rename_i hq; rw [hq] at h; obtain ⟨_, h⟩ := commits_effect h; exact collect_refused hr hn h
  · rename_i hq; rw [hq] at h; obtain ⟨_, h⟩ := commits_effect h; exact refund_refused hr hn h
  · rename_i hq; rw [hq] at h; obtain ⟨_, h⟩ := commits_effect h; exact cancel_refused hr hn h
  · rename_i hq; rw [hq] at h; obtain ⟨_, h⟩ := commits_effect h; exact expire_refused hr hn h
  · rename_i attemptId lookup hq
    rw [hq] at h
    obtain ⟨_, h⟩ := commits_effect h
    refine reconcile_refused hr (fun attempt payment hread hset hasked hl hsettles => hne ?_) h
    rw [UpdatesReadVersion, hq, hl] at hc
    exact (hc attempt hread hset hasked r hr hsettles o ho).symm
  · cases hr

end Refusals

/-! ## Every run -/

theorem SeesVersions.rely :
    Rely exec Komanda.reread (fun db => Keyed db.core) SeesVersions UpdatesReadVersion where
  refl _ hi := .refl hi.orders
  reread part _ _ hi h := h.reread hi.orders part
  inv _ _ _ _ _ hi _ _ hx := (exec_effect hx).keyed hi
  stable _ _ _ _ _ _ _ _ hx _ hw := hw.effect (exec_effect hx)

theorem UpdatesReadVersion.sound {q : Request} {v db : Db} (hi : Keyed db.core) (hv : SeesVersions v db)
    (hc : UpdatesReadVersion q v db) : OptimisticallySound q v db := by
  intro a db' hx
  refine ⟨fun o ho o' ho' hid hne => ?_, fun r hr o ho hne => exec_refused hi.orders hc hx hr ho hne⟩
  exact (exec_effect hx).changed hc hv hi.orders ho ho' hid hne

/-- In a run whose updates meet the versions that were read, every commit decides on the row it replaces. -/
theorem optimistically_sound {tenantId : Id} {settings : Settings} {es : List RcEvent}
    (hC : Along rcStep (AtCommit UpdatesReadVersion) (RcState.fresh tenantId settings) es) :
    Along rcStep (AtCommit OptimisticallySound) (RcState.fresh tenantId settings) es :=
  along_commits SeesVersions.rely (fun _ _ _ hi hv hc => hc.sound hi hv)
    ⟨.empty, fun _ h => (List.not_mem_nil h).elim⟩ hC

namespace Demo

def prepare (n : String) (expectedVersion : Nat) : Request :=
  call 6 n (.transition "order-2" expectedVersion { fulfillmentStatus := .preparing })

/-- A paid order goes to the kitchen and is given back at the same time, with the version that the client
of the transition expects. -/
def refundMeanwhile (expectedVersion : Nat) : List RcEvent :=
  inTurn [setUp, fillCart "1" "cart", payInCash "2" "cart", collect 5 "3" "order-2"] ++
    [.start (prepare "4" expectedVersion), .start (refund 6 "5" "order-2")]

end Demo

open Demo

theorem optimistically_sound_overlap :
    Along rcStep (AtCommit OptimisticallySound) (RcState.fresh "tenant" settings)
      (refundMeanwhile 2 ++ [.commit 0, .abort 0]) :=
  optimistically_sound (by decide +kernel)

/-- The client expects the version that the refund will give the order: the transition prepares a refunded
order. -/
theorem foreseen_version_revives_order :
    ¬ ∀ (tenantId : Id) (settings : Settings) (es : List RcEvent),
      Along rcStep (AtCommit OptimisticallySound) (RcState.fresh tenantId settings) es := by
  intro h
  have hx : (Runs.exec rcStep (RcState.fresh "tenant" settings) (refundMeanwhile 3 ++ [.commit 1])).any
      (fun s => s.opens.head?.any fun t => (exec t.action t.view s.db).any fun p =>
        s.db.orders.any fun o => p.2.orders.any fun o' =>
          o'.id = o.id && o' ≠ o && OrderRepository.findById o.id t.view ≠ some o) = true := by
    decide +kernel
  obtain ⟨s, hr, hs⟩ := (Option.any_eq_true _ _).1 hx
  obtain ⟨t, ht, hs⟩ := (Option.any_eq_true _ _).1 hs
  obtain ⟨⟨a, db'⟩, hexec, hs⟩ := (Option.any_eq_true _ _).1 hs
  obtain ⟨o, ho, hs⟩ := List.any_eq_true.1 hs
  obtain ⟨o', ho', hs⟩ := List.any_eq_true.1 hs
  simp only [Bool.and_eq_true, decide_eq_true_eq] at hs
  obtain ⟨⟨hid, hne⟩, hview⟩ := hs
  have hwhole := h "tenant" settings (refundMeanwhile 3 ++ [.commit 1] ++ [.commit 0])
  rw [Along.append] at hwhole
  have hsound := hwhole.2 s hr
  have hcommit := hsound.1 t (by rw [List.head?_eq_getElem?] at ht; exact ht) a db' hexec
  exact hview (hcommit.changed o ho o' ho' hid hne).1

end Komanda
