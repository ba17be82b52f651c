import Komanda.PlatformJobs
import Komanda.Proofs.ApprovedPayments

/-!
# What the platform's jobs see

The scans run as services that the policies of `orders` and `payment_attempts` do not admit, and for no tenant. So
they find nothing (`expirationCandidates_eq_nil`, `reconciliationCandidates_eq_nil`), and a job that has found nothing
leaves everything as it is.
-/

namespace Komanda
open RowSecurity

/-- The orders that have to expire, of all tenants. -/
def dueOrders (options : ExpireUnpaidCashOrdersOptions) (now : Instant) (p : Platform) : List (Id × Order) :=
  p.orders.filter (options.candidate now)

/-- The payment attempts that have to be reconciled, of all tenants. -/
def staleAttempts (options : ReconciliationOptions) (now : Instant) (p : Platform) :
    List (Id × PaymentAttempt × Instant) := p.paymentAttempts.filter (options.uncertain now)

/-- A job sees every tenant: its scan is a batch of the rows that are due, and of these each is found by some run of
the job. -/
structure SeesEveryTenant {α : Type} (due scan : Platform → List α) (limit : Nat) (job : Platform → Platform)
    (p : Platform) : Prop where
  batch : Batch (due p) limit (scan p)
  handled : ∀ r ∈ due p, ∃ n, r ∈ scan (job^[n] p)

section Scans
variable {p : Platform} {now : Instant}

/-- The query itself is right: in a transaction that may see every order it answers with a batch of those due. -/
theorem expireCandidates_batch {options : ExpireUnpaidCashOrdersOptions} {settings : TxSettings}
    (hsees : ∀ row ∈ p.orders, RlsTable.orders.policy settings row = true) :
    Batch (dueOrders options now p) options.batch (buildExpireCandidatesQuery settings options now p) := by
  rw [buildExpireCandidatesQuery, select, visible_eq_self hsees]
  exact Batch.of_perm (List.perm_insertionSort _ _)

theorem expirationCandidates_eq_nil {options : ExpireUnpaidCashOrdersOptions} :
    expirationCandidates options now p = [] := by
  have hhidden : select .orders (platformServiceSettings "order:expiration-scanner") (options.candidate now) p.orders = [] :=
    select_eq_nil rfl rfl
  rw [expirationCandidates, buildExpireCandidatesQuery, hhidden, List.insertionSort_nil, List.take_nil]

theorem reconciliationCandidates_eq_nil {options : ReconciliationOptions} :
    reconciliationCandidates options now p = [] := by
  have hhidden : select .paymentAttempts (platformServiceSettings "payment:reconciliation-scanner")
      (options.uncertain now) p.paymentAttempts = [] := select_eq_nil rfl rfl
  rw [reconciliationCandidates, hhidden, List.take_nil]

/-- A job whose scans find nothing sees every tenant exactly when nothing is due. -/
theorem seesEveryTenant_iff {α : Type} {due scan : Platform → List α} {limit : Nat} {job : Platform → Platform}
    (hscan : ∀ p, scan p = []) : SeesEveryTenant due scan limit job p ↔ due p = [] := by
  constructor
  · intro h
    refine List.eq_nil_iff_forall_not_mem.2 fun r hr => ?_
    obtain ⟨n, hn⟩ := h.handled r hr
    rw [hscan] at hn
    exact List.not_mem_nil hn
  · intro hdue
    refine ⟨?_, fun r hr => ?_⟩
    · rw [hscan, Batch.nil_iff]
      exact .inl hdue
    · rw [hdue] at hr
      exact (List.not_mem_nil hr).elim

/-- A run of the expiry changes nothing. -/
theorem expireUnpaidCashOrders_eq_self {options : ExpireUnpaidCashOrdersOptions} {draw : Draw} :
    expireUnpaidCashOrders options draw p = p := by
  rw [expireUnpaidCashOrders, expirationCandidates_eq_nil]
  rfl

/-- A run of the reconciliation changes nothing. -/
theorem scanAndReconcile_eq_self {options : ReconciliationOptions} {lookup : Id → Option MercadoPagoPayment}
    {draw : Id → Draw} : scanAndReconcileUncertainPayments options lookup draw now p = p := by
  rw [scanAndReconcileUncertainPayments, reconciliationCandidates_eq_nil]
  rfl

end Scans

/-- The two jobs see every tenant exactly in the states where nothing is due for either. -/
theorem jobs_see_every_tenant_iff (expiry : ExpireUnpaidCashOrdersOptions) (draw : Draw)
    (reconciliation : ReconciliationOptions) (lookup : Id → Option MercadoPagoPayment) (draws : Id → Draw)
    (now : Instant) (p : Platform) :
    (SeesEveryTenant (dueOrders expiry draw.now) (expirationCandidates expiry draw.now) expiry.batch
        (expireUnpaidCashOrders expiry draw) p ∧
      SeesEveryTenant (staleAttempts reconciliation now) (reconciliationCandidates reconciliation now)
        reconciliation.limit (scanAndReconcileUncertainPayments reconciliation lookup draws now) p) ↔
    dueOrders expiry draw.now p = [] ∧ staleAttempts reconciliation now p = [] :=
  and_congr (seesEveryTenant_iff fun _ => expirationCandidates_eq_nil)
    (seesEveryTenant_iff fun _ => reconciliationCandidates_eq_nil)

namespace Demo

/-- A cash order that nobody has paid. -/
def unpaidOrder : Order where
  id := "order"
  locationId := "location"
  cartId := "cart"
  paymentAttemptId := none
  purchaseNumber := 1
  source := .storefrontCash
  fulfillmentStatus := .approved
  paymentStatus := .pending
  tender := .cash
  customerSnapshot := customer
  notes := none
  subtotal := 1000
  discountTotal := 0
  total := 1000
  discountSnapshot := none
  pickupPin := some "1234"
  estimatedWaitMinutes := none
  estimatedReadyAt := none
  scheduledFor := none
  paymentExpiresAt := some 10
  currency := "ARS"
  idempotencyKey := "key"
  approvedAt := some 1
  deliveredAt := none
  version := 1
  createdAt := 1
  updatedAt := 1
  lines := []

/-- A tenant with one such order. -/
def diner : Tenancy where
  row := { id := "tenant", name := "Diner", slug := "diner", normalizedSlug := "diner", defaultCurrency := "ARS",
           status := .active, version := 1 }
  settings := some { salesEnabled := true, printingEnabled := true, contactPhone := none, version := 1 }
  locations := []
  snapshots := []
  pairings := []
  agents := []
  shop := { db := { Db.fresh "tenant" settings with orders := [unpaidOrder] }, catalog := { entitled := true } }
  attemptCreatedAt := fun _ => 0

end Demo

open Demo

/-- The order expired at 10; at 20 the job does not find it. -/
theorem expiry_scan_is_blind : ¬ ∀ (expiry : ExpireUnpaidCashOrdersOptions) (draw : Draw)
    (reconciliation : ReconciliationOptions) (lookup : Id → Option MercadoPagoPayment) (draws : Id → Draw)
    (now : Instant) (p : Platform),
    SeesEveryTenant (dueOrders expiry draw.now) (expirationCandidates expiry draw.now) expiry.batch
        (expireUnpaidCashOrders expiry draw) p ∧
      SeesEveryTenant (staleAttempts reconciliation now) (reconciliationCandidates reconciliation now)
        reconciliation.limit (scanAndReconcileUncertainPayments reconciliation lookup draws now) p := by
  intro h
  have hsees := (h {} (call 20 "1" (.expire "order")).draw {} (fun _ => none) (fun _ => (call 20 "1" (.expire "order")).draw)
    20 { tenants := [diner] }).1
  have hdue := (seesEveryTenant_iff fun _ => expirationCandidates_eq_nil).1 hsees
  exact absurd hdue (by decide)

end Komanda
