import Komanda.Platform
import Mathlib.Data.List.Sort

/-!
# The jobs that run for every tenant

`expireUnpaidCashOrders` and `scanAndReconcileUncertainPayments` scan a table in a transaction of the platform, and
then run one transaction for each row found, in the tenant of the row.
-/

namespace Komanda
open Transaction

/-! ## `expire-unpaid-orders.job.ts` -/

structure ExpireUnpaidCashOrdersOptions where
  batchSize : Option Int := none
  tenantId : Option Id := none
deriving DecidableEq, Repr

/-- `Math.max(1, options?.batchSize ?? 50)` -/
def ExpireUnpaidCashOrdersOptions.batch (options : ExpireUnpaidCashOrdersOptions) : Nat :=
  (max 1 (options.batchSize.getD 50)).toNat

/-- The conditions of the scan. -/
def ExpireUnpaidCashOrdersOptions.candidate (options : ExpireUnpaidCashOrdersOptions) (currentTime : Instant)
    (row : Id × Order) : Bool :=
  row.2.source = .storefrontCash && row.2.paymentStatus = .pending && row.2.fulfillmentStatus = .approved &&
    row.2.paymentExpiresAt.any (· ≤ currentTime) && options.tenantId.all (· = row.1)

/-- `ORDER BY payment_expires_at`, null last. -/
def expiresFirst (a b : Id × Order) : Prop :=
  match a.2.paymentExpiresAt, b.2.paymentExpiresAt with
  | some t, some u => t ≤ u
  | none, some _ => False
  | _, none => True

instance : DecidableRel expiresFirst := fun a b => by
  unfold expiresFirst
  split <;> infer_instance

/-- `buildExpireCandidatesQuery` in the transaction of the scanner. -/
def buildExpireCandidatesQuery (settings : TxSettings) (options : ExpireUnpaidCashOrdersOptions)
    (currentTime : Instant) (p : Platform) : List (Id × Order) :=
  ((select .orders settings (options.candidate currentTime) p.orders).insertionSort expiresFirst).take options.batch

def expirationCandidates : ExpireUnpaidCashOrdersOptions → Instant → Platform → List (Id × Order) :=
  buildExpireCandidatesQuery (platformServiceSettings "order:expiration-scanner")

/-- One run of the job; a candidate whose transaction fails is left for the next. -/
def expireUnpaidCashOrders (options : ExpireUnpaidCashOrdersOptions) (draw : Draw) (p : Platform) : Platform :=
  (expirationCandidates options draw.now p).foldl
    (fun p row => p.inTenant row.1 (onFace (ExpireUnpaidOrdersJob.run row.2.id draw))) p

/-! ## `PaymentReconciliationService` -/

structure ReconciliationOptions where
  thresholdSeconds : Nat := 30
  limit : Nat := 50
deriving DecidableEq, Repr

/-- The conditions of the scan. -/
def ReconciliationOptions.uncertain (options : ReconciliationOptions) (now : Instant)
    (row : Id × PaymentAttempt × Instant) : Bool :=
  (row.2.1.status = .verificationRequired ||
    ((row.2.1.status = .pending || row.2.1.status = .processing) &&
      row.2.2 + options.thresholdSeconds * 1000 ≤ now)) && row.2.1.providerPaymentId.isSome

def reconciliationCandidates (options : ReconciliationOptions) (now : Instant) (p : Platform) :
    List (Id × PaymentAttempt × Instant) :=
  (select .paymentAttempts (platformServiceSettings "payment:reconciliation-scanner") (options.uncertain now)
    p.paymentAttempts).take options.limit

/-- One run of the job. `lookup` is what the provider answers about an attempt, `draw` what its transaction draws. -/
def scanAndReconcileUncertainPayments (options : ReconciliationOptions) (lookup : Id → Option MercadoPagoPayment)
    (draw : Id → Draw) (now : Instant) (p : Platform) : Platform :=
  (reconciliationCandidates options now p).foldl
    (fun p row => p.inTenant row.1
      (onFace (Reconciliation.reconcilePaymentAttempt row.2.1.id (lookup row.2.1.id) (draw row.2.1.id)))) p

end Komanda
