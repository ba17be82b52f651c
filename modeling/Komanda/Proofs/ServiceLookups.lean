import Komanda.ServiceLookups
import Komanda.Proofs.JobScans

/-!
# What the lookups of platform services see

`payments:lookup` is a service that no policy names, so the first query of the order status finds no route.
`print-pairing` may see the pairings of every tenant, but not the entitlement snapshots that come next.
-/

namespace Komanda
open Transaction

/-- A payment of the provider that has been approved, and whose order exists. -/
structure ApprovedPayment (p : Platform) (paymentId : String) (tenantId : Id) (order : Order) : Prop where
  routed : ∃ route, (tenantId, route) ∈ p.providerResourceRoutes ∧ route.resourceType = .payment ∧
    route.externalId = paymentId ∧ ∃ attempt, (tenantId, attempt) ∈ p.paymentAttempts ∧
    attempt.1.id = route.localResourceId ∧ attempt.1.status = .approved ∧
    order.paymentAttemptId = some route.localResourceId
  ordered : (tenantId, order) ∈ p.orders

/-- A live pending pairing with the code, of a tenant whose entitlement snapshot includes printing. Its digest is its
own, as `print_pairings_code_digest_uidx` demands. -/
structure Claimable (digest : String → String) (code : String) (now : Instant) (p : Platform) (tenantId : Id)
    (pairing : PairingRow) : Prop where
  mem : (tenantId, pairing) ∈ p.printAgentPairings
  pending : pairing.status = .pending
  unexpired : now < pairing.expiresAt
  attempts : pairing.attempts < 5
  wellFormed : PrintPairingService.isCode code = true
  right : digest code = pairing.codeDigest
  unique : ∀ other ∈ p.printAgentPairings, other.2.codeDigest = pairing.codeDigest → other = (tenantId, pairing)
  entitled : ∃ snapshot, (tenantId, snapshot) ∈ p.tenantEntitlementSnapshots ∧ snapshot.superseded = false ∧
    snapshot.printing = true

section Lookups
variable {p : Platform} {tenantId : Id}

/-- The order status of any payment is pending. -/
theorem orderStatus_eq_pending (paymentId : String) : PaymentOrderStatus.get paymentId p = { status := .pending } := by
  have hhidden : PaymentOrderStatus.findRoute paymentId p = none := by
    rw [PaymentOrderStatus.findRoute, select_eq_nil rfl rfl]
    rfl
  rw [PaymentOrderStatus.get, hhidden]

theorem entitlement_eq_none : PrintPairingService.entitlement tenantId p = none := by
  rw [PrintPairingService.entitlement, select_eq_nil rfl rfl]
  rfl

variable {digest : String → String} {code name : String} {draw : PairingDraw} {pairing : PairingRow}

/-- The pairing is found. -/
theorem find_pendingPairings (h : Claimable digest code draw.now p tenantId pairing) :
    (PrintPairingService.pendingPairings p).find? (fun row => digest code = row.2.codeDigest) =
      some (tenantId, pairing) := by
  have hmem : ∀ row, row ∈ PrintPairingService.pendingPairings p ↔
      row ∈ p.printAgentPairings ∧ row.2.status = .pending := by
    intro row
    rw [PrintPairingService.pendingPairings, List.mem_insertionSort, select_of_service rfl, List.mem_filter,
      decide_eq_true_eq]
  cases hfind : (PrintPairingService.pendingPairings p).find? (fun row => digest code = row.2.codeDigest) with
  | none =>
    have hnone := List.find?_eq_none.1 hfind (tenantId, pairing) ((hmem _).2 ⟨h.mem, h.pending⟩)
    exact absurd (decide_eq_true h.right) hnone
  | some row =>
    have hmatch := List.find?_some hfind
    have hdigest : digest code = row.2.codeDigest := of_decide_eq_true hmatch
    have hrow := ((hmem row).1 (List.mem_of_find?_eq_some hfind)).1
    rw [h.unique row hrow (hdigest.symm.trans h.right)]

/-- The right code is refused for want of an entitlement. -/
theorem claim_eq_error (h : Claimable digest code draw.now p tenantId pairing) (hname : textWithin 1 120 name = true) :
    PrintPairingService.claim digest code name draw p p = .error (.entitlement "Printing is not enabled.") := by
  have husable : PrintPairingService.usable (some (tenantId, pairing))
      (some (tenantId, pairing) <|> (PrintPairingService.pendingPairings p).head?) draw.now =
      some (tenantId, pairing) := by
    simp [PrintPairingService.usable, Option.filter, h.unexpired, h.attempts]
  have hchecked : Commits (throwIf (!PrintPairingService.isCode code || !textWithin 1 120 name)
      (.zod (issues [("code", PrintPairingService.isCode code), ("name", textWithin 1 120 name)])) :
        Tx Platform PairingError Unit) p p () p := by
    rw [commits_throwIf, h.wellFormed, hname]
    exact ⟨by decide, rfl⟩
  rw [PrintPairingService.claim, bind_ok hchecked, bind_ok (commits_current.2 ⟨rfl, rfl⟩), find_pendingPairings h]
  rw [husable]
  dsimp only
  rw [bind_ok (commits_look.2 ⟨rfl, rfl⟩), entitlement_eq_none]
  rfl

end Lookups

/-- No approved payment is ever reported as completed, and no right code is ever accepted. -/
theorem service_lookups_refused (p : Platform) :
    (∀ (paymentId : String) (tenantId : Id) (order : Order), ApprovedPayment p paymentId tenantId order →
      (PaymentOrderStatus.get paymentId p).status ≠ .completed) ∧
    ∀ (digest : String → String) (code name : String) (draw : PairingDraw) (tenantId : Id) (pairing : PairingRow),
      Claimable digest code draw.now p tenantId pairing →
      ¬ Succeeds (PrintPairingService.claim digest code name draw) p p := by
  constructor
  · intro paymentId tenantId order _
    rw [orderStatus_eq_pending]
    exact LookupStatus.noConfusion
  · rintro digest code name draw tenantId pairing h ⟨answer, p', hc⟩
    by_cases hname : textWithin 1 120 name = true
    · rw [Commits, claim_eq_error h hname] at hc
      cases hc
    · rw [PrintPairingService.claim, commits_throwIf_bind] at hc
      exact hc.1 (by simp [hname])

namespace Demo

/-- The payment attempt of an order that has been paid online. -/
def paidAttempt : PaymentAttempt where
  id := "attempt"
  cartId := "cart"
  integrationAccountId := "account"
  providerPreferenceId := some "preference"
  providerPaymentId := some "payment"
  status := .approved
  amount := 1000
  currency := "ARS"
  customerSnapshot := customer
  notes := none
  scheduledFor := none
  idempotencyKey := "key"
  processedAt := some 5
  failureCode := none

def paidOrder : Order := { unpaidOrder with
  paymentAttemptId := some "attempt", source := .mercadopagoWebhook, paymentStatus := .paid, paymentExpiresAt := none }

/-- The code of a pairing stands for its digest here. -/
def printerPairing : PairingRow where
  id := "pairing"
  locationId := "location"
  codeDigest := "1234"
  status := .pending
  attempts := 0
  expiresAt := 600000
  createdAt := 0
  claimedAgentId := none

/-- The diner has a paid order, and waits for its printer. -/
def openDiner : Tenancy := { diner with
  locations := [{ id := "location", name := "Hall", active := true, isPrimary := true, address := none }]
  snapshots := [{ catalogManagement := true, printing := true, superseded := false }]
  pairings := [printerPairing]
  shop := { diner.shop with db := { diner.shop.db with
    attempts := [paidAttempt]
    orders := [paidOrder]
    routes := [{ resourceType := .payment, externalId := "payment", integrationAccountId := "account",
                 localResourceId := "attempt" }] } } }

def city : Platform := { tenants := [openDiner] }

def printerDraw : PairingDraw :=
  { now := 1000, agentId := "agent", tokenPrefix := "prefix", tokenDigest := "digest", token := "token" }

end Demo

open Demo

theorem city_payment : ApprovedPayment city "payment" "tenant" paidOrder := by
  refine ⟨⟨_, List.mem_singleton.2 rfl, rfl, rfl, (paidAttempt, 0), List.mem_singleton.2 rfl, rfl, rfl, rfl⟩, ?_⟩
  exact List.mem_singleton.2 rfl

theorem city_pairing : Claimable id "1234" printerDraw.now city "tenant" printerPairing := by
  refine ⟨List.mem_singleton.2 rfl, rfl, by decide, by decide, by decide, rfl, fun other hother _ => ?_, ?_⟩
  · exact List.mem_singleton.1 hother
  · exact ⟨_, List.mem_singleton.2 rfl, rfl, rfl⟩

theorem service_lookups_refused_city : (PaymentOrderStatus.get "payment" city).status ≠ .completed ∧
    ¬ Succeeds (PrintPairingService.claim id "1234" "Kitchen" printerDraw) city city :=
  ⟨(service_lookups_refused city).1 "payment" "tenant" paidOrder city_payment,
    (service_lookups_refused city).2 id "1234" "Kitchen" printerDraw "tenant" printerPairing city_pairing⟩

/-- The payment of the order is approved, and its status stays pending; the code is right, and it is refused. -/
theorem city_refused :
    (¬ ∀ (p : Platform) (paymentId : String) (tenantId : Id) (order : Order),
      ApprovedPayment p paymentId tenantId order → (PaymentOrderStatus.get paymentId p).status = .completed) ∧
    ¬ ∀ (digest : String → String) (code name : String) (draw : PairingDraw) (p : Platform) (tenantId : Id)
      (pairing : PairingRow), textWithin 1 120 name = true → Claimable digest code draw.now p tenantId pairing →
      Succeeds (PrintPairingService.claim digest code name draw) p p := by
  constructor
  · intro h
    exact absurd (h city "payment" "tenant" paidOrder city_payment) (by decide)
  · intro h
    obtain ⟨answer, p, hc⟩ := h id "1234" "Kitchen" printerDraw city "tenant" printerPairing (by decide) city_pairing
    rw [Commits, claim_eq_error city_pairing (by decide)] at hc
    cases hc

end Komanda
