import Komanda.SearchProjection
import Komanda.ServiceLookups

/-!
# Pairing print agents (`print-pairing.service.ts`)

A tenant asks for a code of four digits, and whoever types it on a printer within ten minutes gets an agent of that
tenant. `PrintPairingService.claim` is in `ServiceLookups`; here are the two calls of the tenant, and the calls of all
tenants and printers on one database (`settle`).
-/

namespace Komanda
open Transaction

/-- `createSchema` -/
structure CreatePairing where
  locationId : Id
deriving DecidableEq, Repr

structure PairingResponse where
  pairingId : Id
  code : String
  expiresAt : Instant
deriving DecidableEq, Repr

structure PairingStatusResponse where
  pairingId : Id
  status : PairingStatus
  expiresAt : Instant
  agentId : Option Id
deriving DecidableEq, Repr

inductive PairingFailure
  | pairing (e : PairingError)
  | idempotency (e : Idempotency.IdempotencyError)
  /-- `Error` -/
  | internal (message : String)
deriving DecidableEq, Repr

/-- The clock, the ids of new rows, and what `randomInt(0, 10000)` gives in each turn of the loop. -/
structure CreateDraw where
  now : Instant
  recordId : Id
  pairingId : Id
  codes : Vector (Fin 10000) 5
deriving DecidableEq, Repr

/-- The platform, and the idempotency records of the scope `print-agent-pairing`. -/
structure PairingDesk where
  platform : Platform
  records : List (Idempotency.Record CreatePairing PairingResponse) := []

abbrev PairingTx (α : Type) := Tx PairingDesk PairingFailure α

def onRecords {α : Type}
    (x : Tx (List (Idempotency.Record CreatePairing PairingResponse)) Idempotency.IdempotencyError α) : PairingTx α :=
  zoom PairingDesk.records (fun records d => { d with records }) .idempotency x

namespace PrintPairingService

/-- `randomInt(0, 10000).toString().padStart(4, "0")` -/
def pairingCode (n : Fin 10000) : String := String.ofList ((toString n.val).toList.leftpad 4 '0')

def insertPairing (tenantId : Id) (row : PairingRow) (p : Platform) : Platform :=
  p.modify tenantId fun t => { t with pairings := t.pairings ++ [row] }

/-- The loop of `create`: the first code whose digest no row has. The unique index spans all tenants. -/
def insertFirst (digest : String → String) (tenantId : Id) (row : PairingRow) :
    List (Fin 10000) → PairingTx (Option String)
  | [] => return none
  | n :: codes => do
    let taken ← current fun d => d.platform.printAgentPairings.any (·.2.codeDigest = digest (pairingCode n))
    if taken then insertFirst digest tenantId row codes
    else do
      write fun d =>
        { d with platform := insertPairing tenantId { row with codeDigest := digest (pairingCode n) } d.platform }
      return some (pairingCode n)

def pairingClaim (tenantId : Id) (input : CreatePairing) (idempotencyKey : String) :
    Idempotency.ClaimInput CreatePairing where
  tenantId := some tenantId
  scope := "print-agent-pairing"
  key := idempotencyKey
  request := input
  retentionSeconds := some (10 * 60)

/-- `create` after the key has been claimed. -/
def createClaimed (digest : String → String) (settings : TxSettings) (tenantId : Id) (input : CreatePairing)
    (recordId : Id) (draw : CreateDraw) : PairingTx PairingResponse := do
  let entitlement ← look fun d =>
    findIn .tenantEntitlementSnapshots settings tenantId (fun e => !e.superseded) d.platform.tenantEntitlementSnapshots
  throwIf (¬ entitlement.any (·.printing)) (.pairing (.entitlement "Printing is not enabled."))
  let location ← look fun d =>
    findIn .tenantLocations settings tenantId (fun l => l.id = input.locationId && l.active) d.platform.tenantLocations
  throwIf location.isNone (.pairing (.notFound "Location not found."))
  let row : PairingRow :=
    { id := draw.pairingId, locationId := input.locationId, codeDigest := "", status := .pending, attempts := 0,
      expiresAt := draw.now + 10 * 60 * 1000, createdAt := draw.now, claimedAgentId := none }
  let code ← insertFirst digest tenantId row draw.codes.toList
  let code ← orThrow code (.internal "Failed to create pairing.")
  let response : PairingResponse := { pairingId := row.id, code, expiresAt := row.expiresAt }
  onRecords (Idempotency.complete recordId 201 response)
  return response

/-- `create`. `digest` is the hexadecimal SHA-256. -/
def create (digest : String → String) (actor : Actor) (tenantId : Id) (input : CreatePairing) (idempotencyKey : String)
    (draw : CreateDraw) : PairingTx (Option PairingResponse) := do
  let claim ← onRecords (Idempotency.claim id (pairingClaim tenantId input idempotencyKey) draw.recordId draw.now)
  match claim with
  | .replay _ body => return body
  | .claimed recordId _ =>
    some <$> createClaimed digest (tenantSettings tenantId actor) tenantId input recordId draw

/-- The update of `status`. -/
def expirePairing (tenantId pairingId : Id) (now : Instant) (p : Platform) : Platform :=
  p.modify tenantId fun t => { t with
    pairings := Table.updateWhere (fun r => r.id = pairingId && r.status = .pending && r.expiresAt ≤ now)
      (fun r => { r with status := .expired }) t.pairings }

def status (actor : Actor) (tenantId pairingId : Id) (now : Instant) : PairingTx PairingStatusResponse := do
  write fun d => { d with platform := expirePairing tenantId pairingId now d.platform }
  let pairing ← current fun d =>
    findIn .printAgentPairings (tenantSettings tenantId actor) tenantId (·.id = pairingId) d.platform.printAgentPairings
  let pairing ← orThrow pairing (.pairing (.notFound "Pairing not found."))
  return { pairingId := pairing.id, status := pairing.status, expiresAt := pairing.expiresAt,
           agentId := pairing.claimedAgentId }

end PrintPairingService

/-! ## Runs -/

inductive PairingCall
  | create (actor : Actor) (tenantId : Id) (input : CreatePairing) (idempotencyKey : String) (draw : CreateDraw)
  | status (actor : Actor) (tenantId pairingId : Id) (now : Instant)
  | claim (code name : String) (draw : PairingDraw)

inductive PairingAnswer
  | created (response : Option PairingResponse)
  | status (response : PairingStatusResponse)
  | claimed (response : ClaimResponse)
deriving DecidableEq, Repr

namespace PairingCall

def body (digest : String → String) : PairingCall → PairingTx PairingAnswer
  | create actor tenantId input idempotencyKey draw =>
    .created <$> PrintPairingService.create digest actor tenantId input idempotencyKey draw
  | status actor tenantId pairingId now => .status <$> PrintPairingService.status actor tenantId pairingId now
  | claim code name draw =>
    .claimed <$> zoom PairingDesk.platform (fun platform d => { d with platform }) .pairing
      (PrintPairingService.claim digest code name draw)

end PairingCall

/-- A call, and what has answered its unlocked reads. -/
structure PairingStep where
  call : PairingCall
  view : PairingDesk

/-- The database after a call. What a call has written is gone when it throws. -/
def PairingDesk.settle (digest : String → String) (d : PairingDesk) (e : PairingStep) : PairingDesk :=
  match e.call.body digest e.view d with
  | .ok (_, d') => d'
  | .error _ => d

/-- The calls of a run, each with the database that it has met. -/
def PairingDesk.visits (digest : String → String) (d : PairingDesk) :
    List PairingStep → List (PairingDesk × PairingStep)
  | [] => []
  | e :: es => (d, e) :: (d.settle digest e).visits digest es

end Komanda
