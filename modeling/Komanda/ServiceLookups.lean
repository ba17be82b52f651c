import Komanda.Platform
import Komanda.PlatformJobs

/-!
# Lookups of platform services

`GET /payments/[paymentId]/order-status` and `PrintPairingService.claim` find out in a transaction of the platform
which tenant a payment or a pairing code belongs to, and read on in the rows of that tenant.
-/

namespace Komanda
open Transaction

/-! ## `app/api/v1/payments/[paymentId]/order-status/route.ts` -/

inductive LookupStatus
  | pending
  | completed
  | notFound
deriving DecidableEq, Repr

/-- `paymentStatus` of the answer: of the attempt, or of the order. -/
inductive ReportedStatus
  | attempt (status : AttemptStatus)
  | order (status : PaymentStatus)
deriving DecidableEq, Repr

structure PaymentOrderStatusResponse where
  status : LookupStatus
  orderId : Option Id := none
  tenantId : Option Id := none
  purchaseNumber : Option String := none
  fulfillmentStatus : Option FulfillmentStatus := none
  paymentStatus : Option ReportedStatus := none
  pickupPin : Option String := none
  estimatedWaitMinutes : Option Nat := none
  estimatedReadyAt : Option Instant := none
  hasCustomerPhone : Bool := false
deriving DecidableEq, Repr

/-- `btrim(phone) <> ''` -/
def hasCustomerPhone (customer : Customer) : Bool := customer.phone.any fun phone => phone.toList.any (· ≠ ' ')

def completedResponse (tenantId : Id) (order : Order) : PaymentOrderStatusResponse where
  status := .completed
  orderId := some order.id
  tenantId := some tenantId
  purchaseNumber := some (toString order.purchaseNumber)
  fulfillmentStatus := some order.fulfillmentStatus
  paymentStatus := some (.order order.paymentStatus)
  pickupPin := order.pickupPin
  estimatedWaitMinutes := order.estimatedWaitMinutes
  estimatedReadyAt := order.estimatedReadyAt
  hasCustomerPhone := hasCustomerPhone order.customerSnapshot

namespace PaymentOrderStatus

def settings : TxSettings := platformServiceSettings "payments:lookup"

def findRoute (paymentId : String) (p : Platform) : Option (Id × ProviderResourceRoute) :=
  (select .providerResourceRoutes settings (fun r => r.2.resourceType = .payment && r.2.externalId = paymentId)
    p.providerResourceRoutes).head?

def findAttempt (tenantId attemptId : Id) (p : Platform) : Option (Id × PaymentAttempt × Instant) :=
  (select .paymentAttempts settings (fun r => r.1 = tenantId && r.2.1.id = attemptId) p.paymentAttempts).head?

def findOrder (tenantId attemptId : Id) (p : Platform) : Option (Id × Order) :=
  (select .orders settings (fun r => r.1 = tenantId && r.2.paymentAttemptId = some attemptId) p.orders).head?

/-- `GET` -/
def get (paymentId : String) (p : Platform) : PaymentOrderStatusResponse :=
  match findRoute paymentId p with
  | none => { status := .pending }
  | some route =>
    match findAttempt route.1 route.2.localResourceId p with
    | none => { status := .pending, tenantId := some route.1 }
    | some attempt =>
      if attempt.2.1.status ≠ .approved then
        { status := .pending, tenantId := some route.1, paymentStatus := some (.attempt attempt.2.1.status) }
      else
        match findOrder route.1 route.2.localResourceId p with
        | none =>
          { status := .pending, tenantId := some route.1, paymentStatus := some (.attempt attempt.2.1.status) }
        | some order => completedResponse route.1 order.2

end PaymentOrderStatus

/-! ## `print-pairing.service.ts` -/

inductive PairingError
  | zod (paths : List String)
  | notFound (message : String)
  | entitlement (message : String)
deriving DecidableEq, Repr

/-- `makePrintAgentToken`, with the id of the agent that is created. -/
structure PairingDraw where
  now : Instant
  agentId : Id
  tokenPrefix : String
  tokenDigest : String
  token : String
deriving DecidableEq, Repr

structure ClaimResponse where
  agentId : Id
  tenantId : Id
  locationId : Id
  tenantName : String
  locationName : String
  token : String
deriving DecidableEq, Repr

namespace PrintPairingService

def settings : TxSettings := platformServiceSettings "print-pairing"

/-- The pending pairings, youngest first. -/
def pendingPairings (p : Platform) : List (Id × PairingRow) :=
  (select .printAgentPairings settings (fun r => r.2.status = .pending) p.printAgentPairings).insertionSort
    fun a b => b.2.createdAt ≤ a.2.createdAt

/-- `tenants` admits any service. -/
def findTenant (tenantId : Id) (p : Platform) : Option TenantRow :=
  (Table.lookup (fun t => t.row.id) tenantId p.tenants).map Tenancy.row

def findLocation (tenantId locationId : Id) (p : Platform) : Option LocationRow :=
  ((select .tenantLocations settings (fun r => r.1 = tenantId && r.2.id = locationId && r.2.active)
    p.tenantLocations).head?).map Prod.snd

/-- The snapshot in force. -/
def entitlement (tenantId : Id) (p : Platform) : Option EntitlementRow :=
  ((select .tenantEntitlementSnapshots settings (fun r => r.1 = tenantId && !r.2.superseded)
    p.tenantEntitlementSnapshots).head?).map Prod.snd

def isCode (code : String) : Bool := code.toList.length = 4 && code.toList.all Char.isDigit

def updatePairing (id : Id) (f : PairingRow → PairingRow) (p : Platform) : Platform :=
  { p with tenants := p.tenants.map fun t => { t with pairings := Table.updateWhere (·.id = id) f t.pairings } }

def insertAgent (tenantId : Id) (agent : AgentRow) (p : Platform) : Platform :=
  p.modify tenantId fun t => { t with agents := t.agents ++ [agent] }

/-- A wrong code counts as an attempt on the pairing it is held against. The error that follows rolls it back. -/
def recordAttempt (pairing : Id × PairingRow) (now : Instant) : Tx Platform PairingError Unit :=
  runIf (now < pairing.2.expiresAt ∧ pairing.2.attempts < 5) (write (updatePairing pairing.2.id fun r =>
    { r with attempts := pairing.2.attempts + 1,
             status := if 5 ≤ pairing.2.attempts + 1 then .expired else .pending }))

/-- The pairing is there, is live, and has the code. -/
def usable (matching pairing : Option (Id × PairingRow)) (now : Instant) : Option (Id × PairingRow) :=
  if matching.isSome then pairing.filter fun row => now < row.2.expiresAt && row.2.attempts < 5 else none

/-- `claim`. `digest` is the hexadecimal SHA-256. -/
def claim (digest : String → String) (code name : String) (draw : PairingDraw) :
    Tx Platform PairingError ClaimResponse := do
  throwIf (!isCode code || !textWithin 1 120 name) (.zod (issues [("code", isCode code), ("name", textWithin 1 120 name)]))
  let rows ← current pendingPairings
  let matching := rows.find? fun row => digest code = row.2.codeDigest
  let pairing := matching <|> rows.head?
  match usable matching pairing draw.now with
  | none => do
    forSome pairing fun row => recordAttempt row draw.now
    throw (.notFound "Invalid pairing.")
  | some pairing => do
    let snapshot ← look (entitlement pairing.1)
    throwIf (¬ snapshot.any (·.printing)) (.entitlement "Printing is not enabled.")
    let tenant ← look (findTenant pairing.1)
    let location ← look (findLocation pairing.1 pairing.2.locationId)
    let tenant ← orThrow tenant (.notFound "Invalid pairing.")
    let location ← orThrow location (.notFound "Invalid pairing.")
    write (insertAgent pairing.1
      { id := draw.agentId, locationId := pairing.2.locationId, name := Text.trim name,
        tokenPrefix := draw.tokenPrefix, tokenDigest := draw.tokenDigest })
    write (updatePairing pairing.2.id fun r =>
      if r.status = .pending then { r with status := .claimed, claimedAgentId := some draw.agentId } else r)
    return { agentId := draw.agentId, tenantId := pairing.1, locationId := pairing.2.locationId,
             tenantName := tenant.name, locationName := location.name, token := draw.token }

end PrintPairingService

end Komanda
