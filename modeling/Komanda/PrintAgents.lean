import Komanda.Lib.ReadCommitted
import Komanda.SearchProjection
import Komanda.CatalogRules

/-!
# Print agents (`print-agent.service.ts`)

A tenant enrolls an agent once for each idempotency key and is shown its token; the table keeps the prefix and the
digest of the secret. `resolveToken` is what every request of an agent goes through. An `AgentFloor` is the database
with the answers that enrolling has given and the revocations that have been confirmed.
-/

namespace Komanda
open Transaction

inductive AgentStatus
  | active
  | revoked
deriving DecidableEq, Repr

/-- A row of `print_agents`, without its tenant. -/
structure PrintAgentRow where
  id : Id
  locationId : Id
  name : String
  tokenPrefix : String
  tokenDigest : String
  status : AgentStatus
deriving DecidableEq, Repr

/-- `enrollPrintAgentSchema`, before it is parsed. -/
structure EnrollPrintAgent where
  locationId : Id
  name : String
deriving DecidableEq, Repr

/-- What `enroll` answers. -/
structure AgentEnrollment where
  agentId : Id
  tenantId : Id
  locationId : Id
  token : String
deriving DecidableEq, Repr

structure ResolvedPrintAgent where
  agentId : Id
  tenantId : Id
  locationId : Id
  status : AgentStatus
deriving DecidableEq, Repr

inductive PrintAgentError
  | zod (paths : List String)
  /-- `PrintAgentEntitlementError` -/
  | entitlement (message : String)
  /-- `PrintAgentNotFoundError` -/
  | notFound (message : String)
  | idempotency (e : Idempotency.IdempotencyError)
  /-- `Error`, and the violations that the database raises. -/
  | internal (message : String)
deriving DecidableEq, Repr

/-! ## Tokens -/

def hexDigit (n : Fin 16) : Char := if n.val < 10 then Char.ofNat (48 + n.val) else Char.ofNat (87 + n.val)

def base64urlDigit (n : Fin 64) : Char :=
  if n.val < 26 then Char.ofNat (65 + n.val)
  else if n.val < 52 then Char.ofNat (71 + n.val)
  else if n.val < 62 then Char.ofNat (n.val - 4)
  else if n.val = 62 then '-' else '_'

/-- The digits of `randomBytes(8)` in hexadecimal, and of `randomBytes(32)` in base64url. -/
structure AgentDraw where
  hex : Vector (Fin 16) 16
  base64url : Vector (Fin 64) 43
deriving DecidableEq, Repr

structure PrintAgentToken where
  tokenPrefix : String
  secret : String
  token : String
  digest : String
deriving DecidableEq, Repr

section Tokens
variable (digestSecret : String → String)

def makePrintAgentToken (draw : AgentDraw) : PrintAgentToken :=
  let tokenPrefix := String.ofList (draw.hex.toList.map hexDigit)
  let secret := String.ofList (draw.base64url.toList.map base64urlDigit)
  { tokenPrefix, secret, token := "kp_" ++ tokenPrefix ++ "_" ++ secret, digest := digestSecret secret }

/-- `[a-f0-9]` -/
def isHexDigit (c : Char) : Bool := c.isDigit || (97 ≤ c.toNat && c.toNat ≤ 102)

/-- `.` of a regular expression. -/
def isDot (c : Char) : Bool := !(c.toNat = 0x0A || c.toNat = 0x0D || c.toNat = 0x2028 || c.toNat = 0x2029)

/-- `/^kp_([a-f0-9]{16})_(.+)$/` on the characters of a trimmed text. -/
def parseTokenChars : List Char → Option (String × String)
  | 'k' :: 'p' :: '_' :: rest =>
    match rest.drop 16 with
    | '_' :: secret =>
      if (rest.take 16).all isHexDigit && !secret.isEmpty && secret.all isDot then
        some (String.ofList (rest.take 16), String.ofList secret)
      else none
    | _ => none
  | _ => none

def parseToken (token : String) : Option (String × String) := parseTokenChars (Text.trim token).toList

end Tokens

/-! ## The service -/

/-- The platform, the table `print_agents` with the tenant of each row, and the idempotency records of the scope
`print-agent-enroll`. -/
structure AgentDesk where
  platform : Platform
  agents : List (Id × PrintAgentRow) := []
  records : List (Idempotency.Record EnrollPrintAgent AgentEnrollment) := []

abbrev AgentTx (α : Type) := Tx AgentDesk PrintAgentError α

/-- The clock, the ids of new rows, and the random bytes of a token. -/
structure EnrollDraw where
  now : Instant
  recordId : Id
  agentId : Id
  token : AgentDraw
deriving DecidableEq, Repr

namespace PrintAgentService

/-- `enrollPrintAgentSchema.parse` -/
def parseEnroll (body : EnrollPrintAgent) : Except PrintAgentError EnrollPrintAgent :=
  if textWithin 1 120 body.name then .ok { body with name := Text.trim body.name }
  else .error (.zod (issues [("name", textWithin 1 120 body.name)]))

def onAgentRecords {α : Type}
    (x : Tx (List (Idempotency.Record EnrollPrintAgent AgentEnrollment)) Idempotency.IdempotencyError α) : AgentTx α :=
  zoom AgentDesk.records (fun records d => { d with records }) .idempotency x

def enrollClaim (tenantId : Id) (request : EnrollPrintAgent) (idempotencyKey : String) :
    Idempotency.ClaimInput EnrollPrintAgent where
  tenantId := some tenantId
  scope := "print-agent-enroll"
  key := idempotencyKey
  request := request
  retentionSeconds := some (24 * 60 * 60)

/-- The primary key, or `print_agents_token_prefix_uidx`. -/
def clashes (row : PrintAgentRow) (r : Id × PrintAgentRow) : Bool :=
  r.2.id = row.id || r.2.tokenPrefix = row.tokenPrefix

def insertAgent (tenantId : Id) (row : PrintAgentRow) : AgentTx Unit := do
  let taken ← current fun d => d.agents.any (clashes row)
  throwIf taken (.internal "duplicate key value violates unique constraint")
  write fun d => { d with agents := d.agents ++ [(tenantId, row)] }

/-- `enroll` after the key has been claimed. -/
def enrollClaimed (digestSecret : String → String) (tenantId : Id) (request : EnrollPrintAgent) (recordId : Id)
    (draw : EnrollDraw) : AgentTx AgentEnrollment := do
  let token := makePrintAgentToken digestSecret draw.token
  insertAgent tenantId
    { id := draw.agentId, locationId := request.locationId, name := request.name, tokenPrefix := token.tokenPrefix,
      tokenDigest := token.digest, status := .active }
  let response : AgentEnrollment :=
    { agentId := draw.agentId, tenantId, locationId := request.locationId, token := token.token }
  onAgentRecords (Idempotency.complete recordId 201 response)
  return response

def enroll (digestSecret : String → String) (actor : Actor) (tenantId : Id) (body : EnrollPrintAgent)
    (idempotencyKey : String) (draw : EnrollDraw) : AgentTx (Option AgentEnrollment) := do
  let request ← fromExcept (parseEnroll body)
  let settings := tenantSettings tenantId actor
  let snapshot ← look fun d =>
    findIn .tenantEntitlementSnapshots settings tenantId (fun e => !e.superseded) d.platform.tenantEntitlementSnapshots
  throwIf (¬ snapshot.any (·.printing)) (.entitlement "Printing is not enabled.")
  let location ← look fun d =>
    findIn .tenantLocations settings tenantId (fun l => l.id = request.locationId && l.active)
      d.platform.tenantLocations
  throwIf location.isNone (.notFound "Location not found.")
  let claim ← onAgentRecords (Idempotency.claim id (enrollClaim tenantId request idempotencyKey) draw.recordId draw.now)
  match claim with
  | .replay _ body => return body
  | .claimed recordId _ => some <$> enrollClaimed digestSecret tenantId request recordId draw

/-- The rows that the `UPDATE` of `revoke` matches. -/
def revocable (tenantId agentId : Id) (r : Id × PrintAgentRow) : Bool :=
  r.2.id = agentId && r.1 = tenantId && r.2.status = .active

def revoke (tenantId agentId : Id) : AgentTx Id := do
  let updated ← current fun d => d.agents.filter (revocable tenantId agentId)
  write fun d => { d with
    agents := Table.updateWhere (revocable tenantId agentId) (fun r => (r.1, { r.2 with status := .revoked })) d.agents }
  let agent ← orThrow updated.head? (.notFound "Print agent not found.")
  return agent.2.id

def authSettings : TxSettings := platformServiceSettings "print-agent-auth"

/-- `resolveToken`. The digests are compared as they are: both are hexadecimal SHA-256. -/
def resolveToken (digestSecret : String → String) (token : String) (d : AgentDesk) :
    Except PrintAgentError ResolvedPrintAgent :=
  match parseToken token with
  | none => .error (.notFound "Invalid print agent token.")
  | some (tokenPrefix, secret) =>
    match (select .printAgents authSettings (fun r => r.2.tokenPrefix = tokenPrefix) d.agents).head? with
    | none => .error (.notFound "Invalid print agent token.")
    | some agent =>
      if agent.2.status ≠ .active ∨ digestSecret secret ≠ agent.2.tokenDigest then
        .error (.notFound "Invalid print agent token.")
      else .ok { agentId := agent.2.id, tenantId := agent.1, locationId := agent.2.locationId,
                 status := agent.2.status }

end PrintAgentService

/-! ## Runs -/

inductive AgentCall
  | enroll (actor : Actor) (tenantId : Id) (body : EnrollPrintAgent) (idempotencyKey : String) (draw : EnrollDraw)
  | revoke (tenantId agentId : Id)

inductive AgentAnswer
  | enrolled (response : Option AgentEnrollment)
  | revoked (agentId : Id)
deriving DecidableEq, Repr

/-- An answer of `enroll`, with the key it was asked for. -/
structure EnrollAnswer where
  tenantId : Id
  key : String
  enrollment : AgentEnrollment
deriving DecidableEq, Repr

structure Revocation where
  tenantId : Id
  agentId : Id
deriving DecidableEq, Repr

structure AgentFloor where
  desk : AgentDesk
  answers : List EnrollAnswer := []
  revocations : List Revocation := []

namespace AgentCall

def body (digestSecret : String → String) : AgentCall → AgentTx AgentAnswer
  | enroll actor tenantId body idempotencyKey draw =>
    .enrolled <$> PrintAgentService.enroll digestSecret actor tenantId body idempotencyKey draw
  | revoke tenantId agentId => .revoked <$> PrintAgentService.revoke tenantId agentId

/-- What an answer adds to the floor. -/
def note : AgentCall → AgentAnswer → AgentDesk → AgentFloor → AgentFloor
  | enroll _ tenantId _ idempotencyKey _, .enrolled (some e), desk, s =>
    { s with desk, answers := ⟨tenantId, Text.trim idempotencyKey, e⟩ :: s.answers }
  | revoke tenantId _, .revoked agentId, desk, s =>
    { s with desk, revocations := ⟨tenantId, agentId⟩ :: s.revocations }
  | _, _, desk, s => { s with desk }

def exec (digestSecret : String → String) (c : AgentCall) (v s : AgentFloor) : Option (AgentAnswer × AgentFloor) :=
  match c.body digestSecret v.desk s.desk with
  | .ok (answer, desk) => some (answer, c.note answer desk s)
  | .error _ => none

end AgentCall

abbrev AgentSession := ReadCommitted.Session AgentFloor AgentCall

/-- A call starts, reads again, commits or gives up. -/
def agentStep (digestSecret : String → String) (s : AgentSession) (e : ReadCommitted.Event AgentCall Unit) :
    Option AgentSession := ReadCommitted.step (AgentCall.exec digestSecret) (fun _ _ db => db) s e

def AgentSession.start (platform : Platform) : AgentSession := ⟨{ desk := { platform } }, []⟩

end Komanda
