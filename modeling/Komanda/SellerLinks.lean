import Komanda.Lib.JsonText
import Komanda.Lib.ReadCommitted
import Komanda.Members

/-!
# Linking a Mercado Pago seller (`integration.service.ts`, `integration.repository.ts`, `secret-envelope.ts`)

An owner is sent to Mercado Pago with a sealed state and comes back with it and a code; the code buys the tokens of a
seller, which are sealed and stored for the tenant of the state. A `SellerFloor` is the database with what has been
sealed and which links have been made. `LIMIT 1` without an order takes any of the rows, the `pick`-th.
-/

namespace Komanda
open Transaction

/-! ## Secrets -/

structure MercadoPagoTokens where
  accessToken : String
  refreshToken : String
  expiresIn : Nat
  userId : String
  scopes : List String
deriving DecidableEq, Repr

structure OAuthStatePayload where
  tenantId : Id
  userId : Id
  membershipId : Id
  role : Role
  expiresAt : Instant
deriving DecidableEq, Repr

/-- What is sealed. Its JSON is left out: `JSON.parse` gives back what `JSON.stringify` was given. -/
inductive Secret
  | tokens (t : MercadoPagoTokens)
  | state (p : OAuthStatePayload)
deriving DecidableEq, Repr

abbrev Bytes := List UInt8

/-- The configured key with its version: `aes-256-gcm` under it makes of an iv, additional data and a secret the
ciphertext and its tag. -/
structure EncryptionConfig where
  keyVersion : Json.Number
  cipher : Bytes → List Char → Secret → Bytes × Bytes
  decipher : Bytes → List Char → Bytes → Bytes → Option Secret

structure SecretEnvelope where
  keyVersion : Json.Number
  ciphertext : Bytes
  iv : Bytes
  authTag : Bytes
deriving DecidableEq, Repr

def additionalData (tenantId : Id) (provider : String) (keyVersion : Json.Number) : Json.Value Empty :=
  .object [("tenantId", some (.string tenantId)), ("provider", some (.string provider)),
    ("keyVersion", some (.number keyVersion))]

def additionalAuthenticatedData (tenantId : Id) (provider : String) (keyVersion : Json.Number) : List Char :=
  (additionalData tenantId provider keyVersion).text

section Envelopes
variable (config : EncryptionConfig)

def encryptSecret (value : Secret) (tenantId : Id) (provider : String) (iv : Bytes) : SecretEnvelope :=
  let sealed := config.cipher iv (additionalAuthenticatedData tenantId provider config.keyVersion) value
  { keyVersion := config.keyVersion, ciphertext := sealed.1, iv, authTag := sealed.2 }

def decryptSecret (envelope : SecretEnvelope) (tenantId : Id) (provider : String) : Option Secret :=
  config.decipher envelope.iv (additionalAuthenticatedData tenantId provider envelope.keyVersion) envelope.ciphertext
    envelope.authTag

end Envelopes

inductive SellerError
  /-- `MercadoPagoOAuthStateError` -/
  | oauthState (message : String)
  /-- `MercadoPagoIntegrationDependencyError`, or the provider's refusal of the code. -/
  | exchange
  /-- `MercadoPagoIntegrationNotFoundError` -/
  | notFound (message : String)
  /-- `MercadoPagoAccountAlreadyLinkedError` -/
  | alreadyLinked
  /-- `MercadoPagoIntegrationConflictError` -/
  | conflict (message : String)
  | internal (message : String)
deriving DecidableEq, Repr

/-! ## The state of the authorization -/

/-- What the text of a state says, if it is base64url of a JSON object. -/
structure EncodedOAuthState where
  tenantId : Id
  envelope : SecretEnvelope
deriving DecidableEq, Repr

section State
variable (config : EncryptionConfig)

def oauthProvider : String := "mercadopago-oauth-state"

def encodeOAuthState (payload : OAuthStatePayload) (iv : Bytes) : EncodedOAuthState where
  tenantId := payload.tenantId
  envelope := encryptSecret config (.state payload) payload.tenantId oauthProvider iv

/-- Whatever goes wrong in between is an invalid state. -/
def decodeOAuthState (state : Option EncodedOAuthState) (now : Instant) (allowExpired : Bool) :
    Except SellerError OAuthStatePayload :=
  match state with
  | none => .error (.oauthState "OAuth state is invalid.")
  | some state =>
    if config.keyVersion ≠ state.envelope.keyVersion then
      .error (.oauthState "OAuth state key version is unavailable.")
    else
      match decryptSecret config state.envelope state.tenantId oauthProvider with
      | some (.state payload) =>
        if !allowExpired && payload.expiresAt ≤ now then .error (.oauthState "OAuth state expired.")
        else .ok payload
      | _ => .error (.oauthState "OAuth state is invalid.")

/-- `startOAuth`, of a user of the tenant: the payload of the state, which is sealed into the authorization url. -/
def startedState (tenantId userId membershipId : Id) (role : Role) (now : Instant) : OAuthStatePayload where
  tenantId
  userId
  membershipId
  role
  expiresAt := now + 10 * 60 * 1000

end State

/-! ## Accounts -/

/-- A row of `integration_accounts`, without its tenant and its provider. -/
structure MercadoPagoIntegrationAccount where
  id : Id
  providerAccountId : String
  status : AccountStatus
  envelope : SecretEnvelope
  scopes : List String
  expiresAt : Instant
  lastVerifiedAt : Instant
  webhookRoutingKey : String
  version : Nat
deriving DecidableEq, Repr

/-- The rows of the partial unique indexes. -/
def MercadoPagoIntegrationAccount.live (a : MercadoPagoIntegrationAccount) : Bool := a.status ≠ .revoked

/-- The accounts with their tenants, and `tenant_memberships`. -/
structure SellerDesk where
  accounts : List (Id × MercadoPagoIntegrationAccount) := []
  memberships : List Membership := []

abbrev SellerTx (α : Type) := Tx SellerDesk SellerError α

/-- The clock, the random bytes, the id and the routing key of a new row, and the row that `LIMIT 1` takes. -/
structure LinkDraw where
  now : Instant
  iv : Bytes
  accountId : Id
  routingKey : String
  pick : Nat
deriving DecidableEq, Repr

namespace IntegrationRepository
variable (config : EncryptionConfig)

def tokensProvider : String := "mercadopago"

/-- One of the tenant's accounts, if it has any. -/
def anyOf (tenantId : Id) (pick : Nat) (d : SellerDesk) : Option MercadoPagoIntegrationAccount :=
  let rows := d.accounts.filter (·.1 = tenantId)
  rows[pick % rows.length]?.map (·.2)

/-- `integration_accounts_one_active_provider_uidx` -/
def tenantLinked (tenantId : Id) (a : MercadoPagoIntegrationAccount) (r : Id × MercadoPagoIntegrationAccount) : Bool :=
  r.2.id ≠ a.id && r.2.live && r.1 = tenantId

/-- `integration_accounts_provider_account_uidx` -/
def sellerLinked (a : MercadoPagoIntegrationAccount) (r : Id × MercadoPagoIntegrationAccount) : Bool :=
  r.2.id ≠ a.id && r.2.live && r.2.providerAccountId = a.providerAccountId

/-- The unique indexes that a row with a link meets, in the order in which they are checked. -/
def refuseViolations (tenantId : Id) (a : MercadoPagoIntegrationAccount) : SellerTx Unit := do
  let linked ← current fun d => d.accounts.any (tenantLinked tenantId a)
  throwIf linked (.conflict "Mercado Pago integration conflict.")
  let taken ← current fun d => d.accounts.any (sellerLinked a)
  throwIf taken .alreadyLinked

def relink (tokens : MercadoPagoTokens) (envelope : SecretEnvelope) (now : Instant)
    (a : MercadoPagoIntegrationAccount) : MercadoPagoIntegrationAccount :=
  { a with
    providerAccountId := tokens.userId
    status := .active
    envelope
    scopes := tokens.scopes
    expiresAt := now + tokens.expiresIn * 1000
    lastVerifiedAt := now
    version := a.version + 1 }

def newAccount (tokens : MercadoPagoTokens) (envelope : SecretEnvelope) (draw : LinkDraw) :
    MercadoPagoIntegrationAccount where
  id := draw.accountId
  providerAccountId := tokens.userId
  status := .active
  envelope
  scopes := tokens.scopes
  expiresAt := draw.now + tokens.expiresIn * 1000
  lastVerifiedAt := draw.now
  webhookRoutingKey := draw.routingKey
  version := 1

/-- `UPDATE … WHERE id`; the row has been read, so it is there. -/
def updateAccount (tenantId accountId : Id) (f : MercadoPagoIntegrationAccount → MercadoPagoIntegrationAccount) :
    SellerTx (Option MercadoPagoIntegrationAccount) := do
  let row ← current fun d => d.accounts.find? (·.2.id = accountId)
  forSome row fun row => refuseViolations tenantId (f row.2)
  write fun d => { d with accounts := Table.updateWhere (·.2.id = accountId) (fun r => (r.1, f r.2)) d.accounts }
  return row.map fun row => f row.2

/-- The ids and the routing keys are unique among all rows. -/
def insertAccount (tenantId : Id) (a : MercadoPagoIntegrationAccount) :
    SellerTx (Option MercadoPagoIntegrationAccount) := do
  let clash ← current fun d => d.accounts.any fun r => r.2.id = a.id || r.2.webhookRoutingKey = a.webhookRoutingKey
  throwIf clash (.conflict "Mercado Pago integration conflict.")
  refuseViolations tenantId a
  write fun d => { d with accounts := d.accounts ++ [(tenantId, a)] }
  return some a

def saveMercadoPago (tenantId : Id) (tokens : MercadoPagoTokens) (draw : LinkDraw) :
    SellerTx (Option MercadoPagoIntegrationAccount) := do
  let envelope := encryptSecret config (.tokens tokens) tenantId tokensProvider draw.iv
  let existing ← look (anyOf tenantId draw.pick)
  match existing with
  | some existing => updateAccount tenantId existing.id (relink tokens envelope draw.now)
  | none => insertAccount tenantId (newAccount tokens envelope draw)

def decryptTokens (tenantId : Id) (a : MercadoPagoIntegrationAccount) : Option MercadoPagoTokens :=
  if config.keyVersion ≠ a.envelope.keyVersion then none
  else
    match decryptSecret config a.envelope tenantId tokensProvider with
    | some (.tokens tokens) => some tokens
    | _ => none

def revoked (a : MercadoPagoIntegrationAccount) : MercadoPagoIntegrationAccount :=
  { a with status := .revoked, version := a.version + 1 }

def revokeMercadoPago (tenantId : Id) (version : Nat) : SellerTx (Option MercadoPagoIntegrationAccount) := do
  let matched ← current fun d => d.accounts.filter fun r => r.1 = tenantId && r.2.version = version
  write fun d => { d with
    accounts := Table.updateWhere (fun r => r.1 = tenantId && r.2.version = version) (fun r => (r.1, revoked r.2))
      d.accounts }
  return matched.head?.map fun r => revoked r.2

end IntegrationRepository

namespace MercadoPagoIntegrationService
variable (config : EncryptionConfig)
open IntegrationRepository

/-- The memberships that `assertMembershipStillActive` accepts. -/
def stillActive (payload : OAuthStatePayload) (m : Membership) : Bool :=
  m.id = payload.membershipId && m.tenantId = payload.tenantId && m.userId = payload.userId && m.status = .active

def assertMembershipStillActive (payload : OAuthStatePayload) : SellerTx Unit := do
  let membership ← look fun d => d.memberships.find? (stillActive payload)
  throwIf membership.isNone (.notFound "Membership is no longer active.")

/-- `completeOAuth`, with what Mercado Pago answers to the code. -/
def completeOAuth (state : Option EncodedOAuthState) (now : Instant) (exchanged : Option MercadoPagoTokens)
    (draw : LinkDraw) : SellerTx (OAuthStatePayload × MercadoPagoTokens) := do
  let payload ← fromExcept (decodeOAuthState config state now false)
  let tokens ← orThrow exchanged .exchange
  assertMembershipStillActive payload
  let _ ← saveMercadoPago config payload.tenantId tokens draw
  return (payload, tokens)

/-- `revoke`: what Mercado Pago answers changes nothing but the confirmation. -/
def revoke (tenantId : Id) (version pick : Nat) (remoteConfirmed : Bool) : SellerTx (Bool × Nat) := do
  let account ← look (anyOf tenantId pick)
  let account ← orThrow (account.filter (·.version = version))
    (.conflict "Mercado Pago integration version conflict.")
  throwIf (decryptTokens config tenantId account).isNone (.internal "Encryption key version is unavailable.")
  let revoked ← revokeMercadoPago tenantId version
  let revoked ← orThrow revoked (.conflict "Mercado Pago integration version conflict.")
  return (remoteConfirmed, revoked.version)

end MercadoPagoIntegrationService

/-! ## Runs -/

inductive SellerCall
  | startOAuth (tenantId userId membershipId : Id) (role : Role) (now : Instant) (iv : Bytes)
  | completeOAuth (state : Option EncodedOAuthState) (now : Instant) (exchanged : Option MercadoPagoTokens)
    (draw : LinkDraw)
  | revoke (tenantId : Id) (version pick : Nat) (remoteConfirmed : Bool)
  /-- The memberships become others. -/
  | members (rows : List Membership)

/-- What `startOAuth` has sealed, when, and the state that it has sent. -/
structure StartedOAuth where
  payload : OAuthStatePayload
  now : Instant
  state : EncodedOAuthState
deriving DecidableEq, Repr

/-- A link that has been made, when, and the membership that it was made under. -/
structure SellerLink where
  payload : OAuthStatePayload
  tokens : MercadoPagoTokens
  now : Instant
  membership : Membership
deriving DecidableEq, Repr

structure SellerFloor where
  desk : SellerDesk
  issued : List StartedOAuth := []
  /-- Whatever has been sealed, with its additional data. -/
  sealed : List (List Char × Secret) := []
  links : List SellerLink := []
  /-- All rows that the accounts have ever been, and the memberships. -/
  history : List (Id × MercadoPagoIntegrationAccount) := []
  enrolled : List Membership := []

namespace SellerFloor

/-- What a call has left of the database. -/
def leave (desk : SellerDesk) (s : SellerFloor) : SellerFloor :=
  { s with desk, history := s.history ++ desk.accounts.filter (· ∉ s.history) }

end SellerFloor

namespace SellerCall
variable (config : EncryptionConfig)

def exec (c : SellerCall) (v s : SellerFloor) : Option (Unit × SellerFloor) :=
  match c with
  | .startOAuth tenantId userId membershipId role now iv =>
    let payload := startedState tenantId userId membershipId role now
    some ((), { s with
      issued := ⟨payload, now, encodeOAuthState config payload iv⟩ :: s.issued
      sealed := (additionalAuthenticatedData tenantId oauthProvider config.keyVersion, .state payload) :: s.sealed })
  | .completeOAuth state now exchanged draw =>
    match MercadoPagoIntegrationService.completeOAuth config state now exchanged draw v.desk s.desk with
    | .ok ((payload, tokens), desk) =>
      let membership := v.desk.memberships.find? (MercadoPagoIntegrationService.stillActive payload)
      some ((), { s.leave desk with
        sealed := (additionalAuthenticatedData payload.tenantId IntegrationRepository.tokensProvider config.keyVersion,
          .tokens tokens) :: s.sealed
        links := membership.toList.map (⟨payload, tokens, now, ·⟩) ++ s.links })
    | .error _ => none
  | .revoke tenantId version pick remoteConfirmed =>
    match MercadoPagoIntegrationService.revoke config tenantId version pick remoteConfirmed v.desk s.desk with
    | .ok (_, desk) => some ((), s.leave desk)
    | .error _ => none
  | .members rows => some ((), { s with
      desk := { s.desk with memberships := rows }
      enrolled := rows ++ s.enrolled })

end SellerCall

/-- The queries of a transaction. -/
inductive SellerPart
  | accounts
  | memberships
deriving DecidableEq, Repr

def rereadSeller (part : SellerPart) (v s : SellerFloor) : SellerFloor :=
  match part with
  | .accounts => { v with desk := { v.desk with accounts := s.desk.accounts } }
  | .memberships => { v with desk := { v.desk with memberships := s.desk.memberships } }

abbrev SellerSession := ReadCommitted.Session SellerFloor SellerCall

/-- A call starts, reads again, commits or gives up. -/
def sellerStep (config : EncryptionConfig) (s : SellerSession) (e : ReadCommitted.Event SellerCall SellerPart) :
    Option SellerSession := ReadCommitted.step (SellerCall.exec config) rereadSeller s e

def SellerSession.start (memberships : List Membership) : SellerSession :=
  ⟨{ desk := { memberships }, enrolled := memberships }, []⟩

end Komanda
