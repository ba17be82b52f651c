import Komanda.Credentials
import Komanda.Idempotency

/-!
# Provisioning (`features/provisioning`), and the calls on identities

`OnboardingDb` holds the identities with the tenants that are provisioned for them. A provisioning whose key has been
completed issues new tokens for the stored tenant. `IdentityRequest` are the calls that issue and use tokens, sign in
and change the members; `Witnessed` is the database with what the calls have issued and used up.
-/

namespace Komanda
open Transaction

/-! ## Tables -/

structure OperationalEntitlements where
  catalogManagement : Bool
  onlinePayments : Bool
  printing : Bool
deriving DecidableEq, Repr

structure ResolvedPlan where
  planId : String
  version : Nat
  entitlements : OperationalEntitlements
deriving DecidableEq, Repr

/-- A row of `tenants`, with the columns that a provisioning writes. -/
structure ProvisionedTenant where
  id : Id
  name : String
  slug : String
  normalizedSlug : String
  defaultCurrency : String
  defaultTimezone : String
deriving DecidableEq, Repr

/-- A row of `tenant_locations`. -/
structure ProvisionedLocation where
  id : Id
  tenantId : Id
  name : String
  timezone : String
  isPrimary : Bool
deriving DecidableEq, Repr

/-- A row of `tenant_entitlement_snapshots`. -/
structure EntitlementSnapshot where
  tenantId : Id
  plan : ResolvedPlan
  sourceRequestId : String
  effectiveAt : Instant
  supersededAt : Option Instant := none
deriving DecidableEq, Repr

/-- The event `tenant.provisioned`. -/
structure TenantProvisioned where
  tenantId : Id
  planId : String
  ownerUserId : Id
deriving DecidableEq, Repr

/-- `provisionTenantRequestSchema` -/
structure ProvisionTenantRequest where
  planId : String
  ownerEmail : String
  ownerPassword : String
  tenantName : String
  tenantSlug : String
  currency : String
  timezone : String
  locationName : String
deriving DecidableEq, Repr

structure OnboardingDb where
  identities : IdentityDb
  tenants : List ProvisionedTenant
  locations : List ProvisionedLocation
  snapshots : List EntitlementSnapshot
  outbox : List TenantProvisioned
  /-- The records of the scope `provision-tenant`; an answer is the id of the tenant. -/
  idempotency : List (Idempotency.Record ProvisionTenantRequest Id)

def OnboardingDb.empty : OnboardingDb where
  identities := .empty
  tenants := []
  locations := []
  snapshots := []
  outbox := []
  idempotency := []

inductive OnboardingError
  | provisioningConflict (message : String)
  | idempotency (e : Idempotency.IdempotencyError)
  | identity (e : IdentityError)
  | member (e : MemberError)
  | database (constraint : String)
  | internal (message : String)
deriving DecidableEq, Repr

abbrev OnboardingTx (α : Type) := Tx OnboardingDb OnboardingError α

def onIdentities {α : Type} (x : IdentityTx α) : OnboardingTx α :=
  zoom OnboardingDb.identities (fun identities db => { db with identities }) .identity x

/-! ## Provisioning -/

structure ProvisionedAggregate where
  tenantId : Id
  tenantName : String
  tenantSlug : String
  userId : Id
  ownerEmail : String
  ownerVerified : Bool
  locationId : Id
  locationName : String
  timezone : String
  plan : ResolvedPlan
  effectiveAt : Instant
  verificationExpiresAt : Option Instant
  handoffExpiresAt : Instant
deriving DecidableEq, Repr

/-- A call of `ProvisionTenantService.execute`: what it passes to the repository, and what the runtime draws for it.
`found` is which membership of the tenant a query without an order finds first. -/
structure ProvisionCall where
  request : ProvisionTenantRequest
  normalizedSlug : String
  passwordHash : String
  plan : ResolvedPlan
  idempotencyKey : String
  verification : TokenDraw
  handoff : TokenDraw
  now : Instant
  recordId : Id
  tenantId : Id
  locationId : Id
  userId : Id
  membershipId : Id
  found : Nat
deriving DecidableEq, Repr

namespace ProvisionCall
variable (call : ProvisionCall)

def normalizedEmail : String := normalizeEmail call.request.ownerEmail
def verificationExpiresAt : Instant := call.now + 30 * 60 * 1000
def handoffExpiresAt : Instant := call.now + 10 * 60 * 1000

def claimInput : Idempotency.ClaimInput ProvisionTenantRequest where
  tenantId := none
  scope := "provision-tenant"
  key := call.idempotencyKey
  request := call.request
  retentionSeconds := some (7 * 24 * 60 * 60)

end ProvisionCall

namespace DatabaseProvisioningRepository
variable (hashes : Hashes)

/-- The challenge that a call issues to a user who is not verified; it uses up all that he has. -/
def challengeOwner (call : ProvisionCall) (userId : Id) : IdentityTx Unit := do
  consumeChallenges (·.userId = userId) call.now
  insertChallenge
    { id := call.verification.id, userId, purpose := .emailVerification,
      tokenDigest := hashes.sha256 call.verification.token, expiresAt := call.verificationExpiresAt,
      createdAt := call.now }

def handOver (call : ProvisionCall) (tenantId userId : Id) : IdentityTx Unit :=
  insertHandoff
    { id := call.handoff.id, tenantId, userId, tokenDigest := hashes.sha256 call.handoff.token,
      expiresAt := call.handoffExpiresAt }

/-- The owner's identity, inserted when nobody has the address. -/
def insertOwner (call : ProvisionCall) : IdentityTx Unit := do
  let taken ← current fun db =>
    db.users.any fun u => u.id = call.userId || u.normalizedEmail = call.normalizedEmail
  throwIf taken (.database "users_normalized_email_uidx")
  write fun db => { db with users := db.users ++
    [{ id := call.userId, email := Text.trim call.request.ownerEmail, normalizedEmail := call.normalizedEmail,
       passwordHash := call.passwordHash, status := .pendingVerification }] }

def insertMembership (row : Membership) : IdentityTx Unit := do
  let taken ← current fun db => db.memberships.any fun m =>
    m.id = row.id || (m.tenantId = row.tenantId && m.userId = row.userId)
  throwIf taken (.database "tenant_memberships_tenant_user_key")
  let known ← current fun db => db.users.any (·.id = row.userId)
  throwIf (¬ known) (.database "tenant_memberships_user_id_users_id_fk")
  write fun db => { db with memberships := db.memberships ++ [row], membershipsLater := db.memberships ++ [row] }

def insertTenant (call : ProvisionCall) : OnboardingTx Unit := do
  let taken ← current fun db => db.tenants.any fun t => t.id = call.tenantId || t.normalizedSlug = call.normalizedSlug
  throwIf taken (.database "tenants_normalized_slug_uidx")
  let tenant : ProvisionedTenant :=
    { id := call.tenantId, name := call.request.tenantName, slug := call.request.tenantSlug,
      normalizedSlug := call.normalizedSlug, defaultCurrency := call.request.currency,
      defaultTimezone := call.request.timezone }
  let location : ProvisionedLocation :=
    { id := call.locationId, tenantId := call.tenantId, name := call.request.locationName,
      timezone := call.request.timezone, isPrimary := true }
  let snapshot : EntitlementSnapshot :=
    { tenantId := call.tenantId, plan := call.plan, sourceRequestId := call.idempotencyKey, effectiveAt := call.now }
  write fun db =>
    { db with tenants := db.tenants ++ [tenant], locations := db.locations ++ [location],
              snapshots := db.snapshots ++ [snapshot] }

/-- The owner may be a user already, if the request has his password. -/
def linkable (call : ProvisionCall) (user : Identity) : Bool :=
  hashes.compare call.request.ownerPassword user.passwordHash && user.status ≠ .disabled

/-- `provision` after a claim that is no replay. -/
def create (call : ProvisionCall) (recordId : Id) : OnboardingTx ProvisionedAggregate := do
  let slugTaken ← look fun db => db.tenants.any (·.normalizedSlug = call.normalizedSlug)
  throwIf slugTaken (.provisioningConflict "Tenant slug is unavailable.")
  let existing ← look fun db => Table.lookup Identity.normalizedEmail call.normalizedEmail db.identities.users
  throwIf (¬ existing.all (linkable hashes call)) (.provisioningConflict "Owner identity cannot be linked.")
  let userId := (existing.map (·.id)).getD call.userId
  let verified := existing.any (·.status = .active)
  runIf (existing = none) (onIdentities (insertOwner call))
  insertTenant call
  onIdentities (insertMembership
    { id := call.membershipId, tenantId := call.tenantId, userId, role := .owner, status := .active })
  runIf (¬ verified) (onIdentities (challengeOwner hashes call userId))
  onIdentities (handOver hashes call call.tenantId userId)
  write fun db => { db with outbox := db.outbox ++
    [{ tenantId := call.tenantId, planId := call.plan.planId, ownerUserId := userId }] }
  zoom OnboardingDb.idempotency (fun idempotency db => { db with idempotency }) .idempotency
    (Idempotency.complete recordId 201 call.tenantId)
  return {
    tenantId := call.tenantId, tenantName := call.request.tenantName, tenantSlug := call.request.tenantSlug, userId,
    ownerEmail := Text.trim call.request.ownerEmail, ownerVerified := verified, locationId := call.locationId,
    locationName := call.request.locationName, timezone := call.request.timezone, plan := call.plan,
    effectiveAt := call.now,
    verificationExpiresAt := if verified then none else some call.verificationExpiresAt,
    handoffExpiresAt := call.handoffExpiresAt }

/-- Some membership of the tenant: the query has no order and asks for no role. -/
def someMembership (tenantId : Id) (found : Nat) (db : OnboardingDb) : Option Membership :=
  let memberships := db.identities.memberships.filter (·.tenantId = tenantId)
  memberships[found % memberships.length]?

def consumeHandoffs (tenantId userId : Id) (now : Instant) : IdentityTx Unit :=
  updateSeen (·.handoffs) (·.handoffs) (fun handoffs db => { db with handoffs }) (·.id)
    (fun h => h.tenantId = tenantId && h.userId = userId && h.consumedAt.isNone) fun h =>
      { h with consumedAt := some now }

def rotateCredentialsAndLoad (tenantId : Id) (call : ProvisionCall) : OnboardingTx ProvisionedAggregate := do
  let incomplete := OnboardingError.internal "Provisioning replay aggregate is incomplete."
  let tenant ← look fun db => Table.lookup ProvisionedTenant.id tenantId db.tenants
  let membership ← look (someMembership tenantId call.found)
  let user ← look fun db => membership.bind fun m => Table.lookup Identity.id m.userId db.identities.users
  let location ← look fun db => db.locations.find? fun l => l.tenantId = tenantId && l.isPrimary
  let snapshot ← look fun db => db.snapshots.find? fun s => s.tenantId = tenantId && s.supersededAt.isNone
  let tenant ← orThrow tenant incomplete
  let _ ← orThrow membership incomplete
  let user ← orThrow user incomplete
  let location ← orThrow location incomplete
  let snapshot ← orThrow snapshot incomplete
  onIdentities (consumeHandoffs tenantId user.id call.now)
  onIdentities (handOver hashes call tenantId user.id)
  let ownerVerified : Bool := user.status = .active
  runIf (¬ ownerVerified) (onIdentities (challengeOwner hashes call user.id))
  return {
    tenantId, tenantName := tenant.name, tenantSlug := tenant.slug, userId := user.id, ownerEmail := user.email,
    ownerVerified, locationId := location.id, locationName := location.name, timezone := location.timezone,
    plan := snapshot.plan, effectiveAt := snapshot.effectiveAt,
    verificationExpiresAt := if ownerVerified then none else some call.verificationExpiresAt,
    handoffExpiresAt := call.handoffExpiresAt }

def claim (call : ProvisionCall) :
    Tx (List (Idempotency.Record ProvisionTenantRequest Id)) Idempotency.IdempotencyError
      (Idempotency.Answer ProvisionTenantRequest Id) :=
  Idempotency.claim id call.claimInput call.recordId call.now

def provision (call : ProvisionCall) : OnboardingTx ProvisionedAggregate := do
  let answer ← zoom OnboardingDb.idempotency (fun idempotency db => { db with idempotency }) .idempotency (claim call)
  match answer with
  | .replay _ body => do
    let tenantId ← orThrow body (.internal "Invalid provisioning idempotency replay.")
    rotateCredentialsAndLoad hashes tenantId call
  | .claimed recordId _ => create hashes call recordId

end DatabaseProvisioningRepository

/-! ## Overlapping calls -/

inductive IdentityRequest
  | provision (call : ProvisionCall)
  | member (q : MemberRequest)
  | confirm (token : String) (now : Instant)
  | consume (tenantId : Id) (token : String) (now : Instant) (draw : TokenDraw)
  | request (email : String) (now : Instant) (draw : TokenDraw)
  | reset (token passwordHash : String) (now : Instant)
  | findCredential (email password : String)
  | verify (login : Nat)
  | finish (login : Nat) (now : Instant) (draw : TokenDraw)

def IdentityRequest.isOwn : IdentityRequest → Bool
  | member _ => false
  | _ => true

/-- The members after a call; what belongs to a deleted user goes with him. -/
def storeRegistry (r : Registry) (db : IdentityDb) : IdentityDb :=
  let known (userId : Id) : Bool := r.users.any (·.id = userId)
  let challenges := db.challenges.filter fun c => known c.userId
  { db with
    toRegistry := r
    challenges
    challengesLater := challenges
    handoffs := db.handoffs.filter fun h => known h.userId
    sessions := db.sessions.filter fun s => known s.userId }

/-- The third-party code: the hashes, the query builder, and `z.string().email()`. -/
structure Environment where
  hashes : Hashes
  orm : Orm
  isEmail : String → Bool

section Requests
variable (env : Environment)

/-- What a call returns. -/
inductive IdentityAnswer
  | provisioned (aggregate : ProvisionedAggregate)
  | recovery (recipient : Option String)
  | done

def IdentityRequest.run : IdentityRequest → OnboardingTx IdentityAnswer
  | provision call => IdentityAnswer.provisioned <$> DatabaseProvisioningRepository.provision env.hashes call
  | member q => do
    zoom (·.identities.toRegistry) (fun r db => { db with identities := storeRegistry r db.identities }) .member
      (q.run env.orm env.isEmail)
    return .done
  | confirm token now => do
    let _ ← onIdentities (IdentityVerificationService.confirm env.hashes token now)
    return .done
  | consume tenantId token now draw => do
    let _ ← onIdentities (OnboardingHandoffService.consume env.hashes tenantId token now draw)
    return .done
  | request email now draw =>
    IdentityAnswer.recovery <$> onIdentities (PasswordRecoveryService.request env.hashes email now draw)
  | reset token passwordHash now => do
    onIdentities (PasswordRecoveryService.reset env.hashes token passwordHash now)
    return .done
  | findCredential email password => do
    onIdentities (SessionService.findCredential email password)
    return .done
  | verify login => do
    onIdentities (SessionService.verify env.hashes login)
    return .done
  | finish login now draw => do
    let _ ← onIdentities (SessionService.finish env.hashes login now draw)
    return .done

def IdentityRequest.exec (q : IdentityRequest) (view db : OnboardingDb) : Option (IdentityAnswer × OnboardingDb) :=
  (q.run env view db).toOption

/-- What one query reads. -/
inductive OnboardingPart
  | users
  | memberships
  | membershipsLater
  | challenges
  | challengesLater
  | handoffs
  | sessions
  | tenants
  | locations
  | snapshots
  | idempotency
deriving DecidableEq, Repr

def rereadOnboarding (part : OnboardingPart) (view db : OnboardingDb) : OnboardingDb :=
  let identities := view.identities
  match part with
  | .users => { view with identities := { identities with users := db.identities.users } }
  | .memberships =>
    { view with identities := { identities with
        memberships := db.identities.memberships, membershipsLater := db.identities.membershipsLater } }
  | .membershipsLater => { view with identities := { identities with membershipsLater := db.identities.membershipsLater } }
  | .challenges =>
    { view with identities := { identities with
        challenges := db.identities.challenges, challengesLater := db.identities.challengesLater } }
  | .challengesLater => { view with identities := { identities with challengesLater := db.identities.challengesLater } }
  | .handoffs => { view with identities := { identities with handoffs := db.identities.handoffs } }
  | .sessions => { view with identities := { identities with sessions := db.identities.sessions } }
  | .tenants => { view with tenants := db.tenants }
  | .locations => { view with locations := db.locations }
  | .snapshots => { view with snapshots := db.snapshots }
  | .idempotency => { view with idempotency := db.idempotency }

/-- A step of overlapping calls. -/
def identityStep (s : ReadCommitted.Session OnboardingDb IdentityRequest)
    (e : ReadCommitted.Event IdentityRequest OnboardingPart) :
    Option (ReadCommitted.Session OnboardingDb IdentityRequest) :=
  ReadCommitted.step (IdentityRequest.exec env) rereadOnboarding s e

end Requests

/-! ## What the calls have done -/

/-- The tables of one-time tokens. -/
inductive TokenTable
  | challenges
  | handoffs
deriving DecidableEq, Repr

inductive TokenPurpose
  | emailVerification
  | passwordReset
  | handoff
deriving DecidableEq, Repr

def TokenPurpose.table : TokenPurpose → TokenTable
  | emailVerification => .challenges
  | passwordReset => .challenges
  | handoff => .handoffs

/-- A token that a call has issued or used up, and its row. -/
structure TokenEntry where
  purpose : TokenPurpose
  row : Id
  token : String
deriving DecidableEq, Repr

/-- A password reset: the hash that it has replaced, and the sessions and reset challenges of the user that it met. -/
structure ResetEntry where
  userId : Id
  replacedHash : String
  sessions : List Id
  challenges : List Id
deriving DecidableEq, Repr

/-- A session, and the password that was presented for it. -/
structure SessionEntry where
  session : Id
  password : String
deriving DecidableEq, Repr

/-- The database, and what the calls have done since the beginning. -/
structure Witnessed where
  db : OnboardingDb
  provisioned : List (ProvisionCall × ProvisionedAggregate)
  issued : List TokenEntry
  used : List TokenEntry
  resets : List ResetEntry
  obtained : List SessionEntry

def Witnessed.empty : Witnessed where
  db := .empty
  provisioned := []
  issued := []
  used := []
  resets := []
  obtained := []

section Witnesses
variable (env : Environment)

def TokenDraw.entry (draw : TokenDraw) (purpose : TokenPurpose) : TokenEntry :=
  { purpose, row := draw.id, token := draw.token }

def IdentityRequest.provisioned : IdentityRequest → IdentityAnswer → List (ProvisionCall × ProvisionedAggregate)
  | provision call, .provisioned aggregate => [(call, aggregate)]
  | _, _ => []

/-- The tokens that a call has given away. -/
def IdentityRequest.issued : IdentityRequest → IdentityAnswer → List TokenEntry
  | provision call, .provisioned aggregate =>
    (if aggregate.verificationExpiresAt.isSome then [call.verification.entry .emailVerification] else []) ++
      [call.handoff.entry .handoff]
  | request _ _ draw, .recovery recipient => if recipient.isSome then [draw.entry .passwordReset] else []
  | _, _ => []

/-- The token that a call has used up, under the purpose of its operation. -/
def IdentityRequest.used (q : IdentityRequest) (view : IdentityDb) : List TokenEntry :=
  match q with
  | confirm token now =>
    ((IdentityVerificationService.findChallenge env.hashes token now view).map fun c =>
      { purpose := .emailVerification, row := c.id, token }).toList
  | consume tenantId token now _ =>
    ((OnboardingHandoffService.findHandoff env.hashes tenantId token now view).map fun h =>
      { purpose := .handoff, row := h.id, token }).toList
  | reset token _ now =>
    ((PasswordRecoveryService.findChallenge env.hashes token now view).map fun c =>
      { purpose := .passwordReset, row := c.id, token }).toList
  | _ => []

/-- What a reset of the user replaces and meets. -/
def resetEntry (db : IdentityDb) (user : Identity) : ResetEntry where
  userId := user.id
  replacedHash := user.passwordHash
  sessions := (db.sessions.filter (·.userId = user.id)).map (·.id)
  challenges := (db.challenges.filter (PasswordRecoveryService.resets user.id)).map (·.id)

def IdentityRequest.resets (q : IdentityRequest) (view db : IdentityDb) : List ResetEntry :=
  match q with
  | reset token _ now =>
    ((PasswordRecoveryService.findChallenge env.hashes token now view).bind fun c =>
      (Table.lookup Identity.id c.userId db.users).map (resetEntry db)).toList
  | _ => []

def IdentityRequest.obtained (q : IdentityRequest) (db : IdentityDb) : List SessionEntry :=
  match q with
  | finish login _ draw => (db.logins[login]?.map fun l => { session := draw.id, password := l.password }).toList
  | _ => []

def Witnessed.exec (q : IdentityRequest) (view w : Witnessed) : Option (IdentityAnswer × Witnessed) :=
  (q.exec env view.db w.db).map fun p =>
    (p.1,
      { db := p.2
        provisioned := w.provisioned ++ q.provisioned p.1
        issued := w.issued ++ q.issued p.1
        used := w.used ++ q.used env view.db.identities
        resets := w.resets ++ q.resets env view.db.identities w.db.identities
        obtained := w.obtained ++ q.obtained w.db.identities })

def rereadWitnessed (part : OnboardingPart) (view w : Witnessed) : Witnessed :=
  { view with db := rereadOnboarding part view.db w.db }

/-- A step of overlapping calls, whose commits are witnessed. -/
def witnessedStep (s : ReadCommitted.Session Witnessed IdentityRequest)
    (e : ReadCommitted.Event IdentityRequest OnboardingPart) : Option (ReadCommitted.Session Witnessed IdentityRequest) :=
  ReadCommitted.step (Witnessed.exec env) rereadWitnessed s e

/-- A call that is none of `MemberService`. -/
abbrev OwnRequest := { q : IdentityRequest // q.isOwn = true }

def OwnRequest.exec (q : OwnRequest) (view w : Witnessed) : Option (IdentityAnswer × Witnessed) :=
  Witnessed.exec env q.1 view w

/-- A step of overlapping calls of this kind. -/
def ownStep (s : ReadCommitted.Session Witnessed OwnRequest) (e : ReadCommitted.Event OwnRequest OnboardingPart) :
    Option (ReadCommitted.Session Witnessed OwnRequest) :=
  ReadCommitted.step (OwnRequest.exec env) rereadWitnessed s e

end Witnesses

end Komanda
