import Komanda.CatalogRules
import Komanda.Lib.ReadCommitted

/-!
# Members of a tenant (`member.service.ts`, `member.repository.ts`)

`Registry` holds the identities of the platform and their memberships. A transaction of `MemberService` reads them
without locks, the memberships up to twice, and what it read may be out of date when it writes.

A failed statement aborts its transaction: every statement after it fails too, until the rollback. What a query
throws is the error of the driver or a wrapper of the query builder around it, and `Orm.thrown` says which.
-/

namespace Komanda
open Transaction

inductive UserStatus
  | pendingVerification
  | active
  | disabled
deriving DecidableEq, Repr

/-- A row of `users`. -/
structure Identity where
  id : Id
  email : String
  normalizedEmail : String
  passwordHash : String
  status : UserStatus
  emailVerifiedAt : Option Instant := none
deriving DecidableEq, Repr

inductive MembershipStatus
  | active
  | revoked
deriving DecidableEq, Repr

/-- A row of `tenant_memberships`. -/
structure Membership where
  id : Id
  tenantId : Id
  userId : Id
  role : Role
  status : MembershipStatus
deriving DecidableEq, Repr

structure Registry where
  users : List Identity
  memberships : List Membership
  /-- The memberships again. In a view, what the second query of a transaction finds. -/
  membershipsLater : List Membership

/-- The tables that hold these rows. -/
def Registry.of (users : List Identity) (memberships : List Membership) : Registry :=
  { users, memberships, membershipsLater := memberships }

@[simp] theorem Registry.of_memberships {users : List Identity} {rows : List Membership} :
    (Registry.of users rows).memberships = rows := rfl

/-- What a query throws, as far as the service looks at it. -/
structure QueryError where
  code : Option String
  constraint : Option String
deriving DecidableEq, Repr

/-- The query builder: what it makes of an error of the driver. -/
structure Orm where
  thrown : QueryError → QueryError

def uniqueViolation (constraint : String) : QueryError := { code := some "23505", constraint := some constraint }

/-- The answer to a statement in a transaction that has failed. -/
def transactionAborted : QueryError := { code := some "25P02", constraint := none }

inductive MemberError
  | zod (paths : List String)
  | userAlreadyMember (message : String)
  | lastOwner (message : String)
  | error (message : String)
  | query (e : QueryError)
deriving DecidableEq, Repr

abbrev MembersTx (α : Type) := Tx Registry MemberError α

def isUniqueViolation (e : QueryError) (constraint : String) : Bool :=
  e.code = some "23505" && e.constraint = some constraint

/-! ## Requests -/

structure AddMemberInput where
  email : String
  password : String
  role : Role
deriving DecidableEq, Repr

/-- `isEmail` is `z.string().email()`. -/
def AddMemberSchema (isEmail : String → Bool) (input : AddMemberInput) : Except MemberError AddMemberInput :=
  match issues [("email", isEmail input.email),
      ("password", 8 ≤ Text.length input.password && Text.length input.password ≤ 128)] with
  | [] => .ok input
  | paths => .error (.zod paths)

/-- `email.trim().toLowerCase()`; an address that passes the schema is plain ASCII. -/
def normalizeEmail (email : String) : String := Text.toLowerCase (Text.trim email)

/-- What the runtime draws for a call: two ids, and a salted hash of the password. -/
structure MemberDraw where
  userId : Id
  membershipId : Id
  passwordHash : String
deriving DecidableEq, Repr

/-! ## Repository -/

namespace MemberRepository

def findIdentityByNormalizedEmail (normalizedEmail : String) (users : List Identity) : Option Identity :=
  Table.lookup Identity.normalizedEmail normalizedEmail users

def findByUserId (tenantId userId : Id) (rows : List Membership) : Option Membership :=
  rows.find? fun m => m.tenantId = tenantId && m.userId = userId

def findMembership (tenantId membershipId : Id) (rows : List Membership) : Option Membership :=
  rows.find? fun m => m.tenantId = tenantId && m.id = membershipId

def isActiveOwner (tenantId : Id) (m : Membership) : Bool :=
  m.tenantId = tenantId && m.role = .owner && m.status = .active

def countActiveOwners (tenantId : Id) (rows : List Membership) : Nat := rows.countP (isActiveOwner tenantId)

def writeMemberships (f : List Membership → List Membership) : MembersTx Unit :=
  write fun r => { r with memberships := f r.memberships, membershipsLater := f r.memberships }

def newIdentity (email normalizedEmail : String) (draw : MemberDraw) : Identity where
  id := draw.userId
  email
  normalizedEmail
  passwordHash := draw.passwordHash
  status := .active

def createIdentity (row : Identity) : MembersTx Unit :=
  write fun r => { r with users := r.users ++ [row] }

/-- A membership that is there is set to the role and made active, one that is not is inserted. -/
def create (orm : Orm) (tenantId userId : Id) (role : Role) (newId : Id) : MembersTx Membership := do
  let existing ← look fun r => findByUserId tenantId userId r.membershipsLater
  match existing with
  | some existing =>
    writeMemberships (Table.updateWhere (·.id = existing.id) fun m => { m with role, status := .active })
    let updated ← current fun r => Table.lookup Membership.id existing.id r.memberships
    orThrow updated (.error "Cannot read properties of undefined (reading 'id')")
  | none =>
    let taken ← current fun r => (findByUserId tenantId userId r.memberships).isSome
    let violation := orm.thrown (uniqueViolation "tenant_memberships_tenant_user_key")
    throwIf taken (if isUniqueViolation violation "tenant_memberships_tenant_user_key" then
      .userAlreadyMember "User is already a member of this tenant" else .query violation)
    let used ← current fun r => r.memberships.any (·.id = newId)
    throwIf used (.query (orm.thrown (uniqueViolation "tenant_memberships_pkey")))
    let known ← current fun r => r.users.any (·.id = userId)
    throwIf (¬ known) (.query (orm.thrown
      { code := some "23503", constraint := some "tenant_memberships_user_id_users_id_fk" }))
    let row : Membership := { id := newId, tenantId, userId, role, status := .active }
    writeMemberships (· ++ [row])
    return row

def updateRole (tenantId membershipId : Id) (role : Role) : MembersTx Unit :=
  writeMemberships (Table.updateWhere (fun m => m.tenantId = tenantId && m.id = membershipId) fun m => { m with role })

def delete (tenantId membershipId : Id) : MembersTx Unit :=
  writeMemberships (·.filter fun m => !(m.tenantId = tenantId && m.id = membershipId))

def deleteUserIfUnassigned (userId : Id) : MembersTx Unit :=
  write fun r => { r with
    users := r.users.filter fun u => u.id ≠ userId || r.memberships.any (·.userId = userId) }

end MemberRepository

/-! ## Service -/

namespace MemberService
open MemberRepository

/-- The identity of a new address. Of a unique violation the source means to recover by reading again, in the
transaction that the violation has aborted. -/
def claimIdentity (orm : Orm) (data : AddMemberInput) (draw : MemberDraw) : MembersTx Identity := do
  let row := newIdentity (Text.trim data.email) (normalizeEmail data.email) draw
  let taken ← current fun r => (findIdentityByNormalizedEmail row.normalizedEmail r.users).isSome
  let violation := orm.thrown (uniqueViolation "users_normalized_email_uidx")
  throwIf taken (.query (if isUniqueViolation violation "users_normalized_email_uidx" then
    orm.thrown transactionAborted else violation))
  let used ← current fun r => r.users.any (·.id = row.id)
  throwIf used (.query (orm.thrown (uniqueViolation "users_pkey")))
  createIdentity row
  return row

def resolveIdentity (orm : Orm) (data : AddMemberInput) (draw : MemberDraw) : Option Identity → MembersTx Identity
  | some identity => pure identity
  | none => claimIdentity orm data draw

def addMember (orm : Orm) (isEmail : String → Bool) (tenantId : Id) (input : AddMemberInput) (draw : MemberDraw) :
    MembersTx Membership := do
  let data ← fromExcept (AddMemberSchema isEmail input)
  let existing ← look fun r => findIdentityByNormalizedEmail (normalizeEmail data.email) r.users
  forSome existing fun identity => do
    let membership ← look fun r => findByUserId tenantId identity.id r.memberships
    throwIf (membership.any (·.status = .active)) (.userAlreadyMember "User is already a member of this tenant")
  let identity ← resolveIdentity orm data draw existing
  create orm tenantId identity.id data.role draw.membershipId

/-- The guard of the last owner: it looks at calls on the actor's own membership only. -/
def guardLastOwner (tenantId : Id) (actor : Actor) (membership : Membership) (message : String) : MembersTx Unit :=
  match actor with
  | .user actorUserId _ => do
    let ownerCount ← look fun r => countActiveOwners tenantId r.membershipsLater
    throwIf (membership.userId = actorUserId ∧ membership.role = .owner ∧ ownerCount ≤ 1) (.lastOwner message)
  | _ => pure ()

def changeRole (tenantId : Id) (actor : Actor) (membershipId : Id) (role : Role) : MembersTx Unit := do
  let membership ← look fun r => findMembership tenantId membershipId r.memberships
  let membership ← orThrow membership (.error "Membership not found")
  guardLastOwner tenantId actor membership "Cannot change role of the last active owner"
  updateRole tenantId membershipId role

def deleteMember (tenantId : Id) (actor : Actor) (membershipId : Id) : MembersTx Unit := do
  let membership ← look fun r => findMembership tenantId membershipId r.memberships
  let membership ← orThrow membership (.error "Membership not found")
  guardLastOwner tenantId actor membership "Cannot remove the last active owner"
  delete tenantId membershipId
  deleteUserIfUnassigned membership.userId

def revokeMember (tenantId : Id) (actor : Actor) (membershipId : Id) : MembersTx Unit :=
  deleteMember tenantId actor membershipId

end MemberService

/-! ## Overlapping calls -/

inductive MemberRequest
  | addMember (tenantId : Id) (actor : Actor) (input : AddMemberInput) (draw : MemberDraw)
  | changeRole (tenantId : Id) (actor : Actor) (membershipId : Id) (role : Role)
  | deleteMember (tenantId : Id) (actor : Actor) (membershipId : Id)
  | revokeMember (tenantId : Id) (actor : Actor) (membershipId : Id)

def MemberRequest.run (orm : Orm) (isEmail : String → Bool) : MemberRequest → MembersTx Unit
  | addMember tenantId _ input draw => discard (MemberService.addMember orm isEmail tenantId input draw)
  | changeRole tenantId actor membershipId role => MemberService.changeRole tenantId actor membershipId role
  | deleteMember tenantId actor membershipId => MemberService.deleteMember tenantId actor membershipId
  | revokeMember tenantId actor membershipId => MemberService.revokeMember tenantId actor membershipId

def MemberRequest.exec (orm : Orm) (isEmail : String → Bool) (q : MemberRequest) (view r : Registry) :
    Option (Unit × Registry) :=
  (q.run orm isEmail view r).toOption

/-- The queries of a transaction in their order. -/
inductive RegistryPart
  | users
  | memberships
  | membershipsLater
deriving DecidableEq, Repr

/-- A query that comes later sees at least what is committed now. -/
def rereadRegistry (part : RegistryPart) (view r : Registry) : Registry :=
  match part with
  | .users => r
  | .memberships => { r with users := view.users }
  | .membershipsLater => { view with membershipsLater := r.memberships }

abbrev MemberSession := ReadCommitted.Session Registry MemberRequest
abbrev MemberEvent := ReadCommitted.Event MemberRequest RegistryPart

/-- A step of overlapping calls of `MemberService`. -/
def memberStep (orm : Orm) (isEmail : String → Bool) (s : MemberSession) (e : MemberEvent) : Option MemberSession :=
  ReadCommitted.step (MemberRequest.exec orm isEmail) rereadRegistry s e

/-! ## Invitations of one address -/

/-- A call of `addMember` for the address, with an input that the schema accepts. -/
structure Invitation (isEmail : String → Bool) (normalizedEmail : String) where
  tenantId : Id
  input : AddMemberInput
  draw : MemberDraw
  accepted : AddMemberSchema isEmail input = .ok input
  addressed : normalizeEmail input.email = normalizedEmail

/-- The registry, and what the calls that have ended have answered to their tenants. -/
structure Invited where
  registry : Registry
  answers : List (Id × Except MemberError Membership)

/-- The end of a call: it commits and returns, or it fails and rolls back. -/
def Invitation.exec {isEmail : String → Bool} {normalizedEmail : String} (orm : Orm)
    (q : Invitation isEmail normalizedEmail) (view s : Invited) : Option (Unit × Invited) :=
  some ((), match MemberService.addMember orm isEmail q.tenantId q.input q.draw view.registry s.registry with
    | .ok (m, registry) => { registry, answers := s.answers ++ [(q.tenantId, .ok m)] }
    | .error e => { s with answers := s.answers ++ [(q.tenantId, .error e)] })

def rereadInvited (part : RegistryPart) (view s : Invited) : Invited :=
  { view with registry := rereadRegistry part view.registry s.registry }

/-- A step of overlapping invitations. -/
def invitationStep (orm : Orm) {isEmail : String → Bool} {normalizedEmail : String}
    (s : ReadCommitted.Session Invited (Invitation isEmail normalizedEmail))
    (e : ReadCommitted.Event (Invitation isEmail normalizedEmail) RegistryPart) :
    Option (ReadCommitted.Session Invited (Invitation isEmail normalizedEmail)) :=
  ReadCommitted.step (Invitation.exec orm) rereadInvited s e

end Komanda
