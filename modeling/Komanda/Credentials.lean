import Komanda.Members

/-!
# Credentials (`features/identity`)

One-time tokens, sessions and passwords. A token is stored as its digest only; a password as its hash. A statement
that updates many rows updates those that it has seen (`updateSeen`), a row that another transaction inserts in
between is not among them; an insertion meets the unique indexes of the committed rows.

A login is three steps that nothing holds together: it reads the credential, it compares the password, and it inserts
its session; `IdentityDb.logins` are those under way.
-/

namespace Komanda
open Transaction

/-- `createHash("sha256")` in hex, and `bcrypt.compare`. -/
structure Hashes where
  sha256 : String → String
  compare : String → String → Bool

/-! ## Tables -/

inductive ChallengePurpose
  | emailVerification
  | passwordReset
deriving DecidableEq, Repr

/-- A row of `identity_verification_challenges`. -/
structure VerificationChallenge where
  id : Id
  userId : Id
  purpose : ChallengePurpose
  tokenDigest : String
  expiresAt : Instant
  consumedAt : Option Instant := none
  attemptCount : Nat := 0
  createdAt : Instant
deriving DecidableEq, Repr

/-- A row of `onboarding_handoffs`. -/
structure OnboardingHandoff where
  id : Id
  tenantId : Id
  userId : Id
  tokenDigest : String
  expiresAt : Instant
  consumedAt : Option Instant := none
deriving DecidableEq, Repr

/-- A row of `user_sessions`. -/
structure UserSession where
  id : Id
  userId : Id
  tokenDigest : String
  expiresAt : Instant
  revokedAt : Option Instant := none
deriving DecidableEq, Repr

/-- What `findCredentialByEmail` returns. -/
structure Credential where
  userId : Id
  email : String
  passwordHash : String
  status : UserStatus
deriving DecidableEq, Repr

/-- A call of `SessionService.create` that has not inserted its session. -/
structure Login where
  credential : Credential
  password : String
  verified : Bool := false
deriving DecidableEq, Repr

structure IdentityDb extends Registry where
  challenges : List VerificationChallenge
  /-- The challenges again. In a view, what the last statement on them finds. -/
  challengesLater : List VerificationChallenge
  handoffs : List OnboardingHandoff
  sessions : List UserSession
  logins : List Login

def IdentityDb.empty : IdentityDb where
  toRegistry := .of [] []
  challenges := []
  challengesLater := []
  handoffs := []
  sessions := []
  logins := []

inductive IdentityError
  | invalidVerificationChallenge (message : String)
  | invalidOnboardingHandoff (message : String)
  | invalidPasswordResetToken
  | invalidCredentials (message : String)
  | invalidSession (message : String)
  | database (constraint : String)
  | internal (message : String)
deriving DecidableEq, Repr

abbrev IdentityTx (α : Type) := Tx IdentityDb IdentityError α

/-! ## Statements -/

section Statements

/-- `UPDATE … WHERE p`: of the rows that the statement finds, those that still meet `p`. -/
def updateSeen {ρ : Type} (found rows : IdentityDb → List ρ) (store : List ρ → IdentityDb → IdentityDb) (id : ρ → Id)
    (p : ρ → Bool) (f : ρ → ρ) : IdentityTx Unit := do
  let seen ← look fun db => ((found db).filter p).map id
  write fun db => store (Table.updateWhere (fun r => id r ∈ seen && p r) f (rows db)) db

def storeChallenges (challenges : List VerificationChallenge) (db : IdentityDb) : IdentityDb :=
  { db with challenges, challengesLater := challenges }

def storeSessions (sessions : List UserSession) (db : IdentityDb) : IdentityDb := { db with sessions }

/-- `SET consumed_at = now` on the challenges that meet `p` and are not consumed. -/
def consumeChallenges (p : VerificationChallenge → Bool) (now : Instant) : IdentityTx Unit :=
  updateSeen (·.challengesLater) (·.challenges) storeChallenges (·.id) (fun c => p c && c.consumedAt.isNone) fun c =>
    { c with consumedAt := some now }

/-- Consume one challenge, and tell whether it was there to be consumed. -/
def consumeChallenge (p : VerificationChallenge → Bool) (challengeId : Id) (now : Instant) : IdentityTx Bool := do
  let hit (c : VerificationChallenge) := c.id = challengeId && c.consumedAt.isNone && p c
  let consumed ← current fun db => db.challenges.any hit
  write fun db => storeChallenges
    (Table.updateWhere hit (fun c => { c with consumedAt := some now }) db.challenges) db
  return consumed

def insertChallenge (row : VerificationChallenge) : IdentityTx Unit := do
  let taken ← current fun db => db.challenges.any fun c => c.id = row.id || c.tokenDigest = row.tokenDigest
  throwIf taken (.database "identity_challenges_token_digest_uidx")
  let active ← current fun db => db.challenges.any fun c =>
    c.userId = row.userId && c.purpose = row.purpose && c.consumedAt.isNone
  throwIf active (.database "identity_challenges_one_active_uidx")
  let known ← current fun db => db.users.any (·.id = row.userId)
  throwIf (¬ known) (.database "identity_verification_challenges_user_id_users_id_fk")
  write fun db => storeChallenges (db.challenges ++ [row]) db

def insertHandoff (row : OnboardingHandoff) : IdentityTx Unit := do
  let taken ← current fun db => db.handoffs.any fun h => h.id = row.id || h.tokenDigest = row.tokenDigest
  throwIf taken (.database "onboarding_handoffs_token_digest_uidx")
  let active ← current fun db => db.handoffs.any fun h =>
    h.tenantId = row.tenantId && h.userId = row.userId && h.consumedAt.isNone
  throwIf active (.database "onboarding_handoffs_one_active_uidx")
  let known ← current fun db => db.users.any (·.id = row.userId)
  throwIf (¬ known) (.database "onboarding_handoffs_user_id_users_id_fk")
  write fun db => { db with handoffs := db.handoffs ++ [row] }

def insertSession (row : UserSession) : IdentityTx Unit := do
  let taken ← current fun db => db.sessions.any fun s => s.id = row.id || s.tokenDigest = row.tokenDigest
  throwIf taken (.database "user_sessions_token_digest_uidx")
  let known ← current fun db => db.users.any (·.id = row.userId)
  throwIf (¬ known) (.database "user_sessions_user_id_users_id_fk")
  write fun db => { db with sessions := db.sessions ++ [row] }

end Statements

/-! ## Services -/

section Services
variable (hashes : Hashes)

namespace IdentityVerificationService

def findChallenge (token : String) (now : Instant) (db : IdentityDb) : Option VerificationChallenge :=
  db.challenges.find? fun c => c.tokenDigest = hashes.sha256 token && c.consumedAt.isNone && now < c.expiresAt &&
    c.attemptCount < 10

def activate (now : Instant) (u : Identity) : Identity := { u with status := .active, emailVerifiedAt := some now }

/-- It asks for no purpose of the challenge. -/
def confirm (token : String) (now : Instant) : IdentityTx Id := do
  let invalid := IdentityError.invalidVerificationChallenge "Verification challenge is invalid or expired."
  let found ← look (findChallenge hashes token now)
  let challenge ← orThrow found invalid
  let consumed ← consumeChallenge (fun _ => true) challenge.id now
  throwIf (¬ consumed) invalid
  write fun db => { db with users := Table.updateWhere (·.id = challenge.userId) (activate now) db.users }
  return challenge.userId

end IdentityVerificationService

/-- What the runtime draws for a row with a token. -/
structure TokenDraw where
  id : Id
  token : String
  nonempty : token ≠ ""
deriving DecidableEq, Repr

def SESSION_TTL_MS : Nat := 8 * 60 * 60 * 1000

/-- The row of a new session. -/
def newSession (userId : Id) (now : Instant) (draw : TokenDraw) : UserSession where
  id := draw.id
  userId
  tokenDigest := hashes.sha256 draw.token
  expiresAt := now + SESSION_TTL_MS

namespace OnboardingHandoffService

def findHandoff (tenantId : Id) (token : String) (now : Instant) (db : IdentityDb) : Option OnboardingHandoff :=
  db.handoffs.find? fun h => h.tenantId = tenantId && h.tokenDigest = hashes.sha256 token && h.consumedAt.isNone &&
    now < h.expiresAt

def authorized (handoff : OnboardingHandoff) (db : IdentityDb) : Bool :=
  (Table.lookup Identity.id handoff.userId db.users).any (·.status = .active) &&
    (db.memberships.find? fun m => m.tenantId = handoff.tenantId && m.userId = handoff.userId).any
      (·.status = .active)

def consumeHandoff (handoffId : Id) (now : Instant) : IdentityTx Bool := do
  let hit (h : OnboardingHandoff) := h.id = handoffId && h.consumedAt.isNone
  let consumed ← current fun db => db.handoffs.any hit
  write fun db =>
    { db with handoffs := Table.updateWhere hit (fun h => { h with consumedAt := some now }) db.handoffs }
  return consumed

def consume (tenantId : Id) (token : String) (now : Instant) (draw : TokenDraw) : IdentityTx String := do
  let found ← look (findHandoff hashes tenantId token now)
  let handoff ← orThrow found (.invalidOnboardingHandoff "Onboarding handoff is invalid or expired.")
  let authorized ← look (authorized handoff)
  throwIf (¬ authorized) (.invalidOnboardingHandoff "Onboarding handoff is not authorized.")
  let consumed ← consumeHandoff handoff.id now
  throwIf (¬ consumed) (.invalidOnboardingHandoff "Onboarding handoff is invalid or expired.")
  insertSession (newSession hashes handoff.userId now draw)
  return draw.token

end OnboardingHandoffService

namespace PasswordRecoveryService

def TTL_MS : Nat := 30 * 60 * 1000
def RESEND_INTERVAL_MS : Nat := 10 * 60 * 1000

/-- The reset challenges of a user. -/
def resets (userId : Id) (c : VerificationChallenge) : Bool := c.userId = userId && c.purpose = .passwordReset

def newChallenge (userId : Id) (now : Instant) (draw : TokenDraw) : VerificationChallenge where
  id := draw.id
  userId
  purpose := .passwordReset
  tokenDigest := hashes.sha256 draw.token
  expiresAt := now + TTL_MS
  createdAt := now

/-- The recipient, if a token has been issued. -/
def request (email : String) (now : Instant) (draw : TokenDraw) : IdentityTx (Option String) := do
  let found ← look fun db => Table.lookup Identity.normalizedEmail (normalizeEmail email) db.users
  match found.filter (·.status = .active) with
  | none => return none
  | some user => do
    let existing ← look fun db => db.challenges.find? fun c => resets user.id c && c.consumedAt.isNone
    if existing.any (now < ·.createdAt + RESEND_INTERVAL_MS) then
      return none
    else do
      consumeChallenges (resets user.id) now
      insertChallenge (newChallenge hashes user.id now draw)
      return some user.email

def findChallenge (token : String) (now : Instant) (db : IdentityDb) : Option VerificationChallenge :=
  db.challenges.find? fun c => c.tokenDigest = hashes.sha256 token && c.purpose = .passwordReset &&
    c.consumedAt.isNone && now < c.expiresAt

/-- `passwordHash` is what `bcrypt.hash` makes of the new password. -/
def reset (token passwordHash : String) (now : Instant) : IdentityTx Unit := do
  let found ← look (findChallenge hashes token now)
  let challenge ← orThrow found .invalidPasswordResetToken
  let consumed ← consumeChallenge (now < ·.expiresAt) challenge.id now
  throwIf (¬ consumed) .invalidPasswordResetToken
  let owner (u : Identity) := u.id = challenge.userId && u.status = .active
  let updated ← current fun db => db.users.any owner
  throwIf (¬ updated) .invalidPasswordResetToken
  write fun db => { db with users := Table.updateWhere owner (fun u => { u with passwordHash }) db.users }
  updateSeen (·.sessions) (·.sessions) storeSessions (·.id)
    (fun s => s.userId = challenge.userId && s.revokedAt.isNone) fun s => { s with revokedAt := some now }
  consumeChallenges (resets challenge.userId) now

end PasswordRecoveryService

namespace SessionService

/-- The first step of `create`. -/
def findCredential (email password : String) : IdentityTx Unit := do
  let found ← look fun db => Table.lookup Identity.normalizedEmail (normalizeEmail email) db.users
  let user ← orThrow found (.invalidCredentials "Invalid credentials.")
  let credential : Credential :=
    { userId := user.id, email := user.email, passwordHash := user.passwordHash, status := user.status }
  write fun db => { db with logins := db.logins ++ [{ credential, password }] }

def accepts (login : Login) : Bool :=
  login.credential.status = .active && hashes.compare login.password login.credential.passwordHash

/-- The second step, of the `i`-th login under way. -/
def verify (i : Nat) : IdentityTx Unit := do
  let found ← current fun db => db.logins[i]?
  let login ← orThrow found (.internal "No such login.")
  throwIf (¬ accepts hashes login) (.invalidCredentials "Invalid credentials.")
  write fun db => { db with logins := db.logins.set i { login with verified := true } }

/-- The last step. -/
def finish (i : Nat) (now : Instant) (draw : TokenDraw) : IdentityTx String := do
  let found ← current fun db => db.logins[i]?
  let login ← orThrow found (.internal "No such login.")
  throwIf (¬ login.verified) (.internal "No such login.")
  insertSession (newSession hashes login.credential.userId now draw)
  write fun db => { db with logins := db.logins.eraseIdx i }
  return draw.token

/-- `resolve`, without the time it notes in the row. -/
def resolve (token : String) (now : Instant) (db : IdentityDb) : Option UserSession :=
  if token = "" then none
  else (Table.lookup UserSession.tokenDigest (hashes.sha256 token) db.sessions).filter fun session =>
    session.revokedAt.isNone && now < session.expiresAt &&
      (Table.lookup Identity.id session.userId db.users).any (·.status = .active)

end SessionService

end Services

end Komanda
