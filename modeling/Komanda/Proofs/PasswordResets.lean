import Komanda.Proofs.OneTimeTokens

/-!
# Password resets

A reset revokes the sessions that its statement finds, and a login inserts its session without looking at the
password again. So a login that has read the old hash may insert its session after the reset, and one that commits
between the statement and the commit of the reset keeps its session. Nothing else comes through: the tokens of other
resets are used up, since one reset challenge of a user is active at a time.
-/

namespace Komanda
open Transaction IdentityDb DatabaseProvisioningRepository

/-! ## Effects -/

section Effects
variable {hashes : Hashes} {v db db' db'' : IdentityDb}

/-- Nobody gets another password, and there are the same sessions and logins. -/
structure Rests (db db' : IdentityDb) : Prop where
  users : ∀ u ∈ db.users, ∃ u' ∈ db'.users, u'.id = u.id ∧ u'.passwordHash = u.passwordHash
  sessions : db'.sessions = db.sessions
  logins : db'.logins = db.logins

theorem Rests.of_same (hu : db'.users = db.users) (hs : db'.sessions = db.sessions) (hl : db'.logins = db.logins) :
    Rests db db' :=
  ⟨fun u hmem => ⟨u, hu ▸ hmem, rfl, rfl⟩, hs, hl⟩

theorem Rests.trans (h : Rests db db') (h' : Rests db' db'') : Rests db db'' := by
  refine ⟨fun u hu => ?_, h'.sessions.trans h.sessions, h'.logins.trans h.logins⟩
  obtain ⟨u₁, hu₁, hid, hhash⟩ := h.users u hu
  obtain ⟨u₂, hu₂, hid', hhash'⟩ := h'.users u₁ hu₁
  exact ⟨u₂, hu₂, hid'.trans hid, hhash'.trans hhash⟩

instance : Std.Refl Rests := ⟨fun _ => .of_same rfl rfl rfl⟩

instance : Trans Rests Rests Rests := ⟨.trans⟩

theorem consumeChallenges_rests (p : VerificationChallenge → Bool) (now : Instant) :
    Within Rests (consumeChallenges p now) := by
  intro v db u db' h
  obtain rfl := commits_updateSeen.1 h
  exact .of_same rfl rfl rfl

theorem insertChallenge_rests (row : VerificationChallenge) : Within Rests (insertChallenge row) := by
  intro v db u db' h
  obtain ⟨-, -, -, rfl⟩ := commits_insertChallenge.1 h
  exact .of_same rfl rfl rfl

theorem request_rests (email : String) (now : Instant) (draw : TokenDraw) :
    Within Rests (PasswordRecoveryService.request hashes email now draw) := by
  refine .bind (.look _) fun found => ?_
  split
  · exact .pure _
  · refine .bind (.look _) fun existing => .ite (.pure _) ?_
    exact .bind (consumeChallenges_rests _ _) fun _ => .bind (insertChallenge_rests _) fun _ => .pure _

theorem confirm_rests (token : String) (now : Instant) :
    Within Rests (IdentityVerificationService.confirm hashes token now) := by
  refine .bind (.look _) fun found => .bind (.orThrow _ _) fun challenge => ?_
  refine .bind ?_ fun consumed => .bind (.throwIf _ _) fun _ => .bind (.write fun db => ?_) fun _ => .pure _
  · intro v db u db' h
    obtain ⟨-, rfl⟩ := commits_consumeChallenge.1 h
    exact .of_same rfl rfl rfl
  · refine ⟨fun u hu => ?_, rfl, rfl⟩
    cases hp : decide (u.id = challenge.userId) with
    | false => exact ⟨u, Table.mem_updateWhere_of_not hu hp, rfl, rfl⟩
    | true => exact ⟨_, Table.mem_updateWhere_of hu hp, rfl, rfl⟩

/-- A body on the identities, lifted. -/
def OnIdentities (R : IdentityDb → IdentityDb → Prop) (db db' : OnboardingDb) : Prop := R db.identities db'.identities

instance {R : IdentityDb → IdentityDb → Prop} [Std.Refl R] : Std.Refl (OnIdentities R) :=
  ⟨fun db => Std.Refl.refl db.identities⟩

instance {R : IdentityDb → IdentityDb → Prop} [Trans R R R] :
    Trans (OnIdentities R) (OnIdentities R) (OnIdentities R) :=
  ⟨fun {_ _ _} h h' => Trans.trans (r := R) (s := R) (t := R) h h'⟩

theorem onIdentities_within {R : IdentityDb → IdentityDb → Prop} {α : Type} {x : IdentityTx α} (hx : Within R x) :
    Within (OnIdentities R) (onIdentities x) := .zoom hx fun _ _ h => h

/-- What the statements of a provisioning do to the identities, it does. -/
theorem provision_within {R : IdentityDb → IdentityDb → Prop} [Std.Refl R] [Trans R R R] {call : ProvisionCall}
    (howner : Within R (insertOwner call)) (hmembership : ∀ row, Within R (insertMembership row))
    (hchallenge : ∀ userId, Within R (challengeOwner hashes call userId))
    (hhandoff : ∀ tenantId userId, Within R (handOver hashes call tenantId userId))
    (hconsume : ∀ tenantId userId, Within R (consumeHandoffs tenantId userId call.now)) :
    Within (OnIdentities R) (provision hashes call) := by
  have hrecords {α : Type} (x : Tx (List (Idempotency.Record ProvisionTenantRequest Id)) Idempotency.IdempotencyError α) :
      Within (OnIdentities R)
        (zoom OnboardingDb.idempotency (fun idempotency db => { db with idempotency }) OnboardingError.idempotency x) :=
    Within.zoom (Q := fun _ _ => True) (fun _ _ _ _ _ => trivial) fun db _ _ => Std.Refl.refl db.identities
  refine .bind (hrecords _) fun answer => ?_
  cases answer with
  | replay status body =>
    refine .bind (.orThrow _ _) fun tenantId => ?_
    refine .bind (.look _) fun _ => .bind (.look _) fun _ => .bind (.look _) fun _ => .bind (.look _) fun _ => ?_
    refine .bind (.look _) fun _ => .bind (.orThrow _ _) fun _ => .bind (.orThrow _ _) fun _ => ?_
    refine .bind (.orThrow _ _) fun _ => .bind (.orThrow _ _) fun _ => .bind (.orThrow _ _) fun _ => ?_
    refine .bind (onIdentities_within (hconsume _ _)) fun _ => .bind (onIdentities_within (hhandoff _ _)) fun _ => ?_
    exact .bind (.runIf (onIdentities_within (hchallenge _))) fun _ => .pure _
  | claimed recordId hash =>
    have htenant : Within (OnIdentities R) (insertTenant call) := by
      refine .bind (.current _) fun _ => .bind (.throwIf _ _) fun _ => .write fun db => ?_
      exact Std.Refl.refl db.identities
    refine .bind (.look _) fun _ => .bind (.throwIf _ _) fun _ => .bind (.look _) fun existing => ?_
    refine .bind (.throwIf _ _) fun _ => .bind (.runIf (onIdentities_within howner)) fun _ => .bind htenant fun _ => ?_
    refine .bind (onIdentities_within (hmembership _)) fun _ => ?_
    refine .bind (.runIf (onIdentities_within (hchallenge _))) fun _ => .bind (onIdentities_within (hhandoff _ _)) fun _ => ?_
    exact .bind (.write fun db => Std.Refl.refl db.identities) fun _ => .bind (hrecords _) fun _ => .pure _

theorem provision_rests {call : ProvisionCall} : Within (OnIdentities Rests) (provision hashes call) := by
  refine provision_within ?_ (fun row => ?_) (fun userId => ?_) (fun tenantId userId => ?_) fun tenantId userId => ?_
  · intro v db u db' h
    rw [insertOwner, commits_current_bind, commits_throwIf_bind, commits_write] at h
    obtain ⟨-, rfl⟩ := h
    exact ⟨fun user hu => ⟨user, List.mem_append_left _ hu, rfl, rfl⟩, rfl, rfl⟩
  · intro v db u db' h
    simp only [insertMembership, commits_current_bind, commits_throwIf_bind, commits_write] at h
    obtain ⟨-, -, rfl⟩ := h
    exact .of_same rfl rfl rfl
  · exact .bind (consumeChallenges_rests _ _) fun _ => insertChallenge_rests _
  · intro v db u db' h
    obtain ⟨-, -, -, rfl⟩ := commits_insertHandoff.1 h
    exact .of_same rfl rfl rfl
  · intro v db u db' h
    obtain rfl := commits_updateSeen.1 h
    exact .of_same rfl rfl rfl

/-- A handoff opens a session for an active user. -/
theorem consume_effect {tenantId : Id} {token answer : String} {now : Instant} {draw : TokenDraw}
    (h : Commits (OnboardingHandoffService.consume hashes tenantId token now draw) v db answer db') :
    ∃ userId, (∃ u ∈ v.users, u.id = userId ∧ u.status = .active) ∧ (∀ s ∈ db.sessions, s.id ≠ draw.id) ∧
      db'.users = db.users ∧ db'.logins = db.logins ∧
      db'.sessions = db.sessions ++ [newSession hashes userId now draw] := by
  rw [OnboardingHandoffService.consume, commits_look_bind, commits_orThrow_bind] at h
  obtain ⟨row, -, h⟩ := h
  rw [commits_look_bind, commits_throwIf_bind] at h
  obtain ⟨hauthorized, h⟩ := h
  obtain ⟨consumed, db₁, hconsume, h⟩ := commits_bind.1 h
  rw [commits_throwIf_bind] at h
  obtain ⟨_, db₂, hinsert, h⟩ := commits_bind.1 h.2
  obtain ⟨-, rfl⟩ := commits_pure.1 h
  obtain ⟨hfresh, -, rfl⟩ := commits_insertSession.1 hinsert
  rw [OnboardingHandoffService.consumeHandoff, commits_current_bind, commits_write_bind, commits_pure] at hconsume
  obtain ⟨-, rfl⟩ := hconsume
  have hactive := (Bool.and_eq_true_iff.1 (not_not.1 hauthorized)).1
  obtain ⟨user, huser, hstatus⟩ := (Option.any_eq_true _ _).1 hactive
  exact ⟨row.userId, ⟨user, Table.lookup_mem huser, Table.lookup_key huser, of_decide_eq_true hstatus⟩,
    fun s hs => (hfresh s hs).1, rfl, rfl, rfl⟩

theorem finish_effect {i : Nat} {now : Instant} {draw : TokenDraw} {answer : String}
    (h : Commits (SessionService.finish hashes i now draw) v db answer db') :
    ∃ login, db.logins[i]? = some login ∧ login.verified = true ∧ (∀ s ∈ db.sessions, s.id ≠ draw.id) ∧
      db' = { db with sessions := db.sessions ++ [newSession hashes login.credential.userId now draw]
                      logins := db.logins.eraseIdx i } := by
  rw [SessionService.finish, commits_current_bind, commits_orThrow_bind] at h
  obtain ⟨login, hlogin, h⟩ := h
  rw [commits_throwIf_bind] at h
  obtain ⟨_, db₁, hinsert, hrest⟩ := commits_bind.1 h.2
  obtain ⟨hfresh, -, rfl⟩ := commits_insertSession.1 hinsert
  rw [commits_write_bind, commits_pure] at hrest
  obtain ⟨-, rfl⟩ := hrest
  exact ⟨login, hlogin, not_not.1 h.1, fun s hs => (hfresh s hs).1, rfl⟩

theorem findCredential_effect {email password : String} {u : Unit}
    (h : Commits (SessionService.findCredential email password) v db u db') : ∃ user ∈ v.users,
      db' = { db with logins := db.logins ++
        [{ credential := { userId := user.id, email := user.email, passwordHash := user.passwordHash,
                           status := user.status }, password }] } := by
  rw [SessionService.findCredential, commits_look_bind, commits_orThrow_bind] at h
  obtain ⟨user, huser, h⟩ := h
  obtain rfl := commits_write.1 h
  exact ⟨user, Table.lookup_mem huser, rfl⟩

theorem verify_effect {i : Nat} {u : Unit} (h : Commits (SessionService.verify hashes i) v db u db') :
    ∃ login, db.logins[i]? = some login ∧ SessionService.accepts hashes login = true ∧
      db' = { db with logins := db.logins.set i { login with verified := true } } := by
  rw [SessionService.verify, commits_current_bind, commits_orThrow_bind] at h
  obtain ⟨login, hlogin, h⟩ := h
  rw [commits_throwIf_bind, commits_write] at h
  obtain ⟨haccepts, rfl⟩ := h
  exact ⟨login, hlogin, not_not.1 haccepts, rfl⟩

/-- The sessions that a reset revokes. -/
def revokes (userId : Id) (view : IdentityDb) (s : UserSession) : Bool :=
  decide (s.id ∈ (view.sessions.filter fun s => s.userId = userId && s.revokedAt.isNone).map (·.id)) &&
    (decide (s.userId = userId) && s.revokedAt.isNone)

theorem reset_effect {token passwordHash : String} {now : Instant} {u : Unit}
    (h : Commits (PasswordRecoveryService.reset hashes token passwordHash now) v db u db') :
    ∃ c ∈ PasswordRecoveryService.findChallenge hashes token now v,
      (∃ user ∈ db.users, user.id = c.userId ∧ user.status = .active) ∧
        db'.users = Table.updateWhere (fun u => u.id = c.userId && u.status = .active)
          (fun u => { u with passwordHash }) db.users ∧
        db'.sessions = Table.updateWhere (revokes c.userId v) (fun s => { s with revokedAt := some now }) db.sessions ∧
        db'.logins = db.logins := by
  rw [PasswordRecoveryService.reset, commits_look_bind, commits_orThrow_bind] at h
  obtain ⟨c, hfound, h⟩ := h
  obtain ⟨consumed, db₁, hconsume, h⟩ := commits_bind.1 h
  rw [commits_throwIf_bind] at h
  obtain ⟨-, rfl⟩ := commits_consumeChallenge.1 hconsume
  have hbody := h.2
  rw [commits_current_bind, commits_throwIf_bind, commits_write_bind] at hbody
  obtain ⟨hupdated, hbody⟩ := hbody
  obtain ⟨_, db₂, hsessions, hrest⟩ := commits_bind.1 hbody
  obtain rfl := commits_updateSeen.1 hsessions
  obtain rfl := commits_updateSeen.1 hrest
  obtain ⟨user, huser, howner⟩ := List.any_eq_true.1 (not_not.1 hupdated)
  rw [Bool.and_eq_true, decide_eq_true_eq, decide_eq_true_eq] at howner
  exact ⟨c, hfound, ⟨user, huser, howner⟩, rfl, rfl, rfl⟩

end Effects

/-! ## The calls -/

/-- What a call of `OwnRequest` does to passwords, sessions and logins. -/
inductive Does (env : Environment) (v db db' : IdentityDb) : IdentityRequest → Prop
  | rest {q : IdentityRequest} (hresets : q.resets env v db = []) (hobtained : q.obtained db = [])
      (hreset : ∀ token passwordHash now, q ≠ .reset token passwordHash now) (hfinish : ∀ i now draw, q ≠ .finish i now draw)
      (h : Rests db db') : Does env v db db' q
  | findCredential {email password : String} (user : Identity) (huser : user ∈ v.users)
      (h : db' = { db with logins := db.logins ++
        [{ credential := { userId := user.id, email := user.email, passwordHash := user.passwordHash,
                           status := user.status }, password }] }) : Does env v db db' (.findCredential email password)
  | verify {i : Nat} (login : Login) (hlogin : db.logins[i]? = some login)
      (haccepts : SessionService.accepts env.hashes login = true)
      (h : db' = { db with logins := db.logins.set i { login with verified := true } }) : Does env v db db' (.verify i)
  | consume {tenantId : Id} {token : String} {now : Instant} {draw : TokenDraw} (userId : Id)
      (hactive : ∃ u ∈ v.users, u.id = userId ∧ u.status = .active) (hfresh : ∀ s ∈ db.sessions, s.id ≠ draw.id)
      (husers : db'.users = db.users) (hlogins : db'.logins = db.logins)
      (hsessions : db'.sessions = db.sessions ++ [newSession env.hashes userId now draw]) :
      Does env v db db' (.consume tenantId token now draw)
  | finish {i : Nat} {now : Instant} {draw : TokenDraw} (login : Login) (hlogin : db.logins[i]? = some login)
      (hverified : login.verified = true) (hfresh : ∀ s ∈ db.sessions, s.id ≠ draw.id)
      (h : db' = { db with sessions := db.sessions ++ [newSession env.hashes login.credential.userId now draw]
                           logins := db.logins.eraseIdx i }) : Does env v db db' (.finish i now draw)
  | reset {token passwordHash : String} {now : Instant} (c : VerificationChallenge)
      (hfound : c ∈ PasswordRecoveryService.findChallenge env.hashes token now v)
      (hactive : ∃ user ∈ db.users, user.id = c.userId ∧ user.status = .active)
      (husers : db'.users = Table.updateWhere (fun u => u.id = c.userId && u.status = .active)
        (fun u => { u with passwordHash }) db.users)
      (hsessions : db'.sessions =
        Table.updateWhere (revokes c.userId v) (fun s => { s with revokedAt := some now }) db.sessions)
      (hlogins : db'.logins = db.logins) (hunused : TokenEntry.Unused ⟨.passwordReset, c.id, token⟩ db)
      (hused : TokenEntry.UsedUp ⟨.passwordReset, c.id, token⟩ db') :
      Does env v db db' (.reset token passwordHash now)

theorem run_does {env : Environment} {q : IdentityRequest} {v db db' : OnboardingDb} {answer : IdentityAnswer}
    (hown : q.isOwn = true) (h : Commits (q.run env) v db answer db') :
    Does env v.identities db.identities db'.identities q := by
  have hbody {α : Type} {x : IdentityTx α}
      (h : Commits (do let _ ← onIdentities x; return .done : OnboardingTx IdentityAnswer) v db answer db') :
      ∃ a, Commits x v.identities db.identities a db'.identities := by
    obtain ⟨a, db₁, hrun, h⟩ := commits_bind.1 h
    obtain ⟨-, rfl⟩ := commits_pure.1 h
    obtain ⟨identities, hbody, rfl⟩ := commits_onIdentities.1 hrun
    exact ⟨a, hbody⟩
  cases q with
  | member q => cases hown
  | provision call =>
    obtain ⟨aggregate, hprovides, -⟩ := commits_map.1 h
    exact .rest rfl rfl (by intros; simp) (by intros; simp) (provision_rests _ _ _ _ hprovides)
  | confirm token now =>
    obtain ⟨a, hconfirm⟩ := hbody h
    exact .rest rfl rfl (by intros; simp) (by intros; simp) (confirm_rests _ _ _ _ _ _ hconfirm)
  | request email now draw =>
    obtain ⟨recipient, hrequest, -⟩ := commits_map.1 h
    obtain ⟨identities, hrun, rfl⟩ := commits_onIdentities.1 hrequest
    exact .rest rfl rfl (by intros; simp) (by intros; simp) (request_rests _ _ _ _ _ _ _ hrun)
  | consume tenantId token now draw =>
    obtain ⟨a, hconsume⟩ := hbody h
    obtain ⟨userId, hactive, hfresh, husers, hlogins, hsessions⟩ := consume_effect hconsume
    exact .consume userId hactive hfresh husers hlogins hsessions
  | reset token passwordHash now =>
    obtain ⟨a, hreset⟩ := hbody h
    obtain ⟨c, hfound, hactive, husers, hsessions, hlogins⟩ := reset_effect hreset
    obtain ⟨c', hfound', hunused, hused⟩ := reset_uses hreset
    obtain rfl := Option.mem_unique hfound hfound'
    exact .reset c hfound hactive husers hsessions hlogins hunused hused
  | findCredential email password =>
    obtain ⟨a, hfind⟩ := hbody h
    obtain ⟨user, huser, hdb⟩ := findCredential_effect hfind
    exact .findCredential user huser hdb
  | verify login =>
    obtain ⟨a, hverify⟩ := hbody h
    obtain ⟨row, hlogin, haccepts, hdb⟩ := verify_effect hverify
    exact .verify row hlogin haccepts hdb
  | finish login now draw =>
    obtain ⟨a, hfinish⟩ := hbody h
    obtain ⟨row, hlogin, hverified, hfresh, hdb⟩ := finish_effect hfinish
    exact .finish row hlogin hverified hfresh hdb

/-! ## The law -/

/-- What the resets so far have promised: no session that one of them met is accepted, nor one obtained with a
password that it replaced, and no token that it met resets a password. -/
structure LockedOut (hashes : Hashes) (w : Witnessed) : Prop where
  sessions : ∀ r ∈ w.resets, ∀ token now, ∀ s ∈ SessionService.resolve hashes token now w.db.identities, s.id ∉ r.sessions
  passwords : ∀ r ∈ w.resets, ∀ o ∈ w.obtained, hashes.compare o.password r.replacedHash = true →
    (∀ u ∈ w.db.identities.users, u.id = r.userId → hashes.compare o.password u.passwordHash = false) →
    ∀ token now, ∀ s ∈ SessionService.resolve hashes token now w.db.identities, s.userId = r.userId → s.id ≠ o.session
  tokens : ∀ r ∈ w.resets, ∀ c ∈ w.db.identities.challenges, c.id ∈ r.challenges →
    ∀ token, hashes.sha256 token = c.tokenDigest → ∀ view passwordHash now u db', TokensStay view w.db.identities →
      ¬ Commits (PasswordRecoveryService.reset hashes token passwordHash now) view w.db.identities u db'

/-- A login finishes with a password that its user still has, and a reset sees the sessions that it has to revoke. -/
def IdentityRequest.LocksOut (hashes : Hashes) (q : IdentityRequest) (view db : IdentityDb) : Prop :=
  match q with
  | finish i _ _ => ∀ l ∈ db.logins[i]?, ∀ u ∈ db.users, u.id = l.credential.userId →
      hashes.compare l.password u.passwordHash = true
  | reset token _ now => ∀ c ∈ PasswordRecoveryService.findChallenge hashes token now view, ∀ s ∈ db.sessions,
      s.userId = c.userId → s.revokedAt = none → ∃ seen ∈ view.sessions, seen.id = s.id
  | _ => True

/-- The credential is one of the user's, present or replaced. -/
def Witnessed.Knows (w : Witnessed) (credential : Credential) : Prop :=
  ∃ u ∈ w.db.identities.users, u.id = credential.userId ∧ (credential.status = .active → u.status = .active) ∧
    (u.passwordHash = credential.passwordHash ∨
      ∃ r ∈ w.resets, r.userId = credential.userId ∧ r.replacedHash = credential.passwordHash)

def Identity.credential (u : Identity) : Credential :=
  { userId := u.id, email := u.email, passwordHash := u.passwordHash, status := u.status }

/-- The session has a token, and an active user. -/
structure UserSession.Signed (hashes : Hashes) (users : List Identity) (s : UserSession) : Prop where
  token : ∃ token, token ≠ "" ∧ hashes.sha256 token = s.tokenDigest
  lives : 0 < s.expiresAt
  active : ∃ u ∈ users, u.id = s.userId ∧ u.status = .active

/-- What a reset met is there, and its challenges are used up. -/
structure ResetEntry.Met (db : IdentityDb) (r : ResetEntry) : Prop where
  sessions : ∀ id ∈ r.sessions, ∃ s ∈ db.sessions, s.id = id
  challenges : ∀ id ∈ r.challenges, ∃ c ∈ db.challenges, c.id = id ∧ c.consumedAt.isSome = true

structure Witnessed.Guarded (hashes : Hashes) (w : Witnessed) : Prop where
  keyed : w.db.identities.Keyed
  signed : ∀ s ∈ w.db.identities.sessions, s.Signed hashes w.db.identities.users
  known : ∀ l ∈ w.db.identities.logins, w.Knows l.credential
  verified : ∀ l ∈ w.db.identities.logins, l.verified = true → SessionService.accepts hashes l = true
  resets : ∀ r ∈ w.resets, r.Met w.db.identities
  obtained : ∀ o ∈ w.obtained, ∃ s ∈ w.db.identities.sessions, s.id = o.session

/-- The law on rows: what has to be rejected is revoked. -/
structure Witnessed.Revoked (hashes : Hashes) (w : Witnessed) : Prop where
  sessions : ∀ r ∈ w.resets, ∀ s ∈ w.db.identities.sessions, s.id ∈ r.sessions → s.revokedAt.isSome = true
  passwords : ∀ r ∈ w.resets, ∀ o ∈ w.obtained, hashes.compare o.password r.replacedHash = true →
    (∀ u ∈ w.db.identities.users, u.id = r.userId → hashes.compare o.password u.passwordHash = false) →
    ∀ s ∈ w.db.identities.sessions, s.userId = r.userId → s.id = o.session → s.revokedAt.isSome = true

section Law
variable {env : Environment} {hashes : Hashes} {q : OwnRequest} {v w w' : Witnessed} {answer : IdentityAnswer}

/-- A session is accepted under some token exactly as long as it is not revoked. -/
theorem Witnessed.Guarded.resolves_iff (hi : w.Guarded hashes) {s : UserSession} (hs : s ∈ w.db.identities.sessions) :
    (∃ token now, s ∈ SessionService.resolve hashes token now w.db.identities) ↔ s.revokedAt = none := by
  constructor
  · rintro ⟨token, now, hresolve⟩
    rw [SessionService.resolve, Option.mem_def] at hresolve
    split at hresolve
    · cases hresolve
    · have hlive := (Option.filter_eq_some_iff.1 hresolve).2
      rw [Bool.and_eq_true, Bool.and_eq_true, Option.isNone_iff_eq_none] at hlive
      exact hlive.1.1
  · intro hlive
    obtain ⟨⟨token, hnonempty, hdigest⟩, hexpires, u, hu, hid, hactive⟩ := hi.signed s hs
    refine ⟨token, 0, ?_⟩
    rw [SessionService.resolve, if_neg hnonempty, hdigest, hi.keyed.sessions.digests.lookup hs, Option.mem_def,
      Option.filter_eq_some_iff]
    refine ⟨rfl, ?_⟩
    rw [Bool.and_eq_true, Bool.and_eq_true, decide_eq_true_eq, Option.isNone_iff_eq_none, ← hid,
      hi.keyed.users.lookup hu]
    exact ⟨⟨hlive, hexpires⟩, decide_eq_true hactive⟩

theorem resolve_mem {token : String} {now : Instant} {db : IdentityDb} {s : UserSession}
    (h : s ∈ SessionService.resolve hashes token now db) : s ∈ db.sessions := by
  rw [SessionService.resolve, Option.mem_def] at h
  split at h
  · cases h
  · exact Table.lookup_mem (Option.filter_eq_some_iff.1 h).1

/-- A token that a reset met finds a challenge that is used up. -/
theorem Witnessed.Guarded.rejects (hi : w.Guarded hashes) {r : ResetEntry} (hr : r ∈ w.resets)
    {c : VerificationChallenge}
    (hc : c ∈ w.db.identities.challenges) (hmet : c.id ∈ r.challenges) {token passwordHash : String} {now : Instant}
    {view db' : IdentityDb} {u : Unit} (hdigest : hashes.sha256 token = c.tokenDigest)
    (hview : TokensStay view w.db.identities) :
    ¬ Commits (PasswordRecoveryService.reset hashes token passwordHash now) view w.db.identities u db' := by
  intro h
  obtain ⟨found, hfound, ⟨c', hc', hid', hunused⟩, -⟩ := reset_uses h
  have hseen := List.find?_some hfound
  simp only [Bool.and_eq_true, decide_eq_true_eq] at hseen
  obtain ⟨kept, hkept, hkey, -⟩ := hview.challenges found (List.mem_of_find?_eq_some hfound)
  simp only [VerificationChallenge.key, Prod.mk.injEq] at hkey
  obtain rfl := hi.keyed.challenges.digests.eq hkept hc (hkey.2.2.2.trans (hseen.1.1.1.trans hdigest))
  obtain rfl := hi.keyed.challenges.ids.eq hc' hc (hid'.trans hkey.1.symm)
  obtain ⟨row, hrow, hid, hused⟩ := (hi.resets r hr).challenges _ hmet
  obtain rfl := hi.keyed.challenges.ids.eq hrow hc hid
  rw [hunused] at hused
  cases hused

theorem Witnessed.Guarded.lockedOut_iff (hi : w.Guarded hashes) : LockedOut hashes w ↔ w.Revoked hashes := by
  have hrevoked {s : UserSession} (hs : s ∈ w.db.identities.sessions)
      (h : ∀ token now, s ∉ SessionService.resolve hashes token now w.db.identities) : s.revokedAt.isSome = true := by
    rw [Option.isSome_iff_ne_none]
    intro hlive
    obtain ⟨token, now, hresolve⟩ := (hi.resolves_iff hs).2 hlive
    exact h token now hresolve
  have hrejected {token : String} {now : Instant} {s : UserSession}
      (hresolve : s ∈ SessionService.resolve hashes token now w.db.identities) : ¬ s.revokedAt.isSome = true := by
    rw [(hi.resolves_iff (resolve_mem hresolve)).1 ⟨token, now, hresolve⟩]
    exact Bool.false_ne_true
  constructor
  · intro h
    constructor
    · intro r hr s hs hmet
      exact hrevoked hs fun token now hresolve => h.sessions r hr token now s hresolve hmet
    · intro r hr o ho hold hnew s hs huser hid
      exact hrevoked hs fun token now hresolve => h.passwords r hr o ho hold hnew token now s hresolve huser hid
  · intro h
    refine ⟨fun r hr token now s hresolve hmet => ?_, ?_, ?_⟩
    · exact hrejected hresolve (h.sessions r hr s (resolve_mem hresolve) hmet)
    · intro r hr o ho hold hnew token now s hresolve huser hid
      exact hrejected hresolve (h.passwords r hr o ho hold hnew s (resolve_mem hresolve) huser hid)
    · intro r hr c hc hmet token hdigest view passwordHash now u db' hview
      exact hi.rejects hr hc hmet hdigest hview

/-! ### Steps -/

/-- Who has another password has had a reset; no challenge or session goes. -/
structure Witnessed.Moves (w w' : Witnessed) : Prop where
  users : ∀ u ∈ w.db.identities.users, ∃ u' ∈ w'.db.identities.users, u'.id = u.id ∧
    (u.status = .active → u'.status = .active) ∧
    (u'.passwordHash = u.passwordHash ∨ ∃ r ∈ w'.resets, r.userId = u.id ∧ r.replacedHash = u.passwordHash)
  resets : w.resets ⊆ w'.resets
  tokens : TokensStay w.db.identities w'.db.identities
  sessions : Carries UserSession.key (·.revokedAt) w.db.identities.sessions w'.db.identities.sessions

theorem Witnessed.Knows.move {credential : Credential} (h : w.Knows credential) (hmove : w.Moves w') :
    w'.Knows credential := by
  obtain ⟨u, hu, hid, hactive, hhash⟩ := h
  obtain ⟨u', hu', hid', hactive', hhash'⟩ := hmove.users u hu
  refine ⟨u', hu', hid'.trans hid, fun hstatus => hactive' (hactive hstatus), ?_⟩
  rcases hhash with hsame | ⟨r, hr, huser, hreplaced⟩
  · rcases hhash' with hsame' | ⟨r, hr, huser, hreplaced⟩
    · exact .inl (hsame'.trans hsame)
    · exact .inr ⟨r, hr, huser.trans hid, hreplaced.trans hsame⟩
  · exact .inr ⟨r, hmove.resets hr, huser, hreplaced⟩

theorem ResetEntry.Met.move {r : ResetEntry} (h : r.Met w.db.identities) (hmove : w.Moves w') :
    r.Met w'.db.identities := by
  constructor
  · intro id hid
    obtain ⟨s, hs, rfl⟩ := h.sessions id hid
    obtain ⟨s', hs', hkey, -⟩ := hmove.sessions s hs
    simp only [UserSession.key, Prod.mk.injEq] at hkey
    exact ⟨s', hs', hkey.1⟩
  · intro id hid
    obtain ⟨c, hc, rfl, hused⟩ := h.challenges id hid
    obtain ⟨c', hc', hkey, hstay⟩ := hmove.tokens.challenges c hc
    simp only [VerificationChallenge.key, Prod.mk.injEq] at hkey
    exact ⟨c', hc', hkey.1, hstay hused⟩

theorem UserSession.Signed.move {users users' : List Identity} {s s' : UserSession} (h : s.Signed hashes users)
    (hkey : s.key = s'.key) (hstay : UsersStay users users') : s'.Signed hashes users' := by
  simp only [UserSession.key, Prod.mk.injEq] at hkey
  obtain ⟨-, huser, hdigest, hexpires⟩ := hkey
  obtain ⟨⟨token, hnonempty, htoken⟩, hlives, u, hu, hid, hactive⟩ := h
  obtain ⟨u', hu', hid', hactive'⟩ := hstay u hu
  exact ⟨⟨token, hnonempty, htoken.trans hdigest⟩, hexpires ▸ hlives, u', hu', hid'.trans (hid.trans huser),
    hactive' hactive⟩

theorem newSession_signed {users : List Identity} {userId : Id} {now : Instant} {draw : TokenDraw}
    (hactive : ∃ u ∈ users, u.id = userId ∧ u.status = .active) : (newSession hashes userId now draw).Signed hashes users :=
  ⟨⟨draw.token, draw.nonempty, rfl⟩, Nat.add_pos_right now (by decide), hactive⟩

theorem resets_reset {v db : IdentityDb} {token passwordHash : String} {now : Instant} {c : VerificationChallenge}
    {u : Identity} (hkeyed : Table.UniqueOn Identity.id db.users)
    (hfound : c ∈ PasswordRecoveryService.findChallenge env.hashes token now v) (hu : u ∈ db.users)
    (hid : u.id = c.userId) : (IdentityRequest.reset token passwordHash now).resets env v db = [resetEntry db u] := by
  rw [IdentityRequest.resets, Option.mem_def.1 hfound, Option.bind_some, ← hid, hkeyed.lookup hu]
  rfl

/-- What a transaction has seen of the committed state. -/
structure Witnessed.Saw (v w : Witnessed) : Prop where
  users : ∀ u ∈ v.db.identities.users, w.Knows u.credential
  tokens : TokensStay v.db.identities w.db.identities
  sessions : Carries UserSession.key (·.revokedAt) v.db.identities.sessions w.db.identities.sessions

theorem Witnessed.Saw.refl : w.Saw w :=
  ⟨fun u hu => ⟨u, hu, rfl, id, .inl rfl⟩, ⟨.refl, .refl⟩, .refl⟩

theorem Witnessed.Saw.move (h : v.Saw w) (hmove : w.Moves w') : v.Saw w' :=
  ⟨fun u hu => (h.users u hu).move hmove, h.tokens.trans hmove.tokens, h.sessions.trans hmove.sessions⟩

theorem Witnessed.Guarded.moves (hi : w.Guarded env.hashes) (h : q.exec env v w = some (answer, w')) : w.Moves w' := by
  obtain ⟨db', hrun, rfl⟩ := witnessed_exec_eq h
  have ha := run_advances q.2 hrun
  refine ⟨fun u hu => ?_, List.subset_append_left _ _, ha.tokensStay, ha.sessions⟩
  have hhash : ∃ u' ∈ db'.identities.users, u'.id = u.id ∧ (u'.passwordHash = u.passwordHash ∨
      ∃ r ∈ w.resets ++ q.1.resets env v.db.identities w.db.identities, r.userId = u.id ∧
        r.replacedHash = u.passwordHash) := by
    have hdoes := run_does q.2 hrun
    have hkept (h : db'.identities.users = w.db.identities.users) : ∃ u' ∈ db'.identities.users, u'.id = u.id ∧
        (u'.passwordHash = u.passwordHash ∨ ∃ r ∈ w.resets ++ q.1.resets env v.db.identities w.db.identities,
          r.userId = u.id ∧ r.replacedHash = u.passwordHash) := ⟨u, h ▸ hu, rfl, .inl rfl⟩
    generalize hq : q.1 = request at hdoes hkept
    cases hdoes with
    | rest hresets hobtained hreset hfinish hrests =>
      obtain ⟨u', hu', hid, hsame⟩ := hrests.users u hu
      exact ⟨u', hu', hid, .inl hsame⟩
    | findCredential user huser hdb => exact hkept (by rw [hdb])
    | verify login hlogin haccepts hdb => exact hkept (by rw [hdb])
    | consume userId hactive hfresh husers hlogins hsessions => exact hkept husers
    | finish login hlogin hverified hfresh hdb => exact hkept (by rw [hdb])
    | reset c hfound hactive husers hsessions hlogins hunused hused =>
      rw [husers]
      by_cases howner : u.id = c.userId ∧ u.status = .active
      · refine ⟨_, Table.mem_updateWhere_of hu (by simpa using howner), rfl,
          .inr ⟨resetEntry w.db.identities u, ?_, rfl, rfl⟩⟩
        rw [resets_reset hi.keyed.users hfound hu howner.1]
        exact List.mem_append_right _ List.mem_cons_self
      · exact ⟨u, Table.mem_updateWhere_of_not hu (by simpa using howner), rfl, .inl rfl⟩
  obtain ⟨u₁, hu₁, hid₁, hhash⟩ := hhash
  obtain ⟨u₂, hu₂, hid₂, hactive⟩ := ha.users u hu
  obtain rfl := (ha.keyed hi.keyed).users.eq hu₁ hu₂ (hid₁.trans hid₂.symm)
  exact ⟨u₁, hu₁, hid₁, hactive, hhash⟩

/-- Whoever has verified a password is active. -/
theorem Witnessed.Guarded.active (hi : w.Guarded hashes) {login : Login} (hlogin : login ∈ w.db.identities.logins)
    (hverified : login.verified = true) :
    ∃ u ∈ w.db.identities.users, u.id = login.credential.userId ∧ u.status = .active := by
  obtain ⟨u, hu, hid, hactive, -⟩ := hi.known login hlogin
  have haccepts := hi.verified login hlogin hverified
  rw [SessionService.accepts, Bool.and_eq_true, decide_eq_true_eq] at haccepts
  exact ⟨u, hu, hid, hactive haccepts.1⟩

/-- After a reset no challenge that it met can be used: one at most was unused, and it is the one of its token. -/
theorem Witnessed.Guarded.met (hi : w.Guarded env.hashes) (hv : v.Saw w) {db' : IdentityDb}
    (ha : w.db.identities.Advances db') {u : Identity} {c : VerificationChallenge} {token : String} {now : Instant}
    (hid : u.id = c.userId) (hfound : c ∈ PasswordRecoveryService.findChallenge env.hashes token now v.db.identities)
    (hunused : TokenEntry.Unused ⟨.passwordReset, c.id, token⟩ w.db.identities)
    (hused : TokenEntry.UsedUp ⟨.passwordReset, c.id, token⟩ db') : (resetEntry w.db.identities u).Met db' := by
  constructor
  · intro id hmet
    obtain ⟨s, hs, rfl⟩ := List.mem_map.1 hmet
    obtain ⟨s', hs', hkey, -⟩ := ha.sessions s (List.mem_filter.1 hs).1
    simp only [UserSession.key, Prod.mk.injEq] at hkey
    exact ⟨s', hs', hkey.1⟩
  · intro id hmet
    obtain ⟨row, hrow, rfl⟩ := List.mem_map.1 hmet
    obtain ⟨hrow, hmine⟩ := List.mem_filter.1 hrow
    rw [PasswordRecoveryService.resets, Bool.and_eq_true, decide_eq_true_eq, decide_eq_true_eq] at hmine
    by_cases hfree : row.consumedAt = none
    · have hseen := List.find?_some hfound
      simp only [Bool.and_eq_true, decide_eq_true_eq] at hseen
      obtain ⟨own, hown, hkey, -⟩ := hv.tokens.challenges c (List.mem_of_find?_eq_some hfound)
      simp only [VerificationChallenge.key, Prod.mk.injEq] at hkey
      obtain ⟨own', hown', hid', hnone⟩ := hunused
      obtain rfl := hi.keyed.challenges.ids.eq hown' hown (hid'.trans hkey.1.symm)
      obtain rfl := hi.keyed.challenges.active row hrow own' hown' (hmine.1.trans (hid.trans hkey.2.1.symm))
        (hmine.2.trans (hkey.2.2.1.trans hseen.1.1.2).symm) hfree hnone
      rw [hkey.1]
      exact hused
    · obtain ⟨row', hrow', hkey, hstay⟩ := ha.challenges row hrow
      simp only [VerificationChallenge.key, Prod.mk.injEq] at hkey
      exact ⟨row', hrow', hkey.1, hstay (Option.isSome_iff_ne_none.2 hfree)⟩

theorem obtained_finish {db : IdentityDb} {i : Nat} {now : Instant} {draw : TokenDraw} {login : Login}
    (hlogin : db.logins[i]? = some login) : (IdentityRequest.finish i now draw).obtained db =
      [{ session := draw.id, password := login.password }] := by
  rw [IdentityRequest.obtained, hlogin]
  rfl

theorem Witnessed.Guarded.exec (hi : w.Guarded env.hashes) (hv : v.Saw w) (h : q.exec env v w = some (answer, w')) :
    w'.Guarded env.hashes := by
  have hmove := hi.moves h
  obtain ⟨db', hrun, rfl⟩ := witnessed_exec_eq h
  have ha := run_advances q.2 hrun
  have hdoes := run_does q.2 hrun
  have hsigned : ∀ s' ∈ db'.identities.sessions, (∃ s ∈ w.db.identities.sessions, s.key = s'.key) ∨
      s'.Signed env.hashes w.db.identities.users := by
    intro s' hs'
    have hkept (h : db'.identities.sessions = w.db.identities.sessions) : ∃ s ∈ w.db.identities.sessions, s.key =
      s'.key :=
      ⟨s', h ▸ hs', rfl⟩
    have hnew {userId : Id} {now : Instant} {draw : TokenDraw}
        (h : db'.identities.sessions = w.db.identities.sessions ++ [newSession env.hashes userId now draw])
        (hactive : ∃ u ∈ w.db.identities.users, u.id = userId ∧ u.status = .active) :
        (∃ s ∈ w.db.identities.sessions, s.key = s'.key) ∨ s'.Signed env.hashes w.db.identities.users := by
      rw [h] at hs'
      rcases List.mem_append.1 hs' with hold | hnew
      · exact .inl ⟨s', hold, rfl⟩
      · exact .inr (List.mem_singleton.1 hnew ▸ newSession_signed hactive)
    generalize q.1 = request at hdoes
    cases hdoes with
    | rest hresets hobtained hreset hfinish hrests => exact .inl (hkept hrests.sessions)
    | findCredential user huser hdb => exact .inl (hkept (by rw [hdb]))
    | verify login hlogin haccepts hdb => exact .inl (hkept (by rw [hdb]))
    | consume userId hactive hfresh husers hlogins hsessions =>
      obtain ⟨u, hu, rfl, hstatus⟩ := hactive
      obtain ⟨u', hu', hid, hactive, -⟩ := hv.users u hu
      exact hnew hsessions ⟨u', hu', hid, hactive hstatus⟩
    | finish login hlogin hverified hfresh hdb =>
      exact hnew (by rw [hdb]) (hi.active (List.mem_of_getElem? hlogin) hverified)
    | reset c hfound hactive husers hsessions hlogins hunused hused =>
      rw [hsessions] at hs'
      rcases Table.mem_updateWhere_cases hs' with ⟨hs, -⟩ | ⟨s, hs, -, rfl⟩
      · exact .inl ⟨s', hs, rfl⟩
      · exact .inl ⟨s, hs, rfl⟩
  have hlogins : ∀ l' ∈ db'.identities.logins, w.Knows l'.credential ∧
      (l'.verified = true → SessionService.accepts env.hashes l' = true) := by
    intro l' hl'
    have hkept (h : l' ∈ w.db.identities.logins) : w.Knows l'.credential ∧
        (l'.verified = true → SessionService.accepts env.hashes l' = true) := ⟨hi.known l' h, hi.verified l' h⟩
    generalize q.1 = request at hdoes
    cases hdoes with
    | rest hresets hobtained hreset hfinish hrests => exact hkept (hrests.logins ▸ hl')
    | findCredential user huser hdb =>
      rw [hdb] at hl'
      rcases List.mem_append.1 hl' with hl' | hl'
      · exact hkept hl'
      · obtain rfl := List.mem_singleton.1 hl'
        exact ⟨hv.users user huser, fun hverified => (Bool.false_ne_true hverified).elim⟩
    | verify login hlogin haccepts hdb =>
      rw [hdb] at hl'
      rcases List.mem_or_eq_of_mem_set hl' with hl' | rfl
      · exact hkept hl'
      · exact ⟨hi.known login (List.mem_of_getElem? hlogin), fun _ => haccepts⟩
    | consume userId hactive hfresh husers hlogins hsessions => exact hkept (hlogins ▸ hl')
    | finish login hlogin hverified hfresh hdb =>
      rw [hdb] at hl'
      exact hkept (List.mem_of_mem_eraseIdx hl')
    | reset c hfound hactive husers hsessions hlogins hunused hused => exact hkept (hlogins ▸ hl')
  have hresets : ∀ r ∈ q.1.resets env v.db.identities w.db.identities, r.Met db'.identities := by
    intro r hr
    generalize q.1 = request at hdoes hr
    cases hdoes with
    | rest hresets hobtained hreset hfinish hrests =>
      rw [hresets] at hr
      cases hr
    | reset c hfound hactive husers hsessions hlogins hunused hused =>
      obtain ⟨u, hu, hid, -⟩ := hactive
      rw [resets_reset hi.keyed.users hfound hu hid] at hr
      exact List.mem_singleton.1 hr ▸ hi.met hv ha hid hfound hunused hused
    | _ => cases hr
  have hobtained : ∀ o ∈ q.1.obtained w.db.identities, ∃ s ∈ db'.identities.sessions, s.id = o.session := by
    intro o ho
    generalize q.1 = request at hdoes ho
    cases hdoes with
    | rest hresets hobtained hreset hfinish hrests =>
      rw [hobtained] at ho
      cases ho
    | finish login hlogin hverified hfresh hdb =>
      rw [obtained_finish hlogin, List.mem_singleton] at ho
      rw [hdb, ho]
      exact ⟨_, List.mem_append_right _ List.mem_cons_self, rfl⟩
    | _ => cases ho
  refine ⟨ha.keyed hi.keyed, fun s' hs' => ?_, fun l' hl' => (hlogins l' hl').1.move hmove,
    fun l' hl' => (hlogins l' hl').2,
    fun r hr => ?_, fun o ho => ?_⟩
  · rcases hsigned s' hs' with ⟨s, hs, hkey⟩ | hnew
    · exact (hi.signed s hs).move hkey ha.users
    · exact hnew.move rfl ha.users
  · rcases List.mem_append.1 hr with hr | hr
    · exact (hi.resets r hr).move hmove
    · exact hresets r hr
  · rcases List.mem_append.1 ho with ho | ho
    · obtain ⟨s, hs, hid⟩ := hi.obtained o ho
      obtain ⟨s', hs', hkey, -⟩ := ha.sessions s hs
      simp only [UserSession.key, Prod.mk.injEq] at hkey
      exact ⟨s', hs', hkey.1.trans hid⟩
    · exact hobtained o ho

/-- New sessions do not fall under what was promised before, as long as nobody gets another password. -/
theorem Witnessed.Guarded.keep (hi : w.Guarded hashes) (hlaw : w.Revoked hashes) {db' : OnboardingDb}
    (husers : ∀ u ∈ w.db.identities.users, ∃ u' ∈ db'.identities.users, u'.id = u.id ∧ u'.passwordHash = u.passwordHash)
    (hsessions : ∀ s' ∈ db'.identities.sessions,
      s' ∈ w.db.identities.sessions ∨ ∀ s ∈ w.db.identities.sessions, s.id ≠ s'.id) :
    { w with db := db' }.Revoked hashes := by
  constructor
  · intro r hr s' hs' hmet
    rcases hsessions s' hs' with hs | hfresh
    · exact hlaw.sessions r hr s' hs hmet
    · obtain ⟨s, hs, hid⟩ := (hi.resets r hr).sessions _ hmet
      exact absurd hid (hfresh s hs)
  · intro r hr o ho hold hnew s' hs' huser hid
    rcases hsessions s' hs' with hs | hfresh
    · refine hlaw.passwords r hr o ho hold (fun u hu hown => ?_) s' hs huser hid
      obtain ⟨u', hu', hid', hhash⟩ := husers u hu
      exact hhash ▸ hnew u' hu' (hid'.trans hown)
    · obtain ⟨s, hs, hid'⟩ := hi.obtained o ho
      exact absurd (hid'.trans hid.symm) (hfresh s hs)

theorem locksOut_of {q : IdentityRequest} {view db : IdentityDb}
    (hreset : ∀ token passwordHash now, q ≠ .reset token passwordHash now)
    (hfinish : ∀ i now draw, q ≠ .finish i now draw) : q.LocksOut hashes view db := by
  cases q with
  | reset token passwordHash now => exact absurd rfl (hreset token passwordHash now)
  | finish i now draw => exact absurd rfl (hfinish i now draw)
  | _ => trivial

/-- A session is new, and its password may be an old one. -/
theorem Witnessed.Guarded.finish_iff (hi : w.Guarded env.hashes) (hlaw : w.Revoked env.hashes) {db' : OnboardingDb}
    {view : IdentityDb} {i : Nat} {now : Instant} {draw : TokenDraw} {login : Login} {o : List SessionEntry}
    (hlogin : w.db.identities.logins[i]? = some login) (hverified : login.verified = true)
    (hfresh : ∀ s ∈ w.db.identities.sessions, s.id ≠ draw.id)
    (husers : db'.identities.users = w.db.identities.users)
    (hsessions : db'.identities.sessions =
      w.db.identities.sessions ++ [newSession env.hashes login.credential.userId now draw])
    (ho : o = w.obtained ++ [{ session := draw.id, password := login.password }]) :
    { w with db := db', obtained := o }.Revoked env.hashes ↔
      (IdentityRequest.finish i now draw).LocksOut env.hashes view w.db.identities := by
  have hmem := List.mem_of_getElem? hlogin
  constructor
  · intro h l hl u hu hid
    obtain rfl : login = l := Option.some.inj (hlogin.symm.trans hl)
    by_contra hreplaced
    obtain ⟨u', hu', hid', -, hhash⟩ := hi.known login hmem
    obtain rfl := hi.keyed.users.eq hu hu' (hid.trans hid'.symm)
    have haccepts := (Bool.and_eq_true_iff.1 (hi.verified login hmem hverified)).2
    rcases hhash with hsame | ⟨r, hr, huser, hhash⟩
    · exact hreplaced (hsame ▸ haccepts)
    · have hrevoked := h.passwords r hr { session := draw.id, password := login.password } (by simp [ho])
        (by rw [hhash]; exact haccepts) ?_ (newSession env.hashes login.credential.userId now draw) ?_ huser.symm rfl
      · exact Bool.false_ne_true hrevoked
      · intro u' hu' hid'
        obtain rfl := hi.keyed.users.eq hu (husers ▸ hu') (hid.trans (huser.symm.trans hid'.symm))
        exact Bool.eq_false_iff.2 hreplaced
      · simp [hsessions]
  · intro hcurrent
    have hkept : { w with db := db' }.Revoked env.hashes := by
      refine hi.keep hlaw (fun u hu => ⟨u, husers ▸ hu, rfl, rfl⟩) fun s' hs' => ?_
      rw [hsessions] at hs'
      rcases List.mem_append.1 hs' with hs' | hs'
      · exact .inl hs'
      · exact .inr fun s hs => List.mem_singleton.1 hs' ▸ hfresh s hs
    refine ⟨hkept.sessions, fun r hr entry hentry hold hnew s' hs' huser hid => ?_⟩
    rw [ho] at hentry
    rcases List.mem_append.1 hentry with hentry | hentry
    · exact hkept.passwords r hr entry hentry hold hnew s' hs' huser hid
    · obtain rfl := List.mem_singleton.1 hentry
      rw [hsessions] at hs'
      rcases List.mem_append.1 hs' with hs' | hs'
      · exact absurd hid (hfresh s' hs')
      · -- the password of the new session is the user's present one
        obtain rfl := List.mem_singleton.1 hs'
        obtain ⟨u, hu, howner, -⟩ := hi.known login hmem
        have hstill := hcurrent login hlogin u hu howner
        rw [hnew u (husers ▸ hu) (howner.trans huser)] at hstill
        cases hstill

/-- A reset revokes the sessions that it sees. -/
theorem Witnessed.Guarded.reset_iff (hi : w.Guarded env.hashes) (hv : v.Saw w) (hlaw : w.Revoked env.hashes)
    {db' : OnboardingDb} {token passwordHash : String} {now : Instant} {c : VerificationChallenge} {u : Identity}
    {resets : List ResetEntry}
    (hfound : c ∈ PasswordRecoveryService.findChallenge env.hashes token now v.db.identities)
    (hid : u.id = c.userId)
    (husers : db'.identities.users = Table.updateWhere (fun u => u.id = c.userId && u.status = .active)
      (fun u => { u with passwordHash }) w.db.identities.users)
    (hsessions : db'.identities.sessions = Table.updateWhere (revokes c.userId v.db.identities)
      (fun s => { s with revokedAt := some now }) w.db.identities.sessions)
    (hr : resets = w.resets ++ [resetEntry w.db.identities u]) :
    { w with db := db', resets }.Revoked env.hashes ↔
      (IdentityRequest.reset token passwordHash now).LocksOut env.hashes v.db.identities w.db.identities := by
  constructor
  · intro h c' hc' s hs huser hlive
    obtain rfl := Option.mem_unique hfound hc'
    cases hrevokes : revokes c.userId v.db.identities s with
    | true =>
      rw [revokes, Bool.and_eq_true, decide_eq_true_eq] at hrevokes
      obtain ⟨seen, hseen, hsame⟩ := List.mem_map.1 hrevokes.1
      exact ⟨seen, (List.mem_filter.1 hseen).1, hsame⟩
    | false =>
      have hmet : s.id ∈ (resetEntry w.db.identities u).sessions :=
        List.mem_map.2 ⟨s, List.mem_filter.2 ⟨hs, decide_eq_true (huser.trans hid.symm)⟩, rfl⟩
      have hrevoked := h.sessions _ (by rw [hr]; exact List.mem_append_right _ List.mem_cons_self) s
        (by rw [hsessions]; exact Table.mem_updateWhere_of_not hs hrevokes) hmet
      rw [hlive] at hrevoked
      cases hrevoked
  · intro hseen
    have hown : ∀ s' ∈ db'.identities.sessions, s'.userId = c.userId → s'.revokedAt.isSome = true := by
      intro s' hs' huser
      rw [hsessions] at hs'
      rcases Table.mem_updateWhere_cases hs' with ⟨hs, hkept⟩ | ⟨_, -, -, rfl⟩
      · rw [Option.isSome_iff_ne_none]
        intro hlive
        obtain ⟨seen, hmem, hsame⟩ := hseen c hfound s' hs huser hlive
        obtain ⟨s, hs₁, hkey, hstay⟩ := hv.sessions seen hmem
        simp only [UserSession.key, Prod.mk.injEq] at hkey
        obtain rfl := hi.keyed.sessions.ids.eq hs₁ hs (hkey.1.trans hsame)
        have hopen : seen.revokedAt = none := by
          by_contra hdone
          exact absurd hlive (Option.isSome_iff_ne_none.1 (hstay (Option.isSome_iff_ne_none.2 hdone)))
        have hin : s.id ∈ (v.db.identities.sessions.filter fun s => s.userId = c.userId && s.revokedAt.isNone).map (·.id) :=
          List.mem_map.2 ⟨seen, List.mem_filter.2 ⟨hmem, by simp [hopen, ← hkey.2.1, huser]⟩, hsame⟩
        rw [revokes, Bool.and_eq_false_iff] at hkept
        rcases hkept with hout | hother
        · exact of_decide_eq_false hout hin
        · simp [huser, hlive] at hother
      · rfl
    have hother : ∀ s' ∈ db'.identities.sessions, s' ∈ w.db.identities.sessions ∨ s'.revokedAt.isSome = true := by
      intro s' hs'
      rw [hsessions] at hs'
      rcases Table.mem_updateWhere_cases hs' with ⟨hs, -⟩ | ⟨_, -, -, rfl⟩
      · exact .inl hs
      · exact .inr rfl
    constructor
    · intro r hmem s' hs' hmet
      rw [hr] at hmem
      rcases hother s' hs' with hs | hdone
      · rcases List.mem_append.1 hmem with hmem | hmem
        · exact hlaw.sessions r hmem s' hs hmet
        · obtain rfl := List.mem_singleton.1 hmem
          obtain ⟨s, hmine, hsame⟩ := List.mem_map.1 hmet
          obtain ⟨hs₁, hmine⟩ := List.mem_filter.1 hmine
          obtain rfl := hi.keyed.sessions.ids.eq hs₁ hs hsame
          exact hown s hs' ((of_decide_eq_true hmine).trans hid)
      · exact hdone
    · intro r hmem o ho hold hnew s' hs' huser hobtained
      rw [hr] at hmem
      by_cases hmine : r.userId = c.userId
      · exact hown s' hs' (huser.trans hmine)
      · rcases List.mem_append.1 hmem with hmem | hmem
        · rcases hother s' hs' with hs | hdone
          · refine hlaw.passwords r hmem o ho hold (fun u' hu' hid' => ?_) s' hs huser hobtained
            refine hnew u' ?_ hid'
            rw [husers]
            exact Table.mem_updateWhere_of_not hu' (by simp [hid', hmine])
          · exact hdone
        · exact absurd ((List.mem_singleton.1 hmem ▸ hid)) hmine

theorem Witnessed.Revoked.congr (hdb : w'.db = w.db) (hresets : w'.resets = w.resets)
    (hobtained : w'.obtained = w.obtained) :
    w'.Revoked hashes ↔ w.Revoked hashes := by
  constructor
  · rintro ⟨hsessions, hpasswords⟩
    rw [hdb, hresets] at hsessions
    rw [hdb, hresets, hobtained] at hpasswords
    exact ⟨hsessions, hpasswords⟩
  · rintro ⟨hsessions, hpasswords⟩
    rw [← hdb, ← hresets] at hsessions
    rw [← hdb, ← hresets, ← hobtained] at hpasswords
    exact ⟨hsessions, hpasswords⟩

/-- One call: the law survives it exactly when it locks out. -/
theorem OwnRequest.exec_revoked_iff (hi : w.Guarded env.hashes) (hv : v.Saw w) (hlaw : w.Revoked env.hashes)
    (h : q.exec env v w = some (answer, w')) :
    w'.Revoked env.hashes ↔ q.1.LocksOut env.hashes v.db.identities w.db.identities := by
  obtain ⟨db', hrun, rfl⟩ := witnessed_exec_eq h
  have hdoes := run_does q.2 hrun
  have hquiet (hresets : q.1.resets env v.db.identities w.db.identities = []) (hobtained : q.1.obtained w.db.identities = [])
      (hkept : { w with db := db' }.Revoked env.hashes) : Witnessed.Revoked env.hashes
        { db := db', provisioned := w.provisioned ++ q.1.provisioned answer, issued := w.issued ++ q.1.issued answer
          used := w.used ++ q.1.used env v.db.identities
          resets := w.resets ++ q.1.resets env v.db.identities w.db.identities
          obtained := w.obtained ++ q.1.obtained w.db.identities } := by
    have hsame : w.resets ++ q.1.resets env v.db.identities w.db.identities = w.resets := by
      rw [hresets, List.append_nil]
    have hsame' : w.obtained ++ q.1.obtained w.db.identities = w.obtained := by rw [hobtained, List.append_nil]
    rw [hsame, hsame']
    exact ⟨hkept.sessions, hkept.passwords⟩
  generalize q.1 = request at hdoes hquiet
  cases hdoes with
  | rest hresets hobtained hreset hfinish hrests =>
    refine iff_of_true (hquiet hresets hobtained ?_) (locksOut_of hreset hfinish)
    exact hi.keep hlaw hrests.users fun s' hs' => .inl (hrests.sessions ▸ hs')
  | findCredential user huser hdb =>
    refine iff_of_true (hquiet rfl rfl ?_) trivial
    exact hi.keep hlaw (by rw [hdb]; exact fun u hu => ⟨u, hu, rfl, rfl⟩) (by rw [hdb]; exact fun s hs => .inl hs)
  | verify login hlogin haccepts hdb =>
    refine iff_of_true (hquiet rfl rfl ?_) trivial
    exact hi.keep hlaw (by rw [hdb]; exact fun u hu => ⟨u, hu, rfl, rfl⟩) (by rw [hdb]; exact fun s hs => .inl hs)
  | consume userId hactive hfresh husers hlogins hsessions =>
    refine iff_of_true (hquiet rfl rfl ?_) trivial
    refine hi.keep hlaw (by rw [husers]; exact fun u hu => ⟨u, hu, rfl, rfl⟩) fun s' hs' => ?_
    rw [hsessions] at hs'
    rcases List.mem_append.1 hs' with hs' | hs'
    · exact .inl hs'
    · exact .inr fun s hs => List.mem_singleton.1 hs' ▸ hfresh s hs
  | @finish i now draw login hlogin hverified hfresh hdb =>
    have husers : db'.identities.users = w.db.identities.users := by rw [hdb]
    have hsessions : db'.identities.sessions =
        w.db.identities.sessions ++ [newSession env.hashes login.credential.userId now draw] := by rw [hdb]
    rw [← hi.finish_iff hlaw hlogin hverified hfresh husers hsessions
      (congrArg (w.obtained ++ ·) (obtained_finish hlogin))]
    exact Witnessed.Revoked.congr rfl (List.append_nil _) rfl
  | reset c hfound hactive husers hsessions hlogins hunused hused =>
    obtain ⟨u, hu, hid, -⟩ := hactive
    rw [← hi.reset_iff hv hlaw hfound hid husers hsessions
      (congrArg (w.resets ++ ·) (resets_reset hi.keyed.users hfound hu hid))]
    exact Witnessed.Revoked.congr rfl rfl (List.append_nil _)

theorem Witnessed.empty_guarded : Witnessed.empty.Guarded hashes where
  keyed := ⟨.nil, ⟨.nil, .nil, fun _ hc => (List.not_mem_nil hc).elim⟩, ⟨.nil, .nil⟩, ⟨.nil, .nil⟩⟩
  signed _ hs := (List.not_mem_nil hs).elim
  known _ hl := (List.not_mem_nil hl).elim
  verified _ hl := (List.not_mem_nil hl).elim
  resets _ hr := (List.not_mem_nil hr).elim
  obtained _ ho := (List.not_mem_nil ho).elim

theorem guarded_rely : ReadCommitted.Rely (OwnRequest.exec env) rereadWitnessed
    (Witnessed.Guarded env.hashes) Witnessed.Saw
    fun _ _ _ => True where
  refl _ _ := .refl
  reread part v w _ hv := by
    have hw : w.Saw w := .refl
    cases part with
    | users => exact ⟨hw.users, ⟨hv.tokens.challenges, hv.tokens.handoffs⟩, hv.sessions⟩
    | challenges => exact ⟨hv.users, ⟨.refl, hv.tokens.handoffs⟩, hv.sessions⟩
    | handoffs => exact ⟨hv.users, ⟨hv.tokens.challenges, .refl⟩, hv.sessions⟩
    | sessions => exact ⟨hv.users, ⟨hv.tokens.challenges, hv.tokens.handoffs⟩, .refl⟩
    | _ => exact ⟨hv.users, ⟨hv.tokens.challenges, hv.tokens.handoffs⟩, hv.sessions⟩
  inv _ _ _ _ _ hi hv _ hx := hi.exec hv hx
  stable _ _ _ _ _ hi _ _ hx _ hw := hw.move (hi.moves hx)

end Law

/-- Along a run of overlapping calls, the resets lock out the old credentials exactly as long as every login finishes
with a password that its user still has, and every reset sees the sessions that it has to revoke. -/
theorem resets_lock_out_iff {env : Environment} {es : List (ReadCommitted.Event OwnRequest OnboardingPart)}
    {s : ReadCommitted.Session Witnessed OwnRequest} (hr : Runs.exec (ownStep env) ⟨.empty, []⟩ es = some s) :
    Runs.Along (ownStep env) (fun s e => ∀ s' ∈ ownStep env s e, LockedOut env.hashes s'.db) ⟨.empty, []⟩ es ↔
      Runs.Along (ownStep env)
        (ReadCommitted.AtCommit fun q v w => q.1.LocksOut env.hashes v.db.identities w.db.identities) ⟨.empty,
          []⟩ es := by
  refine guarded_rely.along_law_iff (L := LockedOut env.hashes) ?_ ⟨Witnessed.empty_guarded,
    fun _ ho => (List.not_mem_nil ho).elim⟩ ?_
    hr
  · intro q v w answer w' hi hv hlaw hx
    rw [(hi.exec hv hx).lockedOut_iff]
    exact OwnRequest.exec_revoked_iff hi hv (hi.lockedOut_iff.1 hlaw) hx
  · exact Witnessed.empty_guarded.lockedOut_iff.2
      ⟨fun _ hr => (List.not_mem_nil hr).elim, fun _ hr => (List.not_mem_nil hr).elim⟩

namespace Demo

theorem reset_nonempty : "reset-1" ≠ "" := by decide

theorem session_nonempty : "session-1" ≠ "" := by decide

/-- Ana's login has compared her password when she resets it. -/
def slowLogin : List (ReadCommitted.Event OwnRequest OnboardingPart) :=
  registered ++ ownCall (.findCredential "ana@a.ar" "old password") rfl ++ ownCall (.verify 0) rfl ++
    ownCall (.request "ana@a.ar" 3 ⟨"c2", "reset-1", reset_nonempty⟩) rfl ++ ownCall (.reset "reset-1" newHash 4) rfl ++
    ownCall (.finish 0 5 ⟨"s1", "session-1", session_nonempty⟩) rfl

/-- Her login has finished when she resets it. -/
def resetLater : List (ReadCommitted.Event OwnRequest OnboardingPart) :=
  registered ++ ownCall (.findCredential "ana@a.ar" "old password") rfl ++ ownCall (.verify 0) rfl ++
    ownCall (.finish 0 3 ⟨"s1", "session-1", session_nonempty⟩) rfl ++
    ownCall (.request "ana@a.ar" 4 ⟨"c2", "reset-1", reset_nonempty⟩) rfl ++ ownCall (.reset "reset-1" newHash 5) rfl

end Demo

open Demo

theorem resets_lock_out_later : ∃ s, Runs.exec (ownStep env) ⟨.empty, []⟩ resetLater = some s ∧
    (Runs.Along (ownStep env) (fun s e => ∀ s' ∈ ownStep env s e, LockedOut env.hashes s'.db) ⟨.empty, []⟩ resetLater ↔
      Runs.Along (ownStep env)
        (ReadCommitted.AtCommit fun q v w => q.1.LocksOut env.hashes v.db.identities w.db.identities)
        ⟨.empty, []⟩ resetLater) := by
  have hruns : (Runs.exec (ownStep env) ⟨.empty, []⟩ resetLater).isSome = true := by decide +kernel
  obtain ⟨s, hr⟩ := Option.isSome_iff_exists.1 hruns
  exact ⟨s, hr, resets_lock_out_iff hr⟩

/-- The session of the slow login, obtained with the old password, is accepted after the reset. -/
theorem slow_login_survives : ¬ ∀ (env : Environment) (es : List (ReadCommitted.Event OwnRequest OnboardingPart))
    (s : ReadCommitted.Session Witnessed OwnRequest), Runs.exec (ownStep env) ⟨.empty, []⟩ es = some s →
    LockedOut env.hashes s.db := by
  intro hlaw
  have hslow : ((Runs.exec (ownStep env) ⟨.empty, []⟩ slowLogin).map fun s =>
      decide (∃ r ∈ s.db.resets, ∃ o ∈ s.db.obtained, hashes.compare o.password r.replacedHash = true ∧
        (∀ u ∈ s.db.db.identities.users, u.id = r.userId → hashes.compare o.password u.passwordHash = false) ∧
        ∃ row ∈ SessionService.resolve hashes "session-1" 6 s.db.db.identities, row.userId = r.userId ∧
          row.id = o.session)) =
      some true := by decide +kernel
  obtain ⟨s, hr, hopen⟩ := Option.map_eq_some_iff.1 hslow
  obtain ⟨r, hreset, o, ho, hold, hnew, row, hresolve, huser, hid⟩ := of_decide_eq_true hopen
  exact (hlaw env _ s hr).passwords r hreset o ho hold hnew "session-1" 6 row hresolve huser hid

end Komanda
