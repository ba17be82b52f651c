import Komanda.Credentials

/-!
# The statements on credentials

What each statement of `IdentityTx` asks of the committed rows, and the rows that it leaves. `IdentityDb.Advances` is
what they have in common: the unique indexes hold, no row goes or changes its key, and what has been used up, revoked
or activated stays so. A body advances when its statements do.
-/

namespace Komanda
open Transaction

section Statements
variable {v db db' : IdentityDb} {u : Unit}

theorem commits_updateSeen {ρ : Type} {found rows : IdentityDb → List ρ} {store : List ρ → IdentityDb → IdentityDb}
    {id : ρ → Id}
    {p : ρ → Bool} {f : ρ → ρ} : Commits (updateSeen found rows store id p f) v db u db' ↔
      store (Table.updateWhere (fun r => id r ∈ ((found v).filter p).map id && p r) f (rows db)) db = db' := by
  rw [updateSeen, commits_look_bind, commits_write]

theorem commits_consumeChallenge {p : VerificationChallenge → Bool} {challengeId : Id} {now : Instant}
    {consumed : Bool} :
    Commits (consumeChallenge p challengeId now) v db consumed db' ↔
      db.challenges.any (fun c => c.id = challengeId && c.consumedAt.isNone && p c) = consumed ∧
        storeChallenges (Table.updateWhere (fun c => c.id = challengeId && c.consumedAt.isNone && p c)
          (fun c => { c with consumedAt := some now }) db.challenges) db = db' := by
  rw [consumeChallenge, commits_current_bind, commits_write_bind, commits_pure]

theorem commits_insertChallenge {row : VerificationChallenge} : Commits (insertChallenge row) v db u db' ↔
    (∀ c ∈ db.challenges, c.id ≠ row.id ∧ c.tokenDigest ≠ row.tokenDigest) ∧
      (∀ c ∈ db.challenges, c.userId = row.userId → c.purpose = row.purpose → c.consumedAt.isSome = true) ∧
      (∃ user ∈ db.users, user.id = row.userId) ∧ storeChallenges (db.challenges ++ [row]) db = db' := by
  simp only [insertChallenge, commits_current_bind, commits_throwIf_bind, commits_write, List.any_eq_true,
    decide_eq_true_eq, Bool.or_eq_true, Bool.and_eq_true, not_not, Option.isNone_iff_eq_none]
  simp only [not_exists, not_and, not_or, and_imp, ← ne_eq, ← Option.isSome_iff_ne_none]

theorem commits_insertHandoff {row : OnboardingHandoff} : Commits (insertHandoff row) v db u db' ↔
    (∀ h ∈ db.handoffs, h.id ≠ row.id ∧ h.tokenDigest ≠ row.tokenDigest) ∧
      (∀ h ∈ db.handoffs, h.tenantId = row.tenantId → h.userId = row.userId → h.consumedAt.isSome = true) ∧
      (∃ user ∈ db.users, user.id = row.userId) ∧ { db with handoffs := db.handoffs ++ [row] } = db' := by
  simp only [insertHandoff, commits_current_bind, commits_throwIf_bind, commits_write, List.any_eq_true,
    decide_eq_true_eq, Bool.or_eq_true, Bool.and_eq_true, not_not, Option.isNone_iff_eq_none]
  simp only [not_exists, not_and, not_or, and_imp, ← ne_eq, ← Option.isSome_iff_ne_none]

theorem commits_insertSession {row : UserSession} : Commits (insertSession row) v db u db' ↔
    (∀ s ∈ db.sessions, s.id ≠ row.id ∧ s.tokenDigest ≠ row.tokenDigest) ∧
      (∃ user ∈ db.users, user.id = row.userId) ∧ { db with sessions := db.sessions ++ [row] } = db' := by
  simp only [insertSession, commits_current_bind, commits_throwIf_bind, commits_write, List.any_eq_true,
    decide_eq_true_eq, Bool.or_eq_true, not_not]
  simp only [not_exists, not_and, not_or, ne_eq]

end Statements

/-! ## Advancing -/

section Carries
variable {ρ κ : Type} {key : ρ → κ} {done : ρ → Option Instant} {rows rows' rows'' : List ρ}

/-- Every row is still there under its key, and what was done stays done. -/
def Carries (key : ρ → κ) (done : ρ → Option Instant) (rows rows' : List ρ) : Prop :=
  ∀ r ∈ rows, ∃ r' ∈ rows', key r' = key r ∧ ((done r).isSome = true → (done r').isSome = true)

theorem Carries.refl : Carries key done rows rows := fun r hr => ⟨r, hr, rfl, id⟩

theorem Carries.trans (h : Carries key done rows rows') (h' : Carries key done rows' rows'') :
    Carries key done rows rows'' := by
  intro r hr
  obtain ⟨r₁, hr₁, hkey, hdone⟩ := h r hr
  obtain ⟨r₂, hr₂, hkey', hdone'⟩ := h' r₁ hr₁
  exact ⟨r₂, hr₂, hkey'.trans hkey, fun hr => hdone' (hdone hr)⟩

theorem Carries.append (row : ρ) : Carries key done rows (rows ++ [row]) :=
  fun r hr => ⟨r, List.mem_append_left _ hr, rfl, id⟩

theorem Carries.updateWhere {p : ρ → Bool} {f : ρ → ρ} (hkey : ∀ r, key (f r) = key r)
    (hdone : ∀ r, (done (f r)).isSome = true) : Carries key done rows (Table.updateWhere p f rows) := by
  intro r hr
  cases hp : p r with
  | false => exact ⟨r, Table.mem_updateWhere_of_not hr hp, rfl, id⟩
  | true => exact ⟨f r, Table.mem_updateWhere_of hr hp, hkey r, fun _ => hdone r⟩

end Carries

def VerificationChallenge.key (c : VerificationChallenge) : Id × Id × ChallengePurpose × String :=
  (c.id, c.userId, c.purpose, c.tokenDigest)

def OnboardingHandoff.key (h : OnboardingHandoff) : Id × Id × Id × String := (h.id, h.tenantId, h.userId, h.tokenDigest)

def UserSession.key (s : UserSession) : Id × Id × String × Instant := (s.id, s.userId, s.tokenDigest, s.expiresAt)

/-- The indexes of `identity_verification_challenges`. -/
structure ChallengesKeyed (rows : List VerificationChallenge) : Prop where
  ids : Table.UniqueOn VerificationChallenge.id rows
  digests : Table.UniqueOn VerificationChallenge.tokenDigest rows
  active : ∀ c ∈ rows, ∀ c' ∈ rows, c.userId = c'.userId → c.purpose = c'.purpose → c.consumedAt = none →
    c'.consumedAt = none → c = c'

/-- Of `onboarding_handoffs`. -/
structure HandoffsKeyed (rows : List OnboardingHandoff) : Prop where
  ids : Table.UniqueOn OnboardingHandoff.id rows
  digests : Table.UniqueOn OnboardingHandoff.tokenDigest rows

/-- Of `user_sessions`. -/
structure SessionsKeyed (rows : List UserSession) : Prop where
  ids : Table.UniqueOn UserSession.id rows
  digests : Table.UniqueOn UserSession.tokenDigest rows

namespace IdentityDb

structure Keyed (db : IdentityDb) : Prop where
  users : Table.UniqueOn Identity.id db.users
  challenges : ChallengesKeyed db.challenges
  handoffs : HandoffsKeyed db.handoffs
  sessions : SessionsKeyed db.sessions

/-- A member is a user, and outside of a view there is one list of challenges. -/
structure Linked (db : IdentityDb) : Prop where
  known : ∀ m ∈ db.memberships, ∃ u ∈ db.users, u.id = m.userId
  later : db.challengesLater = db.challenges

/-- No user goes, and who is active stays so. -/
def UsersStay (users users' : List Identity) : Prop :=
  ∀ u ∈ users, ∃ u' ∈ users', u'.id = u.id ∧ (u.status = .active → u'.status = .active)

structure Advances (db db' : IdentityDb) : Prop where
  linked : db.Linked → db'.Linked
  keyed : db.Keyed → db'.Keyed
  users : UsersStay db.users db'.users
  challenges : Carries VerificationChallenge.key (·.consumedAt) db.challenges db'.challenges
  handoffs : Carries OnboardingHandoff.key (·.consumedAt) db.handoffs db'.handoffs
  sessions : Carries UserSession.key (·.revokedAt) db.sessions db'.sessions

variable {db db' db'' : IdentityDb}

theorem UsersStay.refl {users : List Identity} : UsersStay users users := fun u hu => ⟨u, hu, rfl, id⟩

theorem UsersStay.trans {users users' users'' : List Identity} (h : UsersStay users users')
    (h' : UsersStay users' users'') :
    UsersStay users users'' := by
  intro u hu
  obtain ⟨u₁, hu₁, hid, hactive⟩ := h u hu
  obtain ⟨u₂, hu₂, hid', hactive'⟩ := h' u₁ hu₁
  exact ⟨u₂, hu₂, hid'.trans hid, fun hu => hactive' (hactive hu)⟩

theorem Linked.users (h : db.Linked) {users : List Identity} (hstay : UsersStay db.users users) :
    { db with users }.Linked := by
  refine ⟨fun m hm => ?_, h.later⟩
  obtain ⟨u, hu, hid⟩ := h.known m hm
  obtain ⟨u', hu', hid', -⟩ := hstay u hu
  exact ⟨u', hu', hid'.trans hid⟩

namespace Advances

theorem refl : db.Advances db where
  linked := id
  keyed := id
  users := .refl
  challenges := .refl
  handoffs := .refl
  sessions := .refl

theorem trans (h : db.Advances db') (h' : db'.Advances db'') : db.Advances db'' where
  linked hl := h'.linked (h.linked hl)
  keyed hk := h'.keyed (h.keyed hk)
  users := h.users.trans h'.users
  challenges := h.challenges.trans h'.challenges
  handoffs := h.handoffs.trans h'.handoffs
  sessions := h.sessions.trans h'.sessions

instance : Std.Refl Advances := ⟨fun _ => refl⟩

instance : Trans Advances Advances Advances := ⟨trans⟩

theorem onUsers {users : List Identity} (hkeyed : Table.UniqueOn Identity.id db.users → Table.UniqueOn Identity.id users)
    (hstay : UsersStay db.users users) : db.Advances { db with users } where
  linked hl := hl.users hstay
  keyed hk := ⟨hkeyed hk.users, hk.challenges, hk.handoffs, hk.sessions⟩
  users := hstay
  challenges := .refl
  handoffs := .refl
  sessions := .refl

theorem onChallenges {rows : List VerificationChallenge} (hkeyed : ChallengesKeyed db.challenges → ChallengesKeyed rows)
    (hcarries : Carries VerificationChallenge.key (·.consumedAt) db.challenges rows) :
    db.Advances (storeChallenges rows db) where
  linked hl := ⟨hl.known, rfl⟩
  keyed hk := ⟨hk.users, hkeyed hk.challenges, hk.handoffs, hk.sessions⟩
  users := .refl
  challenges := hcarries
  handoffs := .refl
  sessions := .refl

theorem onHandoffs {handoffs : List OnboardingHandoff} (hkeyed : HandoffsKeyed db.handoffs → HandoffsKeyed handoffs)
    (hcarries : Carries OnboardingHandoff.key (·.consumedAt) db.handoffs handoffs) :
    db.Advances { db with handoffs } where
  linked hl := ⟨hl.known, hl.later⟩
  keyed hk := ⟨hk.users, hk.challenges, hkeyed hk.handoffs, hk.sessions⟩
  users := .refl
  challenges := .refl
  handoffs := hcarries
  sessions := .refl

theorem onSessions {sessions : List UserSession} (hkeyed : SessionsKeyed db.sessions → SessionsKeyed sessions)
    (hcarries : Carries UserSession.key (·.revokedAt) db.sessions sessions) : db.Advances { db with sessions } where
  linked hl := ⟨hl.known, hl.later⟩
  keyed hk := ⟨hk.users, hk.challenges, hk.handoffs, hkeyed hk.sessions⟩
  users := .refl
  challenges := .refl
  handoffs := .refl
  sessions := hcarries

theorem onLogins {logins : List Login} : db.Advances { db with logins } where
  linked hl := ⟨hl.known, hl.later⟩
  keyed hk := ⟨hk.users, hk.challenges, hk.handoffs, hk.sessions⟩
  users := .refl
  challenges := .refl
  handoffs := .refl
  sessions := .refl

end Advances

end IdentityDb

theorem ChallengesKeyed.consume {rows : List VerificationChallenge} (h : ChallengesKeyed rows)
    (p : VerificationChallenge → Bool) (now : Instant) :
    ChallengesKeyed (Table.updateWhere p (fun c => { c with consumedAt := some now }) rows) := by
  refine ⟨h.ids.updateWhere fun _ _ => rfl, h.digests.updateWhere fun _ _ => rfl, ?_⟩
  intro c hc c' hc' huser hpurpose hnone hnone'
  rcases Table.mem_updateWhere_cases hc with ⟨hc, -⟩ | ⟨_, -, -, rfl⟩
  · rcases Table.mem_updateWhere_cases hc' with ⟨hc', -⟩ | ⟨_, -, -, rfl⟩
    · exact h.active c hc c' hc' huser hpurpose hnone hnone'
    · cases hnone'
  · cases hnone

theorem ChallengesKeyed.append {rows : List VerificationChallenge} {row : VerificationChallenge}
    (h : ChallengesKeyed rows)
    (hfresh : ∀ c ∈ rows, c.id ≠ row.id ∧ c.tokenDigest ≠ row.tokenDigest)
    (hactive : ∀ c ∈ rows, c.userId = row.userId → c.purpose = row.purpose → c.consumedAt.isSome = true) :
    ChallengesKeyed (rows ++ [row]) := by
  refine ⟨h.ids.append fun c hc => (hfresh c hc).1, h.digests.append fun c hc => (hfresh c hc).2, ?_⟩
  intro c hc c' hc' huser hpurpose hnone hnone'
  rcases List.mem_append.1 hc with hold | hnew
  · rcases List.mem_append.1 hc' with hold' | hnew'
    · exact h.active c hold c' hold' huser hpurpose hnone hnone'
    · have heq := List.mem_singleton.1 hnew'
      have hused := hactive c hold (heq ▸ huser) (heq ▸ hpurpose)
      rw [hnone] at hused
      cases hused
  · have heq := List.mem_singleton.1 hnew
    rcases List.mem_append.1 hc' with hold' | hnew'
    · have hused := hactive c' hold' (heq ▸ huser.symm) (heq ▸ hpurpose.symm)
      rw [hnone'] at hused
      cases hused
    · exact heq.trans (List.mem_singleton.1 hnew').symm

section Bodies
open IdentityDb

theorem consumeChallenges_advances (p : VerificationChallenge → Bool) (now : Instant) :
    Within Advances (consumeChallenges p now) := by
  intro v db u db' h
  obtain rfl := commits_updateSeen.1 h
  exact .onChallenges (fun hk => hk.consume _ now) (.updateWhere (fun _ => rfl) fun _ => rfl)

theorem consumeChallenge_advances (p : VerificationChallenge → Bool) (challengeId : Id) (now : Instant) :
    Within Advances (consumeChallenge p challengeId now) := by
  intro v db u db' h
  obtain ⟨-, rfl⟩ := commits_consumeChallenge.1 h
  exact .onChallenges (fun hk => hk.consume _ now) (.updateWhere (fun _ => rfl) fun _ => rfl)

theorem insertChallenge_advances (row : VerificationChallenge) : Within Advances (insertChallenge row) := by
  intro v db u db' h
  obtain ⟨hfresh, hactive, -, rfl⟩ := commits_insertChallenge.1 h
  exact .onChallenges (fun hk => hk.append hfresh hactive) (.append row)

theorem insertHandoff_advances (row : OnboardingHandoff) : Within Advances (insertHandoff row) := by
  intro v db u db' h
  obtain ⟨hfresh, -, -, rfl⟩ := commits_insertHandoff.1 h
  refine .onHandoffs (fun hk => ⟨?_, ?_⟩) (.append row)
  · exact hk.ids.append fun h hh => (hfresh h hh).1
  · exact hk.digests.append fun h hh => (hfresh h hh).2

theorem insertSession_advances (row : UserSession) : Within Advances (insertSession row) := by
  intro v db u db' h
  obtain ⟨hfresh, -, rfl⟩ := commits_insertSession.1 h
  refine .onSessions (fun hk => ⟨?_, ?_⟩) (.append row)
  · exact hk.ids.append fun s hs => (hfresh s hs).1
  · exact hk.digests.append fun s hs => (hfresh s hs).2

/-- An update of users that leaves them their ids, and the active ones active. -/
theorem updateUsers_advances {p : Identity → Bool} {f : Identity → Identity} (hid : ∀ u, (f u).id = u.id)
    (hactive : ∀ u, u.status = .active → (f u).status = .active) :
    Within Advances (write fun db => { db with users := Table.updateWhere p f db.users } : IdentityTx Unit) := by
  refine .write fun db => .onUsers (fun hk => hk.updateWhere fun u _ => hid u) fun u hu => ?_
  cases hp : p u with
  | false => exact ⟨u, Table.mem_updateWhere_of_not hu hp, rfl, id⟩
  | true => exact ⟨f u, Table.mem_updateWhere_of hu hp, hid u, hactive u⟩

variable (hashes : Hashes)

theorem confirm_advances (token : String) (now : Instant) :
    Within Advances (IdentityVerificationService.confirm hashes token now) := by
  refine .bind (.look _) fun found => .bind (.orThrow _ _) fun challenge => ?_
  refine .bind (consumeChallenge_advances _ _ _) fun consumed => .bind (.throwIf _ _) fun _ => ?_
  refine .bind (updateUsers_advances ?_ ?_) fun _ => .pure _
  · intro u
    rfl
  · intro u _
    rfl

theorem consume_advances (tenantId : Id) (token : String) (now : Instant) (draw : TokenDraw) :
    Within Advances (OnboardingHandoffService.consume hashes tenantId token now draw) := by
  have hconsume : ∀ handoffId, Within Advances (OnboardingHandoffService.consumeHandoff handoffId now) :=
    fun handoffId => by
    refine .bind (.current _) fun consumed => .bind (.write fun db => ?_) fun _ => .pure _
    refine .onHandoffs (fun hk => ⟨?_, ?_⟩) (.updateWhere (fun _ => rfl) fun _ => rfl)
    · exact hk.ids.updateWhere fun _ _ => rfl
    · exact hk.digests.updateWhere fun _ _ => rfl
  refine .bind (.look _) fun found => .bind (.orThrow _ _) fun handoff => .bind (.look _) fun authorized => ?_
  refine .bind (.throwIf _ _) fun _ => .bind (hconsume _) fun consumed => .bind (.throwIf _ _) fun _ => ?_
  exact .bind (insertSession_advances _) fun _ => .pure _

theorem request_advances (email : String) (now : Instant) (draw : TokenDraw) :
    Within Advances (PasswordRecoveryService.request hashes email now draw) := by
  refine .bind (.look _) fun found => ?_
  split
  · exact .pure _
  · refine .bind (.look _) fun existing => .ite (.pure _) ?_
    exact .bind (consumeChallenges_advances _ _) fun _ => .bind (insertChallenge_advances _) fun _ => .pure _

theorem reset_advances (token passwordHash : String) (now : Instant) :
    Within Advances (PasswordRecoveryService.reset hashes token passwordHash now) := by
  refine .bind (.look _) fun found => .bind (.orThrow _ _) fun challenge => ?_
  refine .bind (consumeChallenge_advances _ _ _) fun consumed => .bind (.throwIf _ _) fun _ => ?_
  refine .bind (.current _) fun updated => .bind (.throwIf _ _) fun _ => ?_
  refine .bind (updateUsers_advances (fun _ => rfl) fun _ hu => hu) fun _ => ?_
  refine .bind ?_ fun _ => consumeChallenges_advances _ _
  intro v db u db' h
  obtain rfl := commits_updateSeen.1 h
  refine .onSessions (fun hk => ⟨?_, ?_⟩) (.updateWhere (fun _ => rfl) fun _ => rfl)
  · exact hk.ids.updateWhere fun _ _ => rfl
  · exact hk.digests.updateWhere fun _ _ => rfl

theorem findCredential_advances (email password : String) :
    Within Advances (SessionService.findCredential email password) :=
  .bind (.look _) fun _ => .bind (.orThrow _ _) fun _ => .write fun _ => .onLogins

theorem verify_advances (i : Nat) : Within Advances (SessionService.verify hashes i) :=
  .bind (.current _) fun _ => .bind (.orThrow _ _) fun _ => .bind (.throwIf _ _) fun _ => .write fun _ => .onLogins

theorem finish_advances (i : Nat) (now : Instant) (draw : TokenDraw) :
    Within Advances (SessionService.finish hashes i now draw) := by
  refine .bind (.current _) fun found => .bind (.orThrow _ _) fun login => .bind (.throwIf _ _) fun _ => ?_
  exact .bind (insertSession_advances _) fun _ => .bind (.write fun _ => .onLogins) fun _ => .pure _

end Bodies

end Komanda
