import Komanda.Proofs.Provisioning

/-!
# One-time tokens

A row of a token is used up by an update that finds it unused, so it is used up once. Whether that is done by an
operation of the token's own purpose is another matter: challenges of both purposes share a table, the reset of a
password asks for its own, and the confirmation of an address takes either.
-/

namespace Komanda
open Transaction IdentityDb DatabaseProvisioningRepository

/-! ## What is issued -/

def ChallengePurpose.token : ChallengePurpose → TokenPurpose
  | emailVerification => .emailVerification
  | passwordReset => .passwordReset

theorem ChallengePurpose.token_injective : Function.Injective ChallengePurpose.token := by
  intro a b h
  cases a <;> cases b <;> first | rfl | cases h

theorem ChallengePurpose.token_table (purpose : ChallengePurpose) : purpose.token.table = .challenges := by
  cases purpose <;> rfl

namespace TokenEntry

def IsChallenge (hashes : Hashes) (entry : TokenEntry) (c : VerificationChallenge) : Prop :=
  c.id = entry.row ∧ c.purpose.token = entry.purpose ∧ c.tokenDigest = hashes.sha256 entry.token

def IsHandoff (hashes : Hashes) (entry : TokenEntry) (h : OnboardingHandoff) : Prop :=
  h.id = entry.row ∧ entry.purpose = .handoff ∧ h.tokenDigest = hashes.sha256 entry.token

def Stored (hashes : Hashes) (entry : TokenEntry) (db : IdentityDb) : Prop :=
  (∃ c ∈ db.challenges, entry.IsChallenge hashes c) ∨ ∃ h ∈ db.handoffs, entry.IsHandoff hashes h

end TokenEntry

section Issues
variable {hashes : Hashes} {entries entries' : List TokenEntry} {v db db' db'' : IdentityDb} {u : Unit}

theorem TokenEntry.IsChallenge.of_key {entry : TokenEntry} {c c' : VerificationChallenge}
    (h : entry.IsChallenge hashes c)
    (hkey : c.key = c'.key) : entry.IsChallenge hashes c' := by
  simp only [VerificationChallenge.key, Prod.mk.injEq] at hkey
  exact ⟨hkey.1 ▸ h.1, hkey.2.2.1 ▸ h.2.1, hkey.2.2.2 ▸ h.2.2⟩

theorem TokenEntry.IsHandoff.of_key {entry : TokenEntry} {h h' : OnboardingHandoff} (hentry : entry.IsHandoff hashes h)
    (hkey : h.key = h'.key) : entry.IsHandoff hashes h' := by
  simp only [OnboardingHandoff.key, Prod.mk.injEq] at hkey
  exact ⟨hkey.1 ▸ hentry.1, hentry.2.1, hkey.2.2.2 ▸ hentry.2.2⟩

/-- No row of a token goes, and what is used up stays so. -/
structure TokensStay (db db' : IdentityDb) : Prop where
  challenges : Carries VerificationChallenge.key (·.consumedAt) db.challenges db'.challenges
  handoffs : Carries OnboardingHandoff.key (·.consumedAt) db.handoffs db'.handoffs

theorem IdentityDb.Advances.tokensStay (h : db.Advances db') : TokensStay db db' := ⟨h.challenges, h.handoffs⟩

theorem TokenEntry.Stored.stay {entry : TokenEntry} (h : entry.Stored hashes db) (hstay : TokensStay db db') :
    entry.Stored hashes db' := by
  rcases h with ⟨c, hc, hentry⟩ | ⟨h, hh, hentry⟩
  · obtain ⟨c', hc', hkey, -⟩ := hstay.challenges c hc
    exact .inl ⟨c', hc', hentry.of_key hkey.symm⟩
  · obtain ⟨h', hh', hkey, -⟩ := hstay.handoffs h hh
    exact .inr ⟨h', hh', hentry.of_key hkey.symm⟩

/-- There is no new row of a token. -/
structure Reuses (db db' : IdentityDb) : Prop where
  challenges : ∀ c' ∈ db'.challenges, ∃ c ∈ db.challenges, c.key = c'.key
  handoffs : ∀ h' ∈ db'.handoffs, ∃ h ∈ db.handoffs, h.key = h'.key

theorem Reuses.of_same (hc : db'.challenges = db.challenges) (hh : db'.handoffs = db.handoffs) : Reuses db db' :=
  ⟨fun c hmem => ⟨c, hc ▸ hmem, rfl⟩, fun h hmem => ⟨h, hh ▸ hmem, rfl⟩⟩

theorem Reuses.trans (h : Reuses db db') (h' : Reuses db' db'') : Reuses db db'' := by
  constructor
  · intro c'' hc''
    obtain ⟨c', hc', hkey'⟩ := h'.challenges c'' hc''
    obtain ⟨c, hc, hkey⟩ := h.challenges c' hc'
    exact ⟨c, hc, hkey.trans hkey'⟩
  · intro h'' hh''
    obtain ⟨h', hh', hkey'⟩ := h'.handoffs h'' hh''
    obtain ⟨h, hh, hkey⟩ := h.handoffs h' hh'
    exact ⟨h, hh, hkey.trans hkey'⟩

instance : Std.Refl Reuses := ⟨fun _ => .of_same rfl rfl⟩

instance : Trans Reuses Reuses Reuses := ⟨.trans⟩

/-- The new rows are those of the entries. -/
structure Issues (hashes : Hashes) (entries : List TokenEntry) (db db' : IdentityDb) : Prop where
  challenges : ∀ c' ∈ db'.challenges,
    (∃ c ∈ db.challenges, c.key = c'.key) ∨ ∃ entry ∈ entries, entry.IsChallenge hashes c'
  handoffs : ∀ h' ∈ db'.handoffs, (∃ h ∈ db.handoffs, h.key = h'.key) ∨ ∃ entry ∈ entries, entry.IsHandoff hashes h'
  stored : ∀ entry ∈ entries, entry.Stored hashes db'

theorem Reuses.issues (h : Reuses db db') : Issues hashes [] db db' :=
  ⟨fun c hc => .inl (h.challenges c hc), fun h' hh => .inl (h.handoffs h' hh), fun _ he => (List.not_mem_nil he).elim⟩

theorem Issues.append (h : Issues hashes entries db db') (h' : Issues hashes entries' db' db'')
    (ha : db'.Advances db'') :
    Issues hashes (entries ++ entries') db db'' := by
  refine ⟨fun c'' hc'' => ?_, fun h'' hh'' => ?_, fun entry hentry => ?_⟩
  · rcases h'.challenges c'' hc'' with ⟨c', hc', hkey'⟩ | ⟨entry, hentry, hc⟩
    · rcases h.challenges c' hc' with ⟨c, hc, hkey⟩ | ⟨entry, hentry, hc⟩
      · exact .inl ⟨c, hc, hkey.trans hkey'⟩
      · exact .inr ⟨entry, List.mem_append_left _ hentry, hc.of_key hkey'⟩
    · exact .inr ⟨entry, List.mem_append_right _ hentry, hc⟩
  · rcases h'.handoffs h'' hh'' with ⟨h', hh', hkey'⟩ | ⟨entry, hentry, hh⟩
    · rcases h.handoffs h' hh' with ⟨h, hh, hkey⟩ | ⟨entry, hentry, hh⟩
      · exact .inl ⟨h, hh, hkey.trans hkey'⟩
      · exact .inr ⟨entry, List.mem_append_left _ hentry, hh.of_key hkey'⟩
    · exact .inr ⟨entry, List.mem_append_right _ hentry, hh⟩
  · rcases List.mem_append.1 hentry with hentry | hentry
    · exact (h.stored entry hentry).stay ha.tokensStay
    · exact h'.stored entry hentry

theorem Issues.swap (h : Issues hashes (entries ++ entries') db db') : Issues hashes (entries' ++ entries) db db' := by
  have hmem : ∀ entry, entry ∈ entries ++ entries' ↔ entry ∈ entries' ++ entries := fun entry => by
    rw [List.mem_append, List.mem_append, or_comm]
  refine ⟨fun c hc => ?_, fun h' hh => ?_, fun entry hentry => h.stored entry ((hmem entry).2 hentry)⟩
  · refine (h.challenges c hc).imp_right ?_
    rintro ⟨entry, hentry, hc⟩
    exact ⟨entry, (hmem entry).1 hentry, hc⟩
  · refine (h.handoffs h' hh).imp_right ?_
    rintro ⟨entry, hentry, hh⟩
    exact ⟨entry, (hmem entry).1 hentry, hh⟩

/-! ### The statements -/

theorem consumeChallenges_reuses (p : VerificationChallenge → Bool) (now : Instant) :
    Within Reuses (consumeChallenges p now) := by
  intro v db u db' h
  obtain rfl := commits_updateSeen.1 h
  refine ⟨fun c hc => ?_, fun h hh => ⟨h, hh, rfl⟩⟩
  rcases Table.mem_updateWhere_cases hc with ⟨hc, -⟩ | ⟨before, hbefore, -, rfl⟩
  · exact ⟨c, hc, rfl⟩
  · exact ⟨before, hbefore, rfl⟩

theorem consumeChallenge_reuses (p : VerificationChallenge → Bool) (challengeId : Id) (now : Instant) :
    Within Reuses (consumeChallenge p challengeId now) := by
  intro v db u db' h
  obtain ⟨-, rfl⟩ := commits_consumeChallenge.1 h
  refine ⟨fun c hc => ?_, fun h hh => ⟨h, hh, rfl⟩⟩
  rcases Table.mem_updateWhere_cases hc with ⟨hc, -⟩ | ⟨before, hbefore, -, rfl⟩
  · exact ⟨c, hc, rfl⟩
  · exact ⟨before, hbefore, rfl⟩

theorem insertSession_reuses (row : UserSession) : Within Reuses (insertSession row) := by
  intro v db u db' h
  obtain ⟨-, -, rfl⟩ := commits_insertSession.1 h
  exact .of_same rfl rfl

theorem insertChallenge_issues {row : VerificationChallenge} {entry : TokenEntry} (hrow : entry.IsChallenge hashes row)
    (h : Commits (insertChallenge row) v db u db') : Issues hashes [entry] db db' := by
  obtain ⟨-, -, -, rfl⟩ := commits_insertChallenge.1 h
  refine ⟨fun c hc => ?_, fun h hh => .inl ⟨h, hh, rfl⟩, fun e he => ?_⟩
  · rcases List.mem_append.1 hc with hc | hc
    · exact .inl ⟨c, hc, rfl⟩
    · exact .inr ⟨entry, List.mem_cons_self, List.mem_singleton.1 hc ▸ hrow⟩
  · exact .inl ⟨row, List.mem_append_right _ List.mem_cons_self, List.mem_singleton.1 he ▸ hrow⟩

theorem handOver_issues {call : ProvisionCall} {tenantId userId : Id}
    (h : Commits (handOver hashes call tenantId userId) v db u db') :
    Issues hashes [call.handoff.entry .handoff] db db' := by
  obtain ⟨-, -, -, rfl⟩ := commits_insertHandoff.1 h
  refine ⟨fun c hc => .inl ⟨c, hc, rfl⟩, fun h' hh => ?_, fun e he => ?_⟩
  · rcases List.mem_append.1 hh with hh | hh
    · exact .inl ⟨h', hh, rfl⟩
    · exact .inr ⟨_, List.mem_cons_self, List.mem_singleton.1 hh ▸ ⟨rfl, rfl, rfl⟩⟩
  · exact .inr ⟨_, List.mem_append_right _ List.mem_cons_self, List.mem_singleton.1 he ▸ ⟨rfl, rfl, rfl⟩⟩

theorem challengeOwner_issues {call : ProvisionCall} {userId : Id}
    (h : Commits (challengeOwner hashes call userId) v db u db') :
    Issues hashes [call.verification.entry .emailVerification] db db' := by
  obtain ⟨_, db₁, hconsume, hinsert⟩ := commits_bind.1 h
  exact (consumeChallenges_reuses _ _ _ _ _ _ hconsume).issues.append
    (insertChallenge_issues ⟨rfl, rfl, rfl⟩ hinsert) (insertChallenge_advances _ _ _ _ _ hinsert)

end Issues

/-! ### The calls -/

section Calls
variable {env : Environment} {hashes : Hashes} {call : ProvisionCall} {v db db' : OnboardingDb}
  {aggregate : ProvisionedAggregate}

theorem onIdentities_reuses {x : IdentityTx Unit} {u : Unit} (hx : Within Reuses x)
    (h : Commits (onIdentities x) v db u db') : Reuses db.identities db'.identities := by
  obtain ⟨identities, hrun, rfl⟩ := commits_onIdentities.1 h
  exact hx _ _ _ _ hrun

theorem insertOwner_reuses : Within Reuses (insertOwner call) := by
  intro v db u db' h
  rw [insertOwner, commits_current_bind, commits_throwIf_bind, commits_write] at h
  obtain ⟨-, rfl⟩ := h
  exact .of_same rfl rfl

theorem insertMembership_reuses (row : Membership) : Within Reuses (insertMembership row) := by
  intro v db u db' h
  simp only [insertMembership, commits_current_bind, commits_throwIf_bind, commits_write] at h
  obtain ⟨-, -, rfl⟩ := h
  exact .of_same rfl rfl

theorem consumeHandoffs_reuses (tenantId userId : Id) (now : Instant) :
    Within Reuses (consumeHandoffs tenantId userId now) := by
  intro v db u db' h
  obtain rfl := commits_updateSeen.1 h
  refine ⟨fun c hc => ⟨c, hc, rfl⟩, fun h hh => ?_⟩
  rcases Table.mem_updateWhere_cases hh with ⟨hh, -⟩ | ⟨before, hbefore, -, rfl⟩
  · exact ⟨h, hh, rfl⟩
  · exact ⟨before, hbefore, rfl⟩

theorem onIdentities_handOver {tenantId userId : Id} {u : Unit}
    (h : Commits (onIdentities (handOver hashes call tenantId userId)) v db u db') :
    Issues hashes [call.handoff.entry .handoff] db.identities db'.identities ∧
      db.identities.Advances db'.identities := by
  obtain ⟨identities, hrun, rfl⟩ := commits_onIdentities.1 h
  exact ⟨handOver_issues hrun, handOver_advances _ _ _ _ _ _ hrun⟩

/-- The challenge of an owner, as the answer tells of it. -/
theorem challenged_issues {verified : Bool} {userId : Id} {u : Unit} (expiresAt : Instant)
    (h : Commits (runIf (¬ verified = true) (onIdentities (challengeOwner hashes call userId))) v db u db') :
    Issues hashes (if (if verified = true then none else some expiresAt).isSome = true
        then [call.verification.entry .emailVerification] else []) db.identities db'.identities ∧
      db.identities.Advances db'.identities := by
  rcases commits_runIf.1 h with ⟨hverified, hrun⟩ | ⟨hverified, rfl⟩
  · obtain ⟨identities, hchallenge, rfl⟩ := commits_onIdentities.1 hrun
    rw [if_neg hverified]
    exact ⟨challengeOwner_issues hchallenge, challengeOwner_advances _ _ _ _ _ hchallenge⟩
  · rw [if_pos (not_not.1 hverified)]
    exact ⟨Reuses.issues (.of_same rfl rfl), .refl⟩

theorem create_issues {recordId : Id} (h : Commits (create hashes call recordId) v db aggregate db') :
    Issues hashes ((IdentityRequest.provision call).issued (.provisioned aggregate)) db.identities db'.identities := by
  simp only [create, commits_look_bind, commits_throwIf_bind] at h
  obtain ⟨-, -, h⟩ := h
  obtain ⟨_, db₁, howner, h⟩ := commits_bind.1 h
  obtain ⟨_, db₂, htenant, h⟩ := commits_bind.1 h
  obtain ⟨_, db₃, hmembership, h⟩ := commits_bind.1 h
  obtain ⟨_, db₄, hchallenge, h⟩ := commits_bind.1 h
  obtain ⟨_, db₅, hhandoff, h⟩ := commits_bind.1 h
  rw [commits_write_bind] at h
  obtain ⟨_, db₆, hrecord, h⟩ := commits_bind.1 h
  obtain ⟨rfl, rfl⟩ := commits_pure.1 h
  obtain ⟨records, -, rfl⟩ := commits_zoom.1 hrecord
  have hfirst : Reuses db.identities db₁.identities := by
    rcases commits_runIf.1 howner with ⟨-, howner⟩ | ⟨-, rfl⟩
    · exact onIdentities_reuses insertOwner_reuses howner
    · exact .of_same rfl rfl
  rw [insertTenant, commits_current_bind, commits_throwIf_bind, commits_write] at htenant
  obtain ⟨-, rfl⟩ := htenant
  have hsecond := onIdentities_reuses (insertMembership_reuses _) hmembership
  obtain ⟨hchallenged, ha⟩ := challenged_issues call.verificationExpiresAt hchallenge
  obtain ⟨hhanded, ha'⟩ := onIdentities_handOver hhandoff
  exact ((hfirst.trans hsecond).issues.append hchallenged ha).append hhanded ha'

theorem rotate_issues {tenantId : Id} (h : Commits (rotateCredentialsAndLoad hashes tenantId call) v db aggregate db') :
    Issues hashes ((IdentityRequest.provision call).issued (.provisioned aggregate)) db.identities db'.identities := by
  simp only [rotateCredentialsAndLoad, commits_look_bind, commits_orThrow_bind] at h
  obtain ⟨tenant, -, m, -, user, -, location, -, snapshot, -, h⟩ := h
  obtain ⟨_, db₁, hconsume, h⟩ := commits_bind.1 h
  obtain ⟨_, db₂, hhandoff, h⟩ := commits_bind.1 h
  obtain ⟨_, db₃, hchallenge, h⟩ := commits_bind.1 h
  obtain ⟨rfl, rfl⟩ := commits_pure.1 h
  obtain ⟨hhanded, ha⟩ := onIdentities_handOver hhandoff
  obtain ⟨hchallenged, ha'⟩ := challenged_issues call.verificationExpiresAt hchallenge
  have hall := (onIdentities_reuses (consumeHandoffs_reuses _ _ _) hconsume).issues.append hhanded ha
  exact (hall.append hchallenged ha').swap

theorem request_issues {email : String} {now : Instant} {draw : TokenDraw} {recipient : Option String}
    {v db db' : IdentityDb} (h : Commits (PasswordRecoveryService.request hashes email now draw) v db recipient db') :
    Issues hashes (if recipient.isSome = true then [draw.entry .passwordReset] else []) db db' := by
  rw [PasswordRecoveryService.request, commits_look_bind] at h
  split at h
  · obtain ⟨rfl, rfl⟩ := commits_pure.1 h
    exact Reuses.issues (.of_same rfl rfl)
  · next user _ =>
    rw [commits_look_bind] at h
    rcases commits_ite.1 h with ⟨-, h⟩ | ⟨-, h⟩
    · obtain ⟨rfl, rfl⟩ := commits_pure.1 h
      exact Reuses.issues (.of_same rfl rfl)
    · obtain ⟨_, db₁, hconsume, h⟩ := commits_bind.1 h
      obtain ⟨_, db₂, hinsert, h⟩ := commits_bind.1 h
      obtain ⟨rfl, rfl⟩ := commits_pure.1 h
      exact (consumeChallenges_reuses _ _ _ _ _ _ hconsume).issues.append
        (insertChallenge_issues ⟨rfl, rfl, rfl⟩ hinsert) (insertChallenge_advances _ _ _ _ _ hinsert)

theorem confirm_reuses (token : String) (now : Instant) :
    Within Reuses (IdentityVerificationService.confirm hashes token now) := by
  refine .bind (.look _) fun found => .bind (.orThrow _ _) fun challenge => ?_
  refine .bind (consumeChallenge_reuses _ _ _) fun consumed => .bind (.throwIf _ _) fun _ => ?_
  exact .bind (.write fun _ => .of_same rfl rfl) fun _ => .pure _

theorem consume_reuses (tenantId : Id) (token : String) (now : Instant) (draw : TokenDraw) :
    Within Reuses (OnboardingHandoffService.consume hashes tenantId token now draw) := by
  refine .bind (.look _) fun found => .bind (.orThrow _ _) fun handoff => .bind (.look _) fun authorized => ?_
  refine .bind (.throwIf _ _) fun _ => .bind (.bind (.current _) fun consumed => ?_) fun consumed => ?_
  · refine .bind (.write fun db => ⟨fun c hc => ⟨c, hc, rfl⟩, fun h hh => ?_⟩) fun _ => .pure _
    rcases Table.mem_updateWhere_cases hh with ⟨hh, -⟩ | ⟨before, hbefore, -, rfl⟩
    · exact ⟨h, hh, rfl⟩
    · exact ⟨before, hbefore, rfl⟩
  · exact .bind (.throwIf _ _) fun _ => .bind (insertSession_reuses _) fun _ => .pure _

theorem reset_reuses (token passwordHash : String) (now : Instant) :
    Within Reuses (PasswordRecoveryService.reset hashes token passwordHash now) := by
  refine .bind (.look _) fun found => .bind (.orThrow _ _) fun challenge => ?_
  refine .bind (consumeChallenge_reuses _ _ _) fun consumed => .bind (.throwIf _ _) fun _ => ?_
  refine .bind (.current _) fun updated => .bind (.throwIf _ _) fun _ => ?_
  refine .bind (.write fun _ => .of_same rfl rfl) fun _ => .bind ?_ fun _ => consumeChallenges_reuses _ _
  intro v db u db' h
  obtain rfl := commits_updateSeen.1 h
  exact .of_same rfl rfl

theorem findCredential_reuses (email password : String) :
    Within Reuses (SessionService.findCredential email password) :=
  .bind (.look _) fun _ => .bind (.orThrow _ _) fun _ => .write fun _ => .of_same rfl rfl

theorem verify_reuses (i : Nat) : Within Reuses (SessionService.verify hashes i) :=
  .bind (.current _) fun _ => .bind (.orThrow _ _) fun _ => .bind (.throwIf _ _) fun _ =>
    .write fun _ => .of_same rfl rfl

theorem finish_reuses (i : Nat) (now : Instant) (draw : TokenDraw) :
    Within Reuses (SessionService.finish hashes i now draw) := by
  refine .bind (.current _) fun found => .bind (.orThrow _ _) fun login => .bind (.throwIf _ _) fun _ => ?_
  exact .bind (insertSession_reuses _) fun _ => .bind (.write fun _ => .of_same rfl rfl) fun _ => .pure _

/-- A call issues what its answer says. -/
theorem run_issues {q : IdentityRequest} {answer : IdentityAnswer} (hown : q.isOwn = true)
    (h : Commits (q.run env) v db answer db') :
    Issues env.hashes (q.issued answer) db.identities db'.identities := by
  have hquiet {α : Type} {x : IdentityTx α} (hx : Within Reuses x)
      (h : Commits (do let _ ← onIdentities x; return .done : OnboardingTx IdentityAnswer) v db answer db') :
      Issues env.hashes [] db.identities db'.identities := by
    obtain ⟨_, db₁, hrun, h⟩ := commits_bind.1 h
    obtain ⟨-, rfl⟩ := commits_pure.1 h
    obtain ⟨identities, hbody, rfl⟩ := commits_onIdentities.1 hrun
    exact (hx _ _ _ _ hbody).issues
  cases q with
  | member q => cases hown
  | provision call =>
    obtain ⟨aggregate, hprovides, rfl⟩ := commits_map.1 h
    rw [provision] at hprovides
    obtain ⟨claimed, db₁, hclaim, hbody⟩ := commits_bind.1 hprovides
    obtain ⟨records, -, rfl⟩ := commits_zoom.1 hclaim
    cases claimed with
    | replay status body =>
      obtain ⟨tenantId, -, hrotate⟩ := commits_orThrow_bind.1 hbody
      have hissues := rotate_issues hrotate
      exact hissues
    | claimed recordId hash =>
      have hissues := create_issues hbody
      exact hissues
  | confirm token now => exact hquiet (confirm_reuses token now) h
  | consume tenantId token now draw => exact hquiet (consume_reuses tenantId token now draw) h
  | request email now draw =>
    obtain ⟨recipient, hrequest, rfl⟩ := commits_map.1 h
    obtain ⟨identities, hbody, rfl⟩ := commits_onIdentities.1 hrequest
    exact request_issues hbody
  | reset token passwordHash now => exact hquiet (reset_reuses token passwordHash now) h
  | findCredential email password => exact hquiet (findCredential_reuses email password) h
  | verify login => exact hquiet (verify_reuses login) h
  | finish login now draw => exact hquiet (finish_reuses login now draw) h

end Calls

/-! ## What is used up -/

namespace TokenEntry

def Unused (entry : TokenEntry) (db : IdentityDb) : Prop :=
  match entry.purpose.table with
  | .challenges => ∃ c ∈ db.challenges, c.id = entry.row ∧ c.consumedAt = none
  | .handoffs => ∃ h ∈ db.handoffs, h.id = entry.row ∧ h.consumedAt = none

def UsedUp (entry : TokenEntry) (db : IdentityDb) : Prop :=
  match entry.purpose.table with
  | .challenges => ∃ c ∈ db.challenges, c.id = entry.row ∧ c.consumedAt.isSome = true
  | .handoffs => ∃ h ∈ db.handoffs, h.id = entry.row ∧ h.consumedAt.isSome = true

end TokenEntry

section Uses
variable {env : Environment} {hashes : Hashes} {v db db' : IdentityDb} {entry : TokenEntry}

theorem TokenEntry.UsedUp.stay (h : entry.UsedUp db) (hstay : TokensStay db db') : entry.UsedUp db' := by
  unfold UsedUp at h ⊢
  split at h
  · obtain ⟨c, hc, hid, hused⟩ := h
    obtain ⟨c', hc', hkey, hdone⟩ := hstay.challenges c hc
    simp only [VerificationChallenge.key, Prod.mk.injEq] at hkey
    exact ⟨c', hc', hkey.1.trans hid, hdone hused⟩
  · obtain ⟨h, hh, hid, hused⟩ := h
    obtain ⟨h', hh', hkey, hdone⟩ := hstay.handoffs h hh
    simp only [OnboardingHandoff.key, Prod.mk.injEq] at hkey
    exact ⟨h', hh', hkey.1.trans hid, hdone hused⟩

theorem TokenEntry.Unused.not_usedUp {other : TokenEntry} (hkeyed : db.Keyed) (h : entry.Unused db)
    (h' : other.UsedUp db) : (other.purpose.table, other.row) ≠ (entry.purpose.table, entry.row) := by
  intro heq
  obtain ⟨htable, hrow⟩ := Prod.mk.inj heq
  unfold Unused at h
  unfold UsedUp at h'
  rw [htable, hrow] at h'
  split at h
  · next htable =>
    rw [htable] at h'
    obtain ⟨c, hc, hid, hnone⟩ := h
    obtain ⟨c', hc', hid', hused⟩ := h'
    obtain rfl := hkeyed.challenges.ids.eq hc hc' (hid.trans hid'.symm)
    rw [hnone] at hused
    cases hused
  · next htable =>
    rw [htable] at h'
    obtain ⟨h, hh, hid, hnone⟩ := h
    obtain ⟨h', hh', hid', hused⟩ := h'
    obtain rfl := hkeyed.handoffs.ids.eq hh hh' (hid.trans hid'.symm)
    rw [hnone] at hused
    cases hused

theorem consumeChallenge_uses {p : VerificationChallenge → Bool} {challengeId : Id} {now : Instant} {consumed : Bool}
    (h : Commits (consumeChallenge p challengeId now) v db consumed db') (hconsumed : ¬ ¬ consumed = true) :
    (∃ c ∈ db.challenges, c.id = challengeId ∧ c.consumedAt = none) ∧
      ∃ c ∈ db'.challenges, c.id = challengeId ∧ c.consumedAt.isSome = true := by
  obtain ⟨rfl, rfl⟩ := commits_consumeChallenge.1 h
  obtain ⟨c, hc, hhit⟩ := List.any_eq_true.1 (not_not.1 hconsumed)
  have hpart := hhit
  simp only [Bool.and_eq_true, decide_eq_true_eq, Option.isNone_iff_eq_none] at hpart
  exact ⟨⟨c, hc, hpart.1.1, hpart.1.2⟩, _, Table.mem_updateWhere_of hc hhit, hpart.1.1, rfl⟩

theorem confirm_uses {token : String} {now : Instant} {userId : Id}
    (h : Commits (IdentityVerificationService.confirm hashes token now) v db userId db') :
    ∃ c ∈ IdentityVerificationService.findChallenge hashes token now v,
      TokenEntry.Unused ⟨.emailVerification, c.id, token⟩ db ∧
        TokenEntry.UsedUp ⟨.emailVerification, c.id, token⟩ db' := by
  rw [IdentityVerificationService.confirm, commits_look_bind, commits_orThrow_bind] at h
  obtain ⟨c, hfound, h⟩ := h
  obtain ⟨consumed, db₁, hconsume, h⟩ := commits_bind.1 h
  rw [commits_throwIf_bind] at h
  obtain ⟨hconsumed, h⟩ := h
  obtain ⟨hunused, hused⟩ := consumeChallenge_uses hconsume hconsumed
  rw [commits_write_bind, commits_pure] at h
  obtain ⟨-, rfl⟩ := h
  exact ⟨c, hfound, hunused, hused⟩

theorem reset_uses {token passwordHash : String} {now : Instant} {u : Unit}
    (h : Commits (PasswordRecoveryService.reset hashes token passwordHash now) v db u db') :
    ∃ c ∈ PasswordRecoveryService.findChallenge hashes token now v,
      TokenEntry.Unused ⟨.passwordReset, c.id, token⟩ db ∧ TokenEntry.UsedUp ⟨.passwordReset, c.id, token⟩ db' := by
  rw [PasswordRecoveryService.reset, commits_look_bind, commits_orThrow_bind] at h
  obtain ⟨c, hfound, h⟩ := h
  obtain ⟨consumed, db₁, hconsume, h⟩ := commits_bind.1 h
  rw [commits_throwIf_bind] at h
  obtain ⟨hconsumed, h⟩ := h
  obtain ⟨hunused, hused⟩ := consumeChallenge_uses hconsume hconsumed
  rw [commits_current_bind, commits_throwIf_bind, commits_write_bind] at h
  obtain ⟨-, h⟩ := h
  obtain ⟨_, db₂, hsessions, hrest⟩ := commits_bind.1 h
  obtain rfl := commits_updateSeen.1 hsessions
  have hstay := (consumeChallenges_advances _ _ _ _ _ _ hrest).tokensStay
  refine ⟨c, hfound, hunused, TokenEntry.UsedUp.stay ?_ hstay⟩
  exact hused

theorem consume_uses {tenantId : Id} {token answer : String} {now : Instant} {draw : TokenDraw}
    (h : Commits (OnboardingHandoffService.consume hashes tenantId token now draw) v db answer db') :
    ∃ row ∈ OnboardingHandoffService.findHandoff hashes tenantId token now v,
      TokenEntry.Unused ⟨.handoff, row.id, token⟩ db ∧ TokenEntry.UsedUp ⟨.handoff, row.id, token⟩ db' := by
  rw [OnboardingHandoffService.consume, commits_look_bind, commits_orThrow_bind] at h
  obtain ⟨row, hfound, h⟩ := h
  rw [commits_look_bind, commits_throwIf_bind] at h
  obtain ⟨-, h⟩ := h
  obtain ⟨consumed, db₁, hconsume, h⟩ := commits_bind.1 h
  rw [commits_throwIf_bind] at h
  obtain ⟨hconsumed, h⟩ := h
  obtain ⟨_, db₂, hinsert, h⟩ := commits_bind.1 h
  obtain ⟨-, rfl⟩ := commits_pure.1 h
  obtain ⟨-, -, rfl⟩ := commits_insertSession.1 hinsert
  rw [OnboardingHandoffService.consumeHandoff, commits_current_bind, commits_write_bind, commits_pure] at hconsume
  obtain ⟨rfl, rfl⟩ := hconsume
  obtain ⟨h, hh, hhit⟩ := List.any_eq_true.1 (not_not.1 hconsumed)
  have hpart := hhit
  simp only [Bool.and_eq_true, decide_eq_true_eq, Option.isNone_iff_eq_none] at hpart
  exact ⟨row, hfound, ⟨h, hh, hpart.1, hpart.2⟩, _, Table.mem_updateWhere_of hh hhit, hpart.1, rfl⟩

/-- The token of a confirmation is not that of a password reset. -/
def IdentityRequest.OwnPurpose (hashes : Hashes) (q : IdentityRequest) (view : IdentityDb) : Prop :=
  match q with
  | confirm token _ => ∀ c ∈ view.challenges, c.tokenDigest = hashes.sha256 token → c.purpose = .emailVerification
  | _ => True

/-- A call uses up nothing, or one unused row that it has found under the token. Only a confirmation finds a row of
another purpose. -/
theorem run_used {q : IdentityRequest} {v db db' : OnboardingDb} {answer : IdentityAnswer}
    (h : Commits (q.run env) v db answer db') :
    (q.used env v.identities = [] ∧ q.OwnPurpose env.hashes v.identities) ∨ ∃ entry actual,
      q.used env v.identities = [entry] ∧ entry.Unused db.identities ∧ entry.UsedUp db'.identities ∧
        q.issued answer = [] ∧ TokenEntry.Stored env.hashes ⟨actual, entry.row, entry.token⟩ v.identities ∧
        (actual = entry.purpose ∧ q.OwnPurpose env.hashes v.identities ∨ ∃ now, q = .confirm entry.token now ∧
          entry.purpose = .emailVerification ∧ actual.table = .challenges) := by
  cases q with
  | confirm token now =>
    obtain ⟨_, db₁, hrun, h⟩ := commits_bind.1 h
    obtain ⟨-, rfl⟩ := commits_pure.1 h
    obtain ⟨identities, hbody, rfl⟩ := commits_onIdentities.1 hrun
    obtain ⟨c, hfound, hunused, hused⟩ := confirm_uses hbody
    have hdigest := List.find?_some hfound
    simp only [Bool.and_eq_true, decide_eq_true_eq] at hdigest
    refine .inr ⟨_, c.purpose.token, by rw [IdentityRequest.used, Option.mem_def.1 hfound]; rfl, hunused, hused, rfl, ?_,
      .inr ⟨now, rfl, rfl, c.purpose.token_table⟩⟩
    exact .inl ⟨c, List.mem_of_find?_eq_some hfound, rfl, rfl, hdigest.1.1.1⟩
  | consume tenantId token now draw =>
    obtain ⟨_, db₁, hrun, h⟩ := commits_bind.1 h
    obtain ⟨-, rfl⟩ := commits_pure.1 h
    obtain ⟨identities, hbody, rfl⟩ := commits_onIdentities.1 hrun
    obtain ⟨row, hfound, hunused, hused⟩ := consume_uses hbody
    have hdigest := List.find?_some hfound
    simp only [Bool.and_eq_true, decide_eq_true_eq] at hdigest
    refine .inr ⟨_, .handoff, by rw [IdentityRequest.used, Option.mem_def.1 hfound]; rfl, hunused, hused, rfl, ?_,
      .inl ⟨rfl, trivial⟩⟩
    exact .inr ⟨row, List.mem_of_find?_eq_some hfound, rfl, rfl, hdigest.1.1.2⟩
  | reset token passwordHash now =>
    obtain ⟨_, db₁, hrun, h⟩ := commits_bind.1 h
    obtain ⟨-, rfl⟩ := commits_pure.1 h
    obtain ⟨identities, hbody, rfl⟩ := commits_onIdentities.1 hrun
    obtain ⟨c, hfound, hunused, hused⟩ := reset_uses hbody
    have hdigest := List.find?_some hfound
    simp only [Bool.and_eq_true, decide_eq_true_eq] at hdigest
    refine .inr ⟨_, .passwordReset, by rw [IdentityRequest.used, Option.mem_def.1 hfound]; rfl, hunused, hused, rfl, ?_,
      .inl ⟨rfl, trivial⟩⟩
    exact .inl ⟨c, List.mem_of_find?_eq_some hfound, rfl, hdigest.1.1.2 ▸ rfl, hdigest.1.1.1⟩
  | _ => exact .inl ⟨rfl, trivial⟩

end Uses

/-! ## The law -/

/-- Each row of a token is used up once, and by an operation for whose purpose its token has been issued. -/
structure OneTime (w : Witnessed) : Prop where
  once : (w.used.map fun entry => (entry.purpose.table, entry.row)).Nodup
  own : ∀ entry ∈ w.used, entry ∈ w.issued

/-- What has been issued is what is stored, and what has been used up is used up. -/
structure Witnessed.Accounts (env : Environment) (w : Witnessed) : Prop where
  keyed : w.db.identities.Keyed
  challenges : ∀ c ∈ w.db.identities.challenges, ∃ entry ∈ w.issued, entry.IsChallenge env.hashes c
  handoffs : ∀ h ∈ w.db.identities.handoffs, ∃ entry ∈ w.issued, entry.IsHandoff env.hashes h
  issued : ∀ entry ∈ w.issued, entry.Stored env.hashes w.db.identities
  used : ∀ entry ∈ w.used, entry.UsedUp w.db.identities

section Law
variable {env : Environment} {q : OwnRequest} {v w w' : Witnessed} {answer : IdentityAnswer}

theorem Witnessed.Accounts.exec (hi : w.Accounts env) (h : q.exec env v w = some (answer, w')) :
    w'.Accounts env ∧ TokensStay w.db.identities w'.db.identities := by
  obtain ⟨db', hrun, rfl⟩ := witnessed_exec_eq h
  have ha := run_advances q.2 hrun
  have hstay := ha.tokensStay
  have hissues := run_issues q.2 hrun
  refine ⟨⟨ha.keyed hi.keyed, fun c' hc' => ?_, fun h' hh' => ?_, fun entry hentry => ?_, fun entry hentry => ?_⟩, hstay⟩
  · rcases hissues.challenges c' hc' with ⟨c, hc, hkey⟩ | ⟨entry, hentry, hc⟩
    · obtain ⟨entry, hentry, hc⟩ := hi.challenges c hc
      exact ⟨entry, List.mem_append_left _ hentry, hc.of_key hkey⟩
    · exact ⟨entry, List.mem_append_right _ hentry, hc⟩
  · rcases hissues.handoffs h' hh' with ⟨h, hh, hkey⟩ | ⟨entry, hentry, hh⟩
    · obtain ⟨entry, hentry, hh⟩ := hi.handoffs h hh
      exact ⟨entry, List.mem_append_left _ hentry, hh.of_key hkey⟩
    · exact ⟨entry, List.mem_append_right _ hentry, hh⟩
  · rcases List.mem_append.1 hentry with hentry | hentry
    · exact (hi.issued entry hentry).stay hstay
    · exact hissues.stored entry hentry
  · rcases List.mem_append.1 hentry with hentry | hentry
    · exact (hi.used entry hentry).stay hstay
    · rcases run_used hrun with ⟨hnone, -⟩ | ⟨used, actual, heq, -, husedUp, -⟩
      · rw [hnone] at hentry
        cases hentry
      · rw [heq, List.mem_singleton] at hentry
        exact hentry ▸ husedUp

/-- A stored row is that of one entry. -/
theorem Witnessed.Accounts.stored_iff (hsha : Function.Injective env.hashes.sha256) (hi : w.Accounts env)
    {entry : TokenEntry} : entry.Stored env.hashes w.db.identities ↔ entry ∈ w.issued := by
  refine ⟨?_, hi.issued entry⟩
  rintro (⟨c, hc, hid, hpurpose, hdigest⟩ | ⟨h, hh, hid, hpurpose, hdigest⟩)
  · obtain ⟨other, hother, hid', hpurpose', hdigest'⟩ := hi.challenges c hc
    have htoken := hsha (hdigest.symm.trans hdigest')
    obtain ⟨purpose, row, token⟩ := entry
    obtain ⟨purpose', row', token'⟩ := other
    simp only at hid hid' hpurpose hpurpose' htoken
    rw [← hid, ← hpurpose, htoken]
    rwa [← hid', ← hpurpose'] at hother
  · obtain ⟨other, hother, hid', hpurpose', hdigest'⟩ := hi.handoffs h hh
    have htoken := hsha (hdigest.symm.trans hdigest')
    obtain ⟨purpose, row, token⟩ := entry
    obtain ⟨purpose', row', token'⟩ := other
    simp only at hid hid' hpurpose hpurpose' htoken
    rw [← hid, hpurpose, htoken]
    rwa [← hid', hpurpose'] at hother

/-- A row that is stored twice is stored for one purpose. -/
theorem TokenEntry.Stored.purpose {db : IdentityDb} {entry other : TokenEntry} (hkeyed : db.Keyed)
    (h : entry.Stored env.hashes db) (h' : other.Stored env.hashes db) (hrow : entry.row = other.row)
    (htable : entry.purpose.table = other.purpose.table) : entry.purpose = other.purpose := by
  rcases h with ⟨c, hc, hid, hpurpose, -⟩ | ⟨-, -, -, hpurpose, -⟩
  · rcases h' with ⟨c', hc', hid', hpurpose', -⟩ | ⟨-, -, -, hpurpose', -⟩
    · obtain rfl := hkeyed.challenges.ids.eq hc hc' (hid.trans (hrow.trans hid'.symm))
      exact hpurpose.symm.trans hpurpose'
    · rw [← hpurpose, hpurpose', ChallengePurpose.token_table] at htable
      cases htable
  · rcases h' with ⟨c', -, -, hpurpose', -⟩ | ⟨-, -, -, hpurpose', -⟩
    · rw [hpurpose, ← hpurpose', ChallengePurpose.token_table] at htable
      cases htable
    · exact hpurpose.trans hpurpose'.symm

/-- Two challenges of a view with one token are for one purpose. -/
theorem TokensStay.purpose {view db : IdentityDb} (hstay : TokensStay view db) (hkeyed : db.Keyed)
    {c c' : VerificationChallenge} (hc : c ∈ view.challenges) (hc' : c' ∈ view.challenges)
    (hdigest : c.tokenDigest = c'.tokenDigest) : c.purpose = c'.purpose := by
  obtain ⟨d, hd, hkey, -⟩ := hstay.challenges c hc
  obtain ⟨d', hd', hkey', -⟩ := hstay.challenges c' hc'
  simp only [VerificationChallenge.key, Prod.mk.injEq] at hkey hkey'
  obtain rfl := hkeyed.challenges.digests.eq hd hd' (hkey.2.2.2.trans (hdigest.trans hkey'.2.2.2.symm))
  exact hkey.2.2.1.symm.trans hkey'.2.2.1

/-- A confirmation is of its own purpose when the row that it has found is. -/
theorem ownPurpose_confirm_iff {view db : IdentityDb} {token : String} {now : Instant} {row : Id}
    {actual : TokenPurpose}
    (hstay : TokensStay view db) (hkeyed : db.Keyed) (htable : actual.table = .challenges)
    (hfound : TokenEntry.Stored env.hashes ⟨actual, row, token⟩ view) :
    (IdentityRequest.confirm token now).OwnPurpose env.hashes view ↔ actual = .emailVerification := by
  rcases hfound with ⟨c, hc, -, hpurpose, hdigest⟩ | ⟨-, -, -, hhandoff, -⟩
  · constructor
    · intro hown
      have hverification := hown c hc hdigest
      rw [hverification] at hpurpose
      exact hpurpose.symm
    · intro hactual c' hc' hdigest'
      have hsame := hstay.purpose hkeyed hc' hc (hdigest'.trans hdigest.symm)
      rw [hsame]
      exact ChallengePurpose.token_injective (hpurpose.trans hactual)
  · rw [show actual = .handoff from hhandoff] at htable
    cases htable

/-- One call: the law survives it exactly when it is of its own purpose. -/
theorem OwnRequest.exec_oneTime_iff (hsha : Function.Injective env.hashes.sha256) (hi : w.Accounts env)
    (hv : TokensStay v.db.identities w.db.identities) (hlaw : OneTime w) (h : q.exec env v w = some (answer, w')) :
    OneTime w' ↔ q.1.OwnPurpose env.hashes v.db.identities := by
  obtain ⟨db', hrun, rfl⟩ := witnessed_exec_eq h
  rcases run_used hrun with ⟨hnone, hown⟩ | ⟨entry, actual, heq, hunused, -, hissued, hfound, hq⟩
  · refine iff_of_true ⟨?_, fun entry hentry => ?_⟩ hown
    · rw [hnone, List.append_nil]
      exact hlaw.once
    · rw [hnone, List.append_nil] at hentry
      exact List.mem_append_left _ (hlaw.own entry hentry)
  · have hactual : ⟨actual, entry.row, entry.token⟩ ∈ w.issued := (hi.stored_iff hsha).1 (hfound.stay hv)
    have hmine : entry ∈ w.issued ↔ actual = entry.purpose := by
      constructor
      · intro hentry
        rcases hq with ⟨hsame, -⟩ | ⟨now, -, hpurpose, htable⟩
        · exact hsame
        · have hstored := hi.issued entry hentry
          have htables : actual.table = entry.purpose.table := by rw [htable, hpurpose]; rfl
          exact (hfound.stay hv).purpose hi.keyed hstored rfl htables
      · intro hsame
        rw [hsame] at hactual
        exact hactual
    have hown : q.1.OwnPurpose env.hashes v.db.identities ↔ actual = entry.purpose := by
      rcases hq with ⟨hsame, hown⟩ | ⟨now, hconfirm, hpurpose, htable⟩
      · exact iff_of_true hown hsame
      · rw [hconfirm, hpurpose]
        exact ownPurpose_confirm_iff hv hi.keyed htable hfound
    rw [hown, ← hmine]
    constructor
    · intro hlaw'
      have hentry := hlaw'.own entry (by rw [heq]; exact List.mem_append_right _ List.mem_cons_self)
      rwa [hissued, List.append_nil] at hentry
    · intro hentry
      refine ⟨?_, fun other hother => ?_⟩
      · rw [heq, List.map_append, List.nodup_append]
        refine ⟨hlaw.once, by simp, ?_⟩
        rintro _ hold _ hnew rfl
        obtain ⟨other, hother, hkey⟩ := List.mem_map.1 hold
        rw [List.map_singleton, List.mem_singleton] at hnew
        exact hunused.not_usedUp hi.keyed (hi.used other hother) (hkey.trans hnew)
      · rw [heq] at hother
        rw [hissued, List.append_nil]
        rcases List.mem_append.1 hother with hother | hother
        · exact hlaw.own other hother
        · exact List.mem_singleton.1 hother ▸ hentry

theorem Witnessed.empty_accounts : Witnessed.empty.Accounts env where
  keyed := ⟨.nil, ⟨.nil, .nil, fun _ hc => (List.not_mem_nil hc).elim⟩, ⟨.nil, .nil⟩, ⟨.nil, .nil⟩⟩
  challenges _ hc := (List.not_mem_nil hc).elim
  handoffs _ hh := (List.not_mem_nil hh).elim
  issued _ he := (List.not_mem_nil he).elim
  used _ he := (List.not_mem_nil he).elim

theorem TokensStay.trans {db db' db'' : IdentityDb} (h : TokensStay db db') (h' : TokensStay db' db'') :
    TokensStay db db'' := ⟨h.challenges.trans h'.challenges, h.handoffs.trans h'.handoffs⟩

theorem accounts_rely : ReadCommitted.Rely (OwnRequest.exec env) rereadWitnessed (Witnessed.Accounts env)
    (fun v w => TokensStay v.db.identities w.db.identities) fun _ _ _ => True where
  refl _ _ := ⟨.refl, .refl⟩
  reread part _ _ _ hv := by
    cases part with
    | challenges => exact ⟨.refl, hv.handoffs⟩
    | handoffs => exact ⟨hv.challenges, .refl⟩
    | _ => exact ⟨hv.challenges, hv.handoffs⟩
  inv _ _ _ _ _ hi _ _ hx := (hi.exec hx).1
  stable _ _ _ _ _ hi _ _ hx _ hw := hw.trans (hi.exec hx).2

end Law

/-- Along a run of overlapping calls, every row of a token is used up once at most and for the purpose of its token,
exactly as long as no call confirms an address with the token of a password reset. -/
theorem tokens_one_time_iff {env : Environment} (hsha : Function.Injective env.hashes.sha256)
    {es : List (ReadCommitted.Event OwnRequest OnboardingPart)} {s : ReadCommitted.Session Witnessed OwnRequest}
    (hr : Runs.exec (ownStep env) ⟨.empty, []⟩ es = some s) :
    Runs.Along (ownStep env) (fun s e => ∀ s' ∈ ownStep env s e, OneTime s'.db) ⟨.empty, []⟩ es ↔
      Runs.Along (ownStep env)
        (ReadCommitted.AtCommit fun q v _ => q.1.OwnPurpose env.hashes v.db.identities) ⟨.empty, []⟩ es :=
  accounts_rely.along_law_iff (L := OneTime) (fun _ _ _ _ _ hi hv hl hx => OwnRequest.exec_oneTime_iff hsha hi hv hl hx)
    ⟨Witnessed.empty_accounts, fun _ ho => (List.not_mem_nil ho).elim⟩
    ⟨List.nodup_nil, fun _ he => (List.not_mem_nil he).elim⟩ hr

namespace Demo

def ownCall (q : IdentityRequest) (h : q.isOwn = true) : List (ReadCommitted.Event OwnRequest OnboardingPart) :=
  [.start ⟨q, h⟩, .commit 0]

/-- Ana registers and confirms her address. -/
def registered : List (ReadCommitted.Event OwnRequest OnboardingPart) :=
  ownCall (.provision provisionBakery) rfl ++ ownCall (.confirm "verify-1" 2) rfl

/-- She asks for a reset of her password, and confirms her address with it. -/
def confirmedWithReset : List (ReadCommitted.Event OwnRequest OnboardingPart) :=
  registered ++ ownCall (.request "ana@a.ar" 3 ⟨"c2", "reset-1", by decide⟩) rfl ++ ownCall (.confirm "reset-1" 4) rfl

end Demo

open Demo

theorem tokens_one_time_registered : ∃ s, Runs.exec (ownStep env) ⟨.empty, []⟩ registered = some s ∧
    (Runs.Along (ownStep env) (fun s e => ∀ s' ∈ ownStep env s e, OneTime s'.db) ⟨.empty, []⟩ registered ↔
      Runs.Along (ownStep env)
        (ReadCommitted.AtCommit fun q v _ => q.1.OwnPurpose env.hashes v.db.identities) ⟨.empty, []⟩ registered) := by
  have hruns : (Runs.exec (ownStep env) ⟨.empty, []⟩ registered).isSome = true := by decide +kernel
  obtain ⟨s, hr⟩ := Option.isSome_iff_exists.1 hruns
  exact ⟨s, hr, tokens_one_time_iff sha256_injective hr⟩

/-- The token of a password reset confirms an address. -/
theorem reset_token_confirms : ¬ ∀ (env : Environment) (es : List (ReadCommitted.Event OwnRequest OnboardingPart))
    (s : ReadCommitted.Session Witnessed OwnRequest), Function.Injective env.hashes.sha256 →
    Runs.exec (ownStep env) ⟨.empty, []⟩ es = some s → OneTime s.db := by
  intro hlaw
  have hused : ((Runs.exec (ownStep env) ⟨.empty, []⟩ confirmedWithReset).map fun s =>
      decide (⟨.emailVerification, "c2", "reset-1"⟩ ∈ s.db.used) &&
        decide (⟨.emailVerification, "c2", "reset-1"⟩ ∉ s.db.issued)) = some true := by decide +kernel
  obtain ⟨s, hr, hentry⟩ := Option.map_eq_some_iff.1 hused
  rw [Bool.and_eq_true, decide_eq_true_eq, decide_eq_true_eq] at hentry
  exact hentry.2 ((hlaw env _ s sha256_injective hr).own _ hentry.1)

end Komanda
