import Komanda.Proofs.Credentials
import Komanda.Proofs.IdempotencyRuns
import Komanda.Proofs.LastOwner
import Komanda.Provisioning
import Mathlib.Data.Set.Finite.Lemmas

/-!
# Replays of a provisioning

A replay finds the tenant by its key, and the user to whom it issues tokens by some membership of the tenant. The
request has named the owner, and nothing looks at that name again. So a replay serves the owner exactly as long as
nobody else is a member.
-/

namespace Komanda
open Transaction IdentityDb DatabaseProvisioningRepository

/-! ## Effects -/

section Effects
variable {hashes : Hashes} {call : ProvisionCall} {v db db' db'' : OnboardingDb}

theorem commits_onIdentities {α : Type} {x : IdentityTx α} {a : α} : Commits (onIdentities x) v db a db' ↔
    ∃ identities, Commits x v.identities db.identities a identities ∧ { db with identities } = db' := commits_zoom

theorem challengeOwner_advances (userId : Id) : Within Advances (challengeOwner hashes call userId) :=
  .bind (consumeChallenges_advances _ _) fun _ => insertChallenge_advances _

theorem handOver_advances (tenantId userId : Id) : Within Advances (handOver hashes call tenantId userId) :=
  insertHandoff_advances _

theorem consumeHandoffs_advances (tenantId userId : Id) (now : Instant) :
    Within Advances (consumeHandoffs tenantId userId now) := by
  intro v db u db' h
  obtain rfl := commits_updateSeen.1 h
  refine .onHandoffs (fun hk => ⟨?_, ?_⟩) (.updateWhere (fun _ => rfl) fun _ => rfl)
  · exact hk.ids.updateWhere fun _ _ => rfl
  · exact hk.digests.updateWhere fun _ _ => rfl

theorem insertOwner_advances : Within Advances (insertOwner call) := by
  intro v db u db' h
  rw [insertOwner, commits_current_bind, commits_throwIf_bind, commits_write] at h
  obtain ⟨hfresh, rfl⟩ := h
  refine .onUsers (fun hk => hk.append fun user huser hid => hfresh ?_) fun user huser => ?_
  · exact List.any_eq_true.2 ⟨user, huser, Bool.or_eq_true_iff.2 (.inl (decide_eq_true hid))⟩
  · exact ⟨user, List.mem_append_left _ huser, rfl, id⟩

theorem insertMembership_advances (row : Membership) : Within Advances (insertMembership row) := by
  intro v db u db' h
  simp only [insertMembership, commits_current_bind, commits_throwIf_bind, commits_write] at h
  obtain ⟨-, hknown, rfl⟩ := h
  refine ⟨fun hl => ⟨fun m hm => ?_, hl.later⟩, fun hk => ⟨hk.users, hk.challenges, hk.handoffs, hk.sessions⟩, .refl, .refl,
    .refl, .refl⟩
  rcases List.mem_append.1 hm with hm | hm
  · exact hl.known m hm
  · obtain rfl := List.mem_singleton.1 hm
    obtain ⟨user, huser, hid⟩ := List.any_eq_true.1 (not_not.1 hknown)
    exact ⟨user, huser, of_decide_eq_true hid⟩

/-- Nothing goes. -/
structure OnboardingDb.Grows (db db' : OnboardingDb) : Prop where
  identities : db.identities.Advances db'.identities
  tenants : db.tenants ⊆ db'.tenants
  locations : db.locations ⊆ db'.locations
  snapshots : db.snapshots ⊆ db'.snapshots

/-- Nothing goes, and the records of idempotency stay as they are. -/
structure OnboardingDb.Extends (db db' : OnboardingDb) : Prop extends OnboardingDb.Grows db db' where
  idempotency : db'.idempotency = db.idempotency

namespace OnboardingDb.Extends

theorem refl : db.Extends db := ⟨⟨.refl, fun _ => id, fun _ => id, fun _ => id⟩, rfl⟩

theorem trans (h : db.Extends db') (h' : db'.Extends db'') : db.Extends db'' where
  identities := h.identities.trans h'.identities
  tenants _ ht := h'.tenants (h.tenants ht)
  locations _ hl := h'.locations (h.locations hl)
  snapshots _ hs := h'.snapshots (h.snapshots hs)
  idempotency := h'.idempotency.trans h.idempotency

instance : Std.Refl OnboardingDb.Extends := ⟨fun _ => refl⟩

instance : Trans OnboardingDb.Extends OnboardingDb.Extends OnboardingDb.Extends := ⟨trans⟩

end OnboardingDb.Extends

open OnboardingDb

theorem onIdentities_extends {α : Type} {x : IdentityTx α} (hx : Within Advances x) : Within Extends (onIdentities x) :=
  .zoom hx fun _ _ h => ⟨⟨h, fun _ => id, fun _ => id, fun _ => id⟩, rfl⟩

theorem rotateCredentialsAndLoad_extends (tenantId : Id) :
    Within Extends (rotateCredentialsAndLoad hashes tenantId call) := by
  refine .bind (.look _) fun _ => .bind (.look _) fun _ => .bind (.look _) fun _ => .bind (.look _) fun _ => ?_
  refine .bind (.look _) fun _ => .bind (.orThrow _ _) fun _ => .bind (.orThrow _ _) fun _ => ?_
  refine .bind (.orThrow _ _) fun _ => .bind (.orThrow _ _) fun _ => .bind (.orThrow _ _) fun _ => ?_
  refine .bind (onIdentities_extends (consumeHandoffs_advances _ _ _)) fun _ => ?_
  refine .bind (onIdentities_extends (handOver_advances _ _)) fun _ => ?_
  exact .bind (.runIf (onIdentities_extends (challengeOwner_advances _))) fun _ => .pure _

/-- The tenant of an aggregate is complete. -/
structure OnboardingDb.Complete (db : OnboardingDb) (tenantId : Id) : Prop where
  tenant : ∃ t ∈ db.tenants, t.id = tenantId
  location : ∃ l ∈ db.locations, l.tenantId = tenantId ∧ l.isPrimary = true
  snapshot : ∃ s ∈ db.snapshots, s.tenantId = tenantId ∧ s.supersededAt = none

theorem OnboardingDb.Complete.grows {tenantId : Id} (h : db.Complete tenantId) (hgrows : db.Grows db') :
    db'.Complete tenantId := by
  obtain ⟨t, ht, hid⟩ := h.tenant
  obtain ⟨l, hl, hlid⟩ := h.location
  obtain ⟨s, hs, hsid⟩ := h.snapshot
  exact ⟨⟨t, hgrows.tenants ht, hid⟩, ⟨l, hgrows.locations hl, hlid⟩, ⟨s, hgrows.snapshots hs, hsid⟩⟩

theorem insertTenant_effect {u : Unit} (h : Commits (insertTenant call) v db u db') :
    db.Extends db' ∧ db'.Complete call.tenantId := by
  rw [insertTenant, commits_current_bind, commits_throwIf_bind, commits_write] at h
  obtain ⟨-, rfl⟩ := h
  constructor
  · exact ⟨⟨.refl, List.subset_append_left _ _, List.subset_append_left _ _, List.subset_append_left _ _⟩, rfl⟩
  · exact ⟨⟨_, List.mem_append_right _ List.mem_cons_self, rfl⟩,
      ⟨_, List.mem_append_right _ List.mem_cons_self, rfl, rfl⟩,
      ⟨_, List.mem_append_right _ List.mem_cons_self, rfl, rfl⟩⟩

/-- The record that a first provisioning inserts. -/
def ProvisionCall.record (call : ProvisionCall) : Idempotency.Record ProvisionTenantRequest Id :=
  call.claimInput.record id call.recordId call.now

@[simp] theorem ProvisionCall.record_id : call.record.id = call.recordId := rfl

theorem ProvisionCall.recordIdentity_record {key : String} :
    Idempotency.recordIdentity none "provision-tenant" key call.record = true ↔
      Text.trim call.idempotencyKey = key := by
  rw [Idempotency.recordIdentity_iff, Prod.mk.injEq, Prod.mk.injEq]
  constructor
  · rintro ⟨-, -, hkey⟩
    exact hkey
  · intro hkey
    exact ⟨rfl, rfl, hkey⟩

/-- A row that the new record does not conflict with. -/
theorem ProvisionCall.conflicts_record {r : Idempotency.Record ProvisionTenantRequest Id} :
    Idempotency.conflicts call.record r = false ↔ r.id ≠ call.recordId ∧
      Idempotency.recordIdentity none "provision-tenant" (Text.trim call.idempotencyKey) r = false := by
  rw [Idempotency.conflicts, Bool.or_eq_false_iff, decide_eq_false_iff_not]
  rfl

/-- A record with the answer of a provisioning. -/
def answered (tenantId : Id) (r : Idempotency.Record ProvisionTenantRequest Id) :
    Idempotency.Record ProvisionTenantRequest Id :=
  { r with state := .completed, responseStatus := some 201, responseBody := some tenantId }

/-- A first provisioning completes the tenant and, last, its record. -/
theorem create_effect {recordId : Id} {aggregate : ProvisionedAggregate}
    (h : Commits (create hashes call recordId) v db aggregate db') : db.Grows db' ∧ db'.Complete aggregate.tenantId ∧
      db'.idempotency = Table.updateWhere (·.id = recordId) (answered aggregate.tenantId) db.idempotency := by
  simp only [create, commits_look_bind, commits_throwIf_bind] at h
  obtain ⟨-, -, h⟩ := h
  obtain ⟨_, db₁, howner, h⟩ := commits_bind.1 h
  obtain ⟨_, db₂, htenant, h⟩ := commits_bind.1 h
  obtain ⟨_, db₃, hmembership, h⟩ := commits_bind.1 h
  obtain ⟨_, db₄, hchallenge, h⟩ := commits_bind.1 h
  obtain ⟨_, db₅, hhandoff, h⟩ := commits_bind.1 h
  rw [commits_write_bind] at h
  obtain ⟨_, db₆, hrecord, h⟩ := commits_bind.1 h
  obtain ⟨rfl, rfl⟩ := commits_pure.1 h
  obtain ⟨hinserted, hcomplete⟩ := insertTenant_effect htenant
  have hfirst : db.Extends db₁ := Within.runIf (onIdentities_extends insertOwner_advances) _ _ _ _ howner
  have hrest : db₂.Extends db₅ :=
    (onIdentities_extends (insertMembership_advances _) _ _ _ _ hmembership).trans
      ((Within.runIf (onIdentities_extends (challengeOwner_advances _)) _ _ _ _ hchallenge).trans
        (onIdentities_extends (handOver_advances _ _) _ _ _ _ hhandoff))
  have hall : db.Extends db₅ := (hfirst.trans hinserted).trans hrest
  obtain ⟨records, hcompleted, rfl⟩ := commits_zoom.1 hrecord
  obtain rfl := commits_write.1 hcompleted
  refine ⟨⟨hall.identities, hall.tenants, hall.locations, hall.snapshots⟩, ?_, ?_⟩
  · exact hcomplete.grows ⟨hrest.identities, hrest.tenants, hrest.locations, hrest.snapshots⟩
  · rw [← hall.idempotency]
    rfl

/-- A provisioning that commits is a replay, or the first of its key. -/
theorem provision_cases {aggregate : ProvisionedAggregate} (hv : ∀ r ∈ v.idempotency, r.state = .completed)
    (h : Commits (provision hashes call) v db aggregate db') :
    (∃ r ∈ v.idempotency, Idempotency.recordIdentity none "provision-tenant" (Text.trim call.idempotencyKey) r = true ∧
        db.Extends db') ∨
      (¬ (Text.trim call.idempotencyKey = "" ∨ Text.length (Text.trim call.idempotencyKey) > 255) ∧
        (∀ q ∈ db.idempotency, Idempotency.conflicts call.record q = false) ∧
        db.Grows db' ∧ db'.Complete aggregate.tenantId ∧ db'.idempotency =
          Table.updateWhere (·.id = call.recordId) (answered aggregate.tenantId)
            (db.idempotency ++ [call.record])) := by
  rw [provision] at h
  obtain ⟨answer, db₁, hclaim, h⟩ := commits_bind.1 h
  obtain ⟨records, hclaimed, rfl⟩ := commits_zoom.1 hclaim
  cases Idempotency.claim_cases hclaimed with
  | replayed r hr hid hhash hstate =>
    refine .inl ⟨r, hr, hid, ?_⟩
    obtain ⟨tenantId, -, h⟩ := commits_orThrow_bind.1 h
    exact rotateCredentialsAndLoad_extends tenantId _ _ _ _ h
  | reclaimed r hr hid hhash hstate => exact absurd (hv r hr) hstate
  | inserted record hrecord hnew =>
    obtain rfl := hrecord
    have hkey : ¬ (Text.trim call.claimInput.key = "" ∨ Text.length (Text.trim call.claimInput.key) > 255) :=
      Idempotency.claim_key hclaimed
    obtain ⟨hgrows, hcomplete, hrecords⟩ := create_effect h
    refine .inr ⟨hkey, hnew, ?_, hcomplete, hrecords⟩
    exact ⟨hgrows.identities, hgrows.tenants, hgrows.locations, hgrows.snapshots⟩

end Effects

/-! ## Members -/

section Members
variable {orm : Orm} {isEmail : String → Bool} {tenantId : Id} {view r r' : Registry}

/-- A membership has its user. -/
def Registry.Known (r : Registry) : Prop := ∀ m ∈ r.memberships, ∃ u ∈ r.users, u.id = m.userId

theorem create_known {userId newId : Id} {role : Role} {m : Membership} (hknown : r.Known)
    (h : Commits (MemberRepository.create orm tenantId userId role newId) view r m r') : r'.Known := by
  rw [MemberRepository.create, commits_look_bind] at h
  split at h
  · obtain ⟨_, r₁, hwrite, hread⟩ := commits_bind.1 h
    rw [commits_current_bind] at hread
    obtain ⟨-, rfl⟩ := commits_orThrow.1 hread
    obtain rfl := commits_write.1 hwrite
    intro m hm
    rcases Table.mem_updateWhere_cases hm with ⟨hm, -⟩ | ⟨before, hbefore, -, rfl⟩
    · exact hknown m hm
    · exact hknown before hbefore
  · simp only [commits_current_bind, commits_throwIf_bind] at h
    obtain ⟨-, -, huser, hinsert⟩ := h
    obtain ⟨_, r₁, hwrite, hanswer⟩ := commits_bind.1 hinsert
    obtain ⟨rfl, rfl⟩ := commits_pure.1 hanswer
    obtain rfl := commits_write.1 hwrite
    intro m hm
    rcases List.mem_append.1 hm with hm | hm
    · exact hknown m hm
    · obtain rfl := List.mem_singleton.1 hm
      obtain ⟨u, hu, hid⟩ := List.any_eq_true.1 (Decidable.not_not.1 huser)
      exact ⟨u, hu, of_decide_eq_true hid⟩

theorem addMember_known {input : AddMemberInput} {draw : MemberDraw} {m : Membership} (hknown : r.Known)
    (h : Commits (MemberService.addMember orm isEmail tenantId input draw) view r m r') : r'.Known := by
  obtain ⟨identity, r₁, hidentity, hcreate⟩ := MemberService.addMember_cases h
  refine create_known ?_ hcreate
  cases hfound : MemberRepository.findIdentityByNormalizedEmail (normalizeEmail input.email) view.users with
  | some found =>
    rw [hfound] at hidentity
    obtain ⟨-, rfl⟩ := commits_pure.1 hidentity
    exact hknown
  | none =>
    rw [hfound] at hidentity
    obtain ⟨rfl, -, rfl⟩ := MemberService.claimIdentity_cases hidentity
    intro m hm
    obtain ⟨u, hu, hid⟩ := hknown m hm
    exact ⟨u, List.mem_append_left _ hu, hid⟩

theorem changeRole_known {actor : Actor} {membershipId : Id} {role : Role} {u : Unit} (hknown : r.Known)
    (h : Commits (MemberService.changeRole tenantId actor membershipId role) view r u r') : r'.Known := by
  rw [MemberService.changeRole, commits_look_bind, commits_orThrow_bind] at h
  obtain ⟨membership, -, h⟩ := h
  obtain ⟨_, r₁, hguard, hupdate⟩ := commits_bind.1 h
  obtain rfl := commits_guardLastOwner hguard
  obtain rfl := commits_write.1 hupdate
  intro m hm
  rcases Table.mem_updateWhere_cases hm with ⟨hm, -⟩ | ⟨before, hbefore, -, rfl⟩
  · exact hknown m hm
  · exact hknown before hbefore

theorem deleteMember_known {actor : Actor} {membershipId : Id} {u : Unit} (hknown : r.Known)
    (h : Commits (MemberService.deleteMember tenantId actor membershipId) view r u r') : r'.Known := by
  rw [MemberService.deleteMember, commits_look_bind, commits_orThrow_bind] at h
  obtain ⟨membership, -, h⟩ := h
  obtain ⟨_, r₁, hguard, hrest⟩ := commits_bind.1 h
  obtain rfl := commits_guardLastOwner hguard
  obtain ⟨_, r₂, hdelete, hclean⟩ := commits_bind.1 hrest
  obtain rfl := commits_write.1 hdelete
  obtain rfl := commits_write.1 hclean
  intro m hm
  obtain ⟨u, hu, hid⟩ := hknown m (List.mem_filter.1 hm).1
  -- whoever is still a member of some tenant is not deleted
  refine ⟨u, List.mem_filter.2 ⟨hu, Bool.or_eq_true_iff.2 ?_⟩, hid⟩
  by_cases hgone : u.id = membership.userId
  · exact .inr (List.any_eq_true.2 ⟨m, hm, decide_eq_true (hid.symm.trans hgone)⟩)
  · exact .inl (decide_eq_true hgone)

theorem MemberRequest.run_known {q : MemberRequest} {u : Unit} (hknown : r.Known)
    (h : Commits (q.run orm isEmail) view r u r') : r'.Known := by
  cases q with
  | addMember actsFor actor input draw =>
    obtain ⟨m, hadd, -⟩ := commits_map.1 h
    exact addMember_known hknown hadd
  | changeRole actsFor actor membershipId role => exact changeRole_known hknown h
  | deleteMember actsFor actor membershipId => exact deleteMember_known hknown h
  | revokeMember actsFor actor membershipId => exact deleteMember_known hknown h

end Members

/-! ## Calls -/

section Calls
open OnboardingDb
variable {env : Environment} {q : IdentityRequest} {v db db' : OnboardingDb} {answer : IdentityAnswer}

theorem provision_grows {call : ProvisionCall} {aggregate : ProvisionedAggregate}
    (h : Commits (provision env.hashes call) v db aggregate db') : db.Grows db' := by
  rw [provision] at h
  obtain ⟨claimed, db₁, hclaim, h⟩ := commits_bind.1 h
  obtain ⟨records, -, rfl⟩ := commits_zoom.1 hclaim
  cases claimed with
  | replay status body =>
    obtain ⟨tenantId, -, h⟩ := commits_orThrow_bind.1 h
    have hextends := rotateCredentialsAndLoad_extends tenantId _ _ _ _ h
    exact ⟨hextends.identities, hextends.tenants, hextends.locations, hextends.snapshots⟩
  | claimed recordId hash =>
    obtain ⟨hgrows, -, -⟩ := create_effect h
    exact ⟨hgrows.identities, hgrows.tenants, hgrows.locations, hgrows.snapshots⟩

/-- What is neither a provisioning nor a change of members. -/
theorem run_extends (hown : q.isOwn = true) (hprovision : ∀ call, q ≠ .provision call) : Within Extends (q.run env) := by
  cases q with
  | provision call => exact absurd rfl (hprovision call)
  | member q => cases hown
  | confirm token now => exact .bind (onIdentities_extends (confirm_advances _ _ _)) fun _ => .pure _
  | consume tenantId token now draw => exact .bind (onIdentities_extends (consume_advances _ _ _ _ _)) fun _ => .pure _
  | request email now draw =>
    intro v db answer db' h
    obtain ⟨recipient, h, -⟩ := commits_map.1 h
    exact onIdentities_extends (request_advances _ _ _ _) _ _ _ _ h
  | reset token passwordHash now => exact .bind (onIdentities_extends (reset_advances _ _ _ _)) fun _ => .pure _
  | findCredential email password => exact .bind (onIdentities_extends (findCredential_advances _ _)) fun _ => .pure _
  | verify login => exact .bind (onIdentities_extends (verify_advances _ _)) fun _ => .pure _
  | finish login now draw => exact .bind (onIdentities_extends (finish_advances _ _ _ _)) fun _ => .pure _

/-- Whatever the call, unless it changes the members. -/
theorem run_advances (hown : q.isOwn = true) (h : Commits (q.run env) v db answer db') :
    db.identities.Advances db'.identities := by
  by_cases hprovision : ∃ call, q = .provision call
  · obtain ⟨call, rfl⟩ := hprovision
    obtain ⟨aggregate, h, -⟩ := commits_map.1 h
    exact (provision_grows h).identities
  · exact (run_extends hown (fun call hq => hprovision ⟨call, hq⟩) _ _ _ _ h).identities

/-- A change of members touches the identities only. -/
theorem run_member {q : MemberRequest} (h : Commits ((IdentityRequest.member q).run env) v db answer db') :
    (db.identities.Linked → db'.identities.Linked) ∧ db' = { db with identities := db'.identities } := by
  obtain ⟨_, db₁, hmember, h⟩ := commits_bind.1 h
  obtain ⟨-, rfl⟩ := commits_pure.1 h
  obtain ⟨r, hr, rfl⟩ := commits_zoom.1 hmember
  exact ⟨fun hl => ⟨MemberRequest.run_known hl.known hr, rfl⟩, rfl⟩

end Calls

/-! ## Runs -/

section Runs
open OnboardingDb
variable {env : Environment}

/-- The first provisioning of a key that has been answered. -/
def Witnessed.first (w : Witnessed) (key : String) : Option (ProvisionCall × ProvisionedAggregate) :=
  w.provisioned.find? fun p => Text.trim p.1.idempotencyKey = Text.trim key

/-- Each of the records is completed, and belongs to a provisioning that has been answered. -/
def RecordsAnswered (rows : List (Idempotency.Record ProvisionTenantRequest Id))
    (log : List (ProvisionCall × ProvisionedAggregate)) : Prop :=
  ∀ r ∈ rows, r.state = .completed ∧ ∃ p ∈ log,
    Idempotency.recordIdentity none "provision-tenant" (Text.trim p.1.idempotencyKey) r = true

/-- The request would be answered with the tenant again. -/
structure Replays (db : OnboardingDb) (call : ProvisionCall) (tenantId : Id) : Prop where
  key : ¬ (Text.trim call.idempotencyKey = "" ∨ Text.length (Text.trim call.idempotencyKey) > 255)
  record : ∃ r, db.idempotency.find?
      (Idempotency.recordIdentity none "provision-tenant" (Text.trim call.idempotencyKey)) = some r ∧
    r.state = .completed ∧ r.requestHash = call.request ∧ r.responseBody = some tenantId
  complete : db.Complete tenantId

structure Witnessed.Replayable (w : Witnessed) : Prop where
  linked : w.db.identities.Linked
  records : RecordsAnswered w.db.idempotency w.provisioned
  first : ∀ key call aggregate, w.first key = some (call, aggregate) → Replays w.db call aggregate.tenantId

theorem RecordsAnswered.append {rows : List (Idempotency.Record ProvisionTenantRequest Id)}
    {log : List (ProvisionCall × ProvisionedAggregate)} (h : RecordsAnswered rows log)
    (more : List (ProvisionCall × ProvisionedAggregate)) : RecordsAnswered rows (log ++ more) := by
  intro r hr
  obtain ⟨hstate, p, hp, hid⟩ := h r hr
  exact ⟨hstate, p, List.mem_append_left _ hp, hid⟩

theorem Replays.keep {db db' : OnboardingDb} {call : ProvisionCall} {tenantId : Id} (h : Replays db call tenantId)
    (hcomplete : db'.Complete tenantId) (hrecords : db'.idempotency = db.idempotency) : Replays db' call tenantId := by
  refine ⟨h.key, ?_, hcomplete⟩
  rw [hrecords]
  exact h.record

theorem witnessed_exec_eq {q : IdentityRequest} {v w w' : Witnessed} {answer : IdentityAnswer}
    (h : Witnessed.exec env q v w = some (answer, w')) : ∃ db', Commits (q.run env) v.db w.db answer db' ∧ w' =
      { db := db'
        provisioned := w.provisioned ++ q.provisioned answer
        issued := w.issued ++ q.issued answer
        used := w.used ++ q.used env v.db.identities
        resets := w.resets ++ q.resets env v.db.identities w.db.identities
        obtained := w.obtained ++ q.obtained w.db.identities } := by
  obtain ⟨⟨answer', db'⟩, hrun, hw⟩ := Option.map_eq_some_iff.1 h
  obtain ⟨rfl, rfl⟩ := Prod.mk.inj hw
  exact ⟨db', toOption_eq.1 hrun, rfl⟩

theorem provisioned_eq_nil {q : IdentityRequest} (hq : ∀ call, q ≠ .provision call) (answer : IdentityAnswer) :
    q.provisioned answer = [] := by
  cases q with
  | provision call => exact absurd rfl (hq call)
  | _ => rfl

theorem first_append {w w' : Witnessed} {key : String} {p : ProvisionCall × ProvisionedAggregate}
    {more : List (ProvisionCall × ProvisionedAggregate)} (hlog : w'.provisioned = w.provisioned ++ more)
    (h : w'.first key = some p) :
    w.first key = some p ∨
      w.first key = none ∧ p ∈ more ∧ Text.trim p.1.idempotencyKey = Text.trim key := by
  rw [Witnessed.first, hlog, List.find?_append] at h
  cases hfirst : w.provisioned.find? (fun p => Text.trim p.1.idempotencyKey = Text.trim key) with
  | some p' =>
    rw [hfirst] at h
    exact .inl (hfirst.trans h)
  | none =>
    rw [hfirst] at h
    have hkey := List.find?_some h
    exact .inr ⟨hfirst, List.mem_of_find?_eq_some h, of_decide_eq_true hkey⟩

/-- A record's key has a first provisioning. -/
theorem RecordsAnswered.first_ne_none {w : Witnessed} {rows : List (Idempotency.Record ProvisionTenantRequest Id)}
    (h : RecordsAnswered rows w.provisioned) {r : Idempotency.Record ProvisionTenantRequest Id} (hr : r ∈ rows) {key : String}
    (hid : Idempotency.recordIdentity none "provision-tenant" (Text.trim key) r = true) : w.first key ≠ none := by
  obtain ⟨-, p, hp, hid'⟩ := h r hr
  rw [Idempotency.recordIdentity_iff] at hid hid'
  intro hnone
  have hother := List.find?_eq_none.1 hnone p hp
  rw [hid, Prod.mk.injEq, Prod.mk.injEq] at hid'
  exact hother (decide_eq_true hid'.2.2.symm)

section Record
variable {call : ProvisionCall} {tenantId : Id} {rows : List (Idempotency.Record ProvisionTenantRequest Id)}

/-- The record of a first provisioning, among the others. -/
theorem answered_records {log : List (ProvisionCall × ProvisionedAggregate)} (h : RecordsAnswered rows log)
    (hnew : ∀ q ∈ rows, Idempotency.conflicts call.record q = false) (aggregate : ProvisionedAggregate) :
    RecordsAnswered (Table.updateWhere (·.id = call.recordId) (answered tenantId) (rows ++ [call.record]))
      (log ++ [(call, aggregate)]) := by
  intro r hr
  rcases Table.mem_updateWhere_cases hr with ⟨hr, hid⟩ | ⟨q, hq, hid, rfl⟩
  · rcases List.mem_append.1 hr with hr | hr
    · exact h.append _ r hr
    · obtain rfl := List.mem_singleton.1 hr
      exact absurd rfl (of_decide_eq_false hid)
  · refine ⟨rfl, (call, aggregate), List.mem_append_right _ List.mem_cons_self, ?_⟩
    rcases List.mem_append.1 hq with hq | hq
    · exact absurd (of_decide_eq_true hid) (ProvisionCall.conflicts_record.1 (hnew q hq)).1
    · obtain rfl := List.mem_singleton.1 hq
      exact ProvisionCall.recordIdentity_record.2 rfl

/-- It changes none of them. -/
theorem find_answered (hnew : ∀ q ∈ rows, Idempotency.conflicts call.record q = false) (key : String) :
    (Table.updateWhere (·.id = call.recordId) (answered tenantId) (rows ++ [call.record])).find?
        (Idempotency.recordIdentity none "provision-tenant" key) =
      (rows.find? (Idempotency.recordIdentity none "provision-tenant" key)).or
        (if Text.trim call.idempotencyKey = key then some (answered tenantId call.record) else none) := by
  rw [Table.find?_updateWhere (by intro _ _; rfl), List.find?_append]
  cases hfound : rows.find? (Idempotency.recordIdentity none "provision-tenant" key) with
  | some r =>
    have hid := (ProvisionCall.conflicts_record.1 (hnew r (List.mem_of_find?_eq_some hfound))).1
    simp [hid]
  | none =>
    by_cases hkey : Text.trim call.idempotencyKey = key
    · rw [if_pos hkey, List.find?_cons_of_pos (ProvisionCall.recordIdentity_record.2 hkey)]
      simp
    · rw [if_neg hkey, List.find?_cons_of_neg fun hid => hkey (ProvisionCall.recordIdentity_record.1 hid)]
      rfl

end Record

/-- A call that answers no provisioning leaves all of them to be answered again. -/
theorem Witnessed.Replayable.quiet {w w' : Witnessed} (hi : w.Replayable) (hlog : w'.provisioned = w.provisioned)
    (hlinked : w'.db.identities.Linked) (hcomplete : ∀ tenantId, w.db.Complete tenantId → w'.db.Complete tenantId)
    (hrecords : w'.db.idempotency = w.db.idempotency) : w'.Replayable := by
  refine ⟨hlinked, ?_, fun key call aggregate hfirst => ?_⟩
  · rw [hrecords, hlog]
    exact hi.records
  · rw [Witnessed.first, hlog] at hfirst
    have hreplays := hi.first key call aggregate hfirst
    exact hreplays.keep (hcomplete _ hreplays.complete) hrecords

/-- So does a replay. -/
theorem Witnessed.Replayable.replay {w w' : Witnessed} {call : ProvisionCall} {aggregate : ProvisionedAggregate}
    {rows : List (Idempotency.Record ProvisionTenantRequest Id)} {r : Idempotency.Record ProvisionTenantRequest Id}
    (hi : w.Replayable) (hv : RecordsAnswered rows w.provisioned) (hr : r ∈ rows)
    (hid : Idempotency.recordIdentity none "provision-tenant" (Text.trim call.idempotencyKey) r = true)
    (hlog : w'.provisioned = w.provisioned ++ [(call, aggregate)]) (hextends : w.db.Extends w'.db) : w'.Replayable := by
  refine ⟨hextends.identities.linked hi.linked, ?_, fun key first answer hfirst => ?_⟩
  · rw [hextends.idempotency, hlog]
    exact hi.records.append _
  · rcases first_append hlog hfirst with hfirst | ⟨hnone, hmem, hkey⟩
    · have hreplays := hi.first key first answer hfirst
      exact hreplays.keep (hreplays.complete.grows hextends.toGrows) hextends.idempotency
    · obtain ⟨rfl, rfl⟩ := Prod.mk.inj (List.mem_singleton.1 hmem)
      rw [hkey] at hid
      exact absurd hnone (hv.first_ne_none hr hid)

/-- The first provisioning of a key joins them. -/
theorem Witnessed.Replayable.provision {w w' : Witnessed} {call : ProvisionCall} {aggregate : ProvisionedAggregate}
    (hi : w.Replayable) (hlog : w'.provisioned = w.provisioned ++ [(call, aggregate)])
    (hkey : ¬ (Text.trim call.idempotencyKey = "" ∨ Text.length (Text.trim call.idempotencyKey) > 255))
    (hnew : ∀ r ∈ w.db.idempotency, Idempotency.conflicts call.record r = false) (hgrows : w.db.Grows w'.db)
    (hcomplete : w'.db.Complete aggregate.tenantId) (hrecords : w'.db.idempotency =
      Table.updateWhere (·.id = call.recordId) (answered aggregate.tenantId) (w.db.idempotency ++ [call.record])) :
    w'.Replayable := by
  refine ⟨hgrows.identities.linked hi.linked, ?_, fun key first answer hfirst => ?_⟩
  · rw [hrecords, hlog]
    exact answered_records hi.records hnew aggregate
  · rcases first_append hlog hfirst with hfirst | ⟨-, hmem, -⟩
    · have hreplays := hi.first key first answer hfirst
      obtain ⟨r, hr, hanswer⟩ := hreplays.record
      refine ⟨hreplays.key, ⟨r, ?_, hanswer⟩, hreplays.complete.grows hgrows⟩
      rw [hrecords, find_answered hnew, hr]
      rfl
    · obtain ⟨rfl, rfl⟩ := Prod.mk.inj (List.mem_singleton.1 hmem)
      have hnone : w.db.idempotency.find?
          (Idempotency.recordIdentity none "provision-tenant" (Text.trim first.idempotencyKey)) = none :=
        List.find?_eq_none.2 fun r hr hid =>
          absurd hid (Bool.eq_false_iff.1 (ProvisionCall.conflicts_record.1 (hnew r hr)).2)
      refine ⟨hkey, ⟨answered answer.tenantId first.record, ?_, rfl, rfl, rfl⟩, hcomplete⟩
      rw [hrecords, find_answered hnew, hnone, if_pos rfl]
      rfl

/-- A call leaves what has been provisioned to be answered again. -/
theorem Witnessed.Replayable.exec {q : IdentityRequest} {v w w' : Witnessed} {answer : IdentityAnswer}
    (hi : w.Replayable) (hv : RecordsAnswered v.db.idempotency w.provisioned)
    (h : Witnessed.exec env q v w = some (answer, w')) : w'.Replayable := by
  obtain ⟨db', hrun, rfl⟩ := witnessed_exec_eq h
  by_cases hprovision : ∃ call, q = .provision call
  · obtain ⟨call, rfl⟩ := hprovision
    obtain ⟨aggregate, hprovides, rfl⟩ := commits_map.1 hrun
    rcases provision_cases (fun r hr => (hv r hr).1) hprovides with ⟨r, hr, hid, hextends⟩ |
      ⟨hkey, hnew, hgrows, hcomplete, hrecords⟩
    · exact hi.replay hv hr hid rfl hextends
    · exact hi.provision rfl hkey hnew hgrows hcomplete hrecords
  · have hquiet : ∀ call, q ≠ .provision call := fun call hq => hprovision ⟨call, hq⟩
    have hlog : w.provisioned ++ q.provisioned answer = w.provisioned := by
      rw [provisioned_eq_nil hquiet, List.append_nil]
    by_cases hown : q.isOwn = true
    · have hextends := run_extends hown hquiet _ _ _ _ hrun
      exact hi.quiet hlog (hextends.identities.linked hi.linked) (fun _ hc => hc.grows hextends.toGrows)
        hextends.idempotency
    · cases q with
      | member q =>
        obtain ⟨hlinked, heq⟩ := run_member hrun
        refine hi.quiet hlog (hlinked hi.linked) (fun tenantId hc => ?_) (congrArg (·.idempotency) heq)
        rw [heq]
        exact ⟨hc.tenant, hc.location, hc.snapshot⟩
      | _ => exact absurd rfl hown

theorem replayable_rely : ReadCommitted.Rely (Witnessed.exec env) rereadWitnessed Witnessed.Replayable
    (fun v w => RecordsAnswered v.db.idempotency w.provisioned) fun _ _ _ => True where
  refl w hi := hi.records
  reread part v w hi hv := by
    cases part with
    | idempotency => exact hi.records
    | _ => exact hv
  inv _ _ _ _ _ hi hv _ hx := hi.exec hv hx
  stable _ _ _ _ _ _ _ _ hx _ hw := by
    obtain ⟨db', -, rfl⟩ := witnessed_exec_eq hx
    exact hw.append _

theorem Witnessed.empty_replayable : Witnessed.empty.Replayable where
  linked := ⟨fun _ hm => (List.not_mem_nil hm).elim, rfl⟩
  records := fun _ hr => (List.not_mem_nil hr).elim
  first := by
    intro key call aggregate h
    cases h

theorem run_replayable {es : List (ReadCommitted.Event IdentityRequest OnboardingPart)}
    {s : ReadCommitted.Session Witnessed IdentityRequest}
    (hr : Runs.exec (witnessedStep env) ⟨.empty, []⟩ es = some s) : s.db.Replayable :=
  (replayable_rely.run_inv ⟨Witnessed.empty_replayable, fun _ ho => (List.not_mem_nil ho).elim⟩ hr).db

end Runs

/-! ## Replays -/

/-- Whose row the token finds. -/
def TokenEntry.Serves (hashes : Hashes) (entry : TokenEntry) (db : IdentityDb) (userId : Id) : Prop :=
  match entry.purpose.table with
  | .challenges => ∀ c ∈ db.challenges, c.tokenDigest = hashes.sha256 entry.token → c.userId = userId
  | .handoffs => ∀ h ∈ db.handoffs, h.tokenDigest = hashes.sha256 entry.token → h.userId = userId

section Replays
open OnboardingDb
variable {hashes : Hashes} {call : ProvisionCall} {db db' : OnboardingDb} {aggregate : ProvisionedAggregate}
  {tenantId userId : Id}

theorem provision_replays (again : ProvisionCall) (h : Replays db call tenantId)
    (hkey : again.idempotencyKey = call.idempotencyKey)
    (hrequest : again.request = call.request) : Commits (provision hashes again) db db aggregate db' ↔
      Commits (rotateCredentialsAndLoad hashes tenantId again) db db aggregate db' := by
  obtain ⟨r, hr, hstate, hhash, hbody⟩ := h.record
  have hvalid := h.key
  rw [← hkey] at hr hvalid
  rw [← hrequest] at hhash
  have hclaim : Commits (claim again) db.idempotency db.idempotency
      (.replay (r.responseStatus.getD 200) r.responseBody) db.idempotency :=
    Idempotency.claim_replays again.recordId again.now hvalid hr hhash hstate
  rw [hbody] at hclaim
  rw [provision, commits_bind_of (commits_zoom.2 ⟨db.idempotency, hclaim, rfl⟩)]
  exact Iff.rfl

theorem keeps_handoffs : Keeps IdentityDb.handoffs (challengeOwner hashes call userId) := by
  refine .bind ?_ fun _ => ?_
  · intro v db u db' h
    obtain rfl := commits_updateSeen.1 h
    rfl
  · intro v db u db' h
    obtain ⟨-, -, -, rfl⟩ := commits_insertChallenge.1 h
    rfl

/-- A challenge belongs to the user it has been issued to. -/
theorem challengeOwner_serves {v identities identities' : IdentityDb} {u : Unit}
    (h : Commits (challengeOwner hashes call userId) v identities u identities') :
    (call.verification.entry .emailVerification).Serves hashes identities' userId := by
  obtain ⟨_, db₁, -, hinsert⟩ := commits_bind.1 h
  obtain ⟨hfresh, -, -, rfl⟩ := commits_insertChallenge.1 hinsert
  intro c hc hdigest
  rcases List.mem_append.1 hc with hc | hc
  · exact absurd hdigest (hfresh c hc).2
  · rw [List.mem_singleton.1 hc]

theorem handOver_serves {v identities identities' : IdentityDb} {u : Unit}
    (h : Commits (handOver hashes call tenantId userId) v identities u identities') :
    (call.handoff.entry .handoff).Serves hashes identities' userId ∧
      ∃ row ∈ identities'.handoffs, row.tokenDigest = hashes.sha256 call.handoff.token ∧ row.userId = userId := by
  obtain ⟨hfresh, -, -, rfl⟩ := commits_insertHandoff.1 h
  constructor
  · intro row hrow hdigest
    rcases List.mem_append.1 hrow with hrow | hrow
    · exact absurd hdigest (hfresh row hrow).2
    · rw [List.mem_singleton.1 hrow]
  · exact ⟨_, List.mem_append_right _ List.mem_cons_self, rfl, rfl⟩

/-- The tokens of a replay belong to the user of the membership that it has found. -/
theorem rotate_serves (h : Commits (rotateCredentialsAndLoad hashes tenantId call) db db aggregate db') :
    ∃ m ∈ someMembership tenantId call.found db,
      (∀ entry ∈ (IdentityRequest.provision call).issued (.provisioned aggregate),
        entry.Serves hashes db'.identities m.userId) ∧
      ∃ row ∈ db'.identities.handoffs, row.tokenDigest = hashes.sha256 call.handoff.token ∧ row.userId = m.userId := by
  simp only [rotateCredentialsAndLoad, commits_look_bind, commits_orThrow_bind] at h
  obtain ⟨tenant, -, m, hm, user, huser, location, -, snapshot, -, h⟩ := h
  obtain ⟨_, db₁, -, h⟩ := commits_bind.1 h
  obtain ⟨_, db₂, hhandoff, h⟩ := commits_bind.1 h
  obtain ⟨_, db₃, hchallenge, h⟩ := commits_bind.1 h
  obtain ⟨rfl, rfl⟩ := commits_pure.1 h
  have huserId : user.id = m.userId := by
    rw [hm] at huser
    exact Table.lookup_key huser
  rw [huserId] at hhandoff hchallenge
  obtain ⟨handed, hhanded, rfl⟩ := commits_onIdentities.1 hhandoff
  obtain ⟨hserves, hrow⟩ := handOver_serves hhanded
  refine ⟨m, hm, ?_⟩
  rcases commits_runIf.1 hchallenge with ⟨hverified, hchallenge⟩ | ⟨hverified, rfl⟩
  · obtain ⟨challenged, hchallenged, rfl⟩ := commits_onIdentities.1 hchallenge
    have hsame : challenged.handoffs = handed.handoffs := keeps_handoffs _ _ _ _ hchallenged
    refine ⟨fun entry hentry => ?_, hsame ▸ hrow⟩
    rcases List.mem_append.1 hentry with hentry | hentry
    · rw [if_neg hverified] at hentry
      rw [List.mem_singleton.1 hentry]
      exact challengeOwner_serves hchallenged
    · rw [List.mem_singleton.1 hentry]
      intro row hrow
      exact hserves row (hsame ▸ hrow)
  · refine ⟨fun entry hentry => ?_, hrow⟩
    rw [if_pos (not_not.1 hverified)] at hentry
    rw [List.mem_singleton.1 hentry]
    exact hserves

theorem someMembership_mem {found : Nat} {m : Membership} (h : someMembership tenantId found db = some m) :
    m ∈ db.identities.memberships ∧ m.tenantId = tenantId := by
  obtain ⟨hm, htenant⟩ := List.mem_filter.1 (List.mem_of_getElem? h)
  exact ⟨hm, of_decide_eq_true htenant⟩

/-- The query may find any of them. -/
theorem exists_someMembership {m : Membership} (hm : m ∈ db.identities.memberships) (htenant : m.tenantId = tenantId) :
    ∃ found, someMembership tenantId found db = some m := by
  have hmem : m ∈ db.identities.memberships.filter (·.tenantId = tenantId) :=
    List.mem_filter.2 ⟨hm, decide_eq_true htenant⟩
  obtain ⟨i, hi, hget⟩ := List.getElem_of_mem hmem
  refine ⟨i, ?_⟩
  rw [someMembership, Nat.mod_eq_of_lt hi, List.getElem?_eq_getElem hi, hget]

/-- A statement whose snapshot is the current one misses no row that meets its condition. -/
theorem seen_of_mem {ρ : Type} {rows : List ρ} {key : ρ → Id} {p : ρ → Bool} {r : ρ} (hr : r ∈ rows)
    (hmissed : (decide (key r ∈ (rows.filter p).map key) && p r) = false) : p r = false := by
  cases hp : p r with
  | false => rfl
  | true =>
    have hseen : key r ∈ (rows.filter p).map key := List.mem_map_of_mem (List.mem_filter.2 ⟨hr, hp⟩)
    rw [hp, Bool.and_true] at hmissed
    exact absurd hseen (of_decide_eq_false hmissed)

theorem challengeOwner_commits {v identities : IdentityDb} (hsame : v.challengesLater = identities.challenges)
    (hfresh : ∀ c ∈ identities.challenges,
      c.id ≠ call.verification.id ∧ c.tokenDigest ≠ hashes.sha256 call.verification.token)
    (huser : ∃ u ∈ identities.users, u.id = userId) :
    ∃ identities', Commits (challengeOwner hashes call userId) v identities () identities' := by
  refine ⟨_, commits_bind.2 ⟨(), _, commits_updateSeen.2 rfl, commits_insertChallenge.2 ⟨?_, ?_, huser, rfl⟩⟩⟩
  · intro c hc
    rcases Table.mem_updateWhere_cases hc with ⟨hc, -⟩ | ⟨before, hbefore, -, rfl⟩
    · exact hfresh c hc
    · exact hfresh before hbefore
  · intro c hc hown _
    rcases Table.mem_updateWhere_cases hc with ⟨hc, hmissed⟩ | ⟨before, -, -, rfl⟩
    · rw [hsame] at hmissed
      have hused := seen_of_mem hc hmissed
      simpa [hown] using hused
    · rfl

theorem handOver_commits {identities : IdentityDb} (tenantId : Id) (now : Instant)
    (hfresh : ∀ h ∈ identities.handoffs, h.id ≠ call.handoff.id ∧ h.tokenDigest ≠ hashes.sha256 call.handoff.token)
    (huser : ∃ u ∈ identities.users, u.id = userId) : ∃ consumed handed,
      Commits (consumeHandoffs tenantId userId now) identities identities () consumed ∧
      Commits (handOver hashes call tenantId userId) identities consumed () handed ∧
      handed.challenges = identities.challenges ∧ handed.users = identities.users := by
  refine ⟨_, _, commits_updateSeen.2 rfl, commits_insertHandoff.2 ⟨?_, ?_, huser, rfl⟩, rfl, rfl⟩
  · intro h hh
    rcases Table.mem_updateWhere_cases hh with ⟨hh, -⟩ | ⟨before, hbefore, -, rfl⟩
    · exact hfresh h hh
    · exact hfresh before hbefore
  · intro h hh htenant hown
    rcases Table.mem_updateWhere_cases hh with ⟨hh, hmissed⟩ | ⟨before, -, -, rfl⟩
    · have hused := seen_of_mem hh hmissed
      simpa [htenant, hown] using hused
    · rfl

/-- A replay with new tokens succeeds, whichever membership it finds. -/
theorem rotate_succeeds (hashes : Hashes) (call : ProvisionCall) {m : Membership} (hlinked : db.identities.Linked)
    (hcomplete : db.Complete tenantId)
    (hm : someMembership tenantId call.found db = some m)
    (hhandoffs : ∀ h ∈ db.identities.handoffs,
      h.id ≠ call.handoff.id ∧ h.tokenDigest ≠ hashes.sha256 call.handoff.token)
    (hchallenges : ∀ c ∈ db.identities.challenges,
      c.id ≠ call.verification.id ∧ c.tokenDigest ≠ hashes.sha256 call.verification.token) :
    ∃ aggregate db', Commits (rotateCredentialsAndLoad hashes tenantId call) db db aggregate db' := by
  obtain ⟨tenant, htenant⟩ : ∃ t, Table.lookup ProvisionedTenant.id tenantId db.tenants = some t := by
    obtain ⟨t, ht, hid⟩ := hcomplete.tenant
    exact Option.isSome_iff_exists.1 (List.find?_isSome.2 ⟨t, ht, decide_eq_true hid⟩)
  obtain ⟨location, hlocation⟩ :
      ∃ l, db.locations.find? (fun l => l.tenantId = tenantId && l.isPrimary) = some l := by
    obtain ⟨l, hl, hid, hprimary⟩ := hcomplete.location
    exact Option.isSome_iff_exists.1 (List.find?_isSome.2 ⟨l, hl, by simp [hid, hprimary]⟩)
  obtain ⟨snapshot, hsnapshot⟩ :
      ∃ s, db.snapshots.find? (fun s => s.tenantId = tenantId && s.supersededAt.isNone) = some s := by
    obtain ⟨s, hs, hid, hnone⟩ := hcomplete.snapshot
    exact Option.isSome_iff_exists.1 (List.find?_isSome.2 ⟨s, hs, by simp [hid, hnone]⟩)
  obtain ⟨member, hmember, hid⟩ := hlinked.known m (someMembership_mem hm).1
  obtain ⟨user, huser⟩ : ∃ u, Table.lookup Identity.id m.userId db.identities.users = some u :=
    Option.isSome_iff_exists.1 (List.find?_isSome.2 ⟨member, hmember, decide_eq_true hid⟩)
  have hknown : ∃ u ∈ db.identities.users, u.id = user.id := ⟨user, Table.lookup_mem huser, rfl⟩
  obtain ⟨consumed, handed, hconsumed, hhanded, hsame, husers⟩ :=
    handOver_commits tenantId call.now hhandoffs hknown
  have hrest : ∃ db', Commits (runIf (¬ (decide (user.status = .active)) = true)
      (onIdentities (challengeOwner hashes call user.id))) db { db with identities := handed } () db' := by
    by_cases hverified : decide (user.status = .active) = true
    · exact ⟨_, commits_runIf.2 (.inr ⟨not_not.2 hverified, rfl⟩)⟩
    · obtain ⟨challenged, hchallenged⟩ := challengeOwner_commits (hlinked.later.trans hsame.symm)
        (hsame ▸ hchallenges) (husers ▸ hknown)
      exact ⟨_, commits_runIf.2 (.inl ⟨hverified, commits_onIdentities.2 ⟨challenged, hchallenged, rfl⟩⟩)⟩
  obtain ⟨db', hrest⟩ := hrest
  have hfound : ((someMembership tenantId call.found db).bind fun m =>
      Table.lookup Identity.id m.userId db.identities.users) = some user := by
    rw [hm]
    exact huser
  simp only [rotateCredentialsAndLoad, commits_look_bind, commits_orThrow_bind]
  exact ⟨_, db', tenant, htenant, m, hm, user, hfound, location, hlocation, snapshot, hsnapshot,
    commits_bind.2 ⟨(), _, commits_onIdentities.2 ⟨consumed, hconsumed, rfl⟩, commits_bind.2 ⟨(), _,
      commits_onIdentities.2 ⟨handed, hhanded, rfl⟩, commits_bind.2 ⟨(), db', hrest, commits_pure.2 ⟨rfl, rfl⟩⟩⟩⟩⟩

end Replays

theorem exists_fresh_token {f : String → String} (hf : Function.Injective f) (digests : List String) :
    ∃ token, token ≠ "" ∧ f token ∉ digests := by
  have hused : (insert "" (Set.preimage f {d | d ∈ digests})).Finite :=
    ((List.finite_toSet digests).preimage hf.injOn).insert ""
  obtain ⟨token, htoken⟩ := hused.exists_notMem
  exact ⟨token, fun h => htoken (.inl h), fun h => htoken (.inr h)⟩

/-- A draw that no row has yet. -/
theorem exists_fresh_draw {hashes : Hashes} (hsha : Function.Injective hashes.sha256) (ids digests : List String) :
    ∃ draw : TokenDraw, draw.id ∉ ids ∧ hashes.sha256 draw.token ∉ digests := by
  obtain ⟨id, -, hid⟩ := exists_fresh_token (f := fun id => id) (fun _ _ h => h) ids
  obtain ⟨token, hnonempty, htoken⟩ := exists_fresh_token hsha digests
  exact ⟨⟨id, token, hnonempty⟩, hid, htoken⟩

/-- After any run, what a replay of a provisioning issues belongs to the owner of the first one, whichever membership
the replay finds, exactly when nobody else is a member of the tenant. -/
theorem replays_serve_owner_iff {env : Environment} (hsha : Function.Injective env.hashes.sha256)
    {es : List (ReadCommitted.Event IdentityRequest OnboardingPart)} {s : ReadCommitted.Session Witnessed IdentityRequest}
    {call : ProvisionCall} {aggregate : ProvisionedAggregate}
    (hr : Runs.exec (witnessedStep env) ⟨.empty, []⟩ es = some s)
    (hfirst : s.db.first call.idempotencyKey = some (call, aggregate)) :
    (∀ again : ProvisionCall, again.idempotencyKey = call.idempotencyKey → again.request = call.request →
        ∀ answer db', (IdentityRequest.provision again).exec env s.db.db s.db.db = some (answer, db') →
          ∀ entry ∈ (IdentityRequest.provision again).issued answer,
            entry.Serves env.hashes db'.identities aggregate.userId) ↔
      ∀ m ∈ s.db.db.identities.memberships, m.tenantId = aggregate.tenantId → m.userId = aggregate.userId := by
  have hi := run_replayable hr
  have hreplays := hi.first _ _ _ hfirst
  constructor
  · intro hserves m hm htenant
    obtain ⟨found, hfound⟩ := exists_someMembership hm htenant
    obtain ⟨handoff, hhid, hhdigest⟩ := exists_fresh_draw hsha (s.db.db.identities.handoffs.map (·.id))
      (s.db.db.identities.handoffs.map (·.tokenDigest))
    obtain ⟨verification, hcid, hcdigest⟩ := exists_fresh_draw hsha (s.db.db.identities.challenges.map (·.id))
      (s.db.db.identities.challenges.map (·.tokenDigest))
    let again : ProvisionCall := { call with found, handoff, verification }
    obtain ⟨answer, db', hrotate⟩ := rotate_succeeds env.hashes again hi.linked hreplays.complete hfound
      (fun h hh => ⟨fun heq => hhid (heq ▸ List.mem_map_of_mem hh), fun heq => hhdigest (heq ▸ List.mem_map_of_mem hh)⟩)
      (fun c hc => ⟨fun heq => hcid (heq ▸ List.mem_map_of_mem hc), fun heq => hcdigest (heq ▸ List.mem_map_of_mem hc)⟩)
    obtain ⟨m', hm', -, row, hrow, hdigest, howner⟩ := rotate_serves hrotate
    obtain rfl : m' = m := Option.some.inj (hm'.symm.trans hfound)
    have hcommits := (provision_replays again hreplays rfl rfl).2 hrotate
    have hexec : (IdentityRequest.provision again).exec env s.db.db s.db.db = some (.provisioned answer, db') :=
      toOption_eq.2 (commits_map.2 ⟨answer, hcommits, rfl⟩)
    have hmine := hserves again rfl rfl _ _ hexec (again.handoff.entry .handoff)
      (List.mem_append_right _ List.mem_cons_self)
    exact howner.symm.trans (hmine row hrow hdigest)
  · intro honly again hkey hrequest answer db' hexec entry hentry
    obtain ⟨aggregate', hcommits, rfl⟩ := commits_map.1 (toOption_eq.1 hexec)
    obtain ⟨m, hm, hserves, -⟩ := rotate_serves ((provision_replays again hreplays hkey hrequest).1 hcommits)
    obtain ⟨hmem, htenant⟩ := someMembership_mem hm
    exact honly m hmem htenant ▸ hserves entry hentry

namespace Demo

/-- Tokens with their digests. -/
def tokenDigests : List (String × String) :=
  [("verify-1", "e074a77cccf245f36d9084dd62f14c7c36b9865a9410e0ae3d399ade6e1be4a2"),
    ("handoff-1", "bfe56dd6bf1b3e03314a9f8acaa4268db134c5d30f9eae98f4bee6a4bc33905a"),
    ("verify-2", "a66ffdaf17474f8678df3d4daf1ca88dffcecf7853026560ada04e5b0969d79f"),
    ("handoff-2", "52ca2c5974fa0b535a76ca57b3e16ad6fdc6b8904744b878a04797354396f7a1"),
    ("reset-1", "24ffdd4b62216e2c93a49532e76c54b06bb9444e41af5f8f1eec3d21918ba465"),
    ("session-1", "84097828fc31a8c8d29210df48901a85de7fd013f686b17be77d1be29cb7a98b")]

/-- The digest of one of these tokens; others stand for themselves. -/
def sha256 (token : String) : String :=
  ((tokenDigests.find? (·.1 = token)).map (·.2)).getD ("raw:" ++ token)

def oldHash : String := "$2b$12$N9qo8uLOickgx2ZMRZoMyeMOzSEKKCEAJZKyA17/kp/zcBvsVriL2"
def newHash : String := "$2b$12$abcdefghijklmnopqrstuu.ENWxltbMPHP/Xgdw3Ie8cVZU/jOXx2"

def hashes : Hashes where
  sha256
  compare password hash := (password, hash) ∈ [("old password", oldHash), ("new password", newHash)]

theorem sha256_injective : Function.Injective sha256 := by
  have hraw : ∀ p ∈ tokenDigests, ∀ token : String, p.2 ≠ "raw:" ++ token := by
    intro p hp token heq
    have hhead : ∀ p ∈ tokenDigests, (p.2.toList.head? == some 'r') = false := by decide +kernel
    have hhead := hhead p hp
    rw [heq, String.toList_append] at hhead
    cases hhead
  have hdistinct : ∀ p ∈ tokenDigests, ∀ q ∈ tokenDigests, p.2 = q.2 → p.1 = q.1 := by decide +kernel
  intro a b h
  unfold sha256 at h
  cases ha : tokenDigests.find? (·.1 = a) with
  | some p =>
    have hpa : p.1 = a := by simpa using List.find?_some ha
    cases hb : tokenDigests.find? (·.1 = b) with
    | some q =>
      have hqb : q.1 = b := by simpa using List.find?_some hb
      rw [ha, hb] at h
      rw [← hpa, ← hqb]
      exact hdistinct p (List.mem_of_find?_eq_some ha) q (List.mem_of_find?_eq_some hb) h
    | none =>
      rw [ha, hb] at h
      exact absurd h (hraw p (List.mem_of_find?_eq_some ha) b)
  | none =>
    cases hb : tokenDigests.find? (·.1 = b) with
    | some q =>
      rw [ha, hb] at h
      exact absurd h.symm (hraw q (List.mem_of_find?_eq_some hb) a)
    | none =>
      rw [ha, hb] at h
      exact (String.append_right_inj "raw:").1 h

def env : Environment where
  hashes
  orm := plainOrm
  isEmail _ := true

def bakery : ProvisionTenantRequest where
  planId := "basic"
  ownerEmail := "ana@a.ar"
  ownerPassword := "old password"
  tenantName := "Bakery"
  tenantSlug := "bakery"
  currency := "ARS"
  timezone := "America/Argentina/Buenos_Aires"
  locationName := "Centre"

def provisionBakery : ProvisionCall where
  request := bakery
  normalizedSlug := "bakery"
  passwordHash := oldHash
  plan := { planId := "basic", version := 1,
            entitlements := { catalogManagement := true, onlinePayments := true, printing := true } }
  idempotencyKey := "key"
  verification := ⟨"v1", "verify-1", by decide⟩
  handoff := ⟨"h1", "handoff-1", by decide⟩
  now := 1
  recordId := "r1"
  tenantId := "bakery"
  locationId := "l1"
  userId := "ana"
  membershipId := "m1"
  found := 0

/-- The same request; the runtime draws new tokens. -/
def provisionAgain : ProvisionCall :=
  { provisionBakery with verification := ⟨"v2", "verify-2", by decide⟩, handoff := ⟨"h2", "handoff-2", by decide⟩, now := 2 }

def oneCall (q : IdentityRequest) : List (ReadCommitted.Event IdentityRequest OnboardingPart) := [.start q, .commit 0]

/-- Ana makes Bea an owner, and Bea removes her. -/
def handedOn : List (ReadCommitted.Event IdentityRequest OnboardingPart) :=
  oneCall (.provision provisionBakery) ++
    oneCall (.member (.addMember "bakery" (.user "ana" .owner)
      { email := "bea@a.ar", password := "new password", role := .owner }
      { userId := "bea", membershipId := "m2", passwordHash := newHash })) ++
    oneCall (.member (.deleteMember "bakery" (.user "bea" .owner) "m1"))

end Demo

open Demo

theorem replays_serve_owner_alone : ∃ s call aggregate,
    Runs.exec (witnessedStep env) ⟨.empty, []⟩ (oneCall (.provision provisionBakery)) = some s ∧
      s.db.first call.idempotencyKey = some (call, aggregate) ∧
      ((∀ again : ProvisionCall, again.idempotencyKey = call.idempotencyKey → again.request = call.request →
          ∀ answer db', (IdentityRequest.provision again).exec env s.db.db s.db.db = some (answer, db') →
            ∀ entry ∈ (IdentityRequest.provision again).issued answer,
              entry.Serves env.hashes db'.identities aggregate.userId) ↔
        ∀ m ∈ s.db.db.identities.memberships, m.tenantId = aggregate.tenantId → m.userId = aggregate.userId) := by
  have hruns : ((Runs.exec (witnessedStep env) ⟨.empty, []⟩ (oneCall (.provision provisionBakery))).bind fun s =>
      (s.db.first "key").map Prod.fst) = some provisionBakery := by decide +kernel
  obtain ⟨s, hr, hfirst⟩ := Option.bind_eq_some_iff.1 hruns
  obtain ⟨⟨call, aggregate⟩, hfirst, rfl⟩ := Option.map_eq_some_iff.1 hfirst
  exact ⟨s, provisionBakery, aggregate, hr, hfirst, replays_serve_owner_iff sha256_injective hr hfirst⟩

/-- Ana's request, made once more, gives the shop of the two to Bea. -/
theorem replay_serves_another : ¬ ∀ (env : Environment)
    (es : List (ReadCommitted.Event IdentityRequest OnboardingPart)) (s : ReadCommitted.Session Witnessed IdentityRequest)
    (call again : ProvisionCall) (aggregate : ProvisionedAggregate) (answer : IdentityAnswer) (db' : OnboardingDb),
    Function.Injective env.hashes.sha256 → Runs.exec (witnessedStep env) ⟨.empty, []⟩ es = some s →
    s.db.first call.idempotencyKey = some (call, aggregate) → again.idempotencyKey = call.idempotencyKey →
    again.request = call.request → (IdentityRequest.provision again).exec env s.db.db s.db.db = some (answer, db') →
    ∀ entry ∈ (IdentityRequest.provision again).issued answer,
      entry.Serves env.hashes db'.identities aggregate.userId := by
  intro hlaw
  have hreplayed : ((Runs.exec (witnessedStep env) ⟨.empty, []⟩ handedOn).bind fun s => (s.db.first "key").bind fun p =>
      ((IdentityRequest.provision provisionAgain).exec env s.db.db s.db.db).map fun r =>
        decide (p.1 = provisionBakery) && p.2.userId = "ana" && r.2.identities.handoffs.any fun h =>
          h.tokenDigest = sha256 "handoff-2" && h.userId = "bea") = some true := by decide +kernel
  obtain ⟨s, hr, hreplayed⟩ := Option.bind_eq_some_iff.1 hreplayed
  obtain ⟨⟨call, aggregate⟩, hfirst, hreplayed⟩ := Option.bind_eq_some_iff.1 hreplayed
  obtain ⟨⟨answer, db'⟩, hexec, hserves⟩ := Option.map_eq_some_iff.1 hreplayed
  simp only [Bool.and_eq_true, decide_eq_true_eq, List.any_eq_true] at hserves
  obtain ⟨⟨rfl, howner⟩, h, hh, hdigest, hbea⟩ := hserves
  obtain ⟨aggregate', -, rfl⟩ := commits_map.1 (toOption_eq.1 hexec)
  have hana := hlaw env _ s provisionBakery provisionAgain aggregate _ db' sha256_injective hr hfirst rfl rfl hexec
    (provisionAgain.handoff.entry .handoff) (List.mem_append_right _ List.mem_cons_self) h hh hdigest
  rw [hbea, howner] at hana
  exact absurd hana (by decide)

end Komanda
