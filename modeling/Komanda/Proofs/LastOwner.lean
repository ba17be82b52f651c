import Komanda.Members

/-!
# The last owner

The guard of `MemberService` counts the owners in what its transaction has read, and only for calls on the actor's
own membership. It settles nothing about the state that the write meets: there, a call leaves the tenant an owner
exactly when some active owner is not the one that it removes or demotes.
-/

namespace Komanda
open Transaction MemberRepository

def HasOwner (tenantId : Id) (rows : List Membership) : Prop := ∃ m ∈ rows, isActiveOwner tenantId m = true

instance (tenantId : Id) (rows : List Membership) : Decidable (HasOwner tenantId rows) :=
  inferInstanceAs (Decidable (∃ m ∈ rows, isActiveOwner tenantId m = true))

/-- The user that a call of `addMember` makes a member: the one that it finds, or a new one. -/
def invitedUser (input : AddMemberInput) (draw : MemberDraw) (view : Registry) : Id :=
  ((findIdentityByNormalizedEmail (normalizeEmail input.email) view.users).map (·.id)).getD draw.userId

/-- An active owner of the committed state is none of the rows that the call writes, or becomes owner again. -/
def MemberRequest.LeavesOwner (tenantId : Id) (q : MemberRequest) (view r : Registry) : Prop :=
  match q with
  | changeRole actsFor _ membershipId role => ∃ m ∈ r.memberships, isActiveOwner tenantId m = true ∧
      (m.tenantId = actsFor ∧ m.id = membershipId → role = .owner)
  | deleteMember actsFor _ membershipId => ∃ m ∈ r.memberships, isActiveOwner tenantId m = true ∧
      ¬ (m.tenantId = actsFor ∧ m.id = membershipId)
  | revokeMember actsFor _ membershipId => ∃ m ∈ r.memberships, isActiveOwner tenantId m = true ∧
      ¬ (m.tenantId = actsFor ∧ m.id = membershipId)
  | addMember actsFor _ input draw =>
    ∀ existing ∈ findByUserId actsFor (invitedUser input draw view) view.membershipsLater,
      ∃ m ∈ r.memberships, isActiveOwner tenantId m = true ∧ (m.id = existing.id → input.role = .owner)

section Rows
variable {tenantId : Id} {rows : List Membership} {p : Membership → Bool} {f : Membership → Membership} {role : Role}

theorem isActiveOwner_iff {m : Membership} :
    isActiveOwner tenantId m = true ↔ m.tenantId = tenantId ∧ m.role = .owner ∧ m.status = .active := by
  simp only [isActiveOwner, Bool.and_eq_true, decide_eq_true_eq, and_assoc]

theorem HasOwner.append (h : HasOwner tenantId rows) (m : Membership) : HasOwner tenantId (rows ++ [m]) := by
  obtain ⟨o, ho, howner⟩ := h
  exact ⟨o, List.mem_append_left _ ho, howner⟩

/-- Rows are given a role: an owner remains among the others, or the role is that of an owner. -/
theorem HasOwner.setRole_iff (h : HasOwner tenantId rows) (htenant : ∀ m, (f m).tenantId = m.tenantId)
    (hrole : ∀ m, (f m).role = role) (hstatus : ∀ m, m.status = .active → (f m).status = .active) :
    HasOwner tenantId (Table.updateWhere p f rows) ↔
      ∃ m ∈ rows, isActiveOwner tenantId m = true ∧ (p m = true → role = .owner) := by
  constructor
  · rintro ⟨m, hm, howner⟩
    rcases Table.mem_updateWhere_cases hm with ⟨hm, hp⟩ | ⟨m, hm, hp, rfl⟩
    · exact ⟨m, hm, howner, fun hp' => by rw [hp] at hp'; cases hp'⟩
    · obtain ⟨o, ho, hactive⟩ := h
      have howned : role = .owner := hrole m ▸ (isActiveOwner_iff.1 howner).2.1
      exact ⟨o, ho, hactive, fun _ => howned⟩
  · rintro ⟨m, hm, howner, hp⟩
    obtain ⟨ht, hr, hs⟩ := isActiveOwner_iff.1 howner
    cases hpm : p m with
    | false => exact ⟨m, Table.mem_updateWhere_of_not hm hpm, howner⟩
    | true =>
      refine ⟨f m, Table.mem_updateWhere_of hm hpm, isActiveOwner_iff.2 ⟨?_, ?_, hstatus m hs⟩⟩
      · rw [htenant, ht]
      · rw [hrole, hp hpm]

theorem hasOwner_filter_iff :
    HasOwner tenantId (rows.filter fun m => !p m) ↔ ∃ m ∈ rows, isActiveOwner tenantId m = true ∧ p m = false := by
  constructor
  · rintro ⟨m, hm, howner⟩
    obtain ⟨hm, hp⟩ := List.mem_filter.1 hm
    exact ⟨m, hm, howner, Bool.not_eq_true' _ ▸ hp⟩
  · rintro ⟨m, hm, howner, hp⟩
    exact ⟨m, List.mem_filter.2 ⟨hm, by rw [hp]; rfl⟩, howner⟩

end Rows

section Calls
variable {orm : Orm} {isEmail : String → Bool} {tenantId : Id} {view r r' : Registry}

theorem AddMemberSchema_eq {input data : AddMemberInput} (h : AddMemberSchema isEmail input = .ok data) :
    data = input := by
  unfold AddMemberSchema at h
  split at h
  · cases h
    rfl
  · cases h

theorem commits_writeMemberships {g : List Membership → List Membership} {u : Unit}
    (h : Commits (writeMemberships g) view r u r') : r'.memberships = g r.memberships := by
  obtain rfl := commits_write.1 h
  rfl

theorem commits_guardLastOwner {actor : Actor} {membership : Membership} {message : String} {u : Unit}
    (h : Commits (MemberService.guardLastOwner tenantId actor membership message) view r u r') : r' = r := by
  unfold MemberService.guardLastOwner at h
  split at h
  · rw [commits_look_bind] at h
    exact (commits_throwIf.1 h).2.symm
  · exact (commits_pure.1 h).2.symm

theorem MemberService.changeRole_cases {actor : Actor} {membershipId : Id} {role : Role} {u : Unit}
    (h : Commits (changeRole tenantId actor membershipId role) view r u r') : r'.memberships =
      Table.updateWhere (fun m => m.tenantId = tenantId && m.id = membershipId) (fun m => { m with role }) r.memberships := by
  rw [changeRole, commits_look_bind, commits_orThrow_bind] at h
  obtain ⟨membership, -, h⟩ := h
  obtain ⟨_, r₁, hguard, hupdate⟩ := commits_bind.1 h
  obtain rfl := commits_guardLastOwner hguard
  exact commits_writeMemberships hupdate

theorem MemberService.deleteMember_cases {actor : Actor} {membershipId : Id} {u : Unit}
    (h : Commits (deleteMember tenantId actor membershipId) view r u r') :
    r'.memberships = r.memberships.filter fun m => !(m.tenantId = tenantId && m.id = membershipId) := by
  rw [deleteMember, commits_look_bind, commits_orThrow_bind] at h
  obtain ⟨membership, -, h⟩ := h
  obtain ⟨_, r₁, hguard, hrest⟩ := commits_bind.1 h
  obtain rfl := commits_guardLastOwner hguard
  obtain ⟨_, r₂, hdelete, hclean⟩ := commits_bind.1 hrest
  have hrows : r₂.memberships = _ := commits_writeMemberships hdelete
  obtain rfl := commits_write.1 hclean
  exact hrows

theorem MemberRepository.create_cases {userId newId : Id} {role : Role} {m : Membership}
    (h : Commits (create orm tenantId userId role newId) view r m r') :
    (∃ existing ∈ findByUserId tenantId userId view.membershipsLater, r'.memberships =
        Table.updateWhere (·.id = existing.id) (fun m => { m with role, status := .active }) r.memberships) ∨
      (findByUserId tenantId userId view.membershipsLater = none ∧ r'.memberships = r.memberships ++ [m]) := by
  rw [create, commits_look_bind] at h
  split at h
  · next existing hfound =>
    obtain ⟨_, r₁, hwrite, hread⟩ := commits_bind.1 h
    rw [commits_current_bind] at hread
    obtain ⟨-, rfl⟩ := commits_orThrow.1 hread
    exact .inl ⟨existing, hfound, commits_writeMemberships hwrite⟩
  · next hnone =>
    simp only [commits_current_bind, commits_throwIf_bind] at h
    obtain ⟨-, -, -, h⟩ := h
    obtain ⟨_, r₁, hwrite, hanswer⟩ := commits_bind.1 h
    obtain ⟨rfl, rfl⟩ := commits_pure.1 hanswer
    exact .inr ⟨hnone, commits_writeMemberships hwrite⟩

/-- The identity of a new member is the one that was found, or a new one; creating it leaves the memberships alone. -/
theorem MemberService.addMember_cases {input : AddMemberInput} {draw : MemberDraw} {m : Membership}
    (h : Commits (addMember orm isEmail tenantId input draw) view r m r') :
    ∃ identity r₁, Commits (resolveIdentity orm input draw
        (findIdentityByNormalizedEmail (normalizeEmail input.email) view.users)) view r identity r₁ ∧
      Commits (create orm tenantId identity.id input.role draw.membershipId) view r₁ m r' := by
  rw [addMember, commits_fromExcept_bind] at h
  obtain ⟨data, haccepted, hbody⟩ := h
  obtain rfl := AddMemberSchema_eq haccepted
  rw [commits_look_bind] at hbody
  obtain ⟨_, r₀, hchecks, hrest⟩ := commits_bind.1 hbody
  obtain rfl : r₀ = r := by
    cases hfound : findIdentityByNormalizedEmail (normalizeEmail data.email) view.users with
    | none =>
      rw [hfound] at hchecks
      exact (commits_pure.1 hchecks).2.symm
    | some identity =>
      rw [hfound, forSome, commits_look_bind, commits_throwIf] at hchecks
      exact hchecks.2.symm
  obtain ⟨identity, r₁, hidentity, hcreate⟩ := commits_bind.1 hrest
  exact ⟨identity, r₁, hidentity, hcreate⟩

theorem MemberService.claimIdentity_cases {data : AddMemberInput} {draw : MemberDraw} {identity : Identity}
    (h : Commits (claimIdentity orm data draw) view r identity r') :
    identity = newIdentity (Text.trim data.email) (normalizeEmail data.email) draw ∧
      findIdentityByNormalizedEmail (normalizeEmail data.email) r.users = none ∧
      r' = { r with users := r.users ++ [identity] } := by
  simp only [claimIdentity, commits_current_bind, commits_throwIf_bind] at h
  obtain ⟨htaken, -, hwrite⟩ := h
  obtain ⟨_, r₁, hcreate, hanswer⟩ := commits_bind.1 hwrite
  obtain ⟨rfl, rfl⟩ := commits_pure.1 hanswer
  exact ⟨rfl, Option.not_isSome_iff_eq_none.1 htaken, (commits_write.1 hcreate).symm⟩

/-- The identity that a member gets, and the memberships before that. -/
theorem MemberService.resolveIdentity_cases {input : AddMemberInput} {draw : MemberDraw} {identity : Identity}
    (h : Commits (resolveIdentity orm input draw
      (findIdentityByNormalizedEmail (normalizeEmail input.email) view.users)) view r identity r') :
    identity.id = invitedUser input draw view ∧ r'.memberships = r.memberships := by
  unfold invitedUser
  cases hfound : findIdentityByNormalizedEmail (normalizeEmail input.email) view.users with
  | none =>
    rw [hfound] at h
    obtain ⟨rfl, -, rfl⟩ := claimIdentity_cases h
    exact ⟨rfl, rfl⟩
  | some found =>
    rw [hfound] at h
    obtain ⟨rfl, rfl⟩ := commits_pure.1 h
    exact ⟨rfl, rfl⟩

/-- One call: a tenant that has an owner keeps one exactly when the call leaves one. -/
theorem MemberRequest.run_hasOwner_iff {owned : Id} {q : MemberRequest} {u : Unit} (ho : HasOwner owned r.memberships)
    (h : Commits (q.run orm isEmail) view r u r') : HasOwner owned r'.memberships ↔ q.LeavesOwner owned view r := by
  cases q with
  | addMember actsFor actor input draw =>
    obtain ⟨m, hadd, -⟩ := commits_map.1 h
    obtain ⟨identity, r₁, hidentity, hcreate⟩ := MemberService.addMember_cases hadd
    obtain ⟨hid, hrows⟩ := MemberService.resolveIdentity_cases hidentity
    rw [hid] at hcreate
    rcases create_cases hcreate with ⟨existing, hfound, hrows'⟩ | ⟨hnone, hrows'⟩
    · rw [hrows', hrows, ho.setRole_iff (f := fun m => { m with role := input.role, status := .active }) (fun _ => rfl)
        (fun _ => rfl) fun _ _ => rfl]
      simp only [LeavesOwner, Option.mem_def.1 hfound, Option.mem_some_iff, forall_eq', decide_eq_true_eq]
    · rw [hrows', hrows]
      refine iff_of_true (ho.append m) fun existing hfound => ?_
      rw [hnone] at hfound
      cases hfound
  | changeRole actsFor actor membershipId role =>
    rw [MemberService.changeRole_cases h, ho.setRole_iff (f := fun m => { m with role }) (fun _ => rfl) (fun _ => rfl)
      fun _ => id]
    simp only [LeavesOwner, Bool.and_eq_true, decide_eq_true_eq]
  | deleteMember actsFor actor membershipId =>
    rw [MemberService.deleteMember_cases h, hasOwner_filter_iff]
    simp only [LeavesOwner, Bool.eq_false_iff, ne_eq, Bool.and_eq_true, decide_eq_true_eq]
  | revokeMember actsFor actor membershipId =>
    rw [MemberService.deleteMember_cases h, hasOwner_filter_iff]
    simp only [LeavesOwner, Bool.eq_false_iff, ne_eq, Bool.and_eq_true, decide_eq_true_eq]

end Calls

/-- Who may ask for a call: an owner of the tenant, or a service in a verified context. -/
def MemberRequest.Authorized (q : MemberRequest) (r : Registry) : Prop :=
  let allows (tenantId : Id) : Actor → Prop
    | .user userId _ => ∃ m ∈ r.memberships, m.userId = userId ∧ isActiveOwner tenantId m = true
    | .service _ => True
    | .anonymous => False
  match q with
  | addMember tenantId actor _ _ => allows tenantId actor
  | changeRole tenantId actor _ _ => allows tenantId actor
  | deleteMember tenantId actor _ => allows tenantId actor
  | revokeMember tenantId actor _ => allows tenantId actor

def StartsAuthorized (s : MemberSession) : MemberEvent → Prop
  | .start q => q.Authorized s.db
  | _ => True

/-- Two owners: one of them is not the given row. -/
theorem exists_other_owner {tenantId : Id} {rows : List Membership} (membershipId : Id)
    (hkeys : Table.UniqueOn Membership.id rows) (hcount : 1 < countActiveOwners tenantId rows) :
    ∃ m ∈ rows, isActiveOwner tenantId m = true ∧ m.id ≠ membershipId := by
  by_contra hnone
  have hid : ∀ m ∈ rows, isActiveOwner tenantId m = true → m.id = membershipId := fun m hm howner =>
    Decidable.byContradiction fun hne => hnone ⟨m, hm, howner, hne⟩
  have hle := hkeys.length_filter_le_one (p := isActiveOwner tenantId) fun a ha b hb hpa hpb =>
    (hid a ha hpa).trans (hid b hb hpb).symm
  rw [countActiveOwners, List.countP_eq_length_filter] at hcount
  omega

/-- Alone, the guard does its work: an owner who steps down leaves another. -/
theorem steps_down_alone {tenantId userId membershipId : Id} {actorRole role : Role} {users : List Identity}
    {rows : List Membership} {u : Unit} {r' : Registry} (hkeys : Table.UniqueOn Membership.id rows)
    (ho : HasOwner tenantId rows) (hown : ∀ m ∈ findMembership tenantId membershipId rows, m.userId = userId)
    (h : CommitsAlone (MemberService.changeRole tenantId (.user userId actorRole) membershipId role)
      (.of users rows) u r') : HasOwner tenantId r'.memberships := by
  rw [MemberService.changeRole_cases h, Registry.of_memberships,
    ho.setRole_iff (f := fun m => { m with role }) (fun _ => rfl) (fun _ => rfl) fun _ => id]
  rw [CommitsAlone, MemberService.changeRole, commits_look_bind, commits_orThrow_bind] at h
  obtain ⟨own, hfound, hbody⟩ := h
  obtain ⟨_, _, hguard, -⟩ := commits_bind.1 hbody
  rw [MemberService.guardLastOwner, commits_look_bind, commits_throwIf] at hguard
  have hmem := List.mem_of_find?_eq_some hfound
  have hkey := List.find?_some hfound
  simp only [Bool.and_eq_true, decide_eq_true_eq] at hkey
  by_cases howner : own.role = .owner
  · have hcount : 1 < countActiveOwners tenantId rows := by
      have hfew := hguard.1
      simp only [hown own hfound, howner, true_and, not_le] at hfew
      exact hfew
    obtain ⟨m, hm, hactive, hne⟩ := exists_other_owner membershipId hkeys hcount
    refine ⟨m, hm, hactive, fun hp => absurd ?_ hne⟩
    simp only [Bool.and_eq_true, decide_eq_true_eq] at hp
    exact hp.2
  · obtain ⟨o, hmo, hactive⟩ := ho
    refine ⟨o, hmo, hactive, fun hp => absurd ?_ howner⟩
    simp only [Bool.and_eq_true, decide_eq_true_eq] at hp
    obtain rfl := hkeys.eq hmo hmem (hp.2.trans hkey.2.symm)
    exact (isActiveOwner_iff.1 hactive).2.1

/-- Along a run of overlapping calls, a tenant keeps an active owner exactly as long as every call that commits leaves
one in the state it meets. -/
theorem keeps_owner_iff {orm : Orm} {isEmail : String → Bool} {tenantId : Id} {registry : Registry}
    {es : List MemberEvent} {s : MemberSession} (ho : HasOwner tenantId registry.memberships)
    (hr : Runs.exec (memberStep orm isEmail) ⟨registry, []⟩ es = some s) :
    Runs.Along (memberStep orm isEmail)
        (fun s e => ∀ s' ∈ memberStep orm isEmail s e, HasOwner tenantId s'.db.memberships) ⟨registry, []⟩ es ↔
      Runs.Along (memberStep orm isEmail) (ReadCommitted.AtCommit fun q view r => q.LeavesOwner tenantId view r)
        ⟨registry, []⟩ es := by
  refine ReadCommitted.along_law_iff (I := fun _ : Registry => True) (L := fun r => HasOwner tenantId r.memberships)
    (fun q v r u r' _ _ => trivial) (fun q v r u r' _ ho hx => ?_) trivial ho hr
  exact MemberRequest.run_hasOwner_iff ho (toOption_eq.1 hx)

namespace Demo

/-- A query builder that passes the errors of the driver on. -/
def plainOrm : Orm := { thrown := id }

def partners : Registry := .of
  [{ id := "ana", email := "ana@a.ar", normalizedEmail := "ana@a.ar", passwordHash := "x", status := .active },
    { id := "bea", email := "bea@a.ar", normalizedEmail := "bea@a.ar", passwordHash := "y", status := .active }]
  [{ id := "1", tenantId := "tenant", userId := "ana", role := .owner, status := .active },
    { id := "2", tenantId := "tenant", userId := "bea", role := .owner, status := .active }]

def stepDown (userId membershipId : Id) : MemberRequest :=
    .changeRole "tenant" (.user userId .owner) membershipId .admin

def oneStepsDown : List MemberEvent := [.start (stepDown "ana" "1"), .commit 0]

/-- Each counts the other. -/
def bothStepDown : List MemberEvent := [.start (stepDown "ana" "1"), .start (stepDown "bea" "2"), .commit 0, .commit 0]

end Demo

open Demo

theorem keeps_owner_stepping_down :
    ∃ s, Runs.exec (memberStep plainOrm fun _ => true) ⟨partners, []⟩ oneStepsDown = some s ∧
      (Runs.Along (memberStep plainOrm fun _ => true)
          (fun s e => ∀ s' ∈ memberStep plainOrm (fun _ => true) s e, HasOwner "tenant" s'.db.memberships)
          ⟨partners, []⟩ oneStepsDown ↔
        Runs.Along (memberStep plainOrm fun _ => true)
          (ReadCommitted.AtCommit fun q view r => q.LeavesOwner "tenant" view r) ⟨partners, []⟩ oneStepsDown) := by
  have hruns : (Runs.exec (memberStep plainOrm fun _ => true) ⟨partners, []⟩ oneStepsDown).isSome = true := by
    decide +kernel
  obtain ⟨s, hr⟩ := Option.isSome_iff_exists.1 hruns
  exact ⟨s, hr, keeps_owner_iff (by decide) hr⟩

/-- Two owners step down at the same time. -/
theorem owners_step_down_together : ¬ ∀ (orm : Orm) (isEmail : String → Bool) (tenantId : Id) (registry : Registry)
    (es : List MemberEvent) (s : MemberSession), HasOwner tenantId registry.memberships →
    Runs.Along (memberStep orm isEmail) StartsAuthorized ⟨registry, []⟩ es →
    Runs.exec (memberStep orm isEmail) ⟨registry, []⟩ es = some s → HasOwner tenantId s.db.memberships := by
  intro hlaw
  have hroles : ((Runs.exec (memberStep plainOrm fun _ => true) ⟨partners, []⟩ bothStepDown).map fun s =>
      s.db.memberships.any (isActiveOwner "tenant")) = some false := by decide +kernel
  obtain ⟨s, hr, hrows⟩ := Option.map_eq_some_iff.1 hroles
  have hauthorized : Runs.Along (memberStep plainOrm fun _ => true) StartsAuthorized ⟨partners, []⟩ bothStepDown := by
    refine ⟨⟨_, List.mem_cons_self, rfl, by decide⟩, fun s₁ h₁ => ?_⟩
    cases h₁
    refine ⟨⟨_, List.mem_cons_of_mem _ List.mem_cons_self, rfl, by decide⟩, fun s₂ _ => ?_⟩
    exact ⟨trivial, fun s₃ _ => ⟨trivial, fun s₄ _ => trivial⟩⟩
  obtain ⟨m, hm, howner⟩ := hlaw plainOrm _ "tenant" partners _ s (by decide) hauthorized hr
  rw [List.any_eq_false] at hrows
  exact hrows m hm howner

end Komanda
