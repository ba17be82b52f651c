import Komanda.Proofs.LastOwner

/-!
# Invitations of one address

Of the calls that invite an address that nobody has yet, the first to commit creates its identity. A call that has
looked the address up before that fails: its insertion violates the unique index, and the reading that is to recover
from it runs in an aborted transaction. All others return a membership, or find that there is one.
-/

namespace Komanda
open Transaction MemberRepository

/-- There is the identity, and a call that has ended has returned a membership of its tenant for it, or says that there
is one. -/
def InvitationAnswered (normalizedEmail : String) (users : List Identity)
    (answer : Id × Except MemberError Membership) :
    Prop :=
  ∃ u ∈ users, u.normalizedEmail = normalizedEmail ∧
    match answer.2 with
    | .ok m => m.tenantId = answer.1 ∧ m.userId = u.id
    | .error e => e = .userAlreadyMember "User is already a member of this tenant"

structure InvitedOnce (normalizedEmail : String) (s : Invited) : Prop where
  identity : s.answers ≠ [] → (s.registry.users.filter (·.normalizedEmail = normalizedEmail)).length = 1
  answered : ∀ answer ∈ s.answers, InvitationAnswered normalizedEmail s.registry.users answer

/-- Whether the query builder throws the error of the driver for what it is. -/
def Orm.shows (orm : Orm) (constraint : String) : Bool :=
  isUniqueViolation (orm.thrown (uniqueViolation constraint)) constraint

/-- The call gets as far as inserting a membership: none has been read, in either query. -/
def Invitation.Inserts {isEmail : String → Bool} {normalizedEmail : String} (q : Invitation isEmail normalizedEmail)
    (view : Registry) : Prop :=
  (∀ identity ∈ findIdentityByNormalizedEmail normalizedEmail view.users,
    ∀ m ∈ findByUserId q.tenantId identity.id view.memberships, m.status ≠ .active) ∧
  findByUserId q.tenantId (invitedUser q.input q.draw view) view.membershipsLater = none

/-- Nothing has overtaken the call. It has seen the identity of the address if there is one, its drawn ids are new, and
if its tenant has got the member in the meantime, the query builder says so. -/
structure Invitation.Undisturbed (orm : Orm) {isEmail : String → Bool} {normalizedEmail : String}
    (q : Invitation isEmail normalizedEmail) (view r : Registry) : Prop where
  identity : findIdentityByNormalizedEmail normalizedEmail view.users = none →
    findIdentityByNormalizedEmail normalizedEmail r.users = none ∧ ∀ u ∈ r.users, u.id ≠ q.draw.userId
  membership : q.Inserts view →
    if (findByUserId q.tenantId (invitedUser q.input q.draw view) r.memberships).isSome
    then orm.shows "tenant_memberships_tenant_user_key" = true
    else ∀ m ∈ r.memberships, m.id ≠ q.draw.membershipId

/-! ## The registry -/

/-- The keys of the tables. -/
structure Registry.Keyed (r : Registry) : Prop where
  emails : Table.UniqueOn Identity.normalizedEmail r.users
  memberships : Table.UniqueOn Membership.id r.memberships
  users : ∀ m ∈ r.memberships, ∃ u ∈ r.users, u.id = m.userId
  later : r.membershipsLater = r.memberships

/-- What was read is still there, if under another role. -/
structure Registry.Grown (view r : Registry) : Prop where
  users : ∀ u ∈ view.users, u ∈ r.users
  later : ∀ m ∈ view.membershipsLater, ∃ m' ∈ r.memberships, (m'.id, m'.tenantId, m'.userId) =
    (m.id, m.tenantId, m.userId)

namespace MemberRepository
variable {tenantId userId : Id} {rows : List Membership} {m : Membership}

theorem findByUserId_some (h : findByUserId tenantId userId rows = some m) :
    m ∈ rows ∧ m.tenantId = tenantId ∧ m.userId = userId := by
  have hkey := List.find?_some h
  simp only [Bool.and_eq_true, decide_eq_true_eq] at hkey
  exact ⟨List.mem_of_find?_eq_some h, hkey⟩

theorem findByUserId_none : findByUserId tenantId userId rows = none ↔
    ∀ m ∈ rows, ¬ (m.tenantId = tenantId ∧ m.userId = userId) := by
  simp only [findByUserId, List.find?_eq_none, Bool.and_eq_true, decide_eq_true_eq]

end MemberRepository

section Outcomes
variable {orm : Orm} {isEmail : String → Bool} {view r : Registry} {tenantId userId newId : Id} {role : Role}

/-- The update of a membership that has been read finds it still there. -/
theorem create_existing {existing : Membership} (hkeys : r.Keyed) (hgrown : view.Grown r)
    (hfound : findByUserId tenantId userId view.membershipsLater = some existing) :
    ∃ m r', create orm tenantId userId role newId view r = .ok (m, r') ∧ m.tenantId = tenantId ∧ m.userId = userId ∧
      r'.users = r.users := by
  obtain ⟨hmem, htenant, huser⟩ := findByUserId_some hfound
  obtain ⟨m, hm, hsame⟩ := hgrown.later existing hmem
  simp only [Prod.mk.injEq] at hsame
  obtain ⟨hid, htenant', huser'⟩ := hsame
  let active (m : Membership) : Membership := { m with role, status := .active }
  let rows := Table.updateWhere (fun m => decide (m.id = existing.id)) active r.memberships
  have hrow : Table.lookup Membership.id existing.id rows = some (active m) := by
    have hmem : active m ∈ rows := Table.mem_updateWhere_of hm (decide_eq_true hid)
    have hunique : Table.UniqueOn Membership.id rows := hkeys.memberships.updateWhere fun _ _ => rfl
    rw [← hid]
    exact hunique.lookup hmem
  refine ⟨active m, { r with memberships := rows, membershipsLater := rows }, ?_, htenant'.trans htenant,
    huser'.trans huser, rfl⟩
  rw [create, run_look_bind, hfound]
  show orThrow (Table.lookup Membership.id existing.id rows) _ _ _ = _
  rw [hrow]
  rfl

/-- The insertion of one that has not been read. -/
theorem create_inserting (orm : Orm) (newId : Id) (role : Role) (hknown : ∃ u ∈ r.users, u.id = userId)
    (hnone : findByUserId tenantId userId view.membershipsLater = none) :
    create orm tenantId userId role newId view r =
      if (findByUserId tenantId userId r.memberships).isSome then
        .error (if orm.shows "tenant_memberships_tenant_user_key" then
          .userAlreadyMember "User is already a member of this tenant"
          else .query (orm.thrown (uniqueViolation "tenant_memberships_tenant_user_key")))
      else if r.memberships.any (·.id = newId) then
        .error (.query (orm.thrown (uniqueViolation "tenant_memberships_pkey")))
      else .ok ({ id := newId, tenantId, userId, role, status := .active }, { r with
        memberships := r.memberships ++ [{ id := newId, tenantId, userId, role, status := .active }]
        membershipsLater := r.memberships ++ [{ id := newId, tenantId, userId, role, status := .active }] }) := by
  have huser : ¬ ¬ (r.users.any (·.id = userId)) = true := by
    obtain ⟨u, hu, hid⟩ := hknown
    exact not_not_intro (List.any_eq_true.2 ⟨u, hu, by simp [hid]⟩)
  rw [create, run_look_bind, hnone]
  simp only [run_current_bind, run_throwIf_bind, if_neg huser, Orm.shows]
  rfl

variable {normalizedEmail : String} {q : Invitation isEmail normalizedEmail}

theorem Invitation.addMember_found {identity : Identity}
    (hfound : findIdentityByNormalizedEmail normalizedEmail view.users = some identity) :
    MemberService.addMember orm isEmail q.tenantId q.input q.draw view r =
      if (findByUserId q.tenantId identity.id view.memberships).any (·.status = .active) then
        .error (.userAlreadyMember "User is already a member of this tenant")
      else create orm q.tenantId identity.id q.input.role q.draw.membershipId view r := by
  rw [MemberService.addMember, q.accepted, run_fromExcept_bind, run_look_bind, q.addressed, hfound]
  show (throwIf _ _ >>= fun _ => create orm q.tenantId identity.id q.input.role q.draw.membershipId) view r = _
  rw [run_throwIf_bind]

theorem claimIdentity_run (orm : Orm) (view r : Registry) (data : AddMemberInput) (draw : MemberDraw) : ∃ e e',
    MemberService.claimIdentity orm data draw view r =
      if (findIdentityByNormalizedEmail (normalizeEmail data.email) r.users).isSome then .error (.query e)
      else if r.users.any (·.id = draw.userId) then .error (.query e')
      else
        let row := newIdentity (Text.trim data.email) (normalizeEmail data.email) draw
        .ok (row, { r with users := r.users ++ [row] }) := by
  let violation := orm.thrown (uniqueViolation "users_normalized_email_uidx")
  refine ⟨if isUniqueViolation violation "users_normalized_email_uidx" then orm.thrown transactionAborted else violation,
    orm.thrown (uniqueViolation "users_pkey"), ?_⟩
  simp only [MemberService.claimIdentity, run_current_bind, run_throwIf_bind]
  rfl

theorem Invitation.addMember_new (orm : Orm) (q : Invitation isEmail normalizedEmail) (r : Registry)
    (hnone : findIdentityByNormalizedEmail normalizedEmail view.users = none) : ∃ e e', MemberService.addMember orm isEmail q.tenantId q.input q.draw view r =
      if (findIdentityByNormalizedEmail normalizedEmail r.users).isSome then .error (.query e)
      else if r.users.any (·.id = q.draw.userId) then .error (.query e')
      else create orm q.tenantId q.draw.userId q.input.role q.draw.membershipId view { r with
        users := r.users ++ [newIdentity (Text.trim q.input.email) normalizedEmail q.draw] } := by
  obtain ⟨e, e', hclaim⟩ := claimIdentity_run orm view r q.input q.draw
  rw [q.addressed] at hclaim
  refine ⟨e, e', ?_⟩
  rw [MemberService.addMember, q.accepted, run_fromExcept_bind, run_look_bind, q.addressed, hnone]
  show (MemberService.claimIdentity orm q.input q.draw >>= fun identity =>
    create orm q.tenantId identity.id q.input.role q.draw.membershipId) view r = _
  split at hclaim
  · rw [bind_error hclaim, if_pos ‹_›]
  · rw [if_neg ‹_›]
    split at hclaim
    · rw [bind_error hclaim, if_pos ‹_›]
    · rw [bind_ok hclaim, if_neg ‹_›]
      rfl

end Outcomes

/-! ## One call -/

section Call
variable {orm : Orm} {isEmail : String → Bool} {normalizedEmail : String} {q : Invitation isEmail normalizedEmail}
  {view r : Registry}

/-- How a call ends, in the registry that it leaves. -/
def Ends (normalizedEmail : String) (tenantId : Id) (r : Registry) (x : Except MemberError (Membership × Registry)) : Prop :=
  match x with
  | .ok (m, r') => InvitationAnswered normalizedEmail r'.users (tenantId, .ok m)
  | .error e => InvitationAnswered normalizedEmail r.users (tenantId, .error e)

theorem ends_already {identity : Identity} {tenantId : Id} (hidentity : identity ∈ r.users)
    (hemail : identity.normalizedEmail = normalizedEmail) : Ends normalizedEmail tenantId r
      (.error (.userAlreadyMember "User is already a member of this tenant")) := ⟨identity, hidentity, hemail, rfl⟩

theorem not_ends_query {tenantId : Id} {e : QueryError} : ¬ Ends normalizedEmail tenantId r (.error (.query e)) := by
  rintro ⟨_, -, -, h⟩
  cases h

/-- The end of the creation of a membership for an identity that is known. -/
theorem create_ends_iff {identity : Identity} {tenantId newId : Id} {role : Role} (hkeys : r.Keyed)
    (hgrown : view.Grown r) (hidentity : identity ∈ r.users) (hemail : identity.normalizedEmail = normalizedEmail) :
    Ends normalizedEmail tenantId r (create orm tenantId identity.id role newId view r) ↔
      (findByUserId tenantId identity.id view.membershipsLater = none →
        if (findByUserId tenantId identity.id r.memberships).isSome
        then orm.shows "tenant_memberships_tenant_user_key" = true else ∀ m ∈ r.memberships, m.id ≠ newId) := by
  cases hlater : findByUserId tenantId identity.id view.membershipsLater with
  | some existing =>
    obtain ⟨m, r', hrun, htenant, huser, husers⟩ := create_existing hkeys hgrown hlater
    rw [hrun]
    exact iff_of_true ⟨identity, husers ▸ hidentity, hemail, htenant, huser⟩ nofun
  | none =>
    rw [create_inserting orm newId role ⟨identity, hidentity, rfl⟩ hlater]
    refine Iff.trans ?_ (imp_iff_right rfl).symm
    by_cases htaken : (findByUserId tenantId identity.id r.memberships).isSome = true
    · rw [if_pos htaken, if_pos htaken]
      by_cases hshows : orm.shows "tenant_memberships_tenant_user_key" = true
      · rw [if_pos hshows]
        exact iff_of_true (ends_already hidentity hemail) hshows
      · rw [if_neg hshows]
        exact iff_of_false not_ends_query hshows
    · rw [if_neg htaken, if_neg htaken]
      by_cases hused : r.memberships.any (·.id = newId) = true
      · rw [if_pos hused]
        obtain ⟨m, hm, hid⟩ := List.any_eq_true.1 hused
        exact iff_of_false not_ends_query fun hfresh => hfresh m hm (of_decide_eq_true hid)
      · rw [if_neg hused]
        refine iff_of_true ⟨identity, hidentity, hemail, rfl, rfl⟩ fun m hm hid => hused ?_
        exact List.any_eq_true.2 ⟨m, hm, decide_eq_true hid⟩

/-- The end of a call that finds the identity. -/
theorem Invitation.ends_found_iff {identity : Identity} (hkeys : r.Keyed) (hgrown : view.Grown r)
    (hfound : findIdentityByNormalizedEmail normalizedEmail view.users = some identity) :
    Ends normalizedEmail q.tenantId r (MemberService.addMember orm isEmail q.tenantId q.input q.draw view r) ↔
      q.Undisturbed orm view r := by
  have hidentity := hgrown.users identity (Table.lookup_mem hfound)
  have hemail := Table.lookup_key hfound
  have hinvited : invitedUser q.input q.draw view = identity.id := by
    rw [invitedUser, q.addressed, hfound]
    rfl
  rw [addMember_found hfound]
  by_cases hactive : (findByUserId q.tenantId identity.id view.memberships).any (·.status = .active) = true
  · rw [if_pos hactive]
    refine iff_of_true (ends_already hidentity hemail) ⟨fun hnone => ?_, fun hinserts => ?_⟩
    · rw [hfound] at hnone
      cases hnone
    · obtain ⟨m, hm, hstatus⟩ := (Option.any_eq_true _ _).1 hactive
      exact absurd (of_decide_eq_true hstatus) (hinserts.1 identity hfound m hm)
  · rw [if_neg hactive, create_ends_iff hkeys hgrown hidentity hemail]
    have hinserts : q.Inserts view ↔ findByUserId q.tenantId identity.id view.membershipsLater = none := by
      rw [Inserts, hinvited, and_iff_right]
      intro found hf m hm hstatus
      obtain rfl := Option.some.inj (hfound.symm.trans hf)
      exact hactive ((Option.any_eq_true _ _).2 ⟨m, hm, decide_eq_true hstatus⟩)
    constructor
    · intro h
      refine ⟨fun hnone => ?_, fun hi => ?_⟩
      · rw [hfound] at hnone
        cases hnone
      · rw [hinvited]
        exact h (hinserts.1 hi)
    · intro h hnone
      have hm := h.membership (hinserts.2 hnone)
      rwa [hinvited] at hm

/-- The end of a call that does not. -/
theorem Invitation.ends_new_iff (hkeys : r.Keyed) (hgrown : view.Grown r)
    (hnone : findIdentityByNormalizedEmail normalizedEmail view.users = none) :
    Ends normalizedEmail q.tenantId r (MemberService.addMember orm isEmail q.tenantId q.input q.draw view r) ↔
      q.Undisturbed orm view r := by
  have hinvited : invitedUser q.input q.draw view = q.draw.userId := by
    rw [invitedUser, q.addressed, hnone]
    rfl
  obtain ⟨e, e', hrun⟩ := addMember_new orm q r hnone
  rw [hrun]
  by_cases hclaimed : (findIdentityByNormalizedEmail normalizedEmail r.users).isSome = true
  · rw [if_pos hclaimed]
    refine iff_of_false not_ends_query fun h => ?_
    rw [(h.identity hnone).1] at hclaimed
    cases hclaimed
  rw [if_neg hclaimed]
  by_cases hused : r.users.any (·.id = q.draw.userId) = true
  · rw [if_pos hused]
    obtain ⟨u, hu, hid⟩ := List.any_eq_true.1 hused
    exact iff_of_false not_ends_query fun h => (h.identity hnone).2 u hu (of_decide_eq_true hid)
  rw [if_neg hused]
  have hfresh : ∀ u ∈ r.users, u.id ≠ q.draw.userId := fun u hu hid =>
    hused (List.any_eq_true.2 ⟨u, hu, decide_eq_true hid⟩)
  have hrows : findByUserId q.tenantId q.draw.userId r.memberships = none := by
    refine findByUserId_none.2 fun m hm hkey => ?_
    obtain ⟨u, hu, hid⟩ := hkeys.users m hm
    exact hfresh u hu (hid.trans hkey.2)
  have hlater : findByUserId q.tenantId q.draw.userId view.membershipsLater = none := by
    refine findByUserId_none.2 fun m hm hkey => ?_
    obtain ⟨m', hm', hsame⟩ := hgrown.later m hm
    obtain ⟨u, hu, hid⟩ := hkeys.users m' hm'
    simp only [Prod.mk.injEq] at hsame
    exact hfresh u hu (hid.trans (hsame.2.2.trans hkey.2))
  have hinserts : q.Inserts view := by
    refine ⟨fun found hf => ?_, by rw [hinvited]; exact hlater⟩
    rw [hnone] at hf
    cases hf
  let claimed : Registry :=
    { r with users := r.users ++ [newIdentity (Text.trim q.input.email) normalizedEmail q.draw] }
  have hknown : ∃ u ∈ claimed.users, u.id = q.draw.userId := ⟨_, List.mem_append_right _ List.mem_cons_self, rfl⟩
  have hcreate := create_inserting orm q.draw.membershipId q.input.role (r := claimed) hknown hlater
  rw [if_neg (by rw [show claimed.memberships = r.memberships from rfl, hrows]; decide)] at hcreate
  rw [hcreate]
  have hmembership : q.Undisturbed orm view r ↔ ∀ m ∈ r.memberships, m.id ≠ q.draw.membershipId := by
    constructor
    · intro h
      have hm := h.membership hinserts
      rwa [hinvited, hrows] at hm
    · intro h
      refine ⟨fun _ => ⟨Option.not_isSome_iff_eq_none.1 hclaimed, hfresh⟩, fun _ => ?_⟩
      rw [hinvited, hrows]
      exact h
  rw [hmembership]
  by_cases hid : r.memberships.any (·.id = q.draw.membershipId) = true
  · rw [if_pos hid]
    obtain ⟨m, hm, heq⟩ := List.any_eq_true.1 hid
    exact iff_of_false not_ends_query fun h => h m hm (of_decide_eq_true heq)
  · rw [if_neg hid]
    refine iff_of_true ⟨_, List.mem_append_right _ List.mem_cons_self, rfl, rfl, rfl⟩ fun m hm heq => hid ?_
    exact List.any_eq_true.2 ⟨m, hm, decide_eq_true heq⟩

theorem Invitation.ends_iff (hkeys : r.Keyed) (hgrown : view.Grown r) :
    Ends normalizedEmail q.tenantId r (MemberService.addMember orm isEmail q.tenantId q.input q.draw view r) ↔
      q.Undisturbed orm view r := by
  cases hfound : findIdentityByNormalizedEmail normalizedEmail view.users with
  | none => exact ends_new_iff hkeys hgrown hfound
  | some identity => exact ends_found_iff hkeys hgrown hfound

end Call

/-! ## Runs -/

/-- What a call adds to the registry, it adds to all that is there. -/
structure Registry.Extends (r r' : Registry) : Prop where
  keyed : r'.Keyed
  users : ∀ u ∈ r.users, u ∈ r'.users
  memberships : ∀ m ∈ r.memberships, ∃ m' ∈ r'.memberships, (m'.id, m'.tenantId, m'.userId) =
    (m.id, m.tenantId, m.userId)

section Runs
variable {orm : Orm} {isEmail : String → Bool} {view r r' r'' : Registry} {tenantId userId newId : Id} {role : Role}
  {m : Membership}

theorem Registry.Extends.refl (h : r.Keyed) : r.Extends r := ⟨h, fun _ => id, fun m hm => ⟨m, hm, rfl⟩⟩

theorem Registry.Extends.trans (h : r.Extends r') (h' : r'.Extends r'') : r.Extends r'' := by
  refine ⟨h'.keyed, fun u hu => h'.users u (h.users u hu), fun m hm => ?_⟩
  obtain ⟨m₁, hm₁, hsame⟩ := h.memberships m hm
  obtain ⟨m₂, hm₂, hsame'⟩ := h'.memberships m₁ hm₁
  exact ⟨m₂, hm₂, hsame'.trans hsame⟩

theorem Registry.Grown.extends (h : view.Grown r) (hr : r.Extends r') : view.Grown r' := by
  refine ⟨fun u hu => hr.users u (h.users u hu), fun m hm => ?_⟩
  obtain ⟨m₁, hm₁, hsame⟩ := h.later m hm
  obtain ⟨m₂, hm₂, hsame'⟩ := hr.memberships m₁ hm₁
  exact ⟨m₂, hm₂, hsame'.trans hsame⟩

theorem create_extends (hkeys : r.Keyed) (h : Commits (create orm tenantId userId role newId) view r m r') :
    r.Extends r' := by
  rw [create, commits_look_bind] at h
  split at h
  · next existing _ =>
    obtain ⟨_, r₁, hwrite, hread⟩ := commits_bind.1 h
    rw [commits_current_bind] at hread
    obtain ⟨-, rfl⟩ := commits_orThrow.1 hread
    obtain rfl := commits_write.1 hwrite
    refine ⟨⟨hkeys.emails, hkeys.memberships.updateWhere fun _ _ => rfl, fun m hm => ?_, rfl⟩, fun _ => id,
      fun m hm => ?_⟩
    · rcases Table.mem_updateWhere_cases hm with ⟨hm, -⟩ | ⟨before, hbefore, -, rfl⟩
      · exact hkeys.users m hm
      · exact hkeys.users before hbefore
    · cases hp : decide (m.id = existing.id) with
      | false => exact ⟨m, Table.mem_updateWhere_of_not hm hp, rfl⟩
      | true => exact ⟨_, Table.mem_updateWhere_of hm hp, rfl⟩
  · next hnone =>
    simp only [commits_current_bind, commits_throwIf_bind] at h
    obtain ⟨-, hused, hknown, hinsert⟩ := h
    obtain ⟨_, r₁, hwrite, hanswer⟩ := commits_bind.1 hinsert
    obtain ⟨rfl, rfl⟩ := commits_pure.1 hanswer
    obtain rfl := commits_write.1 hwrite
    refine ⟨⟨hkeys.emails, hkeys.memberships.append fun m hm hid => ?_, fun m hm => ?_, rfl⟩, fun _ => id,
      fun m hm => ?_⟩
    · exact hused (List.any_eq_true.2 ⟨m, hm, decide_eq_true hid⟩)
    · rcases List.mem_append.1 hm with hm | hm
      · exact hkeys.users m hm
      · obtain rfl := List.mem_singleton.1 hm
        obtain ⟨u, hu, hid⟩ := List.any_eq_true.1 (Decidable.not_not.1 hknown)
        exact ⟨u, hu, of_decide_eq_true hid⟩
    · exact ⟨m, List.mem_append_left _ hm, rfl⟩

theorem addMember_extends {input : AddMemberInput} {draw : MemberDraw} (hkeys : r.Keyed)
    (h : Commits (MemberService.addMember orm isEmail tenantId input draw) view r m r') : r.Extends r' := by
  obtain ⟨identity, r₁, hidentity, hcreate⟩ := MemberService.addMember_cases h
  have hclaim : r.Extends r₁ := by
    cases hfound : findIdentityByNormalizedEmail (normalizeEmail input.email) view.users with
    | some found =>
      rw [hfound] at hidentity
      obtain ⟨-, rfl⟩ := commits_pure.1 hidentity
      exact .refl hkeys
    | none =>
      rw [hfound] at hidentity
      obtain ⟨rfl, hnone, rfl⟩ := MemberService.claimIdentity_cases hidentity
      refine ⟨⟨hkeys.emails.append (Table.lookup_eq_none.1 hnone), hkeys.memberships, fun m hm => ?_, hkeys.later⟩,
        fun u hu => List.mem_append_left _ hu, fun m hm => ⟨m, hm, rfl⟩⟩
      obtain ⟨u, hu, hid⟩ := hkeys.users m hm
      exact ⟨u, List.mem_append_left _ hu, hid⟩
  exact hclaim.trans (create_extends hclaim.keyed hcreate)

variable {normalizedEmail : String} {q : Invitation isEmail normalizedEmail} {v s s' : Invited} {u : Unit}

/-- The end of a call: its answer is added, and the registry that a success leaves. -/
theorem Invitation.exec_cases (hkeys : s.registry.Keyed) (h : q.exec orm v s = some (u, s')) :
    s.registry.Extends s'.registry ∧ ∃ answer, s'.answers = s.answers ++ [(q.tenantId, answer)] ∧
      (InvitationAnswered normalizedEmail s'.registry.users (q.tenantId, answer) ↔
        Ends normalizedEmail q.tenantId s.registry
          (MemberService.addMember orm isEmail q.tenantId q.input q.draw v.registry s.registry)) := by
  rw [exec, Option.some.injEq, Prod.mk.injEq] at h
  obtain ⟨-, rfl⟩ := h
  cases hrun : MemberService.addMember orm isEmail q.tenantId q.input q.draw v.registry s.registry with
  | error e => exact ⟨.refl hkeys, .error e, rfl, Iff.rfl⟩
  | ok p => exact ⟨addMember_extends hkeys hrun, .ok p.1, rfl, Iff.rfl⟩

theorem InvitationAnswered.mono {users users' : List Identity} {answer : Id × Except MemberError Membership}
    (h : InvitationAnswered normalizedEmail users answer) (hsub : ∀ u ∈ users, u ∈ users') :
    InvitationAnswered normalizedEmail users' answer := by
  obtain ⟨u, hu, hemail, hanswer⟩ := h
  exact ⟨u, hsub u hu, hemail, hanswer⟩

theorem Invitation.exec_invitedOnce_iff (hkeys : s.registry.Keyed) (hgrown : v.registry.Grown s.registry)
    (hw : InvitedOnce normalizedEmail s) (h : q.exec orm v s = some (u, s')) :
    InvitedOnce normalizedEmail s' ↔ q.Undisturbed orm v.registry s.registry := by
  obtain ⟨hextends, answer, hanswers, hends⟩ := exec_cases hkeys h
  rw [← ends_iff hkeys hgrown, ← hends]
  constructor
  · intro hw'
    exact hw'.answered _ (hanswers ▸ List.mem_append_right _ List.mem_cons_self)
  · intro hanswer
    refine ⟨fun _ => ?_, fun a ha => ?_⟩
    · obtain ⟨identity, hmem, hemail, -⟩ := hanswer
      rw [← hemail, hextends.keyed.emails.filter_eq hmem]
      rfl
    · rw [hanswers] at ha
      rcases List.mem_append.1 ha with ha | ha
      · exact (hw.answered a ha).mono hextends.users
      · exact List.mem_singleton.1 ha ▸ hanswer

theorem Registry.Keyed.grown (h : r.Keyed) : r.Grown r := ⟨fun _ => id, fun m hm => ⟨m, h.later ▸ hm, rfl⟩⟩

theorem Registry.Grown.reread (hkeys : r.Keyed) (h : view.Grown r) (part : RegistryPart) :
    (rereadRegistry part view r).Grown r := by
  cases part with
  | users => exact hkeys.grown
  | memberships => exact ⟨h.users, hkeys.grown.later⟩
  | membershipsLater => exact ⟨h.users, fun m hm => ⟨m, hm, rfl⟩⟩

theorem invitation_rely : ReadCommitted.Rely (fun q : Invitation isEmail normalizedEmail => q.exec orm) rereadInvited
    (fun s => s.registry.Keyed) (fun v s => v.registry.Grown s.registry) fun _ _ _ => True where
  refl _ hkeys := hkeys.grown
  reread part _ _ hkeys hgrown := hgrown.reread hkeys part
  inv _ _ _ _ _ hkeys _ _ hx := (Invitation.exec_cases hkeys hx).1.keyed
  stable _ _ _ _ _ hkeys _ _ hx _ hw := hw.extends (Invitation.exec_cases hkeys hx).1

end Runs

/-- Along a run of overlapping calls that invite one address, one identity of it results and every call that ends has
been answered, exactly as long as nothing has overtaken any of them. -/
theorem invited_once_iff {orm : Orm} {isEmail : String → Bool} {normalizedEmail : String} {registry : Registry}
    {es : List (ReadCommitted.Event (Invitation isEmail normalizedEmail) RegistryPart)}
    {s : ReadCommitted.Session Invited (Invitation isEmail normalizedEmail)} (hkeys : registry.Keyed)
    (hr : Runs.exec (invitationStep orm) ⟨⟨registry, []⟩, []⟩ es = some s) :
    Runs.Along (invitationStep orm) (fun s e => ∀ s' ∈ invitationStep orm s e, InvitedOnce normalizedEmail s'.db)
        ⟨⟨registry, []⟩, []⟩ es ↔
      Runs.Along (invitationStep orm)
        (ReadCommitted.AtCommit fun q v s => q.Undisturbed orm v.registry s.registry) ⟨⟨registry, []⟩, []⟩ es := by
  refine invitation_rely.along_law_iff (L := InvitedOnce normalizedEmail)
    (fun q v s u s' hi hv hl hx => Invitation.exec_invitedOnce_iff hi hv hl hx)
    ⟨hkeys, fun o ho => (List.not_mem_nil ho).elim⟩ ⟨fun h => absurd rfl h, fun a ha => (List.not_mem_nil ha).elim⟩ hr

namespace Demo

/-- Nobody yet. -/
def nobody : Registry := .of [] []

theorem nobody_keyed : nobody.Keyed := ⟨by decide, by decide, by decide, rfl⟩

def invite (tenantId drawn : Id) : Invitation (fun _ => true) "ana@a.ar" where
  tenantId
  input := { email := "Ana@a.ar", password := "12345678", role := .employee }
  draw := { userId := drawn, membershipId := drawn, passwordHash := drawn }
  accepted := by decide
  addressed := by decide

def oneAfterTheOther : List (ReadCommitted.Event (Invitation (fun _ => true) "ana@a.ar") RegistryPart) :=
  [.start (invite "bakery" "1"), .commit 0, .start (invite "kiosk" "2"), .commit 0]

/-- Both look the address up before either has created it. -/
def atTheSameTime : List (ReadCommitted.Event (Invitation (fun _ => true) "ana@a.ar") RegistryPart) :=
  [.start (invite "bakery" "1"), .start (invite "kiosk" "2"), .commit 0, .commit 0]

end Demo

open Demo

theorem invited_once_in_turn : ∃ s, Runs.exec (invitationStep plainOrm) ⟨⟨nobody, []⟩, []⟩ oneAfterTheOther = some s ∧
    (Runs.Along (invitationStep plainOrm)
        (fun s e => ∀ s' ∈ invitationStep plainOrm s e, InvitedOnce "ana@a.ar" s'.db) ⟨⟨nobody, []⟩,
          []⟩ oneAfterTheOther ↔
      Runs.Along (invitationStep plainOrm)
        (ReadCommitted.AtCommit fun q v s => q.Undisturbed plainOrm v.registry s.registry) ⟨⟨nobody, []⟩, []⟩
        oneAfterTheOther) := by
  have hruns : (Runs.exec (invitationStep plainOrm) ⟨⟨nobody, []⟩, []⟩ oneAfterTheOther).isSome = true := by
    decide +kernel
  obtain ⟨s, hr⟩ := Option.isSome_iff_exists.1 hruns
  exact ⟨s, hr, invited_once_iff nobody_keyed hr⟩

/-- The second of two simultaneous invitations fails, for want of a transaction to recover in. -/
theorem simultaneous_invitation_fails : ¬ ∀ (orm : Orm) (isEmail : String → Bool) (normalizedEmail : String)
    (registry : Registry) (es : List (ReadCommitted.Event (Invitation isEmail normalizedEmail) RegistryPart))
    (s : ReadCommitted.Session Invited (Invitation isEmail normalizedEmail)), registry.Keyed →
    findIdentityByNormalizedEmail normalizedEmail registry.users = none →
    Runs.exec (invitationStep orm) ⟨⟨registry, []⟩, []⟩ es = some s → InvitedOnce normalizedEmail s.db := by
  intro hlaw
  have haborted : ((Runs.exec (invitationStep plainOrm) ⟨⟨nobody, []⟩, []⟩ atTheSameTime).map fun s =>
      s.db.answers.any fun a => a = ("kiosk", .error (.query transactionAborted))) = some true := by decide +kernel
  obtain ⟨s, hr, hanswers⟩ := Option.map_eq_some_iff.1 haborted
  obtain ⟨answer, hmem, hanswer⟩ := List.any_eq_true.1 hanswers
  obtain rfl := of_decide_eq_true hanswer
  obtain ⟨_, -, -, herror⟩ := (hlaw plainOrm _ _ nobody _ s nobody_keyed rfl hr).answered _ hmem
  cases herror

end Komanda
