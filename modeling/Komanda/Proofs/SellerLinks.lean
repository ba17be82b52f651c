import Komanda.SellerLinks

/-!
# Sellers are linked by their owners

Whoever sends states, codes and revocations in whatever order, an account is linked to a tenant only by a state that
`startOAuth` has sealed for an active member of that tenant, and with the tokens that the code of that callback bought.
What is sealed for one purpose and one tenant does not open for another, since the additional data tells them apart.
-/

namespace Komanda
open Transaction ReadCommitted Runs Table MercadoPagoIntegrationService IntegrationRepository

/-! ## The law -/

/-- A secret opens under the data that it was sealed under. -/
def EncryptionConfig.Opens (config : EncryptionConfig) (iv : Bytes) (aad : List Char) (secret : Secret) : Prop :=
  config.decipher iv aad (config.cipher iv aad secret).1 (config.cipher iv aad secret).2 = some secret

instance (config : EncryptionConfig) (iv : Bytes) (aad : List Char) (secret : Secret) :
    Decidable (config.Opens iv aad secret) := inferInstanceAs (Decidable (_ = _))

/-- What is sealed here opens again, and what opens as a state has been sealed here, since nobody else has the key. -/
def Genuine (config : EncryptionConfig) (c : SellerCall) (_v s : SellerFloor) : Prop :=
  match c with
  | .startOAuth tenantId userId membershipId role now iv =>
    config.Opens iv (additionalAuthenticatedData tenantId oauthProvider config.keyVersion)
      (.state (startedState tenantId userId membershipId role now))
  | .completeOAuth state now exchanged draw =>
    (∀ e ∈ state, ∀ secret ∈ decryptSecret config e.envelope e.tenantId oauthProvider,
      (additionalAuthenticatedData e.tenantId oauthProvider e.envelope.keyVersion, secret) ∈ s.sealed) ∧
    ∀ payload ∈ (decodeOAuthState config state now false).toOption, ∀ tokens ∈ exchanged,
      config.Opens draw.iv (additionalAuthenticatedData payload.tenantId tokensProvider config.keyVersion)
        (.tokens tokens)
  | _ => True

instance (config : EncryptionConfig) (c : SellerCall) (v s : SellerFloor) : Decidable (Genuine config c v s) := by
  cases c <;> dsimp only [Genuine] <;> infer_instance

/-- The state of the link was issued within the last ten minutes, and the member it names was an active one. -/
structure SellerLink.Authorized (link : SellerLink) (s : SellerFloor) : Prop where
  issued : ∃ i ∈ s.issued, i.payload = link.payload ∧ link.now < i.now + 10 * 60 * 1000
  member : link.membership ∈ s.enrolled
  active : stillActive link.payload link.membership = true

/-- The account is the tenant's by the link, and holds its tokens. -/
structure SellerLink.Makes (config : EncryptionConfig) (link : SellerLink) (r : Id × MercadoPagoIntegrationAccount) :
    Prop where
  tenant : link.payload.tenantId = r.1
  seller : link.tokens.userId = r.2.providerAccountId
  tokens : decryptTokens config r.1 r.2 = some link.tokens

structure SellerLinks (config : EncryptionConfig) (s : SellerFloor) : Prop where
  /-- A tenant is linked to one seller, and a seller to one tenant. -/
  exclusive : ∀ r ∈ s.desk.accounts, ∀ r' ∈ s.desk.accounts, r.2.live = true → r'.2.live = true →
    r.1 = r'.1 ∨ r.2.providerAccountId = r'.2.providerAccountId → r = r'
  linked : ∀ r ∈ s.desk.accounts, ∃ link ∈ s.links, link.Makes config r
  authorized : ∀ link ∈ s.links, link.Authorized s
  /-- A version of an account has one content, which a revocation that names the version has seen. -/
  versions : ∀ r ∈ s.history, ∀ r' ∈ s.history, r.2.id = r'.2.id → r.2.version = r'.2.version → r = r'
  /-- An account stays its tenant's, under its routing key. -/
  kept : ∀ r ∈ s.history, ∃ r' ∈ s.desk.accounts, r'.2.id = r.2.id ∧ r'.1 = r.1 ∧
    r'.2.webhookRoutingKey = r.2.webhookRoutingKey ∧ r.2.version ≤ r'.2.version
  /-- What is sealed as a state of a tenant is one that was issued for it. -/
  states : ∀ tenantId keyVersion secret,
    (additionalAuthenticatedData tenantId oauthProvider keyVersion, secret) ∈ s.sealed →
      ∃ i ∈ s.issued, secret = .state i.payload ∧ i.payload.tenantId = tenantId
  /-- An issued state comes back as it was, for ten minutes. -/
  returned : ∀ i ∈ s.issued, ∀ now, decodeOAuthState config (some i.state) now false = .ok i.payload ↔
    now < i.now + 10 * 60 * 1000

/-! ## Additional data -/

section AdditionalData
variable {tenantId tenantId' : Id} {provider provider' : String} {k k' : Json.Number}

theorem additionalData_keyed : (additionalData tenantId provider k).Keyed := by
  refine .object (by simp) fun key v hv => ?_
  simp only [List.mem_cons, Prod.mk.injEq, Option.some.injEq, List.not_mem_nil, or_false] at hv
  rcases hv with ⟨-, rfl⟩ | ⟨-, rfl⟩ | ⟨-, rfl⟩
  · exact .string tenantId
  · exact .string provider
  · exact .number k

theorem additionalAuthenticatedData_inj
    (h : additionalAuthenticatedData tenantId provider k = additionalAuthenticatedData tenantId' provider' k') :
    tenantId = tenantId' ∧ provider = provider' ∧ k = k' := by
  cases (Json.Value.text_eq_iff additionalData_keyed additionalData_keyed).1 h with
  | blank h => exact h.elim
  | object _ h =>
    have htenant := h "tenantId" (.string tenantId) (.string tenantId') (by simp) (by simp)
    have hprovider := h "provider" (.string provider) (.string provider') (by simp) (by simp)
    have hversion := h "keyVersion" (.number k) (.number k') (by simp) (by simp)
    refine ⟨?_, ?_, ?_⟩
    · cases htenant with
      | string => rfl
      | blank h => exact h.elim
    · cases hprovider with
      | string => rfl
      | blank h => exact h.elim
    · cases hversion with
      | number => rfl
      | blank h => exact h.elim

end AdditionalData

/-! ## What the transactions do -/

section Transactions
variable {config : EncryptionConfig} {v d d' : SellerDesk} {tenantId : Id} {tokens : MercadoPagoTokens}
  {draw : LinkDraw} {payload : OAuthStatePayload}

/-- The unique indexes hold for a row of the tenant. -/
def Free (rows : List (Id × MercadoPagoIntegrationAccount)) (tenantId : Id) (a : MercadoPagoIntegrationAccount) :
    Prop :=
  ∀ r ∈ rows, r.2.id ≠ a.id → r.2.live = true → r.1 ≠ tenantId ∧ r.2.providerAccountId ≠ a.providerAccountId

theorem refuseViolations_cases {a : MercadoPagoIntegrationAccount} {u : Unit}
    (h : Commits (refuseViolations tenantId a) v d u d') : d' = d ∧ Free d.accounts tenantId a := by
  simp only [refuseViolations, commits_bind, commits_current, commits_throwIf] at h
  obtain ⟨_, _, ⟨rfl, rfl⟩, _, _, ⟨hlinked, rfl⟩, _, _, ⟨rfl, rfl⟩, htaken, rfl⟩ := h
  refine ⟨rfl, fun r hr hid hlive => ⟨fun htenant => hlinked ?_, fun hseller => htaken ?_⟩⟩
  · exact List.any_eq_true.2 ⟨r, hr, by simp [tenantLinked, hid, hlive, htenant]⟩
  · exact List.any_eq_true.2 ⟨r, hr, by simp [sellerLinked, hid, hlive, hseller]⟩

theorem anyOf_mem {a : MercadoPagoIntegrationAccount} {pick : Nat} (h : anyOf tenantId pick d = some a) :
    (tenantId, a) ∈ d.accounts := by
  obtain ⟨r, hr, rfl⟩ := Option.map_eq_some_iff.1 h
  obtain ⟨hmem, htenant⟩ := List.mem_filter.1 (List.mem_of_getElem? hr)
  rw [← of_decide_eq_true htenant]
  exact hmem

/-- The statement that links a tenant: the row that it changes or makes. -/
inductive Relinks (config : EncryptionConfig) (tenantId : Id) (tokens : MercadoPagoTokens) (draw : LinkDraw)
    (v d d' : SellerDesk) : Prop
  | update (existing : MercadoPagoIntegrationAccount) (hread : (tenantId, existing) ∈ v.accounts)
      (hfree : ∀ row ∈ d.accounts, row.2.id = existing.id → UniqueOn (·.2.id) d.accounts →
        Free d.accounts tenantId
          (relink tokens (encryptSecret config (.tokens tokens) tenantId tokensProvider draw.iv) draw.now row.2))
      (haccounts : d'.accounts = updateWhere (·.2.id = existing.id) (fun r => (r.1,
        relink tokens (encryptSecret config (.tokens tokens) tenantId tokensProvider draw.iv) draw.now r.2)) d.accounts)
  | insert (hnew : ∀ r ∈ d.accounts, r.2.id ≠ draw.accountId)
      (hfree : Free d.accounts tenantId
        (newAccount tokens (encryptSecret config (.tokens tokens) tenantId tokensProvider draw.iv) draw))
      (haccounts : d'.accounts = d.accounts ++
        [(tenantId, newAccount tokens (encryptSecret config (.tokens tokens) tenantId tokensProvider draw.iv) draw)])

theorem saveMercadoPago_cases {a : Option MercadoPagoIntegrationAccount}
    (h : Commits (saveMercadoPago config tenantId tokens draw) v d a d') :
    Relinks config tenantId tokens draw v d d' ∧ d'.memberships = d.memberships := by
  rw [saveMercadoPago, commits_look_bind] at h
  cases hread : anyOf tenantId draw.pick v with
  | some existing =>
    rw [hread] at h
    simp only [updateAccount, commits_bind, commits_current, commits_write, commits_pure] at h
    obtain ⟨_, _, ⟨rfl, rfl⟩, _, _, hrefuse, _, _, rfl, -, rfl⟩ := h
    rcases commits_forSome.1 hrefuse with ⟨row, hrow, hrefuse⟩ | ⟨hnone, rfl⟩
    · obtain ⟨rfl, hfree⟩ := refuseViolations_cases hrefuse
      refine ⟨.update existing (anyOf_mem hread) (fun row' hrow' hid hunique => ?_) rfl, rfl⟩
      have hsame : row = row' := hunique.eq (List.mem_of_find?_eq_some hrow) hrow'
        ((by simpa using List.find?_some hrow : row.2.id = existing.id).trans hid.symm)
      exact hsame ▸ hfree
    · refine ⟨.update existing (anyOf_mem hread) (fun row hrow hid _ => ?_) rfl, rfl⟩
      exact absurd (decide_eq_true hid) (List.find?_eq_none.1 hnone row hrow)
  | none =>
    rw [hread] at h
    simp only [insertAccount, commits_bind, commits_current, commits_throwIf, commits_write, commits_pure] at h
    obtain ⟨_, _, ⟨rfl, rfl⟩, _, _, ⟨hclash, rfl⟩, _, _, hrefuse, _, _, rfl, -, rfl⟩ := h
    obtain ⟨rfl, hfree⟩ := refuseViolations_cases hrefuse
    refine ⟨.insert (fun r hr hid => hclash ?_) hfree rfl, rfl⟩
    exact List.any_eq_true.2 ⟨r, hr, by simp [newAccount, hid]⟩

theorem completeOAuth_cases {state : Option EncodedOAuthState} {now : Instant} {exchanged : Option MercadoPagoTokens}
    (h : Commits (completeOAuth config state now exchanged draw) v d (payload, tokens) d') :
    decodeOAuthState config state now false = .ok payload ∧ tokens ∈ exchanged ∧
      (∃ m ∈ v.memberships, v.memberships.find? (stillActive payload) = some m ∧ stillActive payload m = true) ∧
      Relinks config payload.tenantId tokens draw v d d' ∧ d'.memberships = d.memberships := by
  simp only [completeOAuth, assertMembershipStillActive, commits_bind, commits_fromExcept, commits_orThrow,
    commits_look, commits_throwIf, commits_pure, Prod.mk.injEq] at h
  obtain ⟨_, _, ⟨hdecode, rfl⟩, _, _, ⟨hexchanged, rfl⟩, _, _, ⟨_, _, ⟨rfl, rfl⟩, hmember, rfl⟩, _, _, hsave,
    ⟨rfl, rfl⟩, rfl⟩ := h
  obtain ⟨m, hm⟩ := Option.ne_none_iff_exists'.1 fun hnone => hmember (Option.isNone_iff_eq_none.2 hnone)
  exact ⟨hdecode, hexchanged, ⟨m, List.mem_of_find?_eq_some hm, hm, List.find?_some hm⟩, saveMercadoPago_cases hsave⟩

theorem revoke_cases {version pick : Nat} {remoteConfirmed : Bool} {answer : Bool × Nat}
    (h : Commits (MercadoPagoIntegrationService.revoke config tenantId version pick remoteConfirmed) v d answer d') :
    d'.accounts = updateWhere (fun r => r.1 = tenantId && r.2.version = version) (fun r => (r.1, revoked r.2))
        d.accounts ∧
      d'.memberships = d.memberships := by
  simp only [MercadoPagoIntegrationService.revoke, revokeMercadoPago, commits_bind, commits_look, commits_orThrow,
    commits_throwIf, commits_current, commits_write, commits_pure] at h
  obtain ⟨_, _, ⟨-, rfl⟩, _, _, ⟨-, rfl⟩, _, _, ⟨-, rfl⟩, _, _, ⟨_, _, ⟨rfl, rfl⟩, _, _, rfl, -, rfl⟩, _, _, ⟨-, rfl⟩,
    -, rfl⟩ := h
  exact ⟨rfl, rfl⟩

theorem decodeOAuthState_ok {state : Option EncodedOAuthState} {now : Instant}
    (h : decodeOAuthState config state now false = .ok payload) :
    ∃ e, state = some e ∧ decryptSecret config e.envelope e.tenantId oauthProvider = some (.state payload) ∧
      now < payload.expiresAt := by
  unfold decodeOAuthState at h
  split at h
  · cases h
  · next e =>
    split at h
    · cases h
    · split at h
      · next hopen =>
        split at h
        · cases h
        · next hlate =>
          cases h
          exact ⟨e, rfl, hopen, by simpa using hlate⟩
      · cases h

theorem decodeOAuthState_encode {iv : Bytes} (hc : config.Opens iv
      (additionalAuthenticatedData payload.tenantId oauthProvider config.keyVersion) (.state payload)) (now : Instant) :
    decodeOAuthState config (some (encodeOAuthState config payload iv)) now false = .ok payload ↔
      now < payload.expiresAt := by
  have hopen : decryptSecret config (encodeOAuthState config payload iv).envelope payload.tenantId oauthProvider =
      some (.state payload) := hc
  constructor
  · intro h
    exact (decodeOAuthState_ok h).choose_spec.2.2
  · intro h
    have hlate : (!false && decide (payload.expiresAt ≤ now)) = false := by simpa using h
    have hversion : ¬ config.keyVersion ≠ (encodeOAuthState config payload iv).envelope.keyVersion := fun h => h rfl
    unfold decodeOAuthState
    dsimp only
    rw [if_neg hversion, show (encodeOAuthState config payload iv).tenantId = payload.tenantId from rfl, hopen]
    dsimp only
    rw [hlate, if_neg Bool.false_ne_true]

theorem decryptTokens_sealed {a : MercadoPagoIntegrationAccount} {iv : Bytes}
    (hc : config.Opens iv (additionalAuthenticatedData tenantId tokensProvider config.keyVersion) (.tokens tokens))
    (ha : a.envelope = encryptSecret config (.tokens tokens) tenantId tokensProvider iv) :
    decryptTokens config tenantId a = some tokens := by
  have hopen : decryptSecret config (encryptSecret config (.tokens tokens) tenantId tokensProvider iv) tenantId
      tokensProvider = some (.tokens tokens) := hc
  rw [decryptTokens, ha, hopen]
  exact if_neg fun h => h rfl

end Transactions

/-! ## The invariant -/

structure SellerInv (config : EncryptionConfig) (s : SellerFloor) : Prop where
  ids : UniqueOn (·.2.id) s.desk.accounts
  recorded : ∀ r ∈ s.desk.accounts, r ∈ s.history
  exclusive : ∀ r ∈ s.desk.accounts, ∀ r' ∈ s.desk.accounts, r.2.live = true → r'.2.live = true →
    r.1 = r'.1 ∨ r.2.providerAccountId = r'.2.providerAccountId → r = r'
  linked : ∀ r ∈ s.desk.accounts, ∃ link ∈ s.links, link.Makes config r
  authorized : ∀ link ∈ s.links, link.Authorized s
  versions : ∀ r ∈ s.history, ∀ r' ∈ s.history, r.2.id = r'.2.id → r.2.version = r'.2.version → r = r'
  kept : ∀ r ∈ s.history, ∃ r' ∈ s.desk.accounts, r'.2.id = r.2.id ∧ r'.1 = r.1 ∧
    r'.2.webhookRoutingKey = r.2.webhookRoutingKey ∧ r.2.version ≤ r'.2.version
  sealed : ∀ x ∈ s.sealed,
    (∃ i ∈ s.issued,
      x = (additionalAuthenticatedData i.payload.tenantId oauthProvider config.keyVersion, .state i.payload)) ∨
    ∃ tenantId tokens, x = (additionalAuthenticatedData tenantId tokensProvider config.keyVersion, .tokens tokens)
  expires : ∀ i ∈ s.issued, i.payload.expiresAt = i.now + 10 * 60 * 1000
  opens : ∀ i ∈ s.issued, ∀ now, decodeOAuthState config (some i.state) now false = .ok i.payload ↔
    now < i.payload.expiresAt
  enrolled : ∀ m ∈ s.desk.memberships, m ∈ s.enrolled

/-- What an open transaction has read has been there. -/
structure SeesSellers (v s : SellerFloor) : Prop where
  accounts : ∀ r ∈ v.desk.accounts, r ∈ s.history
  memberships : ∀ m ∈ v.desk.memberships, m ∈ s.enrolled

/-- The accounts of a later state: nothing is lost, and what changes gets a version that its account never had. -/
structure Advances (s : SellerFloor) (rows : List (Id × MercadoPagoIntegrationAccount)) : Prop where
  ids : UniqueOn (·.2.id) rows
  grown : ∀ r ∈ s.desk.accounts, ∃ r' ∈ rows, r'.2.id = r.2.id ∧ r'.1 = r.1 ∧
    r'.2.webhookRoutingKey = r.2.webhookRoutingKey ∧ r.2.version ≤ r'.2.version
  fresh : ∀ r' ∈ rows, r' ∈ s.desk.accounts ∨ ∀ r ∈ s.history, r.2.id = r'.2.id → r.2.version < r'.2.version

section Invariant
variable {config : EncryptionConfig} {v s s' : SellerFloor} {desk : SellerDesk} {tenantId : Id}
  {rows : List (Id × MercadoPagoIntegrationAccount)} {r : Id × MercadoPagoIntegrationAccount}

theorem mem_leave_history : r ∈ (s.leave desk).history ↔ r ∈ s.history ∨ r ∈ desk.accounts := by
  rw [SellerFloor.leave, List.mem_append, List.mem_filter, decide_eq_true_iff]
  constructor
  · rintro (h | ⟨h, -⟩)
    · exact .inl h
    · exact .inr h
  · intro h
    by_cases hr : r ∈ s.history
    · exact .inl hr
    · exact .inr ⟨h.resolve_left hr, hr⟩

/-- The history of a state that has advanced. -/
theorem SellerInv.advance (hi : SellerInv config s) (h : Advances s rows)
    (hhistory : ∀ r, r ∈ s'.history ↔ r ∈ s.history ∨ r ∈ rows) (haccounts : s'.desk.accounts = rows) :
    (∀ r ∈ s'.history, ∀ r' ∈ s'.history, r.2.id = r'.2.id → r.2.version = r'.2.version → r = r') ∧
      ∀ r ∈ s'.history, ∃ r' ∈ s'.desk.accounts, r'.2.id = r.2.id ∧ r'.1 = r.1 ∧
        r'.2.webhookRoutingKey = r.2.webhookRoutingKey ∧ r.2.version ≤ r'.2.version := by
  -- a row that was not there before has a version of its own
  have hnew {r r'} (hr : r ∈ s.history) (hr' : r' ∈ rows) (hold : r' ∉ s.history) (hid : r.2.id = r'.2.id) :
      r.2.version < r'.2.version := by
    rcases h.fresh r' hr' with hmem | hfresh
    · exact absurd (hi.recorded r' hmem) hold
    · exact hfresh r hr hid
  constructor
  · intro r hr r' hr' hid hversion
    by_cases hold : r ∈ s.history
    · by_cases hold' : r' ∈ s.history
      · exact hi.versions r hold r' hold' hid hversion
      · exact absurd hversion (Nat.ne_of_lt (hnew hold (((hhistory r').1 hr').resolve_left hold') hold' hid))
    · by_cases hold' : r' ∈ s.history
      · exact absurd hversion.symm (Nat.ne_of_lt (hnew hold' (((hhistory r).1 hr).resolve_left hold) hold hid.symm))
      · exact h.ids.eq (((hhistory r).1 hr).resolve_left hold) (((hhistory r').1 hr').resolve_left hold') hid
  · intro r hr
    rw [haccounts]
    rcases (hhistory r).1 hr with hr | hr
    · obtain ⟨c, hc, hid, htenant, hkey, hle⟩ := hi.kept r hr
      obtain ⟨c', hc', hid', htenant', hkey', hle'⟩ := h.grown c hc
      exact ⟨c', hc', hid'.trans hid, htenant'.trans htenant, hkey'.trans hkey, hle.trans hle'⟩
    · exact ⟨r, hr, rfl, rfl, rfl, Nat.le_refl _⟩

/-- An update of rows advances, if it raises their versions. -/
theorem SellerInv.advances_update (hi : SellerInv config s) {p : Id × MercadoPagoIntegrationAccount → Bool}
    {f : MercadoPagoIntegrationAccount → MercadoPagoIntegrationAccount} (hid : ∀ a, (f a).id = a.id)
    (hkey : ∀ a, (f a).webhookRoutingKey = a.webhookRoutingKey) (hversion : ∀ a, (f a).version = a.version + 1) :
    Advances s (updateWhere p (fun r => (r.1, f r.2)) s.desk.accounts) where
  ids := hi.ids.updateWhere fun r _ => hid r.2
  grown r hr := by
    refine ⟨_, mem_updateWhere.2 ⟨r, hr, rfl⟩, ?_⟩
    split
    · exact ⟨hid r.2, rfl, hkey r.2, by rw [hversion]; exact Nat.le_succ _⟩
    · exact ⟨rfl, rfl, rfl, Nat.le_refl _⟩
  fresh r' hr' := by
    rcases mem_updateWhere_cases hr' with ⟨hr', -⟩ | ⟨q, hq, -, rfl⟩
    · exact .inl hr'
    · refine .inr fun r hr hrid => ?_
      obtain ⟨c, hc, hcid, -, -, hle⟩ := hi.kept r hr
      have hcq : c = q := hi.ids.eq hc hq (hcid.trans (hrid.trans (hid q.2)))
      rw [hversion, ← hcq]
      exact Nat.lt_succ_of_le hle

theorem SellerInv.advances_insert (hi : SellerInv config s) {a : MercadoPagoIntegrationAccount}
    (hnew : ∀ r ∈ s.desk.accounts, r.2.id ≠ a.id) : Advances s (s.desk.accounts ++ [(tenantId, a)]) where
  ids := hi.ids.append hnew
  grown r hr := ⟨r, List.mem_append_left _ hr, rfl, rfl, rfl, Nat.le_refl _⟩
  fresh r' hr' := by
    rcases List.mem_append.1 hr' with hr' | hr'
    · exact .inl hr'
    · refine .inr fun r hr hid => ?_
      obtain ⟨c, hc, hcid, -⟩ := hi.kept r hr
      rw [List.mem_singleton.1 hr'] at hid
      exact absurd (hcid.trans hid) (hnew c hc)

theorem SellerLink.Authorized.mono {link : SellerLink} (h : link.Authorized s)
    (hissued : ∀ x ∈ s.issued, x ∈ s'.issued) (henrolled : ∀ m ∈ s.enrolled, m ∈ s'.enrolled) : link.Authorized s' := by
  obtain ⟨⟨i, hmem, hi⟩, hmember, hactive⟩ := h
  exact ⟨⟨i, hissued i hmem, hi⟩, henrolled _ hmember, hactive⟩

/-! ## Calls -/

theorem SellerInv.start (hi : SellerInv config s) {i : StartedOAuth}
    (hexpires : i.payload.expiresAt = i.now + 10 * 60 * 1000)
    (hopens : ∀ now, decodeOAuthState config (some i.state) now false = .ok i.payload ↔ now < i.payload.expiresAt)
    (hdesk : s'.desk = s.desk) (hhistory : s'.history = s.history) (hlinks : s'.links = s.links)
    (henrolled : s'.enrolled = s.enrolled) (hissued : s'.issued = i :: s.issued)
    (hsealed : s'.sealed =
      (additionalAuthenticatedData i.payload.tenantId oauthProvider config.keyVersion, .state i.payload) :: s.sealed) :
    SellerInv config s' := by
  constructor
  · rw [hdesk]; exact hi.ids
  · rw [hdesk, hhistory]; exact hi.recorded
  · rw [hdesk]; exact hi.exclusive
  · rw [hdesk, hlinks]; exact hi.linked
  · rw [hlinks]
    exact fun link hlink => (hi.authorized link hlink).mono (fun x hx => hissued ▸ List.mem_cons_of_mem _ hx)
      (fun m hm => henrolled ▸ hm)
  · rw [hhistory]; exact hi.versions
  · rw [hdesk, hhistory]; exact hi.kept
  · rw [hsealed, hissued]
    refine List.forall_mem_cons.2 ⟨.inl ⟨i, List.mem_cons_self, rfl⟩, fun x hx => ?_⟩
    rcases hi.sealed x hx with ⟨j, hmem, rfl⟩ | hx
    · exact .inl ⟨j, List.mem_cons_of_mem _ hmem, rfl⟩
    · exact .inr hx
  · rw [hissued]
    exact List.forall_mem_cons.2 ⟨hexpires, hi.expires⟩
  · rw [hissued]
    exact List.forall_mem_cons.2 ⟨hopens, hi.opens⟩
  · rw [hdesk, henrolled]; exact hi.enrolled

/-- Whoever has a link that this is not about keeps it. -/
theorem SellerInv.exclusive_update (hi : SellerInv config s) {row : Id × MercadoPagoIntegrationAccount}
    {f : MercadoPagoIntegrationAccount → MercadoPagoIntegrationAccount} (hid : ∀ a, (f a).id = a.id)
    (hrow : row ∈ s.desk.accounts) (hfree : Free s.desk.accounts row.1 (f row.2)) :
    ∀ r ∈ updateWhere (·.2.id = row.2.id) (fun r => (r.1, f r.2)) s.desk.accounts,
      ∀ r' ∈ updateWhere (·.2.id = row.2.id) (fun r => (r.1, f r.2)) s.desk.accounts, r.2.live = true →
        r'.2.live = true → r.1 = r'.1 ∨ r.2.providerAccountId = r'.2.providerAccountId → r = r' := by
  have hcases {r} (hr : r ∈ updateWhere (·.2.id = row.2.id) (fun r => (r.1, f r.2)) s.desk.accounts) :
      (r ∈ s.desk.accounts ∧ r.2.id ≠ row.2.id) ∨ r = (row.1, f row.2) := by
    rcases mem_updateWhere_cases hr with ⟨hr, hne⟩ | ⟨q, hq, hqid, rfl⟩
    · exact .inl ⟨hr, of_decide_eq_false hne⟩
    · rw [hi.ids.eq hq hrow (of_decide_eq_true hqid)]
      exact .inr rfl
  intro r hr r' hr' hlive hlive' hsame
  rcases hcases hr with ⟨hr, hne⟩ | rfl
  · rcases hcases hr' with ⟨hr', -⟩ | rfl
    · exact hi.exclusive r hr r' hr' hlive hlive' hsame
    · obtain ⟨htenant, hseller⟩ := hfree r hr (by rw [hid]; exact hne) hlive
      exact (hsame.elim htenant hseller).elim
  · rcases hcases hr' with ⟨hr', hne⟩ | rfl
    · obtain ⟨htenant, hseller⟩ := hfree r' hr' (by rw [hid]; exact hne) hlive'
      exact (hsame.elim (fun h => htenant h.symm) fun h => hseller h.symm).elim
    · rfl

theorem SellerInv.exclusive_insert (hi : SellerInv config s) {a : MercadoPagoIntegrationAccount}
    (hnew : ∀ r ∈ s.desk.accounts, r.2.id ≠ a.id) (hfree : Free s.desk.accounts tenantId a) :
    ∀ r ∈ s.desk.accounts ++ [(tenantId, a)], ∀ r' ∈ s.desk.accounts ++ [(tenantId, a)], r.2.live = true →
      r'.2.live = true → r.1 = r'.1 ∨ r.2.providerAccountId = r'.2.providerAccountId → r = r' := by
  intro r hr r' hr' hlive hlive' hsame
  rcases List.mem_append.1 hr with hr | hr
  · rcases List.mem_append.1 hr' with hr' | hr'
    · exact hi.exclusive r hr r' hr' hlive hlive' hsame
    · rw [List.mem_singleton.1 hr'] at hsame
      obtain ⟨htenant, hseller⟩ := hfree r hr (hnew r hr) hlive
      exact (hsame.elim htenant hseller).elim
  · rcases List.mem_append.1 hr' with hr' | hr'
    · rw [List.mem_singleton.1 hr] at hsame
      obtain ⟨htenant, hseller⟩ := hfree r' hr' (hnew r' hr') hlive'
      exact (hsame.elim (fun h => htenant h.symm) fun h => hseller h.symm).elim
    · rw [List.mem_singleton.1 hr, List.mem_singleton.1 hr']

/-- A callback that gets through came with a state that was issued. -/
theorem SellerInv.authorizes (hi : SellerInv config s) (hv : SeesSellers v s) {state : Option EncodedOAuthState}
    {now : Instant} {exchanged : Option MercadoPagoTokens} {draw : LinkDraw} {payload : OAuthStatePayload}
    {tokens : MercadoPagoTokens} {m : Membership}
    (ha : Genuine config (.completeOAuth state now exchanged draw) v s)
    (hdecode : decodeOAuthState config state now false = .ok payload) (hm : m ∈ v.desk.memberships)
    (hactive : stillActive payload m = true) : SellerLink.Authorized ⟨payload, tokens, now, m⟩ s := by
  obtain ⟨e, he, hopen, hlt⟩ := decodeOAuthState_ok hdecode
  have hsealed := ha.1 e he _ hopen
  refine ⟨?_, hv.memberships m hm, hactive⟩
  rcases hi.sealed _ hsealed with ⟨i, hmem, heq⟩ | ⟨_, _, heq⟩
  · obtain rfl := Secret.state.inj (Prod.mk.inj heq).2
    exact ⟨i, hmem, rfl, hi.expires i hmem ▸ hlt⟩
  · cases (Prod.mk.inj heq).2

/-- The accounts after a link has been made: those of before, and the one with the new tokens. -/
theorem SellerInv.relinks (hi : SellerInv config s) (hv : SeesSellers v s) {tokens : MercadoPagoTokens}
    {draw : LinkDraw} (h : Relinks config tenantId tokens draw v.desk s.desk desk) :
    Advances s desk.accounts ∧
      (∀ r ∈ desk.accounts, ∀ r' ∈ desk.accounts, r.2.live = true → r'.2.live = true →
        r.1 = r'.1 ∨ r.2.providerAccountId = r'.2.providerAccountId → r = r') ∧
      ∀ r ∈ desk.accounts, r ∈ s.desk.accounts ∨ r.1 = tenantId ∧ r.2.providerAccountId = tokens.userId ∧
        r.2.envelope = encryptSecret config (.tokens tokens) tenantId tokensProvider draw.iv := by
  cases h with
  | update existing hread hfree heq =>
    -- the row that was read is still the tenant's
    obtain ⟨row, hrow, hid, htenant, -, -⟩ := hi.kept _ (hv.accounts _ hread)
    have hfree' := hfree row hrow hid hi.ids
    dsimp only at hid htenant
    rw [← hid] at heq
    rw [← htenant] at hfree'
    rw [heq]
    refine ⟨hi.advances_update (fun _ => rfl) (fun _ => rfl) fun _ => rfl,
      hi.exclusive_update (fun _ => rfl) hrow hfree', fun r hr => ?_⟩
    rcases mem_updateWhere_cases hr with ⟨hr, -⟩ | ⟨q, hq, hqid, rfl⟩
    · exact .inl hr
    · rw [hi.ids.eq hq hrow (of_decide_eq_true hqid)]
      exact .inr ⟨htenant, rfl, rfl⟩
  | insert hnew hfree heq =>
    rw [heq]
    refine ⟨hi.advances_insert hnew, hi.exclusive_insert hnew hfree, fun r hr => ?_⟩
    rcases List.mem_append.1 hr with hr | hr
    · exact .inl hr
    · rw [List.mem_singleton.1 hr]
      exact .inr ⟨rfl, rfl, rfl⟩

theorem SellerInv.link (hi : SellerInv config s) (hv : SeesSellers v s) {link : SellerLink} {draw : LinkDraw}
    (hauthorized : link.Authorized s)
    (hc : config.Opens draw.iv (additionalAuthenticatedData link.payload.tenantId tokensProvider config.keyVersion)
      (.tokens link.tokens))
    (hrelinks : Relinks config link.payload.tenantId link.tokens draw v.desk s.desk s'.desk)
    (hmemberships : s'.desk.memberships = s.desk.memberships)
    (hhistory : s'.history = (s.leave s'.desk).history) (hlinks : s'.links = link :: s.links)
    (henrolled : s'.enrolled = s.enrolled) (hissued : s'.issued = s.issued)
    (hsealed : s'.sealed = (additionalAuthenticatedData link.payload.tenantId tokensProvider config.keyVersion,
      .tokens link.tokens) :: s.sealed) : SellerInv config s' := by
  have hrecorded : ∀ r, r ∈ s'.history ↔ r ∈ s.history ∨ r ∈ s'.desk.accounts := fun r => hhistory ▸ mem_leave_history
  obtain ⟨hadvances, hexclusive, hcases⟩ := hi.relinks hv hrelinks
  obtain ⟨hversions, hkept⟩ := hi.advance hadvances hrecorded rfl
  have hmono {l : SellerLink} (h : l.Authorized s) : l.Authorized s' :=
    h.mono (fun x hx => hissued ▸ hx) fun m hm => henrolled ▸ hm
  refine ⟨hadvances.ids, fun r hr => (hrecorded r).2 (.inr hr), hexclusive, fun r hr => ?_, ?_, hversions, hkept,
    ?_, ?_, ?_, ?_⟩
  · rw [hlinks]
    rcases hcases r hr with hr | ⟨htenant, hseller, henvelope⟩
    · obtain ⟨l, hl, hmakes⟩ := hi.linked r hr
      exact ⟨l, List.mem_cons_of_mem _ hl, hmakes⟩
    · obtain ⟨rowTenant, a⟩ := r
      obtain rfl : rowTenant = link.payload.tenantId := htenant
      exact ⟨link, List.mem_cons_self, rfl, hseller.symm, decryptTokens_sealed hc henvelope⟩
  · rw [hlinks]
    exact List.forall_mem_cons.2 ⟨hmono hauthorized, fun l hl => hmono (hi.authorized l hl)⟩
  · rw [hsealed, hissued]
    exact List.forall_mem_cons.2 ⟨.inr ⟨_, _, rfl⟩, hi.sealed⟩
  · rw [hissued]
    exact hi.expires
  · rw [hissued]
    exact hi.opens
  · rw [hmemberships, henrolled]
    exact hi.enrolled

theorem SellerInv.revoke (hi : SellerInv config s) {p : Id × MercadoPagoIntegrationAccount → Bool}
    (haccounts : s'.desk.accounts = updateWhere p (fun r => (r.1, revoked r.2)) s.desk.accounts)
    (hmemberships : s'.desk.memberships = s.desk.memberships)
    (hhistory : s'.history = (s.leave s'.desk).history) (hlinks : s'.links = s.links)
    (henrolled : s'.enrolled = s.enrolled) (hissued : s'.issued = s.issued) (hsealed : s'.sealed = s.sealed) :
    SellerInv config s' := by
  have hrecorded : ∀ r, r ∈ s'.history ↔ r ∈ s.history ∨ r ∈ s'.desk.accounts := fun r => hhistory ▸ mem_leave_history
  have hadvances : Advances s s'.desk.accounts :=
    haccounts ▸ hi.advances_update (fun _ => rfl) (fun _ => rfl) fun _ => rfl
  obtain ⟨hversions, hkept⟩ := hi.advance hadvances hrecorded rfl
  have hlive {r} (hr : r ∈ s'.desk.accounts) (hlive : r.2.live = true) : r ∈ s.desk.accounts := by
    rcases mem_updateWhere_cases (haccounts ▸ hr) with ⟨hr, -⟩ | ⟨q, -, -, rfl⟩
    · exact hr
    · cases hlive
  refine ⟨hadvances.ids, fun r hr => (hrecorded r).2 (.inr hr), ?_, ?_, ?_, hversions, hkept, ?_, ?_, ?_, ?_⟩
  · exact fun r hr r' hr' h h' hsame => hi.exclusive r (hlive hr h) r' (hlive hr' h') h h' hsame
  · rw [haccounts, hlinks]
    intro r hr
    rcases mem_updateWhere_cases hr with ⟨hr, -⟩ | ⟨q, hq, -, rfl⟩
    · exact hi.linked r hr
    · obtain ⟨l, hl, htenant, hseller, htokens⟩ := hi.linked q hq
      exact ⟨l, hl, htenant, hseller, htokens⟩
  · rw [hlinks]
    exact fun l hl => (hi.authorized l hl).mono (fun x hx => hissued ▸ hx) fun m hm => henrolled ▸ hm
  · rw [hsealed, hissued]; exact hi.sealed
  · rw [hissued]; exact hi.expires
  · rw [hissued]; exact hi.opens
  · rw [hmemberships, henrolled]; exact hi.enrolled

theorem SellerInv.members (hi : SellerInv config s) (members : List Membership) :
    SellerInv config { s with
      desk := { s.desk with memberships := members }
      enrolled := members ++ s.enrolled } where
  ids := hi.ids
  recorded := hi.recorded
  exclusive := hi.exclusive
  linked := hi.linked
  authorized link hlink := (hi.authorized link hlink).mono (fun _ hx => hx) fun _ hm => List.mem_append_right _ hm
  versions := hi.versions
  kept := hi.kept
  sealed := hi.sealed
  expires := hi.expires
  opens := hi.opens
  enrolled _ hm := List.mem_append_left _ hm

theorem exec_sellers {c : SellerCall} {u : Unit} (hi : SellerInv config s) (hv : SeesSellers v s)
    (ha : Genuine config c v s) (hx : c.exec config v s = some (u, s')) :
    SellerInv config s' ∧ (∀ r ∈ s.history, r ∈ s'.history) ∧ ∀ m ∈ s.enrolled, m ∈ s'.enrolled := by
  cases c with
  | startOAuth tenantId userId membershipId role now iv =>
    cases hx
    let payload := startedState tenantId userId membershipId role now
    have hopens : config.Opens iv (additionalAuthenticatedData payload.tenantId oauthProvider config.keyVersion)
      (.state payload) := ha
    exact ⟨hi.start (i := ⟨payload, now, encodeOAuthState config payload iv⟩) rfl (decodeOAuthState_encode hopens)
      rfl rfl rfl rfl rfl rfl, fun _ => id, fun _ => id⟩
  | completeOAuth state now exchanged draw =>
    simp only [SellerCall.exec] at hx
    split at hx
    · next payload tokens desk hrun =>
      obtain ⟨hdecode, hexchanged, ⟨m, hm, hfind, hactive⟩, hrelinks, hmemberships⟩ := completeOAuth_cases hrun
      cases hx
      refine ⟨?_, fun r hr => mem_leave_history.2 (.inl hr), fun _ => id⟩
      have hauthorized : SellerLink.Authorized ⟨payload, tokens, now, m⟩ s := hi.authorizes hv ha hdecode hm hactive
      have hpayload : payload ∈ (decodeOAuthState config state now false).toOption := by rw [hdecode]; rfl
      obtain ⟨-, hopens⟩ := ha
      refine SellerInv.link hi hv hauthorized (hopens payload hpayload tokens hexchanged) hrelinks hmemberships
        rfl ?_ rfl rfl rfl
      rw [hfind]
      rfl
    · cases hx
  | revoke tenantId version pick remoteConfirmed =>
    simp only [SellerCall.exec] at hx
    split at hx
    · next answer desk hrun =>
      obtain ⟨haccounts, hmemberships⟩ := revoke_cases hrun
      cases hx
      exact ⟨hi.revoke haccounts hmemberships rfl rfl rfl rfl rfl, fun r hr => mem_leave_history.2 (.inl hr),
        fun _ => id⟩
    · cases hx
  | members rows =>
    cases hx
    exact ⟨hi.members rows, fun _ => id, fun _ hm => List.mem_append_right _ hm⟩

theorem seller_rely :
    Rely (SellerCall.exec config) rereadSeller (SellerInv config) SeesSellers (Genuine config) where
  refl s hi := ⟨hi.recorded, hi.enrolled⟩
  reread part v s hi hv := by
    cases part with
    | accounts => exact ⟨hi.recorded, hv.memberships⟩
    | memberships => exact ⟨hv.accounts, hi.enrolled⟩
  inv c v s u s' hi hv ha hx := (exec_sellers hi hv ha hx).1
  stable c v s u s' hi hv ha hx w hw := by
    obtain ⟨-, hhistory, henrolled⟩ := exec_sellers hi hv ha hx
    exact ⟨fun r hr => hhistory r (hw.accounts r hr), fun m hm => henrolled m (hw.memberships m hm)⟩

theorem SellerInv.law (hi : SellerInv config s) : SellerLinks config s where
  exclusive := hi.exclusive
  linked := hi.linked
  authorized := hi.authorized
  versions := hi.versions
  kept := hi.kept
  states tenantId keyVersion secret h := by
    rcases hi.sealed _ h with ⟨i, hmem, heq⟩ | ⟨_, _, heq⟩
    · obtain ⟨hdata, rfl⟩ := Prod.mk.inj heq
      obtain ⟨htenant, -, -⟩ := additionalAuthenticatedData_inj hdata
      exact ⟨i, hmem, rfl, htenant.symm⟩
    · obtain ⟨-, hprovider, -⟩ := additionalAuthenticatedData_inj (Prod.mk.inj heq).1
      exact absurd hprovider (by decide)
  returned i hmem now := hi.expires i hmem ▸ hi.opens i hmem now

end Invariant

/-! ## Runs -/

/-- Whatever is sent in whatever order, if only this server seals what opens: every account was linked by an owner's
authorization, holds the tokens it was linked with, and belongs to one tenant and one seller at a time. -/
theorem seller_links {config : EncryptionConfig} (memberships : List Membership)
    {es : List (Event SellerCall SellerPart)} {s : SellerSession}
    (hr : Runs.exec (sellerStep config) (SellerSession.start memberships) es = some s)
    (hC : Along (sellerStep config) (AtCommit (Genuine config)) (SellerSession.start memberships) es) :
    SellerLinks config s.db := by
  have hstart : SellerInv config (SellerSession.start memberships).db :=
    ⟨.nil, fun _ h => absurd h List.not_mem_nil, fun _ h => absurd h List.not_mem_nil,
      fun _ h => absurd h List.not_mem_nil, fun _ h => absurd h List.not_mem_nil, fun _ h => absurd h List.not_mem_nil,
      fun _ h => absurd h List.not_mem_nil, fun _ h => absurd h List.not_mem_nil,
      fun _ h => absurd h List.not_mem_nil, fun _ h => absurd h List.not_mem_nil, fun _ h => h⟩
  exact (exec_inv seller_rely ⟨hstart, fun _ h => absurd h List.not_mem_nil⟩ hC hr).db.law

namespace Demo

def ownerOf (tenantId : Id) : Membership := ⟨"m-" ++ tenantId, tenantId, "u-" ++ tenantId, .owner, .active⟩

def ownerState (tenantId : Id) : OAuthStatePayload :=
  startedState tenantId ("u-" ++ tenantId) ("m-" ++ tenantId) .owner 0

def sellerTokens : MercadoPagoTokens := ⟨"access", "refresh", 21600, "seller-1", ["read"]⟩

/-- A cipher of the secrets of these runs: the secret has a number, and the tag is the additional data. -/
def toyCipher : EncryptionConfig where
  keyVersion := .decimal ⟨false, ['1'], 1, by simp, by simp, by simp, by simp⟩
  cipher _ aad
    | .state payload => ([1] ++ payload.tenantId.toList.map (·.toNat.toUInt8), aad.map (·.toNat.toUInt8))
    | .tokens _ => ([2], aad.map (·.toNat.toUInt8))
  decipher _ aad ciphertext tag :=
    if tag ≠ aad.map (·.toNat.toUInt8) then none
    else if ciphertext = [2] then some (.tokens sellerTokens)
    else if ciphertext = [1, 97] then some (.state (ownerState "a"))
    else if ciphertext = [1, 98] then some (.state (ownerState "b"))
    else none

def startLink (tenantId : Id) : SellerCall := .startOAuth tenantId ("u-" ++ tenantId) ("m-" ++ tenantId) .owner 0 []

def completeLink (tenantId : Id) (now : Instant) : SellerCall :=
  .completeOAuth (some (encodeOAuthState toyCipher (ownerState tenantId) [])) now (some sellerTokens)
    ⟨now, [], "account-" ++ tenantId, "key-" ++ tenantId, 0⟩

/-- Two tenants link one seller, the second after the first has revoked it. -/
def sellerChanges : List (Event SellerCall SellerPart) :=
  [.start (startLink "a"), .commit 0, .start (startLink "b"), .commit 0, .start (completeLink "a" 1000), .commit 0,
    .start (completeLink "b" 2000), .start (.revoke "a" 1 0 false), .commit 1, .reread 0 .accounts, .commit 0]

end Demo

open Demo in
theorem seller_links_moved : ∃ s, Runs.exec (sellerStep toyCipher)
      (SellerSession.start [ownerOf "a", ownerOf "b"]) sellerChanges = some s ∧
    s.db.desk.accounts.map (fun r => (r.1, r.2.status, r.2.version)) =
      [("a", .revoked, 2), ("b", .active, 1)] ∧ SellerLinks toyCipher s.db := by
  have hread : (Runs.exec (sellerStep toyCipher) (SellerSession.start [ownerOf "a", ownerOf "b"]) sellerChanges).map
      (·.db.desk.accounts.map fun r => (r.1, r.2.status, r.2.version)) =
        some [("a", .revoked, 2), ("b", .active, 1)] := by decide +kernel
  obtain ⟨s, hr, hrows⟩ := Option.map_eq_some_iff.1 hread
  exact ⟨s, hr, hrows, seller_links [ownerOf "a", ownerOf "b"] hr (by decide +kernel)⟩

end Komanda
