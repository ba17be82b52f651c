import Komanda.Proofs.ApprovedPayments

/-!
# An approval is final

Every writer of a payment attempt decides on a row that it has read without a lock, or on none at all,
and then updates the row by its id. An approval that is committed in between is overwritten, unless the
writer's own guards meet it.
-/

namespace Komanda
open Komanda.Core Table Runs ReadCommitted

/-- The attempt is approved. -/
def approvedIn (rows : List PaymentAttempt) (id : Id) : Bool :=
  (Table.lookup PaymentAttempt.id id rows).any (·.status = .approved)

/-- A request that may write another status than `approved`, by the row it has read, meets an attempt that
is not approved. The session's preference is attached without a look at the row. -/
def MeetsUnapproved (q : Request) (v db : Db) : Prop :=
  match q.action with
  | .attachSession i _ => ∀ session ∈ db.sessions[i]?, approvedIn db.attempts session.attemptId = false
  | .kioskCancel attemptId _ _ => ∀ a ∈ Table.lookup PaymentAttempt.id attemptId v.attempts,
      KioskPaymentService.cancellable a = true → approvedIn db.attempts a.id = false
  | .webhook event payment eventId => ∀ a ∈ Webhook.routed event payment v,
      Webhook.known event eventId db = false → payment.status ≠ .approved →
      ¬ Webhook.priority (Webhook.paymentStatus payment.status) < Webhook.priority a.status →
      approvedIn db.attempts a.id = false
  | .reconcile attemptId (some payment) => ∀ a ∈ Table.lookup PaymentAttempt.id attemptId v.attempts,
      Reconciliation.settled a = false → a.providerPaymentId ≠ none → payment.status ≠ .approved →
      (payment.status = .rejected ∨ payment.status = .cancelled ∨ a.status ≠ .verificationRequired) →
      approvedIn db.attempts a.id = false
  | _ => True

instance (q : Request) (v db : Db) : Decidable (MeetsUnapproved q v db) := by
  apply Action.casesOn (motive := fun a => Decidable (MeetsUnapproved ⟨a, q.draw⟩ v db)) q.action
  case reconcile =>
    intro attemptId lookup
    apply Option.casesOn (motive := fun l => Decidable (MeetsUnapproved ⟨.reconcile attemptId l, q.draw⟩ v db))
      lookup <;> intros <;> dsimp only [MeetsUnapproved] <;> infer_instance
  all_goals intros; dsimp only [MeetsUnapproved]; infer_instance

/-- The keys, and the cart that an attempt is of. -/
structure AttemptInv (c : Core) : Prop where
  keyed : Keyed c
  cart : ∀ a ∈ c.attempts, ∃ x ∈ c.carts, x.id = a.cartId

section Invariant
variable {q : Request} {v db : Db} {c : Core} {rows : List PaymentAttempt} {id : Id}

theorem AttemptInv.fresh {tenantId : Id} {settings : Settings} :
    AttemptInv (Db.fresh tenantId settings).core :=
  ⟨.empty, fun _ h => (List.not_mem_nil h).elim⟩

/-- An attempt of the new table has the terms of an old one, or its cart is there. -/
theorem Effect.attempt_cases (h : Effect q v db c) (hv : Sees v db) {a : PaymentAttempt}
    (ha : a ∈ c.attempts) : (∃ b ∈ db.attempts, b.terms = a.terms) ∨ ∃ x ∈ c.carts, x.id = a.cartId := by
  have hold (ht : c.attempts.map PaymentAttempt.terms = db.attempts.map PaymentAttempt.terms) :
      ∃ b ∈ db.attempts, b.terms = a.terms := exists_mem_of_map_eq ht ha
  cases h with
  | editAttempts rows h =>
    rcases h.terms with ht | ⟨cart, hcart, input, id, hc, -, hrows, -⟩
    · exact .inl (hold ht)
    · have ha : a ∈ rows := ha
      rw [hrows] at ha
      rcases List.mem_append.1 ha with ha | ha
      · exact .inl ⟨a, ha, rfl⟩
      · rw [List.mem_singleton] at ha; subst ha
        obtain ⟨y, hy, hid⟩ := hv.carts cart hcart
        exact .inr ⟨y, hy, hid.trans hc.symm⟩
  | kiosk cart _ _ _ _ attemptId _ input _ _ _ rows _ _ _ hi ha' =>
    obtain ⟨b, hb, ht⟩ := exists_mem_of_map_eq preferredAt_terms ha
    rcases ha'.cases with rfl | ⟨rfl, -⟩
    · exact .inl ⟨b, hb, ht⟩
    · rcases List.mem_append.1 hb with hb | hb
      · exact .inl ⟨b, hb, ht⟩
      · rw [List.mem_singleton] at hb; subst hb
        refine .inr ⟨cart, by simp, hi.1.symm.trans ?_⟩
        exact PaymentAttempt.column PaymentAttempt.cartId ht
  | approved _ _ _ h => exact .inl (hold h.terms)
  | sold _ _ _ _ _ _ _ h => exact .inl (hold (by simpa using h.terms))
  | revised _ _ _ _ _ _ _ h => exact .inl (hold (by simpa using h.terms))
  | _ => exact .inl ⟨a, ha, rfl⟩

theorem AttemptInv.effect (hi : AttemptInv db.core) (hv : Sees v db) (h : Effect q v db c) :
    AttemptInv c := by
  refine ⟨h.keyed hi.keyed, fun a ha => ?_⟩
  rcases h.attempt_cases hv ha with ⟨b, hb, ht⟩ | hx
  · obtain ⟨x, hx, hid⟩ := hi.cart b hb
    obtain ⟨y, hy, hid'⟩ := h.cartIds.exists_mem hx
    exact ⟨y, hy, hid'.trans (hid.trans (PaymentAttempt.column PaymentAttempt.cartId ht))⟩
  · exact hx

/-! ## What the writes do to an approved attempt -/

section Updates
variable {p : PaymentAttempt → Bool} {f : PaymentAttempt → PaymentAttempt} {x : Id}

theorem approvedIn_update (hf : ∀ a, (f a).id = a.id)
    (hp : ∀ a, a.id = id → p a = true → (f a).status = .approved) (h : approvedIn rows id = true) :
    approvedIn (Table.updateWhere p f rows) id = true := by
  obtain ⟨a, ha, hs⟩ := (Option.any_eq_true _ _).1 h
  rw [approvedIn, lookup_updateWhere fun a _ => hf a, ha]
  by_cases hpa : p a = true
  · simp [hpa, hp a (lookup_key ha) hpa]
  · simpa [hpa] using hs

/-- An update of a row that is not approved. -/
theorem approvedIn_update_other (hf : ∀ a, (f a).id = a.id) (hp : ∀ a, p a = true → a.id = x)
    (hx : approvedIn rows x = false) (h : approvedIn rows id = true) :
    approvedIn (Table.updateWhere p f rows) id = true := by
  refine approvedIn_update hf (fun a hid hpa => ?_) h
  rw [← hp a hpa, hid, h] at hx
  cases hx

theorem approvedIn_append {a : PaymentAttempt} (h : approvedIn rows id = true) :
    approvedIn (rows ++ [a]) id = true := by
  obtain ⟨b, hb, hs⟩ := (Option.any_eq_true _ _).1 h
  have hl : Table.lookup PaymentAttempt.id id (rows ++ [a]) = some b := by
    unfold Table.lookup at hb ⊢
    rw [List.find?_append, hb]; rfl
  rw [approvedIn, hl]; exact hs

end Updates

theorem Approval.keeps {attempt : PaymentAttempt} {row : Option PaymentAttempt}
    (h : Approval q v db attempt row rows) (ha : approvedIn db.attempts id = true) :
    approvedIn rows id = true := by
  cases h with
  | webhook payment _ h hp hrows =>
    subst hrows
    exact approvedIn_update (fun _ => rfl) (fun a _ _ => by simp [Webhook.reported, hp, Webhook.paymentStatus]) ha
  | reconcile payment _ h hp hrows =>
    subst hrows
    exact approvedIn_update (fun _ => rfl) (fun _ _ _ => rfl) ha

theorem Reports.meets {attempt : PaymentAttempt} {payment : MercadoPagoPayment}
    (h : Reports q v db attempt payment) (hc : MeetsUnapproved q v db) (hp : payment.status ≠ .approved) :
    approvedIn db.attempts attempt.id = false := by
  obtain ⟨event, eventId, hq, hr, hk⟩ := h.request
  rw [MeetsUnapproved, hq] at hc
  exact hc attempt hr hk hp h.inOrder

theorem Reconciles.meets {attempt : PaymentAttempt} {payment : MercadoPagoPayment}
    (h : Reconciles q v attempt payment) (hc : MeetsUnapproved q v db) (hp : payment.status ≠ .approved)
    (hw : payment.status = .rejected ∨ payment.status = .cancelled ∨ attempt.status ≠ .verificationRequired) :
    approvedIn db.attempts attempt.id = false := by
  rw [MeetsUnapproved, h.request] at hc
  exact hc attempt h.read h.unsettled h.asked hp hw

theorem AttemptEdit.keeps (h : AttemptEdit q v db rows) (hc : MeetsUnapproved q v db)
    (ha : approvedIn db.attempts id = true) : approvedIn rows id = true := by
  have hupdate {f : PaymentAttempt → PaymentAttempt} {x : Id} (hf : ∀ a, (f a).id = a.id)
      (hx : approvedIn db.attempts x = false) : approvedIn (updateAttempt x f db.attempts) id = true :=
    approvedIn_update_other hf (fun _ h => of_decide_eq_true h) hx ha
  cases h with
  | same => exact ha
  | prepare _ _ _ _ _ _ _ input _ _ _ _ _ _ _ h =>
    rcases h.cases with rfl | ⟨rfl, -⟩
    · exact ha
    · exact approvedIn_append ha
  | attach i preference session hq hs =>
    rw [MeetsUnapproved, hq] at hc
    exact approvedIn_update_other (fun _ => rfl) (fun _ h => of_decide_eq_true (Bool.and_eq_true_iff.1 h).1)
      (hc session hs) ha
  | cancel attempt key recordId hq hv hcan =>
    rw [MeetsUnapproved, hq] at hc
    exact hupdate (fun _ => rfl) (hc attempt hv hcan)
  | report attempt payment h hp => exact hupdate (fun _ => rfl) (h.meets hc hp)
  | reject attempt payment h hp =>
    have hne : payment.status ≠ .approved := by rintro heq; simp [heq] at hp
    exact hupdate (fun _ => rfl) (h.meets hc hne (hp.imp_right .inl))
  | doubt attempt payment h hp hs => exact hupdate (fun _ => rfl) (h.meets hc hp (.inr (.inr hs)))

/-- The kiosk's attempt is a new one: an old one has a cart already. -/
theorem kiosk_keeps {cart : Cart} {input : IntegrationRepository.CreateAttemptInput} {attemptId accountId : Id}
    {preferenceId : String} {a : PaymentAttempt} (hi : AttemptInv db.core)
    (hid : ∀ x ∈ db.carts, x.id ≠ cart.id) (hcart : input.cartId = cart.id)
    (h : AttemptFor input attemptId db.attempts a rows) (ha : approvedIn db.attempts id = true) :
    approvedIn (preferredAt a.id accountId preferenceId rows) id = true := by
  cases h with
  | new hnew =>
    refine approvedIn_update (fun _ => rfl) (fun b hb hp => ?_) (approvedIn_append ha)
    obtain ⟨r, hr, -⟩ := (Option.any_eq_true _ _).1 ha
    have hbn : b.id = attemptId := of_decide_eq_true (Bool.and_eq_true_iff.1 hp).1
    exact absurd ((lookup_key hr).trans (hb.symm.trans hbn)) (hnew r (lookup_mem hr)).1
  | existing _ hmem _ hc =>
    obtain ⟨x, hx, hxid⟩ := hi.cart a hmem
    exact absurd (hxid.trans (hc.trans hcart)) (hid x hx)

/-- What one commit keeps. -/
theorem Effect.keeps_approved (h : Effect q v db c) (hi : AttemptInv db.core) (hc : MeetsUnapproved q v db)
    (ha : approvedIn db.attempts id = true) : approvedIn c.attempts id = true := by
  cases h with
  | editAttempts rows h => exact h.keeps hc ha
  | kiosk cart _ _ _ _ _ _ input _ _ _ _ _ hid _ hin h => exact kiosk_keeps hi hid hin.1 h ha
  | approved _ _ _ h => exact h.keeps ha
  | sold _ _ _ _ _ _ rows h =>
    rw [book_attempts, sell_attempts]
    cases h with
    | confirmed _ _ _ _ h => exact h.keeps ha
    | _ => exact ha
  | revised _ _ _ _ _ _ rows h =>
    rw [release_attempts, book_attempts, revise_attempts]
    cases h with
    | confirm _ _ h => exact h.keeps ha
    | refuse attempt payment h hp =>
      have hne : payment.status ≠ .approved := by rintro heq; simp [heq] at hp
      exact approvedIn_update_other (fun _ => rfl) (fun _ h => of_decide_eq_true h)
        (h.meets hc hne (hp.imp_right .inl)) ha
    | _ => exact ha
  | _ => exact ha

end Invariant

/-! ## Every run -/

/-- In a run whose writers meet the condition, an attempt that is approved stays approved. -/
theorem approved_is_final {tenantId : Id} {settings : Settings} {es es' : List RcEvent} {s s' : RcState}
    (hC : Along rcStep (AtCommit MeetsUnapproved) (RcState.fresh tenantId settings) (es ++ es'))
    (hr : Runs.exec rcStep (RcState.fresh tenantId settings) es = some s)
    (hr' : Runs.exec rcStep s es' = some s') :
    ∀ id, approvedIn s.db.attempts id = true → approvedIn s'.db.attempts id = true := by
  obtain ⟨hC, hC'⟩ := Along.append.1 hC
  have hrely := Sees.rely (I := AttemptInv) (C := MeetsUnapproved) fun hi hv _ h => hi.effect hv h
  have hs := exec_inv hrely ⟨AttemptInv.fresh, fun _ h => (List.not_mem_nil h).elim⟩ hC hr
  intro id ha
  have hkeeps := hrely.and (Q := fun db => approvedIn db.attempts id = true)
    fun _ _ _ _ _ hi _ hc hx => (exec_effect hx).keeps_approved hi hc
  exact (exec_inv hkeeps ⟨⟨hs.db, ha⟩, hs.views⟩ (hC' s hr) hr').db.2

namespace Demo

/-- Transactions that do not overlap. -/
def inTurn (qs : List Request) : List RcEvent := qs.flatMap fun q => [.start q, .commit 0]

def payAtKiosk (n : String) : Request := call 2 n
  (.kioskSession { items := [{ catalogItemId := "burger", quantity := 1 }] } ("key-" ++ n) ("record-" ++ n)
    ("cart-" ++ n) "attempt" (.ok { preferenceId := "preference-" ++ n, redirectUrl := "qr" }))

def cancelAtKiosk (n : String) : Request := call 4 n (.kioskCancel "attempt" ("key-" ++ n) ("record-" ++ n))

/-- The kiosk is paid. -/
def kioskPaid : List RcEvent := inTurn [setUp, payAtKiosk "1", paid 3 "2" "1" .approved]

/-- A cancellation reads the attempt, and the payment is approved before it commits. -/
def paidMeanwhile : List RcEvent :=
  inTurn [setUp, payAtKiosk "1"] ++ [.start (cancelAtKiosk "3"), .start (paid 3 "2" "1" .approved), .commit 1]

end Demo

open Demo

theorem approved_is_final_kiosk :
    ∃ s s', Runs.exec rcStep (RcState.fresh "tenant" settings) kioskPaid = some s ∧
      Runs.exec rcStep s (inTurn [cancelAtKiosk "3"]) = some s' ∧ approvedIn s'.db.attempts "attempt" = true := by
  have hx : (Runs.exec rcStep (RcState.fresh "tenant" settings) kioskPaid).any (fun s =>
      approvedIn s.db.attempts "attempt" && (Runs.exec rcStep s (inTurn [cancelAtKiosk "3"])).isSome) = true := by
    decide +kernel
  obtain ⟨s, hr, hs⟩ := (Option.any_eq_true _ _).1 hx
  obtain ⟨ha, hs⟩ := Bool.and_eq_true_iff.1 hs
  obtain ⟨s', hr'⟩ := Option.isSome_iff_exists.1 hs
  exact ⟨s, s', hr, hr', approved_is_final (by decide +kernel) hr hr' "attempt" ha⟩

/-- The cancellation overwrites the approval that it has not seen. -/
theorem stale_cancellation_overwrites_approval :
    ¬ ∀ (tenantId : Id) (settings : Settings) (es es' : List RcEvent) (s s' : RcState),
      Runs.exec rcStep (RcState.fresh tenantId settings) es = some s → Runs.exec rcStep s es' = some s' →
      ∀ id, approvedIn s.db.attempts id = true → approvedIn s'.db.attempts id = true := by
  intro h
  have hx : (Runs.exec rcStep (RcState.fresh "tenant" settings) paidMeanwhile).any (fun s =>
      approvedIn s.db.attempts "attempt" && (Runs.exec rcStep s [.commit 0]).any fun s' =>
        !approvedIn s'.db.attempts "attempt") = true := by
    decide +kernel
  obtain ⟨s, hr, hs⟩ := (Option.any_eq_true _ _).1 hx
  obtain ⟨ha, hs⟩ := Bool.and_eq_true_iff.1 hs
  obtain ⟨s', hr', hs'⟩ := (Option.any_eq_true _ _).1 hs
  have hkept := h _ _ _ _ s s' hr hr' "attempt" ha
  simp [hkept] at hs'

end Komanda
