import Komanda.Proofs.Rows

/-!
# What a view still says about the database

A transaction decides on rows it has read before. Whatever has been committed since, the rows are still
there, with the same terms and facts. `Sees` says so, and `Sees.rely` carries a law that the effects keep
to every run of overlapping transactions.
-/

namespace Komanda
open Komanda.Core Table Runs ReadCommitted

/-- What no request changes of a cart. -/
def Cart.content (c : Cart) : Id × List CartLine × Cents := (c.id, c.lines, c.subtotal)

/-- Every row of the view is still there. -/
structure Sees (v db : Db) : Prop where
  carts : ∀ x ∈ v.carts, ∃ y ∈ db.carts, y.id = x.id
  attempts : ∀ a ∈ v.attempts, ∃ b ∈ db.attempts, b.terms = a.terms
  orders : ∀ o ∈ v.orders, ∃ r ∈ db.orders, r.facts = o.facts

section Views
variable {q : Request} {v w db : Db} {c : Core}

/-- Carts are never deleted, and keep their lines. -/
theorem Effect.cartContents (h : Effect q v db c) : Extends Cart.content db.carts c.carts := by
  have hconvert {rows : List Cart} {id : Id} :
      (Table.updateWhere (·.id = id) (fun x : Cart => { x with status := .converted }) rows).map Cart.content =
        rows.map Cart.content := map_updateWhere fun _ _ => rfl
  cases h with
  | editCarts _ h =>
    cases h with
    | same => exact .of_eq rfl
    | add => exact .append _
    | reprice => exact .of_eq (map_updateWhere fun _ _ => rfl)
  | kiosk => exact .append _
  | sold _ _ _ _ cart => rw [book_carts, sell_carts]; exact ⟨cart.toList, hconvert⟩
  | revised => rw [release_carts, book_carts, revise_carts]; exact .of_eq rfl
  | _ => exact .of_eq rfl

theorem Effect.cartIds (h : Effect q v db c) : Extends Cart.id db.carts c.carts :=
  h.cartContents.column (m := (·.1)) fun _ => rfl

theorem Sees.refl : Sees db db :=
  ⟨fun x hx => ⟨x, hx, rfl⟩, fun a ha => ⟨a, ha, rfl⟩, fun o ho => ⟨o, ho, rfl⟩⟩

theorem Sees.reread (h : Sees v db) (part : Part) : Sees (reread part v db) db := by
  cases part with
  | carts => exact ⟨Sees.refl.carts, h.attempts, h.orders⟩
  | attempts => exact ⟨h.carts, Sees.refl.attempts, h.orders⟩
  | orders => exact ⟨h.carts, h.attempts, Sees.refl.orders⟩
  | _ => exact ⟨h.carts, h.attempts, h.orders⟩

/-- A commit leaves every row that another transaction has seen. -/
theorem Sees.effect {db' : Db} (h : Sees w db) (hx : Effect q v db db'.core) : Sees w db' := by
  refine ⟨fun x hx' => ?_, fun a ha => ?_, fun o ho => ?_⟩
  · obtain ⟨y, hy, hid⟩ := h.carts x hx'
    obtain ⟨z, hz, hid'⟩ := hx.cartIds.exists_mem hy
    exact ⟨z, hz, hid'.trans hid⟩
  · obtain ⟨b, hb, ht⟩ := h.attempts a ha
    obtain ⟨b', hb', ht'⟩ := hx.terms.exists_mem hb
    exact ⟨b', hb', ht'.trans ht⟩
  · obtain ⟨r, hr, hf⟩ := h.orders o ho
    obtain ⟨r', hr', hf'⟩ := hx.facts.exists_mem hr
    exact ⟨r', hr', hf'.trans hf⟩

end Views

/-! ## Runs -/

def RcState.fresh (tenantId : Id) (settings : Settings) : RcState := ⟨Db.fresh tenantId settings, []⟩

section Runs
variable {I : Core → Prop} {J : Db → Db → Prop} {C : Request → Db → Db → Prop}

/-- A law of the tables that every effect keeps is kept by overlapping transactions. -/
theorem Sees.rely
    (hI : ∀ {q v db c}, I db.core → Sees v db → C q v db → Effect q v db c → I c) :
    Rely exec Komanda.reread (fun db => I db.core) Sees C where
  refl _ _ := .refl
  reread part _ _ _ h := h.reread part
  inv _ _ _ _ _ hi hv hc hx := hI hi hv hc (exec_effect hx)
  stable _ _ _ _ _ _ _ _ hx _ hw := hw.effect (exec_effect hx)

end Runs

/-! ## Approvals -/

/-- The attempt that a request would approve. -/
def approves (q : Request) (v db : Db) : Option PaymentAttempt :=
  match q.action with
  | .webhook event payment eventId =>
    if payment.status = .approved ∧ Webhook.known event eventId db = false then
      Webhook.routed event payment v
    else none
  | .reconcile attemptId (some payment) =>
    if payment.status = .approved then
      (Table.lookup PaymentAttempt.id attemptId v.attempts).filter fun a =>
        !Reconciliation.settled a && a.providerPaymentId.isSome
    else none
  | _ => none

/-- The cart of the attempt can still be converted to the order that its key names. -/
def Sellable (db : Db) (a : PaymentAttempt) : Prop :=
  (Table.lookup Cart.id a.cartId db.carts).any (·.status ≠ .converted) = true ∧
    Table.lookup Order.idempotencyKey ("payment-attempt:" ++ a.id) db.orders = none

instance (db : Db) (a : PaymentAttempt) : Decidable (Sellable db a) := inferInstanceAs (Decidable (_ ∧ _))

section Approval
variable {q : Request} {v db : Db} {attempt updated : PaymentAttempt} {row : Option PaymentAttempt}
  {rows : List PaymentAttempt}

theorem Webhook.routed_mem {event : ReceivedMercadoPagoWebhook} {payment : MercadoPagoPayment}
    (h : Webhook.routed event payment db = some attempt) : attempt ∈ db.attempts := by
  obtain ⟨account, -, h⟩ := Option.bind_eq_some_iff.1 h
  obtain ⟨id, -, h⟩ := Option.bind_eq_some_iff.1 h
  exact List.mem_of_find?_eq_some h

theorem Approval.mem (h : Approval q v db attempt row rows) : attempt ∈ v.attempts := by
  cases h with
  | webhook payment _ h =>
    obtain ⟨event, eventId, -, hr, -⟩ := h.request
    exact Webhook.routed_mem hr
  | reconcile payment _ h => exact lookup_mem h.read

theorem Approval.approves (h : Approval q v db attempt row rows) : approves q v db = some attempt := by
  cases h with
  | webhook payment _ h hp =>
    obtain ⟨event, eventId, hq, hr, hk⟩ := h.request
    simp [Komanda.approves, hq, hp, hk, hr]
  | reconcile payment _ h hp =>
    have ha := Option.isSome_iff_ne_none.2 h.asked
    simp [Komanda.approves, h.request, hp, h.read, h.unsettled, ha]

theorem lookup_updateAttempt {rows : List PaymentAttempt} (f : PaymentAttempt → PaymentAttempt)
    (hf : ∀ a, (f a).id = a.id) (hu : UniqueOn PaymentAttempt.id rows) (ha : attempt ∈ rows) :
    Table.lookup PaymentAttempt.id attempt.id (updateAttempt attempt.id f rows) = some (f attempt) := by
  rw [updateAttempt, lookup_updateWhere fun a _ => hf a, hu.lookup ha]
  simp

/-- The row that a webhook reports on is the stored one. -/
theorem reported_row (payment : MercadoPagoPayment) (now : Instant)
    (hu : UniqueOn PaymentAttempt.id db.attempts) (hv : Sees v db) (hm : attempt ∈ v.attempts) :
    ∃ b, b.terms = attempt.terms ∧ Table.lookup PaymentAttempt.id attempt.id
      (updateAttempt attempt.id (Webhook.reported payment now) db.attempts) =
        some (Webhook.reported payment now b) := by
  obtain ⟨b, hb, ht⟩ := hv.attempts attempt hm
  have hid : b.id = attempt.id := PaymentAttempt.column PaymentAttempt.id ht
  exact ⟨b, ht, hid ▸ lookup_updateAttempt _ (fun _ => rfl) hu hb⟩

/-- The row that a confirmation makes the order from has the terms of the attempt. -/
theorem Approval.row_terms (h : Approval q v db attempt (some updated) rows)
    (hu : UniqueOn PaymentAttempt.id db.attempts) (hv : Sees v db) : updated.terms = attempt.terms := by
  have hm := h.mem
  generalize hr : some updated = row at h
  cases h with
  | webhook payment _ h hp hrows =>
    obtain ⟨b, ht, hb⟩ := reported_row payment q.draw.now hu hv hm
    rw [hrows, hb] at hr
    cases hr; exact ht
  | reconcile payment _ h => cases hr; rfl

/-- The row is there. -/
theorem Approval.row_isSome (h : Approval q v db attempt row rows)
    (hu : UniqueOn PaymentAttempt.id db.attempts) (hv : Sees v db) : ∃ a, row = some a := by
  have hm := h.mem
  cases h with
  | webhook payment _ h hp hrows =>
    obtain ⟨b, -, hb⟩ := reported_row payment q.draw.now hu hv hm
    exact ⟨_, hrows ▸ hb⟩
  | reconcile payment _ h => exact ⟨_, rfl⟩

/-- Only the approved attempt can be approved anew. -/
theorem Approval.approved_cases (h : Approval q v db attempt row rows) {a : PaymentAttempt} (ha : a ∈ rows)
    (hs : a.status = .approved) : a.id = attempt.id ∨ a ∈ db.attempts := by
  cases h with
  | webhook payment _ h hp hrows =>
    subst hrows
    rcases mem_updateWhere_cases ha with ⟨ha, -⟩ | ⟨b, -, hb, rfl⟩
    · exact .inr ha
    · exact .inl (of_decide_eq_true hb)
  | reconcile payment _ h hp hrows =>
    subst hrows
    rcases mem_updateWhere_cases ha with ⟨ha, -⟩ | ⟨b, -, hb, rfl⟩
    · exact .inr ha
    · exact .inl (of_decide_eq_true hb)

end Approval

end Komanda
