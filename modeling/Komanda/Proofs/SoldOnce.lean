import Komanda.Proofs.SoldCarts

/-!
# A cart is sold once

Whether a cart is open, and whether a payment of it is under way, is read without a lock and decided before the
row is written; no constraint of the tables stands behind the answer. Two checkouts of one cart that overlap both
find it open. An attempt that is over becomes active again when the provider, or the session that prepared it,
says so, whatever else is under way for its cart.
-/

namespace Komanda
open Komanda.Core Table Runs ReadCommitted

/-- The attempt is one that `findActiveByCartId` searches. -/
def PaymentAttempt.active (a : PaymentAttempt) : Bool :=
  IntegrationRepository.AttemptStatus.isActive a.status

structure SoldOnce (db : Db) : Prop where
  order : ∀ cartId, (db.orders.filter (·.cartId = cartId)).length ≤ 1
  attempt : ∀ cartId, (db.attempts.filter fun a => a.cartId = cartId && a.active).length ≤ 1

/-! ## The condition -/

/-- The key of the order that a request would make. -/
def saleKey (q : Request) (v db : Db) : Option String :=
  match q.action with
  | .createCashOrder _ _ _ key _ => some key
  | .createDirect _ _ _ key => some key
  | .createPaid attemptId _ => some ("payment-attempt:" ++ attemptId)
  | _ => (approves q v db).map fun a => "payment-attempt:" ++ a.id

/-- The attempt that a request would make active, or keep so, and its cart. -/
def activates (q : Request) (v db : Db) : Option (Id × Id) :=
  match q.action with
  | .prepareSession _ cartId _ key _ attemptId =>
    if db.attempts.any (·.idempotencyKey = key) then none else some (attemptId, cartId)
  | .attachSession i _ => db.sessions[i]?.bind fun session =>
      (Table.lookup PaymentAttempt.id session.attemptId db.attempts).map fun a => (a.id, a.cartId)
  | .webhook event payment eventId =>
    if Webhook.known event eventId db then none
    else ((Webhook.routed event payment v).filter fun a =>
      IntegrationRepository.AttemptStatus.isActive (Webhook.paymentStatus payment.status) &&
        Webhook.priority a.status ≤ Webhook.priority (Webhook.paymentStatus payment.status)).map
      fun a => (a.id, a.cartId)
  | .reconcile attemptId (some payment) =>
    if payment.status = .approved ∨ payment.status = .rejected ∨ payment.status = .cancelled then none
    else ((Table.lookup PaymentAttempt.id attemptId v.attempts).filter fun a =>
      !Reconciliation.settled a && a.providerPaymentId.isSome && a.status ≠ .verificationRequired).map
      fun a => (a.id, a.cartId)
  | _ => none

/-- What the request has read of the cart is still so: a cart that it sells, under a key that is free, is not
converted, and a cart whose attempt it makes active has no other active one. -/
structure FindsCartFree (q : Request) (v db : Db) : Prop where
  sells : ∀ c ∈ sellsCart q v db, ∀ key ∈ saleKey q v db, (∀ o ∈ db.orders, o.idempotencyKey ≠ key) →
    ∀ x ∈ db.carts, x.id = c.id → x.status ≠ .converted
  activates : ∀ p ∈ activates q v db, ∀ b ∈ db.attempts, b.cartId = p.2 → b.active = true → b.id = p.1

instance (q : Request) (v db : Db) : Decidable (FindsCartFree q v db) :=
  decidable_of_iff
    ((∀ c ∈ sellsCart q v db, ∀ key ∈ saleKey q v db, (∀ o ∈ db.orders, o.idempotencyKey ≠ key) →
        ∀ x ∈ db.carts, x.id = c.id → x.status ≠ .converted) ∧
      ∀ p ∈ activates q v db, ∀ b ∈ db.attempts, b.cartId = p.2 → b.active = true → b.id = p.1)
    ⟨fun h => ⟨h.1, h.2⟩, fun h => ⟨h.1, h.2⟩⟩

/-! ## The active attempts of a cart -/

def OneActive (rows : List PaymentAttempt) : Prop :=
  ∀ a ∈ rows, ∀ b ∈ rows, a.active = true → b.active = true → a.cartId = b.cartId → a.id = b.id

section Active
variable {rows : List PaymentAttempt} {p : PaymentAttempt → Bool} {f : PaymentAttempt → PaymentAttempt} {x : Id}

/-- A row may be made active if no other row of its cart is. -/
theorem OneActive.update (h : OneActive rows) (hf : ∀ a, (f a).id = a.id ∧ (f a).cartId = a.cartId)
    (hp : ∀ a, p a = true → a.id = x)
    (hact : ∀ a ∈ rows, p a = true → (f a).active = true → ∀ b ∈ rows, b.cartId = a.cartId → b.active = true →
      b.id = a.id) : OneActive (Table.updateWhere p f rows) := by
  intro a' ha' b' hb' hsa hsb hc
  rcases mem_updateWhere_cases ha' with ⟨ha, -⟩ | ⟨a, ha, hpa, rfl⟩
  · rcases mem_updateWhere_cases hb' with ⟨hb, -⟩ | ⟨b, hb, hpb, rfl⟩
    · exact h a' ha b' hb hsa hsb hc
    · rw [(hf b).1]
      exact hact b hb hpb hsb a' ha (hc.trans (hf b).2) hsa
  · rw [(hf a).1]
    rw [(hf a).2] at hc
    rcases mem_updateWhere_cases hb' with ⟨hb, -⟩ | ⟨b, hb, hpb, rfl⟩
    · exact (hact a ha hpa hsa b' hb hc.symm hsb).symm
    · rw [(hf b).1, hp a hpa, hp b hpb]

/-- An update that ends the attempts it changes. -/
theorem OneActive.update_over (h : OneActive rows) (hf : ∀ a, (f a).id = a.id ∧ (f a).cartId = a.cartId)
    (hp : ∀ a, p a = true → a.id = x) (hover : ∀ a, (f a).active = false) :
    OneActive (Table.updateWhere p f rows) :=
  h.update hf hp fun a _ _ hact => by rw [hover] at hact; cases hact

theorem OneActive.append {a : PaymentAttempt} (h : OneActive rows)
    (ha : ∀ b ∈ rows, b.cartId = a.cartId → b.active = true → b.id = a.id) : OneActive (rows ++ [a]) := by
  intro b hb c hc hsb hsc hbc
  rcases List.mem_append.1 hb with hb | hb
  · rcases List.mem_append.1 hc with hc | hc
    · exact h b hb c hc hsb hsc hbc
    · rw [List.mem_singleton.1 hc] at hbc ⊢
      exact ha b hb hbc hsb
  · rw [List.mem_singleton.1 hb] at hbc ⊢
    rcases List.mem_append.1 hc with hc | hc
    · exact (ha c hc hbc.symm hsc).symm
    · rw [List.mem_singleton.1 hc]

end Active

/-! ## The invariant -/

structure OnceInv (c : Core) : Prop where
  attempts : AttemptInv c
  sold : ∀ o ∈ c.orders, ∃ x ∈ c.carts, x.id = o.cartId ∧ x.status = .converted
  once : UniqueOn Order.cartId c.orders
  active : OneActive c.attempts

section Invariant
variable {q : Request} {v db : Db} {c : Core} {rows : List PaymentAttempt} {attempt : PaymentAttempt}
  {payment : MercadoPagoPayment}

theorem OnceInv.fresh {tenantId : Id} {settings : Settings} : OnceInv (Db.fresh tenantId settings).core :=
  ⟨.fresh, fun _ h => (List.not_mem_nil h).elim, .nil, fun _ h => (List.not_mem_nil h).elim⟩

/-- A converted cart stays converted. -/
theorem Effect.converted (h : Effect q v db c) {x : Cart} (hx : x ∈ db.carts) (hs : x.status = .converted) :
    ∃ y ∈ c.carts, y.id = x.id ∧ y.status = .converted := by
  have hold {carts new : List Cart} (h : carts = db.carts ++ new) :
      ∃ y ∈ carts, y.id = x.id ∧ y.status = .converted := ⟨x, by rw [h]; exact List.mem_append_left _ hx, rfl, hs⟩
  cases h with
  | editCarts carts h =>
    cases h with
    | same => exact ⟨x, hx, rfl, hs⟩
    | add => exact hold rfl
    | reprice cartId r =>
      by_cases hid : x.id = cartId
      · exact ⟨r.apply x, mem_updateWhere_of hx (decide_eq_true hid), rfl, hs⟩
      · exact ⟨x, mem_updateWhere_of_not hx (decide_eq_false hid), rfl, hs⟩
  | kiosk => exact hold rfl
  | sold input _ _ _ new =>
    rw [book_carts, sell_carts]
    by_cases hid : x.id = input.cart.id
    · exact ⟨_, mem_updateWhere_of (List.mem_append_left _ hx) (decide_eq_true hid), rfl, rfl⟩
    · exact ⟨x, mem_updateWhere_of_not (List.mem_append_left _ hx) (decide_eq_false hid), rfl, hs⟩
  | revised => rw [release_carts, book_carts, revise_carts]; exact ⟨x, hx, rfl, hs⟩
  | _ => exact ⟨x, hx, rfl, hs⟩

/-- The row of an attempt that the view has is of the same cart. -/
theorem Sees.cart_of (hv : Sees v db) (hu : UniqueOn PaymentAttempt.id db.attempts) (hm : attempt ∈ v.attempts)
    {a : PaymentAttempt} (ha : a ∈ db.attempts) (hid : a.id = attempt.id) : a.cartId = attempt.cartId := by
  obtain ⟨b, hb, ht⟩ := hv.attempts attempt hm
  have hab : a = b := hu.eq ha hb (hid.trans (PaymentAttempt.column PaymentAttempt.id ht).symm)
  rw [hab]
  exact PaymentAttempt.column PaymentAttempt.cartId ht

theorem Sale.key {input : SnapshotInput} {order : Order} {movement : Option CashMovement}
    (h : Sale q v db input order none movement rows) (hu : UniqueOn PaymentAttempt.id db.attempts)
    (hv : Sees v db) : saleKey q v db = some input.idempotencyKey := by
  cases h with
  | cash _ _ _ hq => rw [saleKey, hq]
  | direct _ _ hq => rw [saleKey, hq]
  | paid _ _ hq _ _ _ _ _ _ hk => rw [saleKey, hq, hk]
  | confirmed attempt updated _ _ h _ hi =>
    have hpid : updated.id = attempt.id := PaymentAttempt.column PaymentAttempt.id (h.row_terms hu hv)
    have ha := h.approves
    have hk : input.idempotencyKey = "payment-attempt:" ++ attempt.id := by rw [hi, ← hpid]; rfl
    unfold saleKey
    split
    · rename_i hq; rw [approves, hq] at ha; cases ha
    · rename_i hq; rw [approves, hq] at ha; cases ha
    · rename_i hq; rw [approves, hq] at ha; cases ha
    · rw [ha, hk]; rfl

/-- An approval ends an attempt. -/
theorem Approval.oneActive {row : Option PaymentAttempt} (h : Approval q v db attempt row rows)
    (hi : OneActive db.attempts) : OneActive rows := by
  cases h with
  | webhook payment _ h hp hrows =>
    subst hrows
    refine hi.update_over (fun _ => ⟨rfl, rfl⟩) (fun _ h => of_decide_eq_true h) fun a => ?_
    simp [PaymentAttempt.active, Webhook.reported, hp, Webhook.paymentStatus]
    rfl
  | reconcile payment _ h hp hrows =>
    subst hrows
    exact hi.update_over (fun _ => ⟨rfl, rfl⟩) (fun _ h => of_decide_eq_true h) fun _ => rfl

theorem Reports.activates (h : Reports q v db attempt payment)
    (hs : IntegrationRepository.AttemptStatus.isActive (Webhook.paymentStatus payment.status) = true) :
    activates q v db = some (attempt.id, attempt.cartId) := by
  obtain ⟨event, eventId, hq, hr, hk⟩ := h.request
  have hle := Nat.not_lt.1 h.inOrder
  simp [Komanda.activates, hq, hk, hr, hs, hle]

theorem Reconciles.activates (h : Reconciles q v attempt payment) (hp : payment.status ≠ .approved)
    (hs : attempt.status ≠ .verificationRequired)
    (hd : payment.status ≠ .rejected ∧ payment.status ≠ .cancelled) :
    activates q v db = some (attempt.id, attempt.cartId) := by
  have ha := Option.isSome_iff_ne_none.2 h.asked
  simp [Komanda.activates, h.request, hp, hd.1, hd.2, h.read, h.unsettled, ha, hs]

theorem AttemptEdit.oneActive (h : AttemptEdit q v db rows) (hi : OnceInv db.core) (hv : Sees v db)
    (hc : FindsCartFree q v db) : OneActive rows := by
  have hu := hi.attempts.keyed.attempts
  -- what the condition says of the attempt that is written
  have hfree {attempt : PaymentAttempt} (hm : attempt ∈ v.attempts) (hact : activates q v db = some (attempt.id, attempt.cartId))
      {a : PaymentAttempt} (ha : a ∈ db.attempts) (hid : a.id = attempt.id) :
      ∀ b ∈ db.attempts, b.cartId = a.cartId → b.active = true → b.id = a.id := by
    intro b hb hcart hs
    rw [hid]
    exact hc.activates _ hact b hb (hcart.trans (hv.cart_of hu hm ha hid)) hs
  cases h with
  | same => exact hi.active
  | prepare tenant cartId request key recordId attemptId cart input a _ hq _ _ _ hin h hk =>
    cases h with
    | new hnew =>
      refine hi.active.append fun b hb hcart hs => ?_
      have hnone : db.attempts.any (·.idempotencyKey = key) = false := by
        rw [List.any_eq_false]
        intro x hx
        rw [decide_eq_true_eq, ← hk]
        exact (hnew x hx).2
      have hact : activates q v db = some (attemptId, cartId) := by
        simp [activates, hq, hnone]
      exact hc.activates _ hact b hb (hcart.trans hin.1) hs
    | existing => exact hi.active
  | attach i preference session hq hs =>
    refine hi.active.update (x := session.attemptId) (fun _ => ⟨rfl, rfl⟩)
      (fun _ h => of_decide_eq_true (Bool.and_eq_true_iff.1 h).1) fun a ha hp _ b hb hcart hsb => ?_
    have hid : a.id = session.attemptId := of_decide_eq_true (Bool.and_eq_true_iff.1 hp).1
    have hact : activates q v db = some (a.id, a.cartId) := by
      rw [activates, hq]
      dsimp only
      have hl : Table.lookup PaymentAttempt.id a.id db.attempts = some a := hu.lookup ha
      rw [hs, Option.bind_some, ← hid, hl]
      rfl
    exact hc.activates _ hact b hb hcart hsb
  | cancel =>
    exact hi.active.update_over (fun _ => ⟨rfl, rfl⟩) (fun _ h => of_decide_eq_true h) fun _ => rfl
  | report attempt payment h hp =>
    obtain ⟨event, eventId, -, hr, -⟩ := h.request
    refine hi.active.update (fun _ => ⟨rfl, rfl⟩) (fun _ h => of_decide_eq_true h) fun a ha hpa hs => ?_
    exact hfree (Webhook.routed_mem hr) (h.activates hs) ha (of_decide_eq_true hpa)
  | reject =>
    exact hi.active.update_over (fun _ => ⟨rfl, rfl⟩) (fun _ h => of_decide_eq_true h) fun _ => rfl
  | doubt attempt payment h hp hs hd =>
    refine hi.active.update (fun _ => ⟨rfl, rfl⟩) (fun _ h => of_decide_eq_true h) fun a ha hpa _ => ?_
    exact hfree (lookup_mem h.read) (h.activates hp hs hd) ha (of_decide_eq_true hpa)

/-- The cart of the kiosk is new, and has no attempt yet. -/
theorem kiosk_oneActive {cart : Cart} {input : IntegrationRepository.CreateAttemptInput} {attemptId accountId : Id}
    {preferenceId : String} {a : PaymentAttempt} (hi : OnceInv db.core)
    (hid : ∀ x ∈ db.carts, x.id ≠ cart.id) (hcart : input.cartId = cart.id)
    (h : AttemptFor input attemptId db.attempts a rows) :
    OneActive (preferredAt a.id accountId preferenceId rows) := by
  have hnone (b : PaymentAttempt) (hb : b ∈ db.attempts) : b.cartId ≠ cart.id := by
    obtain ⟨x, hx, hxid⟩ := hi.attempts.cart b hb
    rw [← hxid]
    exact hid x hx
  cases h with
  | new hnew =>
    refine (hi.active.append (a := input.row attemptId) fun b hb hbc _ => ?_).update
      (x := (input.row attemptId).id) (fun _ => ⟨rfl, rfl⟩)
      (fun _ h => of_decide_eq_true (Bool.and_eq_true_iff.1 h).1) fun b hb hp _ c hc hbc _ => ?_
    · exact absurd (hbc.trans hcart) (hnone b hb)
    · -- both rows are the new one
      have hrow {r : PaymentAttempt} (hr : r ∈ db.attempts ++ [input.row attemptId]) (hrc : r.cartId = cart.id) :
          r.id = attemptId := by
        rcases List.mem_append.1 hr with hr | hr
        · exact absurd hrc (hnone r hr)
        · rw [List.mem_singleton.1 hr]; rfl
      have hbid : b.id = attemptId := of_decide_eq_true (Bool.and_eq_true_iff.1 hp).1
      have hbcart : b.cartId = cart.id := by
        rcases List.mem_append.1 hb with hb | hb
        · exact absurd hbid (hnew b hb).1
        · rw [List.mem_singleton.1 hb]; exact hcart
      rw [hbid]
      exact hrow hc (hbc.trans hbcart)
  | existing _ hmem _ hc => exact absurd (hc.trans hcart) (hnone a hmem)

/-- What one commit keeps. -/
theorem OnceInv.effect (hi : OnceInv db.core) (hv : Sees v db) (hc : FindsCartFree q v db) (h : Effect q v db c) :
    OnceInv c := by
  have hattempts := hi.attempts.effect hv h
  have hsold {o : Order} (ho : o ∈ db.orders) : ∃ x ∈ c.carts, x.id = o.cartId ∧ x.status = .converted := by
    obtain ⟨x, hx, hid, hs⟩ := hi.sold o ho
    obtain ⟨y, hy, hyx, hys⟩ := h.converted hx hs
    exact ⟨y, hy, hyx.trans hid, hys⟩
  cases h with
  | editAttempts rows h => exact ⟨hattempts, fun _ => hsold, hi.once, h.oneActive hi hv hc⟩
  | kiosk cart _ _ _ _ _ _ input _ _ _ _ _ hid _ hin h =>
    exact ⟨hattempts, fun _ => hsold, hi.once, kiosk_oneActive hi hid hin.1 h⟩
  | approved _ _ _ h => exact ⟨hattempts, fun _ => hsold, hi.once, h.oneActive hi.active⟩
  | sold input order n active new movement rows h horder hkey hopen hnew hcart =>
    have hoc : order.cartId = input.cart.id := by rw [horder]; rfl
    -- no order has been made from the cart
    have hfirst (o : Order) (ho : o ∈ db.orders) : o.cartId ≠ order.cartId := by
      intro hid
      rw [hoc] at hid
      obtain ⟨x, hx, hxo, hs⟩ := hi.sold o ho
      cases new with
      | none =>
        have hu := hi.attempts.keyed.attempts
        have hfree (o : Order) (ho : o ∈ db.orders) : o.idempotencyKey ≠ input.idempotencyKey := by
          have hn := hnew o ho
          simp only [OrderRepository.conflicts, Bool.or_eq_false_iff, decide_eq_false_iff_not] at hn
          rw [horder] at hn
          exact hn.1.2
        exact hc.sells _ (h.sells hu hv hkey hopen) _ (h.key hu hv) hfree x hx (hxo.trans hid) hs
      | some cart =>
        rcases h.cart_cases with ⟨hnone, -⟩ | hsome
        · cases hnone
        · cases hsome
          exact hcart input.cart rfl x hx (hxo.trans hid)
    have hthere : ∃ x ∈ db.carts ++ new.toList, x.id = input.cart.id := by
      rcases h.cart_cases with ⟨rfl, hmem⟩ | rfl
      · obtain ⟨y, hy, hid⟩ := hv.carts _ hmem
        exact ⟨y, List.mem_append_left _ hy, hid⟩
      · exact ⟨input.cart, by simp, rfl⟩
    refine ⟨hattempts, fun o ho => ?_, ?_, ?_⟩
    · rw [book_orders, sell_orders] at ho
      rcases List.mem_append.1 ho with ho | ho
      · exact hsold ho
      · rw [List.mem_singleton.1 ho, book_carts, sell_carts, hoc]
        obtain ⟨x, hx, hid⟩ := hthere
        exact ⟨_, mem_updateWhere_of hx (decide_eq_true hid), hid, rfl⟩
    · rw [book_orders, sell_orders]
      exact hi.once.append hfirst
    · rw [book_attempts, sell_attempts]
      cases h with
      | confirmed _ _ _ _ h => exact h.oneActive hi.active
      | _ => exact hi.active
  | revised order row p f movement released rows h =>
    have hf (o : Order) : (bump f q.draw.now o).cartId = o.cartId := Order.column Order.cartId (h.facts _ o)
    refine ⟨hattempts, fun o ho => ?_, ?_, ?_⟩
    · rw [release_orders, book_orders, revise_orders] at ho
      rcases mem_updateWhere_cases ho with ⟨ho, -⟩ | ⟨r, hr, -, rfl⟩
      · exact hsold ho
      · rw [hf]; exact hsold hr
    · rw [release_orders, book_orders, revise_orders]
      exact hi.once.updateWhere fun o _ => hf o
    · rw [release_attempts, book_attempts, revise_attempts]
      cases h with
      | confirm _ _ h => exact h.oneActive hi.active
      | refuse =>
        exact hi.active.update_over (fun _ => ⟨rfl, rfl⟩) (fun _ h => of_decide_eq_true h) fun _ => rfl
      | _ => exact hi.active
  | _ => exact ⟨hattempts, fun _ => hsold, hi.once, hi.active⟩

theorem OnceInv.soldOnce (hi : OnceInv db.core) : SoldOnce db := by
  refine ⟨fun cartId => ?_, fun cartId => ?_⟩
  · refine hi.once.length_filter_le_one fun o ho r hr h h' => ?_
    exact (of_decide_eq_true h).trans (of_decide_eq_true h').symm
  · refine hi.attempts.keyed.attempts.length_filter_le_one fun a ha b hb h h' => ?_
    obtain ⟨hca, hsa⟩ := Bool.and_eq_true_iff.1 h
    obtain ⟨hcb, hsb⟩ := Bool.and_eq_true_iff.1 h'
    exact hi.active a ha b hb hsa hsb ((of_decide_eq_true hca).trans (of_decide_eq_true hcb).symm)

end Invariant

/-! ## Every run -/

/-- In a run whose transactions find their carts free when they commit, a cart is sold once, and paid for in one
session at a time. -/
theorem cart_sold_once {tenantId : Id} {settings : Settings} {es : List RcEvent} {s : RcState}
    (hC : Along rcStep (AtCommit FindsCartFree) (RcState.fresh tenantId settings) es)
    (hr : Runs.exec rcStep (RcState.fresh tenantId settings) es = some s) : SoldOnce s.db := by
  have hrely := Sees.rely (I := OnceInv) (C := FindsCartFree) fun hi hv hc h => hi.effect hv hc h
  exact (exec_inv hrely ⟨OnceInv.fresh, fun _ h => (List.not_mem_nil h).elim⟩ hC hr).db.soldOnce

namespace Demo

/-- Two checkouts of one cart with different keys; both have started when the first commits. -/
def twoCashCheckouts : List RcEvent :=
  inTurn [setUp, fillCart "1" "cart"] ++
    [.start (payInCash "2" "cart"), .start (payInCash "3" "cart"), .commit 0, .commit 0]

end Demo

open Demo

theorem cart_sold_once_checkout :
    ∃ s, Runs.exec rcStep (RcState.fresh "tenant" settings) (inTurn checkout) = some s ∧ SoldOnce s.db := by
  have hs : (Runs.exec rcStep (RcState.fresh "tenant" settings) (inTurn checkout)).isSome = true := by
    decide +kernel
  obtain ⟨s, hr⟩ := Option.isSome_iff_exists.1 hs
  exact ⟨s, hr, cart_sold_once (by decide +kernel) hr⟩

/-- Both checkouts find the cart open. -/
theorem two_cash_checkouts_sell_cart_twice :
    ¬ ∀ (tenantId : Id) (settings : Settings) (es : List RcEvent) (s : RcState),
      Runs.exec rcStep (RcState.fresh tenantId settings) es = some s → SoldOnce s.db := by
  intro h
  have hx : (Runs.exec rcStep (RcState.fresh "tenant" settings) twoCashCheckouts).any (fun s =>
      1 < (s.db.orders.filter (·.cartId = "cart")).length) = true := by decide +kernel
  obtain ⟨s, hr, hs⟩ := (Option.any_eq_true _ _).1 hx
  exact absurd (of_decide_eq_true hs) (Nat.not_lt.2 ((h _ _ _ _ hr).order "cart"))

end Komanda
