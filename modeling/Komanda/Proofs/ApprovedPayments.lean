import Komanda.Proofs.Views

/-!
# An approved payment has its order

The two confirmations make the order of an attempt while they approve it, if its cart has not been
converted meanwhile and its key is free. Nothing keeps the cart for the attempt: the checkout in cash
does not ask for one.
-/

namespace Komanda
open Komanda.Core Table Runs

/-- Every approved attempt has exactly one order, which is paid or has been paid back. -/
def ApprovedHasOrder (db : Db) : Prop :=
  ∀ a ∈ db.attempts, a.status = .approved → ∃ o, db.orders.filter (·.paymentAttemptId = some a.id) = [o] ∧
    (o.paymentStatus = .paid ∨ o.paymentStatus = .refunded)

/-- An attempt that is approved has its order, or can still get it. -/
def ApprovedInTime (db : Db) (q : Request) : Prop :=
  ∀ a ∈ approves q db db, (∃ o ∈ db.orders, o.paymentAttemptId = some a.id) ∨ Sellable db a

instance (db : Db) (q : Request) : Decidable (ApprovedInTime db q) :=
  inferInstanceAs (Decidable (∀ a ∈ approves q db db, _))

section Edits
variable {q : Request} {v db : Db} {rows : List PaymentAttempt}

/-- Any other edit approves nothing. -/
theorem AttemptEdit.approved (h : AttemptEdit q v db rows) {a : PaymentAttempt} (ha : a ∈ rows)
    (hs : a.status = .approved) : a ∈ db.attempts := by
  have hupdate {p : PaymentAttempt → Bool} {f : PaymentAttempt → PaymentAttempt}
      (hf : ∀ b, (f b).status ≠ .approved) (ha : a ∈ Table.updateWhere p f db.attempts) :
      a ∈ db.attempts := by
    rcases mem_updateWhere_cases ha with ⟨ha, -⟩ | ⟨b, -, -, rfl⟩
    · exact ha
    · exact absurd hs (hf b)
  cases h with
  | same => exact ha
  | prepare _ _ _ _ _ _ _ input _ _ _ _ _ _ _ h =>
    cases h with
    | new hid =>
      rcases List.mem_append.1 ha with ha | ha
      · exact ha
      · rw [List.mem_singleton] at ha; subst ha; cases hs
    | existing => exact ha
  | attach => exact hupdate (fun _ hb => by cases hb) ha
  | cancel => exact hupdate (fun _ hb => by cases hb) ha
  | report attempt payment h hp =>
    refine hupdate (fun b hb => hp ?_) ha
    simp only [Webhook.reported] at hb
    revert hb
    cases payment.status <;> simp [Webhook.paymentStatus]
  | reject => exact hupdate (fun _ hb => by cases hb) ha
  | doubt => exact hupdate (fun _ hb => by cases hb) ha

end Edits

/-! ## The invariant -/

/-- What holds of the attempts and their orders in every such run. -/
structure PaidInv (c : Core) : Prop where
  keyed : Keyed c
  order : ∀ o ∈ c.orders, ∀ a, o.paymentAttemptId = some a →
    o.idempotencyKey = "payment-attempt:" ++ a ∧ o.source = .mercadopagoWebhook ∧
      (o.paymentStatus = .paid ∨ o.paymentStatus = .refunded)
  approved : ∀ a ∈ c.attempts, a.status = .approved → ∃ o ∈ c.orders, o.paymentAttemptId = some a.id

section Invariant
variable {q : Request} {v db : Db} {c : Core}

theorem PaidInv.fresh {tenantId : Id} {settings : Settings} : PaidInv (Db.fresh tenantId settings).core :=
  ⟨.empty, fun _ h => (List.not_mem_nil h).elim, fun _ h => (List.not_mem_nil h).elim⟩

/-- The order of an attempt outlives every request. -/
theorem Effect.order_of_attempt (h : Effect q v db c) {id : Id}
    (ho : ∃ o ∈ db.orders, o.paymentAttemptId = some id) :
    ∃ o ∈ c.orders, o.paymentAttemptId = some id := by
  obtain ⟨o, ho, ha⟩ := ho
  obtain ⟨o', ho', hf⟩ := h.facts.exists_mem ho
  exact ⟨o', ho', (Order.column Order.paymentAttemptId hf).trans ha⟩

/-- Only the confirmations name an attempt in the order they make, and they name a paid one. -/
theorem Sale.order {input : SnapshotInput} {order : Order} {cart : Option Cart}
    {movement : Option CashMovement} {rows : List PaymentAttempt} {n active : Nat} {id : Id}
    (h : Sale q v db input order cart movement rows)
    (horder : order = OrderRepository.newOrder input q.draw n active)
    (ha : order.paymentAttemptId = some id) : order.idempotencyKey = "payment-attempt:" ++ id ∧
      order.source = .mercadopagoWebhook ∧ order.paymentStatus = .paid := by
  have ha : input.paymentAttemptId = some id := by rw [horder] at ha; exact ha
  have hk : order.idempotencyKey = input.idempotencyKey := by rw [horder]; rfl
  have hs : order.source = input.source := by rw [horder]; rfl
  have hp : order.paymentStatus = input.paymentStatus := by rw [horder]; rfl
  rw [hk, hs, hp]
  cases h with
  | cash _ _ _ _ _ _ _ _ hn => rw [hn] at ha; cases ha
  | direct _ _ _ _ _ _ _ hn => rw [hn] at ha; cases ha
  | items _ _ _ _ _ hn => rw [hn] at ha; cases ha
  | paid attempt _ _ _ _ _ hs hp _ hk hn => rw [hn] at ha; cases ha; exact ⟨hk, hs, hp⟩
  | confirmed attempt updated _ _ _ _ hi => rw [hi] at ha ⊢; cases ha; exact ⟨rfl, rfl, rfl⟩

/-- The payment status that an operation gives to the order of a paid attempt. -/
theorem Revision.paid {order o : Order} {p : Order → Bool} {f : Order → Order}
    {movement : Option CashMovement} {released : Bool} {rows : List PaymentAttempt}
    (h : Revision q v db order p f movement released rows) (now : Instant)
    (hsource : order.source = .mercadopagoWebhook)
    (hpaid : order.paymentStatus = .paid ∨ order.paymentStatus = .refunded)
    (ho : o.paymentStatus = .paid ∨ o.paymentStatus = .refunded) :
    (bump f now o).paymentStatus = .paid ∨ (bump f now o).paymentStatus = .refunded := by
  cases h with
  | transition expectedVersion request =>
    show (if _ then _ else _) = _ ∨ (if _ then _ else _) = _
    split
    · exact .inr rfl
    · exact ho
  | collect => exact .inl rfl
  | refund => exact .inr rfl
  | cancel => exact ho
  | expire hq hg =>
    simp [ExpireUnpaidOrdersJob.expires, hsource] at hg
  | confirm => exact .inl rfl
  | refuse attempt payment h hp ha hs =>
    rw [hs] at hpaid
    rcases hpaid with hpaid | hpaid <;> cases hpaid

theorem PaidInv.effect (hi : PaidInv db.core) (hc : ApprovedInTime db q) (h : Effect q db db c) :
    PaidInv c := by
  have hkeyed := h.keyed hi.keyed
  have hold {id : Id} (ho : ∃ o ∈ db.orders, o.paymentAttemptId = some id) := h.order_of_attempt ho
  cases h with
  | editAttempts rows h =>
    exact ⟨hkeyed, hi.order, fun a haa hs => hold (hi.approved a (h.approved haa hs) hs)⟩
  | kiosk _ _ _ _ _ _ _ input _ _ _ _ _ _ _ _ ha =>
    refine ⟨hkeyed, hi.order, fun a haa hs => hold ?_⟩
    rcases mem_updateWhere_cases haa with ⟨hb, -⟩ | ⟨b, -, -, rfl⟩
    · cases ha with
      | new hid =>
        rcases List.mem_append.1 hb with hb | hb
        · exact hi.approved a hb hs
        · rw [List.mem_singleton] at hb; subst hb; cases hs
      | existing => exact hi.approved a hb hs
    · cases hs
  | approved attempt row rows h hu =>
    refine ⟨hkeyed, hi.order, fun a haa hs => ?_⟩
    rcases h.approved_cases haa hs with hid | haa
    · rw [hid]
      rcases hc attempt h.approves with ho | ⟨hcart, hkey⟩
      · exact ho
      · obtain ⟨updated, rfl⟩ := h.row_isSome hi.keyed.attempts .refl
        have ht := h.row_terms hi.keyed.attempts .refl
        rcases hu updated rfl with (hconv | ⟨o, ho⟩) | ho
        · rw [PaymentAttempt.column PaymentAttempt.cartId ht] at hconv
          obtain ⟨cart, hl, hne⟩ := (Option.any_eq_true _ _).1 hcart
          simp [hconv cart hl] at hne
        · rw [PaymentAttempt.column PaymentAttempt.id ht, hkey] at ho; cases ho
        · exact ho
    · exact hi.approved a haa hs
  | sold input order n active cart movement rows h horder hkey =>
    refine ⟨hkeyed, fun o ho a hoa => ?_, fun a haa hs => ?_⟩
    · rw [book_orders, sell_orders] at ho
      rcases List.mem_append.1 ho with ho | ho
      · exact hi.order o ho a hoa
      · rw [List.mem_singleton] at ho; subst ho
        obtain ⟨hk, hsource, hp⟩ := h.order horder hoa
        exact ⟨hk, hsource, .inl hp⟩
    · rw [book_attempts, sell_attempts] at haa
      cases h with
      | confirmed attempt updated _ _ h _ hin =>
        rcases h.approved_cases haa hs with hid | haa
        · refine ⟨order, by simp, ?_⟩
          rw [horder, hid]
          have ht := h.row_terms hi.keyed.attempts .refl
          rw [← PaymentAttempt.column PaymentAttempt.id ht, hin]; rfl
        · exact hold (hi.approved a haa hs)
      | _ => exact hold (hi.approved a haa hs)
  | revised order row p f movement released rows h hv hrow =>
    refine ⟨hkeyed, fun o ho a hoa => ?_, fun a haa hs => ?_⟩
    · rw [release_orders, book_orders, revise_orders] at ho
      rcases h.rows hi.keyed.orders hv hrow ho with ⟨ho, -⟩ | rfl
      · exact hi.order o ho a hoa
      · have hf := h.facts q.draw.now order
        rw [Order.column Order.paymentAttemptId hf] at hoa
        obtain ⟨hk, hsource, hpaid⟩ := hi.order order hv a hoa
        exact ⟨(Order.column Order.idempotencyKey hf).trans hk,
          (Order.column Order.source hf).trans hsource, h.paid q.draw.now hsource hpaid hpaid⟩
    · rw [release_attempts, book_attempts, revise_attempts] at haa
      cases h with
      | confirm attempt _ h hoa =>
        rcases h.approved_cases haa hs with hid | haa
        · exact hold ⟨order, hv, hid ▸ hoa⟩
        · exact hold (hi.approved a haa hs)
      | refuse attempt payment h hp hoa =>
        rcases mem_updateWhere_cases haa with ⟨haa, -⟩ | ⟨b, -, -, rfl⟩
        · exact hold (hi.approved a haa hs)
        · cases hs
      | _ => exact hold (hi.approved a haa hs)
  | _ => exact ⟨hkeyed, hi.order, hi.approved⟩

end Invariant

/-- A unique key has at most one row, also when another column selects it. -/
theorem filter_eq_singleton {α κ : Type} [DecidableEq κ] {k : α → κ} {p : α → Bool} {rows : List α} {r : α}
    (hu : UniqueOn k rows) (hr : r ∈ rows) (hp : p r = true) (hk : ∀ x ∈ rows, p x = true → k x = k r) :
    rows.filter p = [r] := by
  rw [← hu.filter_eq hr]
  refine List.filter_congr fun x hx => ?_
  rw [Bool.eq_iff_iff, decide_eq_true_iff]
  refine ⟨hk x hx, fun h => ?_⟩
  rw [hu.eq hx hr h]; exact hp

theorem PaidInv.approvedHasOrder {db : Db} (hi : PaidInv db.core) : ApprovedHasOrder db := by
  intro a ha hs
  obtain ⟨o, ho, hoa⟩ := hi.approved a ha hs
  obtain ⟨hk, -, hp⟩ := hi.order o ho a.id hoa
  refine ⟨o, filter_eq_singleton hi.keyed.keys ho (by simpa using hoa) fun x hx hxa => ?_, hp⟩
  rw [hk, (hi.order x hx a.id (by simpa using hxa)).1]

/-- In a run that approves attempts in time, an approved attempt has its paid order. -/
theorem approved_has_order {tenantId : Id} {settings : Settings} {qs : List Request} {db : Db}
    (hC : Along step ApprovedInTime (Db.fresh tenantId settings) qs)
    (hr : Runs.exec step (Db.fresh tenantId settings) qs = some db) : ApprovedHasOrder db :=
  (run_inv (I := PaidInv) (fun _ _ _ hi hc h => hi.effect hc h) .fresh hC hr).approvedHasOrder

/-! ## A store -/

namespace Demo

def settings : Settings where
  salesEnabled := some true
  printingEnabled := true
  orderingAvailable := true
  onlinePayments := true
  defaultCurrency := "ARS"
  primaryLocationId := some "location"
  expressRetail := false
  ownerCashAlertWhatsAppPhone := none

def tenant : PublicTenant where
  locationId := "location"
  currency := "ARS"
  expressRetail := false
  openingHours := none
  zonedParts := fun t => (.monday, t / 60000 % 1440)

def burger : CatalogItem where
  id := "burger"
  categoryId := "food"
  name := "Burger"
  price := 1000
  currency := "ARS"
  itemType := .unit
  trackStock := false
  stockQuantity := 0
  status := .active
  media := none

def account : IntegrationAccount where
  id := "account"
  providerAccountId := "seller"
  status := .active
  webhookRoutingKey := "route"
  decryptable := true

def customer : Customer := { name := "Ana" }

/-- The `n`-th call, at time `now`. -/
def call (now : Instant) (n : String) (action : Action) : Request where
  action
  draw := { now, orderId := "order-" ++ n, pickupPin := "1234", movementId := "movement-" ++ n,
            printJobId := "job-" ++ n }

def setUp : Request := call 0 "0" (.configure
  { settings, accounts := [account], items := [burger], combos := [], addonGroups := [],
    itemAddonGroups := [] })

def fillCart (n cartId : String) : Request := call 1 n (.createCart tenant
  { lines := [{ isCombo := false, resourceId := "burger", quantity := 1 }] } ("key-" ++ n) ("record-" ++ n)
  cartId)

def payOnline (n cartId attemptId : String) : Request := call 2 n
  (.prepareSession tenant cartId { customer } ("key-" ++ n) ("record-" ++ n) attemptId)

def issued (n : String) : Request :=
  call 3 n (.attachSession 0 { preferenceId := "preference-" ++ n, redirectUrl := "https" })

def payInCash (n cartId : String) : Request :=
  call 4 n (.createCashOrder tenant cartId { customer } ("key-" ++ n) ("record-" ++ n))

/-- The provider reports a payment of the preference that call `n` was given. -/
def paid (now : Instant) (event n : String) (status : ProviderStatus) : Request := call now event (.webhook
  { routingKey := "route", providerEventId := event, topic := "payment" }
  { id := "payment-" ++ n, status, preferenceId := some ("preference-" ++ n) } ("event-" ++ event))

/-- A checkout that is paid online. -/
def checkout : List Request :=
  [setUp, fillCart "1" "cart", payOnline "2" "cart" "attempt", issued "3", paid 5 "4" "3" .approved]

/-- One that is also paid in cash before the payment is approved. -/
def cashMeanwhile : List Request :=
  [setUp, fillCart "1" "cart", payOnline "2" "cart" "attempt", issued "3", payInCash "4" "cart",
    paid 5 "5" "3" .approved]

end Demo

open Demo

theorem approved_has_order_checkout :
    ∃ db, Runs.exec step (Db.fresh "tenant" settings) checkout = some db ∧ ApprovedHasOrder db := by
  have hs : (Runs.exec step (Db.fresh "tenant" settings) checkout).isSome = true := by decide +kernel
  obtain ⟨db, hr⟩ := Option.isSome_iff_exists.1 hs
  exact ⟨db, hr, approved_has_order (by decide +kernel) hr⟩

/-- The checkout in cash converts the cart while the payment is under way: the payment is approved, and
there is no order of it. -/
theorem cash_checkout_takes_cart : ¬ ∀ (tenantId : Id) (settings : Settings) (qs : List Request) (db : Db),
    Runs.exec step (Db.fresh tenantId settings) qs = some db → ApprovedHasOrder db := by
  intro h
  have hx : (Runs.exec step (Db.fresh "tenant" settings) cashMeanwhile).any (fun db =>
      db.attempts.any (fun a => a.id = "attempt" && a.status = .approved) &&
        (db.orders.filter (·.paymentAttemptId = some "attempt")).isEmpty) = true := by decide +kernel
  obtain ⟨db, hr, hdb⟩ := (Option.any_eq_true _ _).1 hx
  rw [Bool.and_eq_true, List.any_eq_true, List.isEmpty_iff] at hdb
  obtain ⟨⟨a, ha, hs⟩, hn⟩ := hdb
  simp only [Bool.and_eq_true, decide_eq_true_eq] at hs
  obtain ⟨o, ho, -⟩ := h _ _ _ _ hr a ha hs.2
  rw [hs.1, hn] at ho
  cases ho

end Komanda
