import Komanda.Proofs.ApprovedPayments

/-!
# The customer is charged what the order says

A payment attempt takes its amount from the cart once, the order its total from the cart later. In
between, the coupon of the cart can be applied, removed or revalidated, and nothing asks whether an
attempt is under way.
-/

namespace Komanda
open Komanda.Core Table Runs

/-- An order of an attempt costs the attempt's amount. -/
def ChargedIsTotal (db : Db) : Prop :=
  ∀ o ∈ db.orders, ∀ id, o.paymentAttemptId = some id →
    ∃ a, Table.lookup PaymentAttempt.id id db.attempts = some a ∧ o.total = a.amount

/-- A request gives a cart that has an attempt no other total than the attempt's amount, unless the cart
is converted already. -/
def KeepsCharged (db : Db) (q : Request) : Prop :=
  ∀ r ∈ repriced q db, ∀ a ∈ db.attempts, a.cartId = r.1 →
    a.amount = r.2 ∨ (Table.lookup Cart.id r.1 db.carts).any (·.status = .converted) = true

instance (db : Db) (q : Request) : Decidable (KeepsCharged db q) :=
  inferInstanceAs (Decidable (∀ r ∈ repriced q db, _))

/-- The cart costs what the attempt charges, until it is converted. -/
def Matches (a : PaymentAttempt) (carts : List Cart) : Prop :=
  ∃ cart ∈ carts, cart.id = a.cartId ∧ (cart.status = .converted ∨ cart.total = a.amount)

structure ChargeInv (c : Core) : Prop where
  keyed : Keyed c
  carts : UniqueOn Cart.id c.carts
  charged : ∀ a ∈ c.attempts, Matches a c.carts
  order : ∀ o ∈ c.orders, ∀ id, o.paymentAttemptId = some id →
    ∃ a ∈ c.attempts, a.id = id ∧ o.total = a.amount

section Invariant
variable {q : Request} {v db : Db} {c : Core} {a b : PaymentAttempt} {rows : List PaymentAttempt}

theorem ChargeInv.fresh {tenantId : Id} {settings : Settings} :
    ChargeInv (Db.fresh tenantId settings).core :=
  ⟨.empty, .nil, fun _ h => (List.not_mem_nil h).elim, fun _ h => (List.not_mem_nil h).elim⟩

theorem Matches.congr {carts : List Cart} (h : Matches b carts) (ht : a.terms = b.terms) :
    Matches a carts := by
  unfold Matches
  rw [PaymentAttempt.column PaymentAttempt.cartId ht, PaymentAttempt.column PaymentAttempt.amount ht]
  exact h

theorem Matches.append {carts new : List Cart} (h : Matches a carts) : Matches a (carts ++ new) := by
  obtain ⟨cart, hc, h⟩ := h
  exact ⟨cart, List.mem_append_left _ hc, h⟩

/-- Converting a cart frees it from its attempts. -/
theorem Matches.convert {cartId : Id} {c : Core} (h : Matches a c.carts) :
    Matches a (convertCart cartId c).carts := by
  obtain ⟨cart, hc, hid, h⟩ := h
  by_cases hm : cart.id = cartId
  · exact ⟨_, mem_updateWhere_of hc (decide_eq_true hm), hid, .inl rfl⟩
  · exact ⟨cart, mem_updateWhere_of_not hc (decide_eq_false hm), hid, h⟩

/-- Attempts with the terms of old ones match the same carts. -/
theorem matches_of_terms {carts : List Cart} (hi : ∀ b ∈ db.attempts, Matches b carts)
    (h : rows.map PaymentAttempt.terms = db.attempts.map PaymentAttempt.terms) (ha : a ∈ rows) :
    Matches a carts := by
  obtain ⟨b, hb, ht⟩ := exists_mem_of_map_eq h ha
  exact (hi b hb).congr ht.symm

/-- An order of an attempt is sold from the cart of the attempt. -/
theorem Sale.cart_of_attempt {input : SnapshotInput} {order : Order} {cart : Option Cart}
    {movement : Option CashMovement} {n active : Nat} {id : Id}
    (h : Sale q db db input order cart movement rows) (hu : UniqueOn PaymentAttempt.id db.attempts)
    (horder : order = OrderRepository.newOrder input q.draw n active)
    (ho : order.paymentAttemptId = some id) :
    ∃ a ∈ db.attempts, a.id = id ∧ Table.lookup Cart.id a.cartId db.carts = some input.cart := by
  have ho : input.paymentAttemptId = some id := by rw [horder] at ho; exact ho
  cases h with
  | cash _ _ _ _ _ _ _ _ hn => rw [hn] at ho; cases ho
  | direct _ _ _ _ _ _ _ hn => rw [hn] at ho; cases ho
  | items _ _ _ _ _ hn => rw [hn] at ho; cases ho
  | paid attempt _ _ hv _ hcart _ _ _ _ hn =>
    rw [hn] at ho; cases ho
    exact ⟨attempt, lookup_mem hv, rfl, hcart⟩
  | confirmed attempt updated _ _ h hcart hi =>
    rw [hi] at ho; cases ho
    have ht := h.row_terms hu .refl
    refine ⟨attempt, h.mem, (PaymentAttempt.column PaymentAttempt.id ht).symm, ?_⟩
    rw [← PaymentAttempt.column PaymentAttempt.cartId ht]; exact hcart

/-- The order of an attempt keeps the attempt's amount. -/
theorem Effect.charged_order (h : Effect q db db c) (hi : ChargeInv db.core) {o : Order}
    (ho : o ∈ c.orders) {id : Id} (hoa : o.paymentAttemptId = some id) :
    ∃ a ∈ c.attempts, a.id = id ∧ o.total = a.amount := by
  have hold {a : PaymentAttempt} (ha : a ∈ db.attempts) (hid : a.id = id) (hamount : o.total = a.amount) :
      ∃ a ∈ c.attempts, a.id = id ∧ o.total = a.amount := by
    obtain ⟨a', ha', ht⟩ := h.terms.exists_mem ha
    exact ⟨a', ha', (PaymentAttempt.column PaymentAttempt.id ht).trans hid,
      hamount.trans (PaymentAttempt.column PaymentAttempt.amount ht).symm⟩
  rcases h.order_cases ho with ⟨r, hr, hf⟩ | ⟨input, n, active, cart, movement, rows, hsale, horder, hopen⟩
  · obtain ⟨a, ha, hid, hamount⟩ := hi.order r hr id ((Order.column Order.paymentAttemptId hf) ▸ hoa)
    exact hold ha hid ((Order.column Order.total hf).trans hamount)
  · obtain ⟨a, ha, hid, hcart⟩ := hsale.cart_of_attempt hi.keyed.attempts horder hoa
    obtain ⟨x, hx, hxid, hmatch⟩ := hi.charged a ha
    have hxc : x = input.cart := hi.carts.eq hx (lookup_mem hcart) (hxid.trans (lookup_key hcart).symm)
    subst hxc
    refine hold ha hid ?_
    rw [horder]
    exact hmatch.resolve_left hopen

theorem ChargeInv.effect (hi : ChargeInv db.core) (hc : KeepsCharged db q) (h : Effect q db db c) :
    ChargeInv c := by
  have hkeyed := h.keyed hi.keyed
  have horder (o : Order) (ho : o ∈ c.orders) (id : Id) (hoa : o.paymentAttemptId = some id) :=
    h.charged_order hi ho hoa
  cases h with
  | editCarts carts h =>
    cases h with
    | same => exact ⟨hkeyed, hi.carts, hi.charged, horder⟩
    | add cart hid hs =>
      exact ⟨hkeyed, hi.carts.append hid, fun a ha => (hi.charged a ha).append, horder⟩
    | reprice cartId r hr =>
      refine ⟨hkeyed, hi.carts.updateWhere fun _ _ => rfl, fun a ha => ?_, horder⟩
      obtain ⟨cart, hcart, hid, hmatch⟩ := hi.charged a ha
      by_cases hm : cart.id = cartId
      · refine ⟨_, mem_updateWhere_of hcart (decide_eq_true hm), hid, ?_⟩
        rcases hc _ hr a ha (hid.symm.trans hm) with hamount | hconv
        · exact .inr hamount.symm
        · refine .inl ?_
          have hl : Table.lookup Cart.id cartId db.carts = some cart := hm ▸ hi.carts.lookup hcart
          rw [hl] at hconv
          exact of_decide_eq_true hconv
      · exact ⟨cart, mem_updateWhere_of_not hcart (decide_eq_false hm), hid, hmatch⟩
  | editAttempts rows h =>
    refine ⟨hkeyed, hi.carts, fun a ha => ?_, horder⟩
    rcases h.terms with h | ⟨cart, hcart, input, id, hid, hamount, h, -⟩
    · exact matches_of_terms hi.charged h ha
    · rw [h] at ha
      rcases List.mem_append.1 ha with ha | ha
      · exact hi.charged a ha
      · rw [List.mem_singleton] at ha; subst ha
        exact ⟨cart, hcart, hid.symm, .inr hamount.symm⟩
  | kiosk cart _ _ _ _ _ _ input _ _ x rows _ hid hs hin ha =>
    refine ⟨hkeyed, hi.carts.append hid, fun a haa => ?_, horder⟩
    obtain ⟨b, hb, ht⟩ := exists_mem_of_map_eq preferredAt_terms haa
    refine Matches.congr ?_ ht.symm
    rcases ha.cases with rfl | ⟨h, -⟩
    · exact (hi.charged b hb).append
    · rw [h] at hb
      rcases List.mem_append.1 hb with hb | hb
      · exact (hi.charged b hb).append
      · rw [List.mem_singleton] at hb; subst hb
        exact ⟨cart, by simp, hin.1.symm, .inr hin.2.symm⟩
  | approved attempt row rows h =>
    exact ⟨hkeyed, hi.carts, fun a ha => matches_of_terms hi.charged h.terms ha, horder⟩
  | sold input order n active cart movement rows h _ _ _ _ hcart =>
    refine ⟨hkeyed, ?_, fun a ha => ?_, horder⟩
    · rw [book_carts, sell_carts]
      refine UniqueOn.updateWhere ?_ fun _ _ => rfl
      cases cart with
      | none => rw [Option.toList_none, List.append_nil]; exact hi.carts
      | some cart => exact hi.carts.append (hcart cart rfl)
    · rw [book_attempts, sell_attempts] at ha
      rw [book_carts, sell_carts]
      exact (matches_of_terms hi.charged h.terms ha).append.convert
  | revised order row p f movement released rows h =>
    refine ⟨hkeyed, by simpa using hi.carts, fun a ha => ?_, horder⟩
    rw [release_attempts, book_attempts, revise_attempts] at ha
    rw [release_carts, book_carts, revise_carts]
    exact matches_of_terms hi.charged h.terms ha
  | _ => exact ⟨hkeyed, hi.carts, hi.charged, horder⟩

end Invariant

/-- In a run that gives no cart with an attempt another total, an order costs what was charged. -/
theorem charged_is_total {tenantId : Id} {settings : Settings} {qs : List Request} {db : Db}
    (hC : Along step KeepsCharged (Db.fresh tenantId settings) qs)
    (hr : Runs.exec step (Db.fresh tenantId settings) qs = some db) : ChargedIsTotal db := by
  have hi := run_inv (I := ChargeInv) (fun _ _ _ hi hc h => hi.effect hc h) .fresh hC hr
  intro o ho id hoa
  obtain ⟨a, ha, hid, hamount⟩ := hi.order o ho id hoa
  exact ⟨a, hid ▸ hi.keyed.attempts.lookup ha, hamount⟩

namespace Demo

/-- A coupon of ten percent. -/
def tenPercent : Discount where
  id := "discount"
  code := "TEN"
  name := "Ten percent"
  discountType := .percentage
  discountValue := 1000
  minOrderAmount := 0
  maxRedemptions := none
  redemptionsCount := 0
  startsAt := 0
  endsAt := none
  scope := .global
  applicableTender := .all
  targetCategoryIds := []
  targetItemIds := []
  isActive := true
  version := 1
  deletedAt := none

def offer (coupon : Discount) : Request := call 0 "coupon" (.createDiscount coupon)

def useCoupon (now : Instant) (cartId : Id) : Request :=
  call now "apply" (.applyDiscount cartId "TEN" none)

/-- A coupon is applied before the customer pays. -/
def couponBefore : List Request :=
  [setUp, offer tenPercent, fillCart "1" "cart", useCoupon 2 "cart", payOnline "2" "cart" "attempt",
    issued "3", paid 5 "4" "3" .approved]

/-- It is applied while the customer pays. -/
def couponMeanwhile : List Request :=
  [setUp, offer tenPercent, fillCart "1" "cart", payOnline "2" "cart" "attempt", issued "3",
    useCoupon 4 "cart", paid 5 "4" "3" .approved]

end Demo

open Demo

theorem charged_is_total_coupon :
    ∃ db, Runs.exec step (Db.fresh "tenant" settings) couponBefore = some db ∧ ChargedIsTotal db := by
  have hs : (Runs.exec step (Db.fresh "tenant" settings) couponBefore).isSome = true := by decide +kernel
  obtain ⟨db, hr⟩ := Option.isSome_iff_exists.1 hs
  exact ⟨db, hr, charged_is_total (by decide +kernel) hr⟩

/-- The customer pays 10.00 and the order says 9.00. -/
theorem coupon_reprices_charged_cart :
    ¬ ∀ (tenantId : Id) (settings : Settings) (qs : List Request) (db : Db),
      Runs.exec step (Db.fresh tenantId settings) qs = some db → ChargedIsTotal db := by
  intro h
  have hx : (Runs.exec step (Db.fresh "tenant" settings) couponMeanwhile).any (fun db =>
      db.orders.any (fun o => o.paymentAttemptId = some "attempt" && o.total = 900) &&
        (Table.lookup PaymentAttempt.id "attempt" db.attempts).all (·.amount = 1000)) = true := by
    decide +kernel
  obtain ⟨db, hr, hdb⟩ := (Option.any_eq_true _ _).1 hx
  rw [Bool.and_eq_true, List.any_eq_true] at hdb
  obtain ⟨⟨o, ho, hot⟩, hall⟩ := hdb
  simp only [Bool.and_eq_true, decide_eq_true_eq] at hot
  obtain ⟨a, ha, hamount⟩ := h _ _ _ _ hr o ho "attempt" hot.1
  rw [ha] at hall
  have ham : a.amount = 1000 := of_decide_eq_true hall
  rw [hot.2, ham] at hamount
  cases hamount

end Komanda
