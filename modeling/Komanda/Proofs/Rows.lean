import Komanda.Proofs.Effects

/-!
# What stays of a row

Payment attempts and orders are never deleted; `terms` and `facts` are the columns of them that no
request changes. Their keys, and those of carts, stay unique.
-/

namespace Komanda
open Komanda.Core Table

/-- An attempt without the columns that the provider's news change. -/
def PaymentAttempt.terms (a : PaymentAttempt) : PaymentAttempt :=
  { a with
    providerPreferenceId := none, providerPaymentId := none, status := .initiated, processedAt := none,
    failureCode := none }

/-- An order without the columns that the operations on it change. -/
def Order.facts (o : Order) : Order :=
  { o with
    fulfillmentStatus := .approved, paymentStatus := .pending, deliveredAt := none, version := 0,
    updatedAt := 0 }

theorem PaymentAttempt.column {α : Type} {a b : PaymentAttempt} (g : PaymentAttempt → α)
    (h : a.terms = b.terms) (hg : ∀ a, g a.terms = g a := by intro; rfl) : g a = g b := by
  rw [← hg a, ← hg b, h]

theorem Order.column {α : Type} {o r : Order} (g : Order → α) (h : o.facts = r.facts)
    (hg : ∀ o, g o.facts = g o := by intro; rfl) : g o = g r := by
  rw [← hg o, ← hg r, h]

/-- The new table has the rows of the old one with the same columns `k`, and perhaps further ones. -/
def Extends {α κ : Type} (k : α → κ) (rows rows' : List α) : Prop :=
  ∃ new : List α, rows'.map k = (rows ++ new).map k

section Extends
variable {α κ ι : Type} {k : α → κ} {g : α → ι} {rows rows' : List α} {p : α → Bool} {f : α → α} {r : α}

theorem Extends.of_eq (h : rows'.map k = rows.map k) : Extends k rows rows' := ⟨[], by simpa using h⟩

theorem Extends.append (new : List α) : Extends k rows (rows ++ new) := ⟨new, rfl⟩

/-- An old row still has a row with its columns. -/
theorem Extends.exists_mem (h : Extends k rows rows') (hr : r ∈ rows) : ∃ r' ∈ rows', k r' = k r := by
  obtain ⟨new, h⟩ := h
  have hm : k r ∈ rows'.map k := by
    rw [h]; exact List.mem_map_of_mem (List.mem_append_left _ hr)
  exact List.mem_map.1 hm

/-- A column that `k` determines. -/
theorem Extends.column {m : κ → ι} (h : Extends k rows rows') (hg : ∀ r, m (k r) = g r) : Extends g rows rows' := by
  have hmap (l : List α) : l.map g = (l.map k).map m := by
    rw [List.map_map]
    exact List.map_congr_left fun r _ => (hg r).symm
  obtain ⟨new, h⟩ := h
  exact ⟨new, by rw [hmap, h, ← hmap]⟩

theorem exists_mem_of_map_eq (h : rows'.map k = rows.map k) (hr : r ∈ rows') : ∃ q ∈ rows, k q = k r := by
  have hm : k r ∈ rows.map k := by
    rw [← h]; exact List.mem_map_of_mem hr
  exact List.mem_map.1 hm

/-- A column that `k` determines stays unique. -/
theorem unique_of_map_eq {m : κ → ι} (hg : ∀ r, m (k r) = g r) (h : rows'.map k = rows.map k)
    (hu : UniqueOn g rows) : UniqueOn g rows' := by
  have hmap (l : List α) : l.map g = (l.map k).map m := by
    rw [List.map_map]; exact List.map_congr_left fun r _ => (hg r).symm
  rw [UniqueOn, hmap, h, ← hmap]; exact hu

end Extends

section Effects
variable {q : Request} {v db : Db} {c : Core} {rows : List PaymentAttempt}

theorem Approval.terms {attempt : PaymentAttempt} {row : Option PaymentAttempt}
    (h : Approval q v db attempt row rows) :
    rows.map PaymentAttempt.terms = db.attempts.map PaymentAttempt.terms := by
  cases h with
  | webhook payment _ hr hp hrows => subst hrows; exact map_updateWhere fun _ _ => rfl
  | reconcile payment _ hr hp hrows => subst hrows; exact map_updateWhere fun _ _ => rfl

theorem Sale.terms {input : SnapshotInput} {order : Order} {cart : Option Cart}
    {movement : Option CashMovement} (h : Sale q v db input order cart movement rows) :
    rows.map PaymentAttempt.terms = db.attempts.map PaymentAttempt.terms := by
  cases h with
  | confirmed _ _ _ _ h => exact h.terms
  | _ => rfl

theorem Revision.terms {order : Order} {p : Order → Bool} {f : Order → Order}
    {movement : Option CashMovement} {released : Bool}
    (h : Revision q v db order p f movement released rows) :
    rows.map PaymentAttempt.terms = db.attempts.map PaymentAttempt.terms := by
  cases h with
  | confirm _ _ h => exact h.terms
  | refuse => exact map_updateWhere fun _ _ => rfl
  | _ => rfl

theorem preferredAt_terms {attemptId accountId : Id} {preferenceId : String} :
    (preferredAt attemptId accountId preferenceId rows).map PaymentAttempt.terms =
      rows.map PaymentAttempt.terms :=
  map_updateWhere fun _ _ => rfl

/-- The attempts that a preparation makes or finds. -/
theorem AttemptFor.cases {input : IntegrationRepository.CreateAttemptInput} {id : Id}
    {rows' : List PaymentAttempt} {x : PaymentAttempt} (h : AttemptFor input id rows x rows') :
    rows' = rows ∨ rows' = rows ++ [input.row id] ∧ ∀ b ∈ rows, b.id ≠ id := by
  cases h with
  | new hid => exact .inr ⟨rfl, fun b hb => (hid b hb).1⟩
  | existing => exact .inl rfl

/-- The attempts get other terms only by a row for the cart that was read. -/
theorem AttemptEdit.terms (h : AttemptEdit q v db rows) :
    rows.map PaymentAttempt.terms = db.attempts.map PaymentAttempt.terms ∨
    ∃ cart ∈ v.carts, ∃ (input : IntegrationRepository.CreateAttemptInput) (id : Id), input.cartId = cart.id ∧
      input.amount = cart.total ∧ rows = db.attempts ++ [input.row id] ∧ ∀ b ∈ db.attempts, b.id ≠ id := by
  cases h with
  | same => exact .inl rfl
  | prepare _ _ _ _ _ id cart input _ _ _ hcart _ _ hi h =>
    rcases h.cases with rfl | ⟨hrows, hid⟩
    · exact .inl rfl
    · exact .inr ⟨cart, lookup_mem hcart, input, id, hi.1.trans (lookup_key hcart).symm, hi.2, hrows, hid⟩
  | _ => exact .inl (map_updateWhere fun _ _ => rfl)

/-- No request changes the terms of an attempt. -/
theorem Effect.terms (h : Effect q v db c) : Extends PaymentAttempt.terms db.attempts c.attempts := by
  cases h with
  | editAttempts _ h =>
    rcases h.terms with h | ⟨_, _, _, _, _, _, h, _⟩
    · exact .of_eq h
    · rw [h]; exact .append _
  | kiosk _ _ _ _ _ _ _ _ _ _ _ _ _ _ _ _ ha =>
    rcases ha.cases with rfl | ⟨h, _⟩
    · exact .of_eq preferredAt_terms
    · exact ⟨_, preferredAt_terms.trans (congrArg _ h)⟩
  | approved _ _ _ h => exact .of_eq h.terms
  | sold _ _ _ _ _ _ _ h => exact .of_eq (by simpa using h.terms)
  | revised _ _ _ _ _ _ _ h => exact .of_eq (by simpa using h.terms)
  | _ => exact .of_eq rfl

theorem Revision.facts {order : Order} {p : Order → Bool} {f : Order → Order}
    {movement : Option CashMovement} {released : Bool} {rows : List PaymentAttempt}
    (h : Revision q v db order p f movement released rows) (now : Instant) (o : Order) :
    (bump f now o).facts = o.facts := by
  cases h <;> rfl

/-- No request changes the facts of an order. -/
theorem Effect.facts (h : Effect q v db c) : Extends Order.facts db.orders c.orders := by
  cases h with
  | sold => rw [book_orders, sell_orders]; exact .append _
  | revised _ _ _ _ _ _ _ h =>
    rw [release_orders, book_orders, revise_orders]
    exact .of_eq (map_updateWhere fun o _ => h.facts _ o)
  | _ => exact .of_eq rfl

/-- An order of the new table is an old one, or has just been sold. -/
theorem Effect.order_cases (h : Effect q v db c) {o : Order} (ho : o ∈ c.orders) :
    (∃ r ∈ db.orders, o.facts = r.facts) ∨
    ∃ input n active cart movement rows, Sale q v db input o cart movement rows ∧
      o = OrderRepository.newOrder input q.draw n active ∧ input.cart.status ≠ .converted := by
  cases h with
  | sold input order n active cart movement rows h horder hkey hopen =>
    rw [book_orders, sell_orders] at ho
    rcases List.mem_append.1 ho with ho | ho
    · exact .inl ⟨o, ho, rfl⟩
    · rw [List.mem_singleton] at ho
      exact .inr ⟨input, n, active, cart, movement, rows, ho ▸ h, ho.trans horder, hopen⟩
  | revised order row p f movement released rows h =>
    rw [release_orders, book_orders, revise_orders] at ho
    rcases mem_updateWhere_cases ho with ⟨ho, -⟩ | ⟨r, hr, -, rfl⟩
    · exact .inl ⟨o, ho, rfl⟩
    · exact .inl ⟨r, hr, h.facts _ r⟩
  | _ => exact .inl ⟨o, ho, rfl⟩

end Effects

/-! ## Keys -/

structure Keyed (c : Core) : Prop where
  attempts : UniqueOn PaymentAttempt.id c.attempts
  orders : UniqueOn Order.id c.orders
  keys : UniqueOn Order.idempotencyKey c.orders

section Keyed
variable {q : Request} {v db : Db} {c : Core}

theorem attempts_unique {rows : List PaymentAttempt}
    (h : rows.map PaymentAttempt.terms = db.attempts.map PaymentAttempt.terms)
    (hu : UniqueOn PaymentAttempt.id db.attempts) : UniqueOn PaymentAttempt.id rows :=
  unique_of_map_eq (k := PaymentAttempt.terms) (m := PaymentAttempt.id) (fun _ => rfl) h hu

theorem Keyed.empty {settings : Settings} {tenantId : Id} : Keyed (Db.fresh tenantId settings).core :=
  ⟨.nil, .nil, .nil⟩

theorem Effect.keyed (h : Effect q v db c) (hi : Keyed db.core) : Keyed c := by
  cases h with
  | editAttempts _ h =>
    rcases h.terms with h | ⟨_, _, _, _, _, _, h, hid⟩
    · exact ⟨attempts_unique h hi.attempts, hi.orders, hi.keys⟩
    · rw [h]; exact ⟨hi.attempts.append hid, hi.orders, hi.keys⟩
  | kiosk _ _ _ _ _ _ _ _ _ _ _ _ _ _ _ _ ha =>
    refine ⟨UniqueOn.updateWhere ?_ fun _ _ => rfl, hi.orders, hi.keys⟩
    rcases ha.cases with rfl | ⟨h, hid⟩
    · exact hi.attempts
    · rw [h]; exact hi.attempts.append hid
  | approved _ _ _ h => exact ⟨attempts_unique h.terms hi.attempts, hi.orders, hi.keys⟩
  | sold input order n active cart movement rows h horder hkey hopen hnew =>
    have hne (o : Order) (ho : o ∈ db.orders) :
        o.id ≠ order.id ∧ o.idempotencyKey ≠ order.idempotencyKey := by
      have := hnew o ho
      simp only [OrderRepository.conflicts, Bool.or_eq_false_iff, decide_eq_false_iff_not] at this
      exact this.1
    refine ⟨by simpa using attempts_unique h.terms hi.attempts, ?_, ?_⟩
    · rw [book_orders, sell_orders]; exact hi.orders.append fun o ho => (hne o ho).1
    · rw [book_orders, sell_orders]; exact hi.keys.append fun o ho => (hne o ho).2
  | revised order row p f movement released rows h =>
    have hf (o : Order) := h.facts q.draw.now o
    refine ⟨by simpa using attempts_unique h.terms hi.attempts, ?_, ?_⟩
    · simpa using hi.orders.updateWhere fun o _ => Order.column Order.id (hf o)
    · simpa using hi.keys.updateWhere fun o _ => Order.column Order.idempotencyKey (hf o)
  | _ => exact ⟨hi.attempts, hi.orders, hi.keys⟩

/-- An operation updates rows with the id of the row its guards saw. -/
theorem Revision.row_id {order row : Order} {p : Order → Bool} {f : Order → Order}
    {movement : Option CashMovement} {released : Bool} {rows : List PaymentAttempt}
    (h : Revision q v db order p f movement released rows) (hp : p row = true) : row.id = order.id := by
  cases h with
  | confirm => exact of_decide_eq_true hp
  | refuse => exact of_decide_eq_true hp
  | _ => exact of_decide_eq_true (Bool.and_eq_true_iff.1 hp).1

/-- When nothing has changed since, it updates that row and no other. -/
theorem Revision.rows {order row o : Order} {p : Order → Bool} {f g : Order → Order}
    {movement : Option CashMovement} {released : Bool} {rows : List PaymentAttempt}
    (h : Revision q db db order p f movement released rows) (hu : UniqueOn Order.id db.orders)
    (hv : order ∈ db.orders) (hrow : db.orders.find? p = some row)
    (ho : o ∈ Table.updateWhere p g db.orders) : (o ∈ db.orders ∧ o.id ≠ order.id) ∨ o = g order := by
  have hp : p order = true := by
    have hr : row = order := hu.eq (List.mem_of_find?_eq_some hrow) hv (h.row_id (List.find?_some hrow))
    exact hr ▸ List.find?_some hrow
  rcases mem_updateWhere_cases ho with ⟨ho, hn⟩ | ⟨r, hr, hpr, rfl⟩
  · refine .inl ⟨ho, fun hid => ?_⟩
    rw [hu.eq ho hv hid, hp] at hn; cases hn
  · exact .inr (by rw [hu.eq hr hv (h.row_id hpr)])

end Keyed

end Komanda
