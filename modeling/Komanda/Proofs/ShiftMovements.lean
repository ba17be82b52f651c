import Komanda.Proofs.OwnOrders
import Komanda.Proofs.Footprints
import Komanda.Proofs.ShiftCash

/-!
# The shift of a movement

Collecting, cancelling and refunding look up the shift that is open at the order's location, and write it into the
movement they record. The two sales at the counter record their deposit without a shift.
-/

namespace Komanda
open Transaction Komanda.Core Table Runs

/-- The rows that a step adds to the ledger are of the shift that is open at the location of their order, and of none
if none is open. -/
def BooksToShift (db : Db) (q : Request) : Prop :=
  ∀ db' ∈ step db q, ∀ m ∈ db'.movements.drop db.movements.length, ∀ o ∈ db'.orders, m.orderId = some o.id →
    m.shiftId = (openShiftAt o.locationId db).map (·.id)

instance (db : Db) (q : Request) : Decidable (BooksToShift db q) :=
  inferInstanceAs (Decidable (∀ db' ∈ step db q, ∀ m ∈ db'.movements.drop db.movements.length, ∀ o ∈ db'.orders,
    m.orderId = some o.id → m.shiftId = (openShiftAt o.locationId db).map (·.id)))

/-- The location of the paid cash order that a request would create at the counter. -/
def counterLocation (q : Request) (db : Db) : Option Id :=
  match q.action with
  | .createDirect cartId _ _ key =>
    if Table.lookup Order.idempotencyKey key db.orders = none then
      (CartRepository.find cartId db).map (·.locationId)
    else none
  | .createDirectFromItems request key _ =>
    if Table.lookup Order.idempotencyKey key db.orders = none ∧ request.tender = .cash ∧
        request.paymentStatus = .paid then
      db.settings.primaryLocationId
    else none
  | _ => none

/-- A paid cash order is created at the counter while no shift is open there. -/
def SoldBetweenShifts (db : Db) (q : Request) : Prop :=
  ∀ locationId ∈ counterLocation q db, openShiftAt locationId db = none

instance (db : Db) (q : Request) : Decidable (SoldBetweenShifts db q) :=
  inferInstanceAs (Decidable (∀ locationId ∈ counterLocation q db, _))

/-! ## What a request books -/

section Booking
variable {q : Request} {v db db' : Db} {c : Core} {input : SnapshotInput} {order : Order} {cart : Option Cart}
  {movement : Option CashMovement} {rows : List PaymentAttempt}

/-- A sale, an operation on an order, or nothing for the ledger. -/
theorem Effect.booking_cases (h : Effect q v db c) :
    (∃ input order cart movement rows, Sale q v db input order cart movement rows ∧
      Table.lookup Order.idempotencyKey input.idempotencyKey v.orders = none ∧ order ∈ c.orders ∧
      order.locationId = input.cart.locationId ∧ c.movements = db.movements ++ movement.toList) ∨
    (∃ order p f movement released rows, Revision q v db order p f movement released rows ∧ order ∈ v.orders ∧
      c.movements = db.movements ++ movement.toList ∧ ∀ o ∈ c.orders, ∃ r ∈ db.orders, o.facts = r.facts) ∨
    (c.movements = db.movements ∧ c.orders = db.orders) := by
  cases h with
  | sold input order n active cart movement rows h horder hkey =>
    refine .inl ⟨input, order, cart, movement, rows, h, hkey, ?_, ?_, ?_⟩
    · rw [book_orders, sell_orders]; exact List.mem_append_right _ (List.mem_singleton_self order)
    · rw [horder]; rfl
    · rw [book_movements, sell_movements]; rfl
  | revised order row p f movement released rows h hv =>
    refine .inr (.inl ⟨order, p, f, movement, released, rows, h, hv, ?_, fun o ho => ?_⟩)
    · rw [release_movements, book_movements, revise_movements]; rfl
    · rw [release_orders, book_orders, revise_orders] at ho
      rcases mem_updateWhere_cases ho with ⟨ho, -⟩ | ⟨r, hr, -, rfl⟩
      · exact ⟨o, ho, rfl⟩
      · exact ⟨r, hr, h.facts _ r⟩
  | _ => exact .inr (.inr ⟨rfl, rfl⟩)

theorem Approval.not_counter {attempt : PaymentAttempt} {row : Option PaymentAttempt}
    (h : Approval q v db attempt row rows) : counterLocation q db = none := by
  cases h with
  | webhook payment _ h =>
    obtain ⟨event, eventId, hq, -⟩ := h.request
    rw [counterLocation, hq]
  | reconcile payment _ h => rw [counterLocation, h.request]

/-- A sale deposits cash exactly when it is one of the two at the counter, and without a shift. -/
theorem Sale.movement_eq (h : Sale q db db input order cart movement rows)
    (hkey : Table.lookup Order.idempotencyKey input.idempotencyKey db.orders = none) :
    movement = (counterLocation q db).map (fun _ => depositOf order none q.draw) ∧
      ∀ locationId ∈ counterLocation q db, locationId = input.cart.locationId := by
  cases h with
  | cash _ _ _ hq => simp [counterLocation, hq]
  | direct _ _ hq hcart => simp [counterLocation, hq, hkey, CartRepository.find, hcart]
  | items request hq _ _ _ _ _ hlocation =>
    by_cases hcash : request.tender = .cash ∧ request.paymentStatus = .paid
    · simp [counterLocation, hq, hkey, hcash, hlocation]
    · simp [counterLocation, hq, hkey, hcash]
  | paid _ _ hq => simp [counterLocation, hq]
  | confirmed attempt updated rows approvedAt h =>
    simp [h.not_counter]

/-- The operations on an order book to the shift that is open where the order is. -/
theorem Revision.movement_shift {p : Order → Bool} {f : Order → Order} {released : Bool}
    (h : Revision q v db order p f movement released rows) :
    ∀ m ∈ movement, m.orderId = some order.id ∧ m.shiftId = (openShiftAt order.locationId v).map (·.id) := by
  cases h with
  | transition expectedVersion request =>
    intro m hm
    rw [transitionMovement] at hm
    split at hm
    · cases hm; exact ⟨rfl, rfl⟩
    · cases hm
  | collect => intro m hm; cases hm; exact ⟨rfl, rfl⟩
  | refund => intro m hm; cases hm; exact ⟨rfl, rfl⟩
  | _ => intro m hm; cases hm

theorem Revision.not_counter {p : Order → Bool} {f : Order → Order} {released : Bool}
    (h : Revision q v db order p f movement released rows) : counterLocation q db = none := by
  cases h with
  | transition _ _ hq => rw [counterLocation, hq]
  | collect _ _ _ _ hq => rw [counterLocation, hq]
  | refund _ _ _ _ hq => rw [counterLocation, hq]
  | cancel _ hq => rw [counterLocation, hq]
  | expire hq => rw [counterLocation, hq]
  | confirm _ _ _ _ _ _ hr => rw [counterLocation, hr.request]
  | refuse _ _ hr => rw [counterLocation, hr.request]

end Booking

/-! ## A sale at the counter creates its order -/

section Counter
variable {v s s' db db' : Db} {draw : Draw} {key : String} {cartId : Id} {order : Order} {q : Request}

theorem createFromCartSnapshotWith_key {readCart : DbTx (Option Cart)} (hread : Keeps id readCart)
    {input : SnapshotInput} {created : Bool}
    (h : Commits (OrderRepository.createFromCartSnapshotWith readCart input draw) v s (order, created) s')
    (hkey : Table.lookup Order.idempotencyKey input.idempotencyKey v.orders = none) :
    ∃ o ∈ s'.orders, o.idempotencyKey = input.idempotencyKey := by
  rcases createFromCartSnapshotWith_core hread h with ⟨-, htaken, -⟩ | ⟨-, -, -, hins⟩
  · rw [hkey] at htaken; cases htaken
  · obtain ⟨⟨n, active, horder⟩, -, hcore⟩ := insertSnapshot_core hins
    have horders : s'.orders = s.orders ++ [order] := (congrArg Core.orders hcore).trans sell_orders
    refine ⟨order, ?_, by rw [horder]; rfl⟩
    rw [horders]
    exact List.mem_append_right _ (List.mem_singleton_self order)

/-- What follows the sale leaves the orders as they are. -/
theorem orders_kept {α : Type} {x : DbTx α} {a : α}
    (hx : Within (Writes [.movements, .outbox, .audit, .printJobs, .billing]) x) (h : Commits x v s a s') :
    s'.orders = s.orders :=
  congrArg Prod.fst (hx _ _ _ _ h .orders (by decide))

theorem deposit_writes (o : Order) :
    Within (Writes [.movements, .outbox, .audit, .printJobs, .billing]) (CreateOrderService.deposit o draw) :=
  writes_movement _ _ (by decide)

theorem announceDirect_writes (o : Order) (cartId : Id) :
    Within (Writes [.movements, .outbox, .audit, .printJobs, .billing]) (CreateOrderService.announceDirect o cartId) :=
  writes_announce _ _ _ _ (by decide) (by decide)

theorem createDirect_key {customer : Customer} {notes : Option String}
    (h : Commits (CreateOrderService.createDirect cartId customer notes key draw) v s order s')
    (hkey : Table.lookup Order.idempotencyKey key v.orders = none) : ∃ o ∈ s'.orders, o.idempotencyKey = key := by
  simp only [CreateOrderService.createDirect, commits_look_bind, commits_orThrow_bind, commits_throwIf_bind] at h
  obtain ⟨cart, hfound, -, -, h⟩ := h
  obtain ⟨⟨o, created⟩, s₁, hcreate, h⟩ := commits_bind.1 h
  rw [orders_kept ?_ h]
  · exact createFromCartSnapshotWith_key (readCart_keeps _) hcreate hkey
  · exact Within.bind (Within.runIf (Within.bind (deposit_writes o) fun _ => Within.bind (announceDirect_writes o cart.id)
      fun _ => Within.bind (writes_ticket o (by decide)) fun _ => writes_document _ (by decide))) fun _ => Within.pure o

theorem createDirectFromItems_key {request : CreateOrderService.DirectItemsRequest}
    (h : Commits (CreateOrderService.createDirectFromItems request key cartId draw) v s order s')
    (hkey : Table.lookup Order.idempotencyKey key v.orders = none) : ∃ o ∈ s'.orders, o.idempotencyKey = key := by
  simp only [CreateOrderService.createDirectFromItems, commits_look_bind, commits_orThrow_bind,
    commits_fromExcept_bind] at h
  obtain ⟨locationId, -, lines, -, price, -, h⟩ := h
  obtain ⟨cart, s₁, -, h⟩ := commits_bind.1 h
  obtain ⟨⟨o, created⟩, s₂, hcreate, h⟩ := commits_bind.1 h
  rw [orders_kept ?_ h]
  · exact createFromCartSnapshotWith_key (currentCart_keeps _) hcreate hkey
  · exact Within.bind (Within.runIf (Within.bind (Within.runIf (deposit_writes o)) fun _ =>
      Within.bind (announceDirect_writes o cart.id) fun _ => Within.bind (writes_ticket o (by decide)) fun _ =>
        Within.bind (Within.runIf (writes_document _ (by decide))) fun _ =>
          Within.runIf (writes_outbox _ _ _ _ (by decide)))) fun _ => Within.pure o

/-- The request that would create a paid cash order at the counter creates an order. -/
theorem counter_creates {a : Answer} {locationId : Id} (h : exec q v db = some (a, db'))
    (hq : counterLocation q v = some locationId) : ∃ o ∈ db'.orders, ∀ r ∈ v.orders, r.idempotencyKey ≠ o.idempotencyKey := by
  have hrun := exec_eq.1 h
  have hfresh {key : String} (hkey : Table.lookup Order.idempotencyKey key v.orders = none)
      (hnew : ∃ o ∈ db'.orders, o.idempotencyKey = key) :
      ∃ o ∈ db'.orders, ∀ r ∈ v.orders, r.idempotencyKey ≠ o.idempotencyKey := by
    obtain ⟨o, ho, rfl⟩ := hnew
    exact ⟨o, ho, lookup_eq_none.1 hkey⟩
  rw [counterLocation] at hq
  cases haction : q.action with
  | createDirect cartId customer notes key =>
    rw [haction] at hq hrun
    dsimp only at hq
    split at hq
    · next hkey =>
      obtain ⟨order, hcreate, -⟩ := order_answer hrun
      exact hfresh hkey (createDirect_key hcreate hkey)
    · cases hq
  | createDirectFromItems request key cartId =>
    rw [haction] at hq hrun
    dsimp only at hq
    split at hq
    · next hkey =>
      obtain ⟨order, hcreate, -⟩ := order_answer hrun
      exact hfresh hkey.1 (createDirectFromItems_key hcreate hkey.1)
    · cases hq
  | _ =>
    rw [haction] at hq
    cases hq

end Counter

/-! ## Steps and runs -/

section Steps
variable {q : Request} {db db' : Db} {a : Answer} {movement : Option CashMovement}

/-- What a step books, one movement or none. -/
theorem booksToShift_movement (h : step db q = some db') (hm : db'.movements = db.movements ++ movement.toList) :
    BooksToShift db q ↔ ∀ m ∈ movement, ∀ o ∈ db'.orders, m.orderId = some o.id →
      m.shiftId = (openShiftAt o.locationId db).map (·.id) := by
  simp [BooksToShift, h, hm]

/-- A step books to the open shift exactly when it is no sale at the counter while a shift is open there. -/
theorem booksToShift_iff (hi : Keyed db.core) (h : step db q = some db') :
    BooksToShift db q ↔ SoldBetweenShifts db q := by
  obtain ⟨a, hx⟩ := step_eq.1 h
  have heffect := exec_effect hx
  have hids : UniqueOn Order.id db'.orders := (heffect.keyed hi).orders
  -- a sale at the counter leaves an order that was not there
  have hcreates (horders : ∀ o ∈ db'.orders, ∃ r ∈ db.orders, o.facts = r.facts) : counterLocation q db = none := by
    rw [Option.eq_none_iff_forall_not_mem]
    intro locationId hlocation
    obtain ⟨o, ho, hnew⟩ := counter_creates hx hlocation
    obtain ⟨r, hr, hf⟩ := horders o ho
    exact hnew r hr (Order.column Order.idempotencyKey hf).symm
  rcases heffect.booking_cases with ⟨input, order, cart, movement, rows, hsale, hkey, horder, hlocation, hm⟩ |
    ⟨order, p, f, movement, released, rows, hrevision, hv, hm, horders⟩ | ⟨hm, horders⟩
  · obtain ⟨hdeposit, hcounter⟩ := hsale.movement_eq hkey
    rw [booksToShift_movement h hm, hdeposit]
    constructor
    · intro hbooks locationId hl
      have hshift := hbooks (depositOf order none q.draw) (by simp [Option.mem_def.1 hl]) order horder rfl
      rw [hlocation, ← hcounter locationId hl] at hshift
      exact Option.map_eq_none_iff.1 hshift.symm
    · intro hsold m hmem o ho hid
      obtain ⟨locationId, hl, rfl⟩ := Option.map_eq_some_iff.1 hmem
      have ho : o = order := hids.eq ho horder (Option.some.inj hid).symm
      rw [ho, hlocation, ← hcounter locationId hl, hsold locationId hl]
      rfl
  · rw [booksToShift_movement h hm]
    refine iff_of_true (fun m hmem o ho hid => ?_) (fun locationId hl => ?_)
    · obtain ⟨horderId, hshift⟩ := hrevision.movement_shift m hmem
      obtain ⟨r, hr, hf⟩ := horders o ho
      have hro : r = order :=
        hi.orders.eq hr hv ((Order.column Order.id hf).symm.trans (Option.some.inj (hid.symm.trans horderId)))
      rw [hshift, ← hro, Order.column Order.locationId hf]
    · rw [hrevision.not_counter] at hl; cases hl
  · have hm : db'.movements = db.movements ++ (none : Option CashMovement).toList := hm.trans (List.append_nil _).symm
    have horders : db'.orders = db.orders := horders
    rw [booksToShift_movement h hm]
    refine iff_of_true (fun m hmem => by cases hmem) (fun locationId hl => ?_)
    rw [hcreates fun o ho => ⟨o, horders ▸ ho, rfl⟩] at hl
    cases hl

end Steps

/-- In a run, every movement is of the shift that is open where its order is exactly when the paid cash orders of the
counter are created while no shift is open there. -/
theorem movements_follow_shifts_iff {tenantId : Id} {settings : Settings} {qs : List Request} {db : Db}
    (hr : Runs.exec step (Db.fresh tenantId settings) qs = some db) :
    Along step BooksToShift (Db.fresh tenantId settings) qs ↔
      Along step SoldBetweenShifts (Db.fresh tenantId settings) qs :=
  Along.congr (I := fun db => Keyed db.core)
    (fun _ _ _ hi _ hs => by
      obtain ⟨a, hx⟩ := step_eq.1 hs
      exact (exec_effect hx).keyed hi)
    (fun _ _ _ hi hs => booksToShift_iff hi hs) .empty hr

namespace Demo

/-- A sale at the counter, paid in cash. -/
def sellAtCounter (now : Instant) (n cartId : String) : Request :=
  call now n (.createDirect cartId customer none ("key-" ++ n))

/-- The counter sells before its shift opens; the shift collects. -/
def soldEarly : List Request :=
  [setUp, fillCart "1" "cart-1", fillCart "2" "cart-2", sellAtCounter 2 "3" "cart-1", payInCash "4" "cart-2", opening 5,
    collect 6 "5" "order-4"]

/-- The counter sells while its shift is open. -/
def soldInShift : List Request := [setUp, opening 1, fillCart "1" "cart", sellAtCounter 2 "2" "cart"]

end Demo

open Demo

theorem movements_follow_shifts_sold_early :
    ∃ db, Runs.exec step (Db.fresh "tenant" settings) soldEarly = some db ∧
      Along step BooksToShift (Db.fresh "tenant" settings) soldEarly := by
  have hs : (Runs.exec step (Db.fresh "tenant" settings) soldEarly).isSome = true := by decide +kernel
  obtain ⟨db, hr⟩ := Option.isSome_iff_exists.1 hs
  exact ⟨db, hr, (movements_follow_shifts_iff hr).2 (by decide +kernel)⟩

/-- The deposit of a sale during the shift names no shift. -/
theorem deposit_misses_open_shift :
    ¬ ∀ (tenantId : Id) (settings : Settings) (qs : List Request) (db : Db),
      Runs.exec step (Db.fresh tenantId settings) qs = some db →
        Along step BooksToShift (Db.fresh tenantId settings) qs := by
  intro h
  have hs : (Runs.exec step (Db.fresh "tenant" settings) soldInShift).isSome = true := by decide +kernel
  obtain ⟨db, hr⟩ := Option.isSome_iff_exists.1 hs
  exact absurd (h "tenant" settings soldInShift db hr) (by decide +kernel)

end Komanda
