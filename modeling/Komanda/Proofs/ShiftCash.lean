import Komanda.Proofs.CashLedger

/-!
# The expected cash of a shift

A shift counts the orders created since its opening that are paid and carry the tender `cash`, of the
whole tenant. The ledger of movements says what the drawer of the shift's location took in and paid out
since. They agree as long as cash is only moved for orders of the shift, at its location, and no order is
paid online.
-/

namespace Komanda
open Komanda.Core Table Runs

/-- What a movement adds to the drawer. -/
def signedAmount (m : CashMovement) : Int :=
  match m.type with
  | .saleDeposit => m.amount
  | .cancellationWithdrawal => -m.amount
  | _ => 0

/-- The movement was recorded since the opening, at the location if there is one. -/
def recordedSince (openedAt : Instant) (locationId : Option Id) (m : CashMovement) : Bool :=
  openedAt ≤ m.occurredAt && locationId.all (· = m.locationId)

/-- Deposits less withdrawals: `getCashLedgerSummary` from an instant on. -/
def netCash (openedAt : Instant) (locationId : Option Id) (ms : List CashMovement) : Int :=
  ((ms.filter (recordedSince openedAt locationId)).map signedAmount).sum

/-- What the ledger says the drawer of an open shift should hold. -/
def ledgerCash (s : CashShift) (ms : List CashMovement) : Int :=
  s.openingBalance + netCash s.openedAt s.locationId ms

structure ShiftsReconcile (db : Db) : Prop where
  /-- `getCurrent` reports what the ledger says. -/
  current : ∀ s expected, CashShiftService.current db = some (s, expected) →
    (expected : Int) = ledgerCash s db.movements
  /-- `close` stores it. -/
  close : ∀ s ∈ db.shifts, s.status = .open → ∀ q balance db', q.action = .closeShift s.id balance →
    (∀ o ∈ db.orders, o.createdAt ≤ q.draw.now) → step db q = some db' →
    ∃ s' ∈ db'.shifts, s'.id = s.id ∧ s'.status = .closed ∧
      ∃ expected, s'.expectedCash = some expected ∧ (expected : Int) = ledgerCash s db.movements

/-! ## The condition -/

/-- The clock does not run back. -/
structure OnTime (db : Db) (q : Request) : Prop where
  orders : ∀ o ∈ db.orders, o.createdAt ≤ q.draw.now
  movements : ∀ m ∈ db.movements, m.occurredAt ≤ q.draw.now
  shifts : ∀ s ∈ db.shifts, s.openedAt ≤ q.draw.now

/-- The existing order whose cash a request would move. -/
def movesCashOf (q : Request) (db : Db) : Option Order :=
  match q.action with
  | .collect _ orderId _ _ _ => (Table.lookup Order.id orderId db.orders).filter fun o =>
      o.paymentStatus ≠ .paid && (CollectCashService.obstacle o q.draw.now).isNone
  | .refund _ orderId _ _ _ =>
    (Table.lookup Order.id orderId db.orders).filter fun o => (RefundCashService.obstacle o).isNone
  | .transition orderId _ request => (Table.lookup Order.id orderId db.orders).filter fun o =>
      TransitionOrderService.refundsCash o request.fulfillmentStatus
  | _ => none

/-- The location of a sale at the counter. -/
def sellsAt (q : Request) (db : Db) : Option Id :=
  match q.action with
  | .createDirect cartId _ _ _ => (Table.lookup Cart.id cartId db.carts).map (·.locationId)
  | .createDirectFromItems _ _ _ => db.settings.primaryLocationId
  | _ => none

/-- The attempt that a request would sell the cart of. -/
def sellsOnline (q : Request) (db : Db) : Option PaymentAttempt :=
  let attempt : Option PaymentAttempt := match q.action with
    | .createPaid attemptId _ =>
      (Table.lookup PaymentAttempt.id attemptId db.attempts).filter fun a => a.status = .approved
    | _ => approves q db db
  attempt.filter (Sellable db ·)

/-- While a shift is open, a request moves cash only for orders of the shift and at its location, and
makes no order that is paid online. -/
def WithinShift (db : Db) (q : Request) (s : CashShift) : Prop :=
  sellsOnline q db = none ∧
    (∀ o ∈ movesCashOf q db, s.openedAt ≤ o.createdAt ∧ s.locationId.all (· = o.locationId) = true) ∧
    ∀ l ∈ sellsAt q db, s.locationId.all (· = l) = true

/-- No order was made and no cash moved in the instant in which a shift opens. -/
def OpensAfter (db : Db) (q : Request) : Prop :=
  match q.action with
  | .openShift .. => (∀ o ∈ db.orders, o.createdAt ≠ q.draw.now) ∧
      ∀ m ∈ db.movements, m.occurredAt ≠ q.draw.now
  | _ => True

structure ShiftCondition (db : Db) (q : Request) : Prop where
  onTime : OnTime db q
  opens : OpensAfter db q
  within : ∀ s ∈ db.shifts, s.status = .open → WithinShift db q s

instance {db : Db} {q : Request} : Decidable (OnTime db q) :=
  decidable_of_iff ((∀ o ∈ db.orders, o.createdAt ≤ q.draw.now) ∧
    (∀ m ∈ db.movements, m.occurredAt ≤ q.draw.now) ∧ ∀ s ∈ db.shifts, s.openedAt ≤ q.draw.now)
    ⟨fun ⟨ho, hm, hs⟩ => ⟨ho, hm, hs⟩, fun ⟨ho, hm, hs⟩ => ⟨ho, hm, hs⟩⟩

instance {db : Db} {q : Request} {s : CashShift} : Decidable (WithinShift db q s) :=
  inferInstanceAs (Decidable (_ ∧ _ ∧ _))

instance {db : Db} {q : Request} : Decidable (OpensAfter db q) := by
  apply Action.casesOn (motive := fun a => Decidable (OpensAfter db ⟨a, q.draw⟩)) q.action <;> intros <;>
    dsimp only [OpensAfter] <;> infer_instance

instance {db : Db} {q : Request} : Decidable (ShiftCondition db q) :=
  decidable_of_iff (OnTime db q ∧ OpensAfter db q ∧ ∀ s ∈ db.shifts, s.status = .open → WithinShift db q s)
    ⟨fun ⟨ht, ho, hw⟩ => ⟨ht, ho, hw⟩, fun ⟨ht, ho, hw⟩ => ⟨ht, ho, hw⟩⟩

/-! ## The invariant -/

/-- What the shift counts of an order. -/
def shiftCount (openedAt : Instant) (o : Order) : Int :=
  if CashShiftService.isCashSale openedAt o then o.total else 0

/-- The cash that a movement adds to the drawer of a shift. -/
def shiftIntake (s : CashShift) (movement : Option CashMovement) : Int :=
  match movement with
  | none => 0
  | some m => if recordedSince s.openedAt s.locationId m then signedAmount m else 0

structure ShiftInv (c : Core) : Prop where
  keyed : Keyed c
  shifts : UniqueOn CashShift.id c.shifts
  balance : ∀ s ∈ c.shifts, s.status = .open →
    (c.orders.map (shiftCount s.openedAt)).sum = netCash s.openedAt s.locationId c.movements
  /-- No order of an open shift was paid online. -/
  offline : ∀ s ∈ c.shifts, s.status = .open → ∀ o ∈ c.orders, o.paymentAttemptId ≠ none →
    o.createdAt < s.openedAt

section Sums
variable {openedAt : Instant} {s : CashShift} {o : Order} {orders : List Order} {ms : List CashMovement}
  {movement : Option CashMovement}

theorem cashSales_eq (p : Order → Bool) :
    (CashShiftService.cashSales (orders.filter p) : Int) =
      (orders.map fun o => if p o then (o.total : Int) else 0).sum := by
  unfold CashShiftService.cashSales
  induction orders with
  | nil => rfl
  | cons o orders ih =>
    rw [List.filter_cons, List.map_cons, List.sum_cons, ← ih]
    split <;> simp

theorem netCash_book : netCash s.openedAt s.locationId (ms ++ movement.toList) =
    netCash s.openedAt s.locationId ms + shiftIntake s movement := by
  cases movement with
  | none => simp [shiftIntake]
  | some m =>
    rw [netCash, netCash, Option.toList_some, List.filter_append, List.map_append, List.sum_append, shiftIntake]
    by_cases hm : recordedSince s.openedAt s.locationId m = true
    · simp [hm]
    · simp [hm]

theorem counted_of_not_paid (h : o.paymentStatus ≠ .paid) : shiftCount openedAt o = 0 :=
  if_neg (by simp [CashShiftService.isCashSale, h])

theorem counted_of_before (h : o.createdAt < openedAt) : shiftCount openedAt o = 0 :=
  if_neg (by simp [CashShiftService.isCashSale, Nat.not_le.2 h])

theorem counted_of_sale (ht : o.tender = .cash) (hp : o.paymentStatus = .paid) (hc : openedAt ≤ o.createdAt) :
    shiftCount openedAt o = o.total :=
  if_pos (by simp [CashShiftService.isCashSale, ht, hp, hc])

/-- An update that leaves the payment status alone. -/
theorem counted_congr {o' : Order} (hf : o'.facts = o.facts) (hp : o'.paymentStatus = o.paymentStatus) :
    shiftCount openedAt o' = shiftCount openedAt o := by
  rw [shiftCount, shiftCount, CashShiftService.isCashSale, CashShiftService.isCashSale, hp,
    Order.column Order.tender hf, Order.column Order.createdAt hf, Order.column Order.total hf]

end Sums

section Steps
variable {q : Request} {v db : Db} {c : Core} {order : Order} {p : Order → Bool} {f : Order → Order}
  {movement : Option CashMovement} {released : Bool} {rows : List PaymentAttempt} {input : SnapshotInput}
  {cart : Option Cart} {n active : Nat} {s : CashShift} {a : PaymentAttempt}

theorem sellsOnline_of_approves (h : approves q db db = some a) (hs : Sellable db a) :
    sellsOnline q db = some a := by
  unfold sellsOnline
  split
  · rename_i hq; simp [approves, hq] at h
  · simp [h, hs]

/-- An order of an attempt is sold online. -/
theorem Sale.sellsOnline (h : Sale q db db input order cart movement rows)
    (horder : order = OrderRepository.newOrder input q.draw n active) (hu : UniqueOn PaymentAttempt.id db.attempts)
    (hkey : Table.lookup Order.idempotencyKey input.idempotencyKey db.orders = none)
    (hopen : input.cart.status ≠ .converted) (ha : order.source = .mercadopagoWebhook) :
    sellsOnline q db ≠ none := by
  have ha : input.source = .mercadopagoWebhook := by rw [horder] at ha; exact ha
  cases h with
  | cash _ _ _ _ _ hs => rw [hs] at ha; cases ha
  | direct _ _ _ _ hs => rw [hs] at ha; cases ha
  | items _ _ hs => rw [hs] at ha; cases ha
  | paid attempt _ hq hv hok hcart _ _ _ hk =>
    have hsell : Sellable db attempt := ⟨by simp [hcart, hopen], hk ▸ hkey⟩
    simp [Komanda.sellsOnline, hq, hv, hok, hsell]
  | confirmed attempt updated _ _ h hcart hi =>
    have ht := h.row_terms hu .refl
    rw [PaymentAttempt.column PaymentAttempt.cartId ht] at hcart
    rw [hi] at hkey
    have hkey : Table.lookup Order.idempotencyKey ("payment-attempt:" ++ attempt.id) db.orders = none := by
      rw [← PaymentAttempt.column PaymentAttempt.id ht]; exact hkey
    rw [sellsOnline_of_approves h.approves ⟨by simp [hcart, hopen], hkey⟩]
    exact Option.some_ne_none _

theorem booked_deposit {shift : Option CashShift} (hs : s.openedAt ≤ q.draw.now)
    (hl : s.locationId.all (· = order.locationId) = true) :
    shiftIntake s (some (depositOf order shift q.draw)) = order.total := by
  have hl : s.locationId.all (· = (depositOf order shift q.draw).locationId) = true := hl
  have hr : recordedSince s.openedAt s.locationId (depositOf order shift q.draw) = true := by
    rw [recordedSince, hl, Bool.and_true]; exact decide_eq_true hs
  rw [shiftIntake, if_pos hr]
  rfl

theorem booked_withdrawal {shift : Option CashShift} {reason : Option String} {key : String}
    (hs : s.openedAt ≤ q.draw.now) (hl : s.locationId.all (· = order.locationId) = true) :
    shiftIntake s (some (withdrawal order shift reason key q.draw)) = -order.total := by
  have hl : s.locationId.all (· = (withdrawal order shift reason key q.draw).locationId) = true := hl
  have hr : recordedSince s.openedAt s.locationId (withdrawal order shift reason key q.draw) = true := by
    rw [recordedSince, hl, Bool.and_true]; exact decide_eq_true hs
  rw [shiftIntake, if_pos hr]
  rfl

/-- A sale at the counter books what the shift counts of its order. -/
theorem Sale.count_eq (h : Sale q db db input order cart movement rows)
    (horder : order = OrderRepository.newOrder input q.draw n active) (hw : WithinShift db q s)
    (hs : s.openedAt ≤ q.draw.now) (hoff : order.source ≠ .mercadopagoWebhook) :
    shiftCount s.openedAt order = shiftIntake s movement := by
  have hp : order.paymentStatus = input.paymentStatus := by rw [horder]; rfl
  have ht : order.tender = input.tender.getD .cash := by rw [horder]; rfl
  have hl : order.locationId = input.cart.locationId := by rw [horder]; rfl
  have hsource : order.source = input.source := by rw [horder]; rfl
  have hc : s.openedAt ≤ order.createdAt := by rw [horder]; exact hs
  cases h with
  | cash _ _ _ _ _ _ hin => exact counted_of_not_paid (by rw [hp, hin]; decide)
  | direct _ _ hq hcart _ hpaid hcash =>
    have hloc : s.locationId.all (· = order.locationId) = true := by
      rw [hl]; exact hw.2.2 _ (by simp [sellsAt, hq, hcart])
    rw [booked_deposit hs hloc]
    exact counted_of_sale (by rw [ht, hcash]; rfl) (hp.trans hpaid) hc
  | items request hq _ hpaid hcash _ _ hset =>
    split
    · rename_i hcond
      have hloc : s.locationId.all (· = order.locationId) = true := by
        rw [hl]; exact hw.2.2 _ (by simp [sellsAt, hq, hset])
      rw [booked_deposit hs hloc]
      exact counted_of_sale (by rw [ht, hcash]; exact hcond.1) (by rw [hp, hpaid]; exact hcond.2) hc
    · rename_i hcond
      refine if_neg fun hsale => hcond ?_
      simp only [CashShiftService.isCashSale, Bool.and_eq_true, decide_eq_true_eq] at hsale
      refine ⟨?_, ?_⟩
      · rw [← hsale.1.1, ht, hcash]; rfl
      · rw [← hpaid, ← hp]; exact hsale.1.2
  | paid _ _ _ _ _ _ hin => exact absurd (hsource.trans hin) hoff
  | confirmed _ _ _ _ _ _ hin => exact absurd (hsource.trans (by rw [hin]; rfl)) hoff

/-- An operation on an order of the shift books what it changes of the shift's count. -/
theorem Revision.count_eq (h : Revision q db db order p f movement released rows)
    (hv : Table.lookup Order.id order.id db.orders = some order) (hw : WithinShift db q s)
    (hs : s.openedAt ≤ q.draw.now) (hoff : order.paymentAttemptId ≠ none → order.createdAt < s.openedAt) :
    shiftCount s.openedAt (bump f q.draw.now order) = shiftCount s.openedAt order + shiftIntake s movement := by
  have hf := h.facts q.draw.now order
  have hoffline {b : Id} (ha : order.paymentAttemptId = some b) :
      shiftCount s.openedAt (bump f q.draw.now order) = shiftCount s.openedAt order + shiftIntake s none := by
    have hb := hoff (by rw [ha]; nofun)
    rw [counted_of_before hb, counted_of_before (by rw [Order.column Order.createdAt hf]; exact hb)]
    rfl
  have hmoves {o : Order} (ho : movesCashOf q db = some o) := hw.2.1 o ho
  cases h with
  | transition expectedVersion request hq =>
    by_cases hr : TransitionOrderService.refundsCash order request.fulfillmentStatus = true
    · obtain ⟨-, -, ht, hp⟩ := refundsCash_iff.1 hr
      obtain ⟨hc, hl⟩ := hmoves (o := order) (by simp [movesCashOf, hq, hv, hr])
      rw [transitionMovement, if_pos hr, booked_withdrawal hs hl, counted_of_sale ht hp hc,
        counted_of_not_paid]
      · omega
      · show (if _ then _ else _) ≠ _
        rw [if_pos hr]; decide
    · rw [transitionMovement, if_neg hr, shiftIntake, Int.add_zero]
      refine counted_congr hf ?_
      show (if _ then _ else _) = _
      rw [if_neg hr]
  | collect actor key request recordId hq hnp hg =>
    obtain ⟨hc, hl⟩ := hmoves (o := order) (by simp [movesCashOf, hq, hv, hnp, hg])
    rw [booked_deposit hs hl, counted_of_not_paid hnp, Int.zero_add]
    exact counted_of_sale (collect_guards hg).2 rfl hc
  | refund actor key request recordId hq hg =>
    obtain ⟨hc, hl⟩ := hmoves (o := order) (by simp [movesCashOf, hq, hv, hg])
    obtain ⟨ht, hp⟩ := refund_guards hg
    rw [booked_withdrawal hs hl, counted_of_sale ht hp hc, counted_of_not_paid]
    · omega
    · intro h; cases h
  | cancel => rw [counted_congr hf rfl]; exact (Int.add_zero _).symm
  | expire hq hg =>
    have hpending : order.paymentStatus = .pending := by
      simp only [ExpireUnpaidOrdersJob.expires, Bool.and_eq_true, decide_eq_true_eq] at hg
      exact hg.1.1.2
    rw [counted_of_not_paid (by intro h; cases h), counted_of_not_paid (by rw [hpending]; decide)]
    rfl
  | confirm _ _ _ ha => exact hoffline ha
  | refuse _ _ _ _ ha => exact hoffline ha

/-- The rows of the shifts stay, but for openings and closings. -/
theorem ShiftInv.effect (hi : ShiftInv db.core) (hc : ShiftCondition db q) (h : Effect q db db c) :
    ShiftInv c := by
  have hkeyed := h.keyed hi.keyed
  have honTime {s : CashShift} (hs : s ∈ db.shifts) := hc.onTime.shifts s hs
  cases h with
  | sold input order n active cart movement rows h horder hkey hopen =>
    have hoff {s : CashShift} (hs : s ∈ db.shifts) (ho : s.status = .open) :
        order.source ≠ .mercadopagoWebhook := fun hsource =>
      h.sellsOnline horder hi.keyed.attempts hkey hopen hsource (hc.within s hs ho).1
    refine ⟨hkeyed, by simpa using hi.shifts, fun s hs ho => ?_, fun s hs ho o hmem hoa => ?_⟩
    · rw [book_shifts, sell_shifts] at hs
      have hcount := h.count_eq horder (hc.within s hs ho) (honTime hs) (hoff hs ho)
      have hbalance : (db.orders.map (shiftCount s.openedAt)).sum =
          netCash s.openedAt s.locationId db.movements := hi.balance s hs ho
      rw [book_orders, sell_orders, book_movements, sell_movements, netCash_book, List.map_append,
        List.sum_append, List.map_singleton, List.sum_singleton, hcount]
      exact congrArg (· + _) hbalance
    · rw [book_shifts, sell_shifts] at hs
      rw [book_orders, sell_orders] at hmem
      rcases List.mem_append.1 hmem with hmem | hmem
      · exact hi.offline s hs ho o hmem hoa
      · rw [List.mem_singleton] at hmem; subst hmem
        obtain ⟨a, ha⟩ := Option.ne_none_iff_exists'.1 hoa
        exact absurd (h.order horder ha).2.1 (hoff hs ho)
  | revised order row p f movement released rows h hv hrow =>
    have hp (r : Order) (hr : r ∈ db.orders) : p r = true ↔ r = order := by
      have hro : row = order :=
        hi.keyed.orders.eq (List.mem_of_find?_eq_some hrow) hv (h.row_id (List.find?_some hrow))
      refine ⟨fun hpr => hi.keyed.orders.eq hr hv (h.row_id hpr), ?_⟩
      rintro rfl
      exact hro ▸ List.find?_some hrow
    refine ⟨hkeyed, by simpa using hi.shifts, fun s hs ho => ?_, fun s hs ho o hmem hoa => ?_⟩
    · rw [release_shifts, book_shifts, revise_shifts] at hs
      have hcount := h.count_eq (hi.keyed.orders.lookup hv) (hc.within s hs ho) (honTime hs)
        (hi.offline s hs ho order hv)
      have hbalance : (db.orders.map (shiftCount s.openedAt)).sum =
          netCash s.openedAt s.locationId db.movements := hi.balance s hs ho
      have hsum := sum_updateWhere (f := bump f q.draw.now) (w := shiftCount s.openedAt) hi.keyed.orders.nodup
        hv hp
      rw [release_orders, book_orders, revise_orders, release_movements, book_movements, revise_movements,
        netCash_book]
      refine hsum.trans ?_
      rw [hcount, show (db.core.orders.map (shiftCount s.openedAt)).sum = _ from hbalance]
      show _ - _ + (_ + _) = netCash s.openedAt s.locationId db.movements + _
      omega
    · rw [release_shifts, book_shifts, revise_shifts] at hs
      rw [release_orders, book_orders, revise_orders] at hmem
      rcases h.rows hi.keyed.orders hv hrow hmem with ⟨hmem, -⟩ | rfl
      · exact hi.offline s hs ho o hmem hoa
      · have hf := h.facts q.draw.now order
        rw [Order.column Order.paymentAttemptId hf] at hoa
        rw [Order.column Order.createdAt hf]
        exact hi.offline s hs ho order hv hoa
  | openShift userId openingBalance locationId shift hq hopen hat hnone hid =>
    have hopens := hc.opens
    rw [OpensAfter, hq] at hopens
    have hbefore (o : Order) (ho : o ∈ db.orders) : o.createdAt < q.draw.now :=
      Nat.lt_of_le_of_ne (hc.onTime.orders o ho) (hopens.1 o ho)
    refine ⟨hkeyed, hi.shifts.append hid, fun s hs ho => ?_, fun s hs ho o hmem hoa => ?_⟩
    · rcases List.mem_append.1 hs with hs | hs
      · exact hi.balance s hs ho
      · rw [List.mem_singleton] at hs; subst hs
        have hcount : db.orders.map (shiftCount s.openedAt) = db.orders.map fun _ => 0 :=
          List.map_congr_left fun o ho => counted_of_before (by rw [hat]; exact hbefore o ho)
        have hnet : db.movements.filter (recordedSince s.openedAt s.locationId) = [] := by
          refine List.filter_eq_nil_iff.2 fun m hm hr => ?_
          have hlt := Nat.lt_of_le_of_ne (hc.onTime.movements m hm) (hopens.2 m hm)
          simp only [recordedSince, Bool.and_eq_true, decide_eq_true_eq, hat] at hr
          exact absurd hr.1 (Nat.not_le.2 hlt)
        show (db.orders.map (shiftCount s.openedAt)).sum = netCash s.openedAt s.locationId db.movements
        rw [hcount, netCash, hnet]
        simp
    · rcases List.mem_append.1 hs with hs | hs
      · exact hi.offline s hs ho o hmem hoa
      · rw [List.mem_singleton] at hs; subst hs
        rw [hat]; exact hbefore o hmem
  | closeShift shift closingBalance hq hv hopen =>
    have hold {s : CashShift} {f : CashShift → CashShift} (hf : ∀ x, (f x).status ≠ .open)
        (hs : s ∈ Table.updateWhere (·.id = shift.id) f db.shifts) (ho : s.status = .open) :
        s ∈ db.shifts := by
      rcases mem_updateWhere_cases hs with ⟨hs, -⟩ | ⟨x, -, -, rfl⟩
      · exact hs
      · exact absurd ho (hf x)
    refine ⟨hkeyed, hi.shifts.updateWhere fun _ _ => rfl, fun s hs ho => ?_, fun s hs ho => ?_⟩
    · exact hi.balance s (hold (fun _ h => by cases h) hs ho) ho
    · exact hi.offline s (hold (fun _ h => by cases h) hs ho) ho
  | _ => exact ⟨hkeyed, hi.shifts, hi.balance, hi.offline⟩

end Steps

/-! ## Every run -/

section Read
variable {db : Db} {s : CashShift}

theorem ShiftInv.fresh {tenantId : Id} {settings : Settings} : ShiftInv (Db.fresh tenantId settings).core :=
  ⟨.empty, .nil, fun _ h => (List.not_mem_nil h).elim, fun _ h => (List.not_mem_nil h).elim⟩

/-- The cash sales of an open shift are what the ledger nets. -/
theorem ShiftInv.sales (hi : ShiftInv db.core) (hs : s ∈ db.shifts) (ho : s.status = .open) :
    (s.openingBalance + CashShiftService.cashSales (db.orders.filter
      (CashShiftService.isCashSale s.openedAt)) : Int) = ledgerCash s db.movements := by
  rw [cashSales_eq]
  exact congrArg _ (hi.balance s hs ho)

theorem ShiftInv.reconcile (hi : ShiftInv db.core) : ShiftsReconcile db := by
  refine ⟨fun s expected h => ?_, fun s hs ho q balance db' hq honTime hstep => ?_⟩
  · obtain ⟨shift, hfind, he⟩ := Option.map_eq_some_iff.1 h
    cases he
    rw [Int.natCast_add]
    exact hi.sales (List.mem_of_find?_eq_some hfind) (by simpa using List.find?_some hfind)
  · obtain ⟨a, hx⟩ := step_eq.1 hstep
    have hx := exec_eq.1 hx
    rw [hq] at hx
    obtain ⟨expected, hx⟩ := commits_effect hx
    simp only [CashShiftService.close, Transaction.commits_bind, Transaction.commits_look,
      Transaction.commits_orThrow, Transaction.commits_throwIf, Transaction.commits_write,
      Transaction.commits_pure] at hx
    obtain ⟨_, _, ⟨hfound, rfl⟩, shift, _, ⟨rfl, rfl⟩, _, _, ⟨-, rfl⟩, sales, _, ⟨hsales, rfl⟩, _, _, rfl, -,
      rfl⟩ := hx
    have hshift : s = shift := Option.some.inj ((hi.shifts.lookup hs).symm.trans hfound)
    subst hshift
    refine ⟨_, mem_updateWhere_of hs (decide_eq_true rfl), rfl, rfl, _, rfl, ?_⟩
    have hall : db.orders.filter (fun o => CashShiftService.isCashSale s.openedAt o && o.createdAt ≤ q.draw.now) =
        db.orders.filter (CashShiftService.isCashSale s.openedAt) :=
      List.filter_congr fun o hmem => by simp [honTime o hmem]
    rw [← hsales, hall, Int.natCast_add]
    exact hi.sales hs ho

end Read

/-- In a run that meets the condition, the expected cash of a shift is what the ledger says. -/
theorem shifts_reconcile {tenantId : Id} {settings : Settings} {qs : List Request} {db : Db}
    (hC : Along step ShiftCondition (Db.fresh tenantId settings) qs)
    (hr : Runs.exec step (Db.fresh tenantId settings) qs = some db) : ShiftsReconcile db :=
  (run_inv (I := ShiftInv) (fun _ _ _ hi hc h => hi.effect hc h) .fresh hC hr).reconcile

namespace Demo

def opening (now : Instant) : Request :=
  call now "open" (.openShift "operator" 5000 (some "location") "shift")

/-- A shift sells twice, gives one order back and closes. -/
def shiftOfItsOwn : List Request :=
  [setUp, opening 1, fillCart "1" "cart-1", fillCart "2" "cart-2", payInCash "3" "cart-1",
    payInCash "4" "cart-2", collect 5 "5" "order-3", refund 6 "6" "order-3", collect 7 "7" "order-4",
    call 8 "close" (.closeShift "shift" 6000)]

/-- A shift collects an order that was made before it opened. -/
def earlierOrder : List Request :=
  [setUp, fillCart "1" "cart", payInCash "2" "cart", opening 6, collect 7 "3" "order-2"]

end Demo

open Demo

theorem shifts_reconcile_day :
    ∃ db, Runs.exec step (Db.fresh "tenant" settings) shiftOfItsOwn = some db ∧ ShiftsReconcile db := by
  have hs : (Runs.exec step (Db.fresh "tenant" settings) shiftOfItsOwn).isSome = true := by decide +kernel
  obtain ⟨db, hr⟩ := Option.isSome_iff_exists.1 hs
  exact ⟨db, hr, shifts_reconcile (by decide +kernel) hr⟩

/-- The shift reports its opening balance, and the drawer holds the order's cash besides. -/
theorem shift_misses_earlier_order :
    ¬ ∀ (tenantId : Id) (settings : Settings) (qs : List Request) (db : Db),
      Runs.exec step (Db.fresh tenantId settings) qs = some db → ShiftsReconcile db := by
  intro h
  have hx : (Runs.exec step (Db.fresh "tenant" settings) earlierOrder).any (fun db =>
      (CashShiftService.current db).any fun p => (p.2 : Int) ≠ ledgerCash p.1 db.movements) = true := by
    decide +kernel
  obtain ⟨db, hr, hdb⟩ := (Option.any_eq_true _ _).1 hx
  obtain ⟨⟨s, expected⟩, hcurrent, hne⟩ := (Option.any_eq_true _ _).1 hdb
  exact of_decide_eq_true hne ((h _ _ _ _ hr).current s expected hcurrent)

end Komanda
