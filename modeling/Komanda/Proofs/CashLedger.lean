import Komanda.Proofs.ApprovedPayments

/-!
# The cash drawer

An order has no movement, a deposit, or a deposit and a withdrawal after it, and the cash is held in the
second case. `refund-cash` asks for the tender of an order and not for its source; an order that was paid
online carries the default tender, which is cash.
-/

namespace Komanda
open Komanda.Core Table Runs

/-- The movements of a type that belong to an order. -/
def movementsOf (type : CashMovementType) (orderId : Id) (movements : List CashMovement) :
    List CashMovement :=
  movements.filter fun m => m.type = type && m.orderId = some orderId

def amounts (movements : List CashMovement) : Cents := (movements.map (·.amount)).sum

/-- The drawer holds the cash of the order: it was collected in cash and has not been given back. -/
def CashHeld (o : Order) : Prop :=
  o.source ≠ .mercadopagoWebhook ∧ o.tender = .cash ∧ o.paymentStatus = .paid

instance (o : Order) : Decidable (CashHeld o) := inferInstanceAs (Decidable (_ ∧ _))

structure CashLedger (db : Db) : Prop where
  /-- A withdrawal comes after exactly one deposit of its order, of the same amount. -/
  preceded : ∀ before w after, db.movements = before ++ w :: after → w.type = .cancellationWithdrawal →
    ∀ id, w.orderId = some id → ∃ d, movementsOf .saleDeposit id before = [d] ∧ d.amount = w.amount
  once : ∀ id, (movementsOf .saleDeposit id db.movements).length ≤ 1 ∧
    (movementsOf .cancellationWithdrawal id db.movements).length ≤ 1
  balance : ∀ o ∈ db.orders, (amounts (movementsOf .saleDeposit o.id db.movements) : Int) -
    amounts (movementsOf .cancellationWithdrawal o.id db.movements) = if CashHeld o then o.total else 0
  online : ∀ o ∈ db.orders, o.source = .mercadopagoWebhook →
    movementsOf .cancellationWithdrawal o.id db.movements = []

/-- A refund in cash is of an order that was not paid online. -/
def RefundsCashSale (db : Db) (q : Request) : Prop :=
  match q.action with
  | .refund _ orderId _ _ _ => ∀ o ∈ Table.lookup Order.id orderId db.orders,
      RefundCashService.obstacle o = none → o.source ≠ .mercadopagoWebhook
  | _ => True

instance (db : Db) (q : Request) : Decidable (RefundsCashSale db q) := by
  unfold RefundsCashSale
  split <;> infer_instance

/-! ## One order and the drawer -/

/-- The three states of an order in the drawer. -/
inductive Drawer (o : Order) (ms : List CashMovement) : Prop
  | nothing (hd : movementsOf .saleDeposit o.id ms = []) (hw : movementsOf .cancellationWithdrawal o.id ms = [])
      (hh : ¬ CashHeld o)
  | held (d : CashMovement) (hd : movementsOf .saleDeposit o.id ms = [d]) (ham : d.amount = o.total)
      (hw : movementsOf .cancellationWithdrawal o.id ms = []) (hh : CashHeld o)
  | returned (d w : CashMovement) (hd : movementsOf .saleDeposit o.id ms = [d]) (hda : d.amount = o.total)
      (hw : movementsOf .cancellationWithdrawal o.id ms = [w]) (hwa : w.amount = o.total)
      (hs : o.source ≠ .mercadopagoWebhook) (hr : o.paymentStatus = .refunded)

section Drawer
variable {o o' : Order} {ms : List CashMovement} {m : CashMovement} {type : CashMovementType} {id : Id}

theorem movementsOf_append : movementsOf type id (ms ++ [m]) =
    movementsOf type id ms ++ if m.type = type ∧ m.orderId = some id then [m] else [] := by
  simp [movementsOf, List.filter_append, List.filter_cons]

theorem movementsOf_other (h : m.orderId ≠ some id) : movementsOf type id (ms ++ [m]) = movementsOf type id ms := by
  rw [movementsOf_append, if_neg fun hm => h hm.2, List.append_nil]

theorem movementsOf_book {movement : Option CashMovement} (h : ∀ m ∈ movement, m.orderId ≠ some id) :
    movementsOf type id (ms ++ movement.toList) = movementsOf type id ms := by
  cases movement with
  | none => rw [Option.toList_none, List.append_nil]
  | some m => exact movementsOf_other (h m rfl)

theorem Drawer.not_held_refunded (h : o.paymentStatus = .refunded) : ¬ CashHeld o := fun hh => by
  rw [hh.2.2] at h; cases h

/-- The movements of other orders do not matter. -/
theorem Drawer.book {movement : Option CashMovement} (h : Drawer o ms)
    (hm : ∀ m ∈ movement, m.orderId ≠ some o.id) : Drawer o (ms ++ movement.toList) := by
  cases h with
  | nothing hd hw hh => exact .nothing (by rw [movementsOf_book hm, hd]) (by rw [movementsOf_book hm, hw]) hh
  | held d hd ham hw hh =>
    exact .held d (by rw [movementsOf_book hm, hd]) ham (by rw [movementsOf_book hm, hw]) hh
  | returned d w hd hda hw hwa hs hr =>
    exact .returned d w (by rw [movementsOf_book hm, hd]) hda (by rw [movementsOf_book hm, hw]) hwa hs hr

/-- An update that does not concern the payment. -/
theorem Drawer.congr (h : Drawer o ms) (hf : o'.facts = o.facts) (hp : o'.paymentStatus = o.paymentStatus) :
    Drawer o' ms := by
  have hid := Order.column Order.id hf
  have htotal := Order.column Order.total hf
  have hsource := Order.column Order.source hf
  have hheld : CashHeld o' ↔ CashHeld o := by
    rw [CashHeld, CashHeld, hsource, Order.column Order.tender hf, hp]
  cases h with
  | nothing hd hw hh => exact .nothing (hid ▸ hd) (hid ▸ hw) (hheld.not.2 hh)
  | held d hd ham hw hh => exact .held d (hid ▸ hd) (ham.trans htotal.symm) (hid ▸ hw) (hheld.2 hh)
  | returned d w hd hda hw hwa hs hr =>
    exact .returned d w (hid ▸ hd) (hda.trans htotal.symm) (hid ▸ hw) (hwa.trans htotal.symm)
      (hsource ▸ hs) (hp.trans hr)

/-- An order whose cash is collected. -/
theorem Drawer.deposit (h : Drawer o ms) (hn : ¬ CashHeld o) (hr : o.paymentStatus ≠ .refunded)
    (hf : o'.facts = o.facts) (hh : CashHeld o') (hm : m.type = .saleDeposit) (hid : m.orderId = some o.id)
    (hamount : m.amount = o.total) : Drawer o' (ms ++ [m]) := by
  have hi := Order.column Order.id hf
  cases h with
  | nothing hd hw =>
    refine .held m ?_ (hamount.trans (Order.column Order.total hf).symm) ?_ hh
    · rw [hi, movementsOf_append, hd, if_pos ⟨hm, hid⟩, List.nil_append]
    · rw [hi, movementsOf_append, hw, if_neg (by simp [hm]), List.nil_append]
  | held d _ _ _ hh => exact absurd hh hn
  | returned d w _ _ _ _ _ hr' => exact absurd hr' hr

/-- An order whose cash is given back. -/
theorem Drawer.withdraw (h : Drawer o ms) (hh : CashHeld o) (hf : o'.facts = o.facts)
    (hr : o'.paymentStatus = .refunded) (hm : m.type = .cancellationWithdrawal)
    (hid : m.orderId = some o.id) (hamount : m.amount = o.total) : Drawer o' (ms ++ [m]) := by
  have hi := Order.column Order.id hf
  have ht := Order.column Order.total hf
  cases h with
  | nothing _ _ hn => exact absurd hh hn
  | held d hd ham hw =>
    refine .returned d m ?_ (ham.trans ht.symm) ?_ (hamount.trans ht.symm) ?_ hr
    · rw [hi, movementsOf_append, hd, if_neg (by simp [hm]), List.append_nil]
    · rw [hi, movementsOf_append, hw, if_pos ⟨hm, hid⟩, List.nil_append]
    · rw [Order.column Order.source hf]; exact hh.1
  | returned _ _ _ _ _ _ _ hr' => exact absurd hh (Drawer.not_held_refunded hr')

end Drawer

/-! ## The ledger -/

/-- A withdrawal comes after exactly one deposit of its order, of the same amount. -/
def Preceded (ms : List CashMovement) : Prop :=
  ∀ before w after, ms = before ++ w :: after → w.type = .cancellationWithdrawal →
    ∀ id, w.orderId = some id → ∃ d, movementsOf .saleDeposit id before = [d] ∧ d.amount = w.amount

theorem Preceded.append {ms : List CashMovement} {m : CashMovement} (h : Preceded ms)
    (hm : m.type = .cancellationWithdrawal → ∀ id, m.orderId = some id →
      ∃ d, movementsOf .saleDeposit id ms = [d] ∧ d.amount = m.amount) : Preceded (ms ++ [m]) := by
  intro before w after he ht id hid
  rcases List.eq_nil_or_concat after with rfl | ⟨after, x, rfl⟩
  · obtain ⟨rfl, hw⟩ := List.append_inj' he rfl
    cases hw
    exact hm ht id hid
  · rw [List.concat_eq_append, ← List.cons_append, ← List.append_assoc] at he
    exact h before w after (List.append_inj' he rfl).1 ht id hid

/-- What holds of the orders and the drawer in every such run. -/
structure LedgerInv (c : Core) : Prop where
  keyed : Keyed c
  source : ∀ o ∈ c.orders, o.paymentAttemptId ≠ none → o.source = .mercadopagoWebhook
  paid : ∀ o ∈ c.orders, o.source = .mercadopagoWebhook →
    o.paymentStatus = .paid ∨ o.paymentStatus = .refunded
  known : ∀ m ∈ c.movements, ∀ id, m.orderId = some id → ∃ o ∈ c.orders, o.id = id
  drawer : ∀ o ∈ c.orders, Drawer o c.movements
  preceded : Preceded c.movements

section Invariant
variable {q : Request} {v db : Db} {c : Core} {order : Order} {p : Order → Bool} {f : Order → Order}
  {movement : Option CashMovement} {released : Bool} {rows : List PaymentAttempt} {input : SnapshotInput}
  {cart : Option Cart} {n active : Nat} {ms : List CashMovement}

theorem LedgerInv.fresh {tenantId : Id} {settings : Settings} :
    LedgerInv (Db.fresh tenantId settings).core :=
  ⟨.empty, fun _ h => (List.not_mem_nil h).elim, fun _ h => (List.not_mem_nil h).elim,
    fun _ h => (List.not_mem_nil h).elim, fun _ h => (List.not_mem_nil h).elim,
    fun before w after h => by simp [Db.fresh, Db.core] at h⟩

/-- The movement of a sale is the deposit of its order. -/
theorem Sale.booked (h : Sale q v db input order cart movement rows) :
    ∀ m ∈ movement, m = depositOf order none q.draw := by
  cases h with
  | direct => intro m hm; cases hm; rfl
  | items request =>
    intro m hm
    split at hm
    · cases hm; rfl
    · cases hm
  | _ => intro m hm; cases hm

/-- A sale books the deposit of an order that is paid in cash. -/
theorem Sale.drawer (h : Sale q v db input order cart movement rows)
    (horder : order = OrderRepository.newOrder input q.draw n active)
    (hnew : ∀ type, movementsOf type order.id ms = []) : Drawer order (ms ++ movement.toList) := by
  have hs : order.source = input.source := by rw [horder]; rfl
  have hp : order.paymentStatus = input.paymentStatus := by rw [horder]; rfl
  have ht : order.tender = input.tender.getD .cash := by rw [horder]; rfl
  have hnothing (hn : ¬ CashHeld order) : Drawer order (ms ++ (none : Option CashMovement).toList) := by
    rw [Option.toList_none, List.append_nil]; exact .nothing (hnew _) (hnew _) hn
  have hdeposit (hh : CashHeld order) :
      Drawer order (ms ++ (some (depositOf order none q.draw)).toList) := by
    refine .held (depositOf order none q.draw) ?_ rfl ?_ hh
    · rw [Option.toList_some, movementsOf_append, hnew, if_pos ⟨rfl, rfl⟩, List.nil_append]
    · rw [Option.toList_some, movementsOf_append, hnew, if_neg (by simp [depositOf]), List.nil_append]
  cases h with
  | cash _ _ _ _ _ _ hin => exact hnothing fun hh => by rw [hh.2.2] at hp; rw [hin] at hp; cases hp
  | direct _ _ _ _ hin hpaid hcash =>
    refine hdeposit ⟨?_, ?_, ?_⟩
    · rw [hs, hin]; decide
    · rw [ht, hcash]; rfl
    · rw [hp, hpaid]
  | items request _ hin hpaid hcash =>
    split
    · rename_i hc
      refine hdeposit ⟨?_, ?_, ?_⟩
      · rw [hs, hin]; decide
      · rw [ht, hcash]; exact hc.1
      · rw [hp, hpaid]; exact hc.2
    · rename_i hc
      refine hnothing fun hh => hc ⟨?_, ?_⟩
      · have := hh.2.1; rw [ht, hcash] at this; exact this
      · have := hh.2.2; rw [hp, hpaid] at this; exact this
  | paid _ _ _ _ _ _ hin => exact hnothing fun hh => hh.1 (hs.trans hin)
  | confirmed _ _ _ _ _ _ hin => exact hnothing fun hh => hh.1 (hs.trans (by rw [hin]; rfl))

theorem Sale.paid_online (h : Sale q v db input order cart movement rows)
    (horder : order = OrderRepository.newOrder input q.draw n active)
    (hsource : order.source = .mercadopagoWebhook) : order.paymentStatus = .paid := by
  have hs : input.source = .mercadopagoWebhook := by rw [horder] at hsource; exact hsource
  have hp : order.paymentStatus = input.paymentStatus := by rw [horder]; rfl
  rw [hp]
  cases h with
  | cash _ _ _ _ _ hin => rw [hin] at hs; cases hs
  | direct _ _ _ _ hin => rw [hin] at hs; cases hs
  | items _ _ hin => rw [hin] at hs; cases hs
  | paid _ _ _ _ _ _ _ hin => exact hin
  | confirmed _ _ _ _ _ _ hin => rw [hin]; rfl

theorem refundsCash_iff {next : FulfillmentStatus} :
    TransitionOrderService.refundsCash order next = true ↔ next = .cancelled ∧ order.source = .adminDirect ∧
      order.tender = .cash ∧ order.paymentStatus = .paid := by
  simp [TransitionOrderService.refundsCash, and_assoc]

/-- What the guards of a refund leave. -/
theorem refund_guards (h : RefundCashService.obstacle order = none) :
    order.tender = .cash ∧ order.paymentStatus = .paid := by
  unfold RefundCashService.obstacle at h
  split at h; · cases h
  split at h; · cases h
  split at h; · cases h
  split at h; · cases h
  rename_i h₁ h₂
  exact ⟨not_not.1 h₁, not_not.1 h₂⟩

/-- What the guards of a collection leave. -/
theorem collect_guards {now : Instant} (h : CollectCashService.obstacle order now = none) :
    order.paymentStatus ≠ .refunded ∧ order.tender = .cash := by
  unfold CollectCashService.obstacle at h
  split at h; · cases h
  split at h; · cases h
  split at h; · cases h
  rename_i h₁ h₂
  exact ⟨h₁, not_not.1 h₂⟩

/-- The movement of an operation belongs to its order, and a withdrawal gives back cash that is held. -/
theorem Revision.booked (h : Revision q v db order p f movement released rows)
    (hrefund : ∀ actor key request recordId, q.action = .refund actor order.id key request recordId →
      RefundCashService.obstacle order = none → order.source ≠ .mercadopagoWebhook)
    {m : CashMovement} (hm : m ∈ movement) : m.orderId = some order.id ∧ m.amount = order.total ∧
      (m.type = .cancellationWithdrawal → CashHeld order) := by
  cases h with
  | transition expectedVersion request =>
    simp only [transitionMovement, Option.mem_def] at hm
    split at hm
    · rename_i hr
      cases hm
      obtain ⟨-, hs, ht, hp⟩ := refundsCash_iff.1 hr
      exact ⟨rfl, rfl, fun _ => ⟨by rw [hs]; decide, ht, hp⟩⟩
    · cases hm
  | collect => cases hm; exact ⟨rfl, rfl, fun h => by cases h⟩
  | refund actor key request recordId hq hg =>
    cases hm
    obtain ⟨ht, hp⟩ := refund_guards hg
    exact ⟨rfl, rfl, fun _ => ⟨hrefund actor key request recordId hq hg, ht, hp⟩⟩
  | _ => cases hm

/-- An operation books what it does to the cash of its order. -/
theorem Revision.drawer (h : Revision q v db order p f movement released rows)
    (hrefund : ∀ actor key request recordId, q.action = .refund actor order.id key request recordId →
      RefundCashService.obstacle order = none → order.source ≠ .mercadopagoWebhook)
    (hsource : order.paymentAttemptId ≠ none → order.source = .mercadopagoWebhook)
    (hpaid : order.source = .mercadopagoWebhook →
      order.paymentStatus = .paid ∨ order.paymentStatus = .refunded)
    (hd : Drawer order ms) : Drawer (bump f q.draw.now order) (ms ++ movement.toList) := by
  have hf := h.facts q.draw.now order
  have hid := Order.column Order.id hf
  have honline {a : Id} (ha : order.paymentAttemptId = some a) :
      Drawer (bump f q.draw.now order) (ms ++ (none : Option CashMovement).toList) := by
    have hs := hsource (by rw [ha]; nofun)
    rw [Option.toList_none, List.append_nil]
    cases hd with
    | nothing hd hw _ =>
      exact .nothing (hid ▸ hd) (hid ▸ hw) fun hh => hh.1 ((Order.column Order.source hf).trans hs)
    | held _ _ _ _ hh => exact absurd hs hh.1
    | returned _ _ _ _ _ _ hn _ => exact absurd hs hn
  cases h with
  | transition expectedVersion request =>
    by_cases hr : TransitionOrderService.refundsCash order request.fulfillmentStatus = true
    · obtain ⟨-, hs, ht, hp⟩ := refundsCash_iff.1 hr
      rw [transitionMovement, if_pos hr]
      refine hd.withdraw ⟨by rw [hs]; decide, ht, hp⟩ hf ?_ rfl rfl rfl
      show (if _ then _ else _) = _
      rw [if_pos hr]
    · rw [transitionMovement, if_neg hr, Option.toList_none, List.append_nil]
      refine hd.congr hf ?_
      show (if _ then _ else _) = _
      rw [if_neg hr]
  | collect actor key request recordId hq hnp hg =>
    obtain ⟨hr, ht⟩ := collect_guards hg
    have hs : order.source ≠ .mercadopagoWebhook := fun hs => (hpaid hs).elim hnp hr
    exact hd.deposit (fun hh => hnp hh.2.2) hr hf ⟨hs, ht, rfl⟩ rfl rfl rfl
  | refund actor key request recordId hq hg =>
    obtain ⟨ht, hp⟩ := refund_guards hg
    exact hd.withdraw ⟨hrefund actor key request recordId hq hg, ht, hp⟩ hf rfl rfl rfl rfl
  | cancel => exact (hd.congr hf rfl).book (by simp)
  | expire hq hg =>
    have hpending : order.paymentStatus = .pending := by
      simp only [ExpireUnpaidOrdersJob.expires, Bool.and_eq_true, decide_eq_true_eq] at hg
      exact hg.1.1.2
    rw [Option.toList_none, List.append_nil]
    cases hd with
    | nothing hd hw _ => exact .nothing hd hw fun hh => by cases hh.2.2
    | held _ _ _ _ hh => cases hpending.symm.trans hh.2.2
    | returned _ _ _ _ _ _ _ hr => cases hpending.symm.trans hr
  | confirm _ _ _ ha => exact honline ha
  | refuse _ _ _ _ ha => exact honline ha

theorem LedgerInv.effect (hi : LedgerInv db.core) (hc : RefundsCashSale db q) (h : Effect q db db c) :
    LedgerInv c := by
  have hkeyed := h.keyed hi.keyed
  cases h with
  | sold input order n active cart movement rows h horder hkey hopen hnew =>
    have hfresh (type : CashMovementType) : movementsOf type order.id db.movements = [] := by
      refine List.filter_eq_nil_iff.2 fun m hm hmo => ?_
      simp only [Bool.and_eq_true, decide_eq_true_eq] at hmo
      obtain ⟨o, ho, hid⟩ := hi.known m hm order.id hmo.2
      have := hnew o ho
      simp [OrderRepository.conflicts, hid] at this
    have hother (o : Order) (ho : o ∈ db.orders) : ∀ m ∈ movement, m.orderId ≠ some o.id := by
      intro m hm hmo
      rw [h.booked m hm] at hmo
      have := hnew o ho
      have hid : order.id = o.id := Option.some.inj hmo
      simp [OrderRepository.conflicts, hid] at this
    refine ⟨hkeyed, fun o ho hoa => ?_, fun o ho hs => ?_, fun m hm id hmo => ?_, fun o ho => ?_, ?_⟩
    · rw [book_orders, sell_orders] at ho
      rcases List.mem_append.1 ho with ho | ho
      · exact hi.source o ho hoa
      · rw [List.mem_singleton] at ho; subst ho
        obtain ⟨a, ha⟩ := Option.ne_none_iff_exists'.1 hoa
        exact (h.order horder ha).2.1
    · rw [book_orders, sell_orders] at ho
      rcases List.mem_append.1 ho with ho | ho
      · exact hi.paid o ho hs
      · rw [List.mem_singleton] at ho; subst ho
        exact .inl (h.paid_online horder hs)
    · rw [book_orders, sell_orders]
      rw [book_movements, sell_movements] at hm
      rcases List.mem_append.1 hm with hm | hm
      · obtain ⟨o, ho, hid⟩ := hi.known m hm id hmo
        exact ⟨o, List.mem_append_left _ ho, hid⟩
      · rw [h.booked m (Option.mem_toList.1 hm)] at hmo
        exact ⟨order, by simp, Option.some.inj hmo⟩
    · rw [book_orders, sell_orders] at ho
      rw [book_movements, sell_movements]
      rcases List.mem_append.1 ho with ho | ho
      · exact (hi.drawer o ho).book (hother o ho)
      · rw [List.mem_singleton] at ho; subst ho
        exact h.drawer horder hfresh
    · rw [book_movements, sell_movements]
      cases movement with
      | none => rw [Option.toList_none, List.append_nil]; exact hi.preceded
      | some m =>
        have hm := h.booked m rfl
        exact hi.preceded.append fun ht => by rw [hm] at ht; cases ht
  | revised order row p f movement released rows h hv hrow =>
    have hrefund (actor key request recordId) (hq : q.action = .refund actor order.id key request recordId)
        (hg : RefundCashService.obstacle order = none) : order.source ≠ .mercadopagoWebhook := by
      rw [RefundsCashSale, hq] at hc
      exact hc order (hi.keyed.orders.lookup hv) hg
    have hmo {m : CashMovement} (hm : m ∈ movement) := h.booked hrefund hm
    have hcases {o : Order} (ho : o ∈ Table.updateWhere p (bump f q.draw.now) db.orders) :=
      h.rows hi.keyed.orders hv hrow ho
    have hf := h.facts q.draw.now order
    refine ⟨hkeyed, fun o ho hoa => ?_, fun o ho hs => ?_, fun m hm id hmid => ?_, fun o ho => ?_, ?_⟩
    · rw [release_orders, book_orders, revise_orders] at ho
      rcases hcases ho with ⟨ho, -⟩ | rfl
      · exact hi.source o ho hoa
      · rw [Order.column Order.paymentAttemptId hf] at hoa
        exact (Order.column Order.source hf).trans (hi.source order hv hoa)
    · rw [release_orders, book_orders, revise_orders] at ho
      rcases hcases ho with ⟨ho, -⟩ | rfl
      · exact hi.paid o ho hs
      · rw [Order.column Order.source hf] at hs
        have hp := hi.paid order hv hs
        exact h.paid q.draw.now hs hp hp
    · have hex {id : Id} (ho : ∃ o ∈ db.orders, o.id = id) :
          ∃ o ∈ Table.updateWhere p (bump f q.draw.now) db.orders, o.id = id := by
        obtain ⟨o, ho, rfl⟩ := ho
        by_cases hp : p o = true
        · exact ⟨_, mem_updateWhere_of ho hp, Order.column Order.id (h.facts _ o)⟩
        · exact ⟨o, mem_updateWhere_of_not ho (Bool.eq_false_iff.2 hp), rfl⟩
      rw [release_orders, book_orders, revise_orders]
      rw [release_movements, book_movements, revise_movements] at hm
      rcases List.mem_append.1 hm with hm | hm
      · exact hex (hi.known m hm id hmid)
      · rw [(hmo (Option.mem_toList.1 hm)).1] at hmid
        exact hex ⟨order, hv, Option.some.inj hmid⟩
    · rw [release_orders, book_orders, revise_orders] at ho
      rw [release_movements, book_movements, revise_movements]
      rcases hcases ho with ⟨ho, hne⟩ | rfl
      · exact (hi.drawer o ho).book fun m hm hid => by
          rw [(hmo hm).1] at hid; exact hne (Option.some.inj hid).symm
      · exact h.drawer hrefund (hi.source order hv) (hi.paid order hv) (hi.drawer order hv)
    · rw [release_movements, book_movements, revise_movements]
      cases movement with
      | none => rw [Option.toList_none, List.append_nil]; exact hi.preceded
      | some m =>
        obtain ⟨hid, hamount, hheld⟩ := hmo rfl
        refine hi.preceded.append fun ht id hmid => ?_
        rw [hid] at hmid
        obtain rfl := Option.some.inj hmid
        cases hi.drawer order hv with
        | nothing _ _ hn => exact absurd (hheld ht) hn
        | held d hd ham => exact ⟨d, hd, ham.trans hamount.symm⟩
        | returned _ _ _ _ _ _ _ hr => exact absurd (hheld ht) (Drawer.not_held_refunded hr)
  | _ => exact ⟨hkeyed, hi.source, hi.paid, hi.known, hi.drawer, hi.preceded⟩

end Invariant

/-! ## Every run -/

section Read
variable {db : Db} {o : Order} {ms : List CashMovement}

theorem Drawer.balance (h : Drawer o ms) : (amounts (movementsOf .saleDeposit o.id ms) : Int) -
    amounts (movementsOf .cancellationWithdrawal o.id ms) = if CashHeld o then o.total else 0 := by
  cases h with
  | nothing hd hw hh => rw [hd, hw, if_neg hh]; rfl
  | held d hd ham hw hh => rw [hd, hw, if_pos hh]; simp [amounts, ham]
  | returned d w hd hda hw hwa _ hr =>
    rw [hd, hw, if_neg (Drawer.not_held_refunded hr)]; simp [amounts, hda, hwa]

theorem Drawer.once (h : Drawer o ms) : (movementsOf .saleDeposit o.id ms).length ≤ 1 ∧
    (movementsOf .cancellationWithdrawal o.id ms).length ≤ 1 := by
  cases h with
  | nothing hd hw => rw [hd, hw]; decide
  | held d hd _ hw => rw [hd, hw]; simp
  | returned d w hd _ hw => rw [hd, hw]; simp

theorem LedgerInv.ledger (hi : LedgerInv db.core) : CashLedger db := by
  refine ⟨hi.preceded, fun id => ?_, fun o ho => (hi.drawer o ho).balance, fun o ho hs => ?_⟩
  · by_cases hex : ∃ o ∈ db.orders, o.id = id
    · obtain ⟨o, ho, rfl⟩ := hex
      exact (hi.drawer o ho).once
    · have hnone (type : CashMovementType) : movementsOf type id db.movements = [] := by
        refine List.filter_eq_nil_iff.2 fun m hm hmo => hex ?_
        simp only [Bool.and_eq_true, decide_eq_true_eq] at hmo
        exact hi.known m hm id hmo.2
      rw [hnone, hnone]; decide
  · cases hi.drawer o ho with
    | nothing _ hw => exact hw
    | held _ _ _ hw => exact hw
    | returned _ _ _ _ _ _ hn => exact absurd hs hn

end Read

/-- In a run that refunds in cash no order that was paid online, the drawer has its ledger. -/
theorem cash_ledger {tenantId : Id} {settings : Settings} {qs : List Request} {db : Db}
    (hC : Along step RefundsCashSale (Db.fresh tenantId settings) qs)
    (hr : Runs.exec step (Db.fresh tenantId settings) qs = some db) : CashLedger db :=
  (run_inv (I := LedgerInv) (fun _ _ _ hi hc h => hi.effect hc h) .fresh hC hr).ledger

namespace Demo

def operator : Actor := .user "operator" .employee

def collect (now : Instant) (n orderId : String) : Request := call now n (.collect operator orderId
  ("key-" ++ n) { authMethod := .accountAuth } ("record-" ++ n))

def refund (now : Instant) (n orderId : String) : Request := call now n (.refund operator orderId
  ("key-" ++ n) { reason := "Returned" } ("record-" ++ n))

/-- An order is paid at the counter and given back. -/
def collectAndRefund : List Request :=
  [setUp, fillCart "1" "cart", payInCash "2" "cart", collect 5 "3" "order-2", refund 6 "4" "order-2"]

/-- An order that was paid online is given back at the counter. -/
def refundOnline : List Request := checkout ++ [refund 6 "5" "order-4"]

end Demo

open Demo

theorem cash_ledger_refund :
    ∃ db, Runs.exec step (Db.fresh "tenant" settings) collectAndRefund = some db ∧ CashLedger db := by
  have hs : (Runs.exec step (Db.fresh "tenant" settings) collectAndRefund).isSome = true := by
    decide +kernel
  obtain ⟨db, hr⟩ := Option.isSome_iff_exists.1 hs
  exact ⟨db, hr, cash_ledger (by decide +kernel) hr⟩

/-- The drawer pays out what it never took in. -/
theorem refund_cash_of_online_order :
    ¬ ∀ (tenantId : Id) (settings : Settings) (qs : List Request) (db : Db),
      Runs.exec step (Db.fresh tenantId settings) qs = some db → CashLedger db := by
  intro h
  have hx : (Runs.exec step (Db.fresh "tenant" settings) refundOnline).any (fun db =>
      db.orders.any fun o => o.source = .mercadopagoWebhook &&
        !(movementsOf .cancellationWithdrawal o.id db.movements).isEmpty) = true := by decide +kernel
  obtain ⟨db, hr, hdb⟩ := (Option.any_eq_true _ _).1 hx
  obtain ⟨o, ho, hot⟩ := List.any_eq_true.1 hdb
  simp only [Bool.and_eq_true, decide_eq_true_eq] at hot
  rw [(h _ _ _ _ hr).online o ho hot.1] at hot
  cases hot.2

end Komanda
