import Komanda.Proofs.LifeCycle
import Komanda.Proofs.OrderVersions
import Komanda.Proofs.Notifications

/-!
# The unpaid cash order: collected, or expired

The collection of a storefront order and the expiry job both decide on the clock and then update the row on the version
they have read. Whichever commits first changes the version; the other one finds no row.
-/

namespace Komanda
open Komanda.Core Table Runs ReadCommitted Transaction

/-! ## Deposits and expired orders -/

/-- A deposit of the order is recorded. -/
def DepositedIn (ms : List CashMovement) (id : Id) : Prop := ∃ m ∈ ms, m.type = .saleDeposit ∧ m.orderId = some id

def Deposited (db : Db) (id : Id) : Prop := DepositedIn db.movements id

/-- The storefront order has been given up: its payment has failed. -/
def Expired (db : Db) (id : Id) : Prop :=
  ∃ o ∈ db.orders, o.id = id ∧ o.source = .storefrontCash ∧ o.paymentStatus = .failed

/-- What is known of a storefront order and its deposit. -/
structure Till (o : Order) (ms : List CashMovement) : Prop where
  offline : o.paymentAttemptId = none
  tender : o.tender = .cash
  paid : DepositedIn ms o.id ↔ o.paymentStatus = .paid ∨ o.paymentStatus = .refunded
  expired : o.paymentStatus = .failed → o.fulfillmentStatus = .cancelled

structure TillInv (c : Core) : Prop where
  keyed : Keyed c
  /-- A movement belongs to an order that is there. -/
  named : ∀ m ∈ c.movements, ∀ id ∈ m.orderId, ∃ o ∈ c.orders, o.id = id
  /-- The key of a deposit is that of its order. -/
  keys : ∀ m ∈ c.movements, ∀ id, m.idempotencyKey = some ("cash_deposit:" ++ id) →
    m.type = .saleDeposit ∧ m.orderId = some id
  till : ∀ o ∈ c.orders, o.source = .storefrontCash → Till o c.movements

section Keys
variable {a b : String}

theorem deposit_key_inj (h : "cash_deposit:" ++ a = "cash_deposit:" ++ b) : a = b := by
  have hlist := congrArg String.toList h
  rw [String.toList_append, String.toList_append] at hlist
  exact String.toList_inj.1 (List.append_cancel_left hlist)

/-- The keys of withdrawals are no keys of deposits. -/
theorem withdrawal_key_ne :
    "cash_withdrawal:" ++ a ≠ "cash_deposit:" ++ b ∧ "cash_refund:" ++ a ≠ "cash_deposit:" ++ b := by
  constructor
  · intro h
    have hlist := congrArg (fun s : String => s.toList.take 6) h
    simp [String.toList_append] at hlist
  · intro h
    have hlist := congrArg (fun s : String => s.toList.take 6) h
    simp [String.toList_append] at hlist

end Keys

/-! ## What an operation does to a storefront order -/

/-- A transition or a cancellation leaves the payment; the other operations move it on. -/
inductive StorefrontMove (o o' : Order) : Option CashMovement → Prop
  | moved (hp : o'.paymentStatus = o.paymentStatus)
      (hc : o.paymentStatus = .failed → o'.fulfillmentStatus = .cancelled) : StorefrontMove o o' none
  | collected (m : CashMovement) (hm : m.type = .saleDeposit) (hid : m.orderId = some o.id)
      (hopen : o.fulfillmentStatus ≠ .cancelled) (hp : o'.paymentStatus = .paid) : StorefrontMove o o' (some m)
  | givenBack (m : CashMovement) (hm : m.type = .cancellationWithdrawal) (hpaid : o.paymentStatus = .paid)
      (hp : o'.paymentStatus = .refunded) : StorefrontMove o o' (some m)
  | expired (hpending : o.paymentStatus = .pending) (hp : o'.paymentStatus = .failed)
      (hc : o'.fulfillmentStatus = .cancelled) : StorefrontMove o o' none

/-- The cash of the order has come in. -/
def Order.Collected (o : Order) : Prop := o.paymentStatus = .paid ∨ o.paymentStatus = .refunded

/-- What a view of the orders still says: a storefront order that was paid has been collected. -/
structure SeesOrders (v db : Db) : Prop where
  versions : SeesVersions v db
  facts : Sees v db
  collected : ∀ r ∈ v.orders, r.source = .storefrontCash → r.Collected →
    ∀ o ∈ db.orders, o.id = r.id → o.Collected

section Moves
variable {q : Request} {v w db : Db} {order o o' : Order} {p : Order → Bool} {f : Order → Order}
  {movement : Option CashMovement} {released : Bool} {rows : List PaymentAttempt} {ms : List CashMovement} {id : Id}

theorem depositedIn_append : DepositedIn (ms ++ movement.toList) id ↔
    DepositedIn ms id ∨ ∃ m ∈ movement, m.type = .saleDeposit ∧ m.orderId = some id := by
  simp only [DepositedIn, List.mem_append, Option.mem_toList, or_and_right, exists_or, Option.mem_def]

/-- The movement of an operation is one of its order. -/
theorem Revision.movement_order (h : Revision q v db order p f movement released rows) :
    ∀ m ∈ movement, m.orderId = some order.id ∧ ∀ id, m.idempotencyKey = some ("cash_deposit:" ++ id) →
      m.type = .saleDeposit ∧ m.orderId = some id := by
  have hwithdrawal {shift : Option CashShift} {reason : Option String} {key : String} {id : Id}
      (hne : key ++ order.id ≠ "cash_deposit:" ++ id)
      (hk : (withdrawal order shift reason key q.draw).idempotencyKey = some ("cash_deposit:" ++ id)) : False :=
    hne (Option.some.inj hk)
  cases h with
  | transition expectedVersion request =>
    intro m hm
    rw [transitionMovement] at hm
    split at hm
    · cases hm
      exact ⟨rfl, fun id hk => (hwithdrawal withdrawal_key_ne.1 hk).elim⟩
    · cases hm
  | collect =>
    intro m hm
    cases hm
    exact ⟨rfl, fun id hk => ⟨rfl, congrArg some (deposit_key_inj (Option.some.inj hk))⟩⟩
  | refund =>
    intro m hm
    cases hm
    exact ⟨rfl, fun id hk => (hwithdrawal withdrawal_key_ne.2 hk).elim⟩
  | _ => intro m hm; cases hm

/-- The row that an operation updates has the facts that its guards have read. -/
theorem Revision.row_facts (h : Revision q v db order p f movement released rows) (hu : UniqueOn Order.id db.orders)
    (hv : Sees v db) (hmem : order ∈ v.orders) (ho : o ∈ db.orders) (hp : p o = true) : o.facts = order.facts := by
  obtain ⟨r, hr, hf⟩ := hv.orders order hmem
  have hro : r = o := hu.eq hr ho ((Order.column Order.id hf).trans (h.row_id hp).symm)
  exact hro ▸ hf

theorem collect_open {now : Instant} (h : CollectCashService.obstacle order now = none) :
    order.fulfillmentStatus ≠ .cancelled := by
  unfold CollectCashService.obstacle at h
  split at h
  · cases h
  · assumption

/-- An operation on a storefront order moves the row that is there. All but the transition have read this very row;
the transition has read an older one, and what it may do to the fulfillment depends on whether that was paid. -/
theorem Revision.storefront (h : Revision q v db order p f movement released rows) (hu : UniqueOn Order.id db.orders)
    (hv : SeesOrders v db) (hmem : order ∈ v.orders) (ho : o ∈ db.orders) (hp : p o = true)
    (hsource : o.source = .storefrontCash) (hoffline : o.paymentAttemptId = none) :
    StorefrontMove o (bump f q.draw.now o) movement := by
  have hid : o.id = order.id := h.row_id hp
  have hfacts := h.row_facts hu hv.facts hmem ho hp
  have hread : order.source = .storefrontCash := (Order.column Order.source hfacts).symm.trans hsource
  have hattempt : order.paymentAttemptId = none := (Order.column Order.paymentAttemptId hfacts).symm.trans hoffline
  have hsame (hversion : OrderRepository.atVersion order.id order.version o = true) : order = o :=
    hv.versions.same hu hmem ho hid (of_decide_eq_true (Bool.and_eq_true_iff.1 hversion).2)
  cases h with
  | transition expectedVersion request hq hg hne =>
    have hno : TransitionOrderService.refundsCash order request.fulfillmentStatus = false := by
      rw [Bool.eq_false_iff]
      intro hx
      rw [(refundsCash_iff.1 hx).2.1] at hread
      cases hread
    rw [transitionMovement, hno, if_neg Bool.false_ne_true]
    refine .moved rfl fun hfailed => ?_
    show request.fulfillmentStatus = .cancelled
    refine (transition_guards hg).2 hread fun hpaid => ?_
    -- the guards have seen it paid, so it cannot have failed
    have hcollected := hv.collected order hmem hread (.inl hpaid) o ho hid
    rw [Order.Collected, hfailed] at hcollected
    rcases hcollected with hcollected | hcollected <;> cases hcollected
  | collect actor key request recordId hq hpaid hg =>
    have hrow := hsame hp
    subst hrow
    exact .collected _ rfl rfl (collect_open hg) rfl
  | refund actor key request recordId hq hg =>
    have hrow := hsame hp
    subst hrow
    exact .givenBack _ rfl (refund_guards hg).2 rfl
  | cancel pickupPin hq hne hg =>
    have hrow := hsame hp
    subst hrow
    exact .moved rfl fun _ => rfl
  | expire hq hg =>
    have hrow := hsame hp
    subst hrow
    exact .expired (expires_guards hg).2.1 rfl rfl
  | confirm _ _ _ ha => rw [hattempt] at ha; cases ha
  | refuse _ _ _ _ ha => rw [hattempt] at ha; cases ha

/-- What was collected stays collected. -/
theorem StorefrontMove.collected_kept (h : StorefrontMove o o' movement) (hc : o.Collected) : o'.Collected := by
  cases h with
  | moved hp => rw [Order.Collected, hp]; exact hc
  | collected _ _ _ _ hp => exact .inl hp
  | givenBack _ _ _ hp => exact .inr hp
  | expired hpending => rw [Order.Collected, hpending] at hc; rcases hc with hc | hc <;> cases hc

/-- What has failed stays failed. -/
theorem StorefrontMove.failed_kept (h : StorefrontMove o o' movement) (ht : Till o ms)
    (hf : o.paymentStatus = .failed) : o'.paymentStatus = .failed := by
  cases h with
  | moved hp => exact hp.trans hf
  | collected _ _ _ hopen => exact absurd (ht.expired hf) hopen
  | givenBack _ _ hpaid => rw [hpaid] at hf; cases hf
  | expired _ hp => exact hp

theorem StorefrontMove.till (h : StorefrontMove o o' movement) (hf : o'.facts = o.facts) (ht : Till o ms) :
    Till o' (ms ++ movement.toList) := by
  have hid : o'.id = o.id := Order.column Order.id hf
  have hpaid := ht.paid
  refine ⟨(Order.column Order.paymentAttemptId hf).trans ht.offline, (Order.column Order.tender hf).trans ht.tender,
    ?_, ?_⟩
  · rw [hid, depositedIn_append, hpaid]
    cases h with
    | moved hp => rw [hp]; simp
    | collected m hm hmid _ hp => exact iff_of_true (.inr ⟨m, rfl, hm, hmid⟩) (.inl hp)
    | givenBack m hm hpaid hp => exact iff_of_true (.inl (.inl hpaid)) (.inr hp)
    | expired hpending hp => rw [hpending, hp]; simp
  · intro hfailed
    cases h with
    | moved hp hc => exact hc (hp.symm.trans hfailed)
    | collected _ _ _ _ hp => rw [hp] at hfailed; cases hfailed
    | givenBack _ _ _ hp => rw [hp] at hfailed; cases hfailed
    | expired _ _ hc => exact hc

end Moves

/-! ## What a request does to the storefront orders -/

/-- A storefront order after a request: as it was, moved, or new. -/
inductive StorefrontRow (db : Db) (c : Core) (o' : Order) : Prop
  | kept (movement : Option CashMovement) (ho : o' ∈ db.orders) (hm : c.movements = db.movements ++ movement.toList)
      (hother : ∀ m ∈ movement, m.orderId ≠ some o'.id)
  | moved (o : Order) (movement : Option CashMovement) (ho : o ∈ db.orders)
      (hm : c.movements = db.movements ++ movement.toList) (hf : o'.facts = o.facts)
      (h : StorefrontMove o o' movement)
  | new (hnew : ∀ o ∈ db.orders, o.id ≠ o'.id) (hm : c.movements = db.movements)
      (hoffline : o'.paymentAttemptId = none) (ht : o'.tender = .cash) (hp : o'.paymentStatus = .pending)

section Effects
variable {q : Request} {v w db db' : Db} {c : Core} {o o' : Order} {ms : List CashMovement}
  {movement : Option CashMovement}

theorem Till.append (ht : Till o ms) (hother : ∀ m ∈ movement, m.orderId ≠ some o.id) :
    Till o (ms ++ movement.toList) := by
  refine ⟨ht.offline, ht.tender, ?_, ht.expired⟩
  rw [depositedIn_append, ht.paid, or_iff_left]
  rintro ⟨m, hm, -, hid⟩
  exact hother m hm hid

theorem Effect.storefront_row (h : Effect q v db c) (hi : TillInv db.core) (hv : SeesOrders v db)
    (ho' : o' ∈ c.orders) (hsource : o'.source = .storefrontCash) : StorefrontRow db c o' := by
  have hkept {c : Core} (hm : c.movements = db.movements) (ho : o' ∈ db.orders) : StorefrontRow db c o' :=
    .kept none ho (hm.trans (List.append_nil _).symm) fun m hm => by cases hm
  cases h with
  | sold input order n active cart movement rows h horder hkey hopen hnew =>
    rw [book_orders, sell_orders] at ho'
    have hfree (o : Order) (ho : o ∈ db.orders) : o.id ≠ order.id := by
      have hn := hnew o ho
      simp only [OrderRepository.conflicts, Bool.or_eq_false_iff, decide_eq_false_iff_not] at hn
      exact hn.1.1
    rcases List.mem_append.1 ho' with ho' | ho'
    · refine .kept movement ho' ?_ fun m hm hid => ?_
      · rw [book_movements, sell_movements]; rfl
      · rw [h.booked m hm] at hid
        exact hfree o' ho' (Option.some.inj hid).symm
    · rw [List.mem_singleton] at ho'
      subst ho'
      rw [horder] at hsource
      cases h with
      | cash _ _ _ _ _ _ hp ht ha =>
        refine .new hfree ?_ ?_ ?_ ?_
        · rw [book_movements, sell_movements]
          exact List.append_nil _
        · rw [horder]; exact ha
        · rw [horder]; show input.tender.getD .cash = .cash; rw [ht]; rfl
        · rw [horder]; exact hp
      | direct _ _ _ _ hs => cases hs.symm.trans hsource
      | items _ _ hs => cases hs.symm.trans hsource
      | paid _ _ _ _ _ _ hs => cases hs.symm.trans hsource
      | confirmed _ _ _ _ _ _ hin => rw [hin] at hsource; cases hsource
  | revised order row p f movement released rows h hmem =>
    rw [release_orders, book_orders, revise_orders] at ho'
    have hm : (release released order (book movement
        (revise p f q.draw.now { db.core with attempts := rows }))).movements =
        db.movements ++ movement.toList := by
      rw [release_movements, book_movements, revise_movements]; rfl
    rcases mem_updateWhere_cases ho' with ⟨ho, hp⟩ | ⟨o, ho, hp, rfl⟩
    · refine .kept movement ho hm fun m hm hid => ?_
      -- the row of the movement is the one that was updated
      have hid : order.id = o'.id := Option.some.inj (((h.movement_order m hm).1).symm.trans hid)
      have hrow := List.find?_some ‹db.orders.find? p = some row›
      have hrm := List.mem_of_find?_eq_some ‹db.orders.find? p = some row›
      rw [hi.keyed.orders.eq hrm ho ((h.row_id hrow).trans hid), hp] at hrow
      cases hrow
    · have hf := h.facts q.draw.now o
      have hsource : o.source = .storefrontCash := (Order.column Order.source hf).symm.trans hsource
      exact .moved o movement ho hm hf
        (h.storefront hi.keyed.orders hv hmem ho hp hsource (hi.till o ho hsource).offline)
  | _ => exact hkept rfl ho'

/-- A movement after a request: one that was there, the deposit of a new order, or one of an operation's order. -/
theorem Effect.movement_cases (h : Effect q v db c) {m : CashMovement} (hm : m ∈ c.movements) :
    m ∈ db.movements ∨ ((∃ o ∈ c.orders, m.orderId = some o.id) ∧
      ∀ id, m.idempotencyKey = some ("cash_deposit:" ++ id) → m.type = .saleDeposit ∧ m.orderId = some id) := by
  cases h with
  | sold input order n active cart movement rows h =>
    rw [book_movements, sell_movements] at hm
    rcases List.mem_append.1 hm with hm | hm
    · exact .inl hm
    · have hdeposit := h.booked m (Option.mem_toList.1 hm)
      subst hdeposit
      refine .inr ⟨⟨order, ?_, rfl⟩, fun id hk => ?_⟩
      · rw [book_orders, sell_orders]
        exact List.mem_append_right _ (List.mem_singleton.2 rfl)
      · exact ⟨rfl, congrArg some (deposit_key_inj (Option.some.inj hk))⟩
  | revised order row p f movement released rows h hmem hrow =>
    rw [release_movements, book_movements, revise_movements] at hm
    rcases List.mem_append.1 hm with hm | hm
    · exact .inl hm
    · obtain ⟨hid, hkey⟩ := h.movement_order m (Option.mem_toList.1 hm)
      have hp := List.find?_some hrow
      refine .inr ⟨⟨bump f q.draw.now row, ?_, ?_⟩, hkey⟩
      · rw [release_orders, book_orders, revise_orders]
        exact mem_updateWhere_of (List.mem_of_find?_eq_some hrow) hp
      · rw [hid, Order.column Order.id (h.facts q.draw.now row), h.row_id hp]
  | _ => exact .inl hm

theorem TillInv.fresh {tenantId : Id} {settings : Settings} : TillInv (Db.fresh tenantId settings).core :=
  ⟨.empty, fun _ h => (List.not_mem_nil h).elim, fun _ h => (List.not_mem_nil h).elim,
    fun _ h => (List.not_mem_nil h).elim⟩

theorem TillInv.effect (hi : TillInv db.core) (hv : SeesOrders v db) (h : Effect q v db c) : TillInv c := by
  refine ⟨h.keyed hi.keyed, fun m hm id hid => ?_, fun m hm id hk => ?_, fun o' ho' hsource => ?_⟩
  · rcases h.movement_cases hm with hm | ⟨⟨o, ho, hmo⟩, -⟩
    · obtain ⟨o, ho, hoid⟩ := hi.named m hm id hid
      obtain ⟨o', ho', hf⟩ := h.facts.exists_mem ho
      exact ⟨o', ho', (Order.column Order.id hf).trans hoid⟩
    · exact ⟨o, ho, Option.some.inj (hmo.symm.trans hid)⟩
  · rcases h.movement_cases hm with hm | ⟨-, hkey⟩
    · exact hi.keys m hm id hk
    · exact hkey id hk
  · cases h.storefront_row hi hv ho' hsource with
    | kept movement ho hm hother => rw [hm]; exact (hi.till o' ho hsource).append hother
    | moved o movement ho hm hf hmove =>
      have hs : o.source = .storefrontCash := (Order.column Order.source hf).symm.trans hsource
      rw [hm]
      exact hmove.till hf (hi.till o ho hs)
    | new hnew hm hoffline ht hp =>
      have hnone : ¬ DepositedIn db.movements o'.id := by
        rintro ⟨m, hmem, -, hid⟩
        obtain ⟨o, ho, hoid⟩ := hi.named m hmem o'.id hid
        exact hnew o ho hoid
      rw [hm]
      refine ⟨hoffline, ht, iff_of_false hnone ?_, fun hf => ?_⟩
      · rw [hp]; simp
      · rw [hp] at hf; cases hf

theorem SeesOrders.effect (hw : SeesOrders w db) (hi : TillInv db.core) (hv : SeesOrders v db)
    (h : Effect q v db db'.core) : SeesOrders w db' := by
  refine ⟨hw.versions.effect h, hw.facts.effect h, fun r hr hs hc o' ho' hid => ?_⟩
  obtain ⟨x, hx, hxf⟩ := (hw.facts.effect h).orders r hr
  have hxo : x = o' := (h.keyed hi.keyed).orders.eq hx ho' ((Order.column Order.id hxf).trans hid.symm)
  have hsource : o'.source = .storefrontCash := hxo ▸ (Order.column Order.source hxf).trans hs
  cases h.storefront_row hi hv ho' hsource with
  | kept _ ho => exact hw.collected r hr hs hc o' ho hid
  | moved o _ ho _ hf hmove =>
    exact hmove.collected_kept (hw.collected r hr hs hc o ho ((Order.column Order.id hf).symm.trans hid))
  | new hnew =>
    obtain ⟨y, hy, hyf⟩ := hw.facts.orders r hr
    exact absurd ((Order.column Order.id hyf).trans hid.symm) (hnew y hy)

end Effects

/-! ## Runs -/

section Runs
variable {v w db db' : Db} {q : Request} {c : Core} {s s' : RcState} {es : List RcEvent} {id : Id} {o : Order}

theorem SeesOrders.refl (hi : TillInv db.core) : SeesOrders db db := by
  refine ⟨.refl hi.keyed.orders, .refl, fun r hr _ hc o ho hid => ?_⟩
  rw [hi.keyed.orders.eq ho hr hid]
  exact hc

theorem SeesOrders.reread (h : SeesOrders v db) (hi : TillInv db.core) (part : Part) :
    SeesOrders (reread part v db) db := by
  refine ⟨h.versions.reread hi.keyed.orders part, h.facts.reread part, ?_⟩
  cases part with
  | orders => exact (SeesOrders.refl hi).collected
  | _ => exact h.collected

theorem till_rely : Rely Komanda.exec Komanda.reread (fun db => TillInv db.core) SeesOrders fun _ _ _ => True where
  refl _ hi := .refl hi
  reread part _ _ hi h := h.reread hi part
  inv _ _ _ _ _ hi hv _ hx := hi.effect hv (exec_effect hx)
  stable _ _ _ _ _ hi hv _ hx _ hw := hw.effect hi hv (exec_effect hx)

theorem along_true : Along rcStep (AtCommit fun _ _ _ => True) s es := by
  refine Along.of_forall fun s e => ?_
  cases e with
  | commit i => exact fun _ _ => trivial
  | _ => trivial

/-- The till of a session. -/
abbrev TillSession (s : RcState) : Prop := Inv (fun db => TillInv db.core) SeesOrders s

theorem TillSession.reached {tenantId : Id} {settings : Settings}
    (hr : Runs.exec rcStep (RcState.fresh tenantId settings) es = some s) : TillSession s := by
  have hfresh : TillSession (RcState.fresh tenantId settings) :=
    ⟨TillInv.fresh, fun o ho => (List.not_mem_nil ho).elim⟩
  exact ReadCommitted.exec_inv till_rely hfresh along_true hr

/-- Movements are never deleted. -/
theorem Effect.movement_kept (h : Effect q v db c) {m : CashMovement} (hm : m ∈ db.movements) :
    m ∈ c.movements := by
  cases h with
  | sold => rw [book_movements, sell_movements]; exact List.mem_append_left _ hm
  | revised => rw [release_movements, book_movements, revise_movements]; exact List.mem_append_left _ hm
  | _ => exact hm

theorem Deposited.effect (hd : Deposited db id) (h : Effect q v db db'.core) : Deposited db' id := by
  obtain ⟨m, hm, hmid⟩ := hd
  exact ⟨m, h.movement_kept hm, hmid⟩

/-- An order that has expired stays so. -/
theorem Expired.effect (he : Expired db id) (hi : TillInv db.core) (hv : SeesOrders v db)
    (h : Effect q v db db'.core) : Expired db' id := by
  obtain ⟨o, ho, hid, hsource, hfailed⟩ := he
  obtain ⟨o', ho', hf⟩ := h.facts.exists_mem ho
  have hoid : o'.id = o.id := Order.column Order.id hf
  have hsource' : o'.source = .storefrontCash := (Order.column Order.source hf).trans hsource
  refine ⟨o', ho', hoid.trans hid, hsource', ?_⟩
  cases h.storefront_row hi hv ho' hsource' with
  | kept _ hmem => rw [hi.keyed.orders.eq hmem ho hoid]; exact hfailed
  | moved x _ hx _ hxf hmove =>
    have hxo : x = o := hi.keyed.orders.eq hx ho ((Order.column Order.id hxf).symm.trans hoid)
    subst hxo
    exact hmove.failed_kept (hi.till x ho hsource) hfailed
  | new hnew => exact absurd hoid.symm (hnew o ho)

/-- What a run has recorded stays recorded. -/
theorem TillSession.records (hs : TillSession s) (hr : Runs.exec rcStep s es = some s') :
    TillSession s' ∧ (Deposited s.db id → Deposited s'.db id) ∧ (Expired s.db id → Expired s'.db id) := by
  refine Runs.exec_inv (I := fun x => TillSession x ∧ (Deposited s.db id → Deposited x.db id) ∧
    (Expired s.db id → Expired x.db id)) (C := AtCommit fun _ _ _ => True) ?_
    ⟨hs, fun h => h, fun h => h⟩ along_true hr
  rintro x e x' ⟨hx, hd, he⟩ hc hstep
  refine ⟨ReadCommitted.step_inv till_rely e hx hc hstep, ?_⟩
  cases e with
  | commit i =>
    obtain ⟨t, ht, hstep⟩ := Option.bind_eq_some_iff.1 hstep
    obtain ⟨⟨a, db'⟩, hexec, rfl⟩ := Option.map_eq_some_iff.1 hstep
    have heff := exec_effect hexec
    exact ⟨fun h => (hd h).effect heff,
      fun h => (he h).effect hx.db (hx.views t (List.mem_of_getElem? ht)) heff⟩
  | start => cases hstep; exact ⟨hd, he⟩
  | reread =>
    obtain ⟨_, -, rfl⟩ := Option.map_eq_some_iff.1 hstep
    exact ⟨hd, he⟩
  | abort =>
    obtain ⟨_, -, rfl⟩ := Option.map_eq_some_iff.1 hstep
    exact ⟨hd, he⟩

theorem TillInv.not_both (hi : TillInv db.core) : ¬ (Deposited db id ∧ Expired db id) := by
  rintro ⟨hd, o, ho, rfl, hsource, hfailed⟩
  have hpaid := (hi.till o ho hsource).paid.1 hd
  rw [hfailed] at hpaid
  rcases hpaid with hpaid | hpaid <;> cases hpaid

end Runs

/-! ## The instant -/

/-- The request commits, and a deposit of the order is recorded. -/
def Collects (db : Db) (id : Id) (q : Request) : Prop := ∃ a db', exec q db db = some (a, db') ∧ Deposited db' id

/-- The request commits, and the order is cancelled with its payment failed. -/
def Expires (db : Db) (id : Id) (q : Request) : Prop := ∃ a db', exec q db db = some (a, db') ∧
  ∃ o ∈ db'.orders, o.id = id ∧ o.fulfillmentStatus = .cancelled ∧ o.paymentStatus = .failed

/-- The operator may collect, the order's holder has proved who he is, the key is granted and the movement's id new. -/
structure Authorized (db : Db) (o : Order) (actor : Actor) (key : String) (request : CollectCashRequest) (recordId : Id)
    (draw : Draw) : Prop where
  role : actor.handlesCash = true
  authenticated : CollectCashService.authenticationObstacle o actor request = none
  granted : ∃ claimId hash s, Commits (IdempotencyService.claim ("collect-cash:" ++ o.id) key (.collectCash request)
    (some 3600) recordId draw.now) db db (.claimed claimId hash) s
  movement : ∀ m ∈ db.movements, m.id ≠ draw.movementId

/-- The order may be paid until `t` and expires then. -/
structure DecidedAt (db : Db) (o : Order) (t : Instant) : Prop where
  accepted : ∀ actor key request recordId draw, Authorized db o actor key request recordId draw →
    (Collects db o.id ⟨.collect actor o.id key request recordId, draw⟩ ↔ draw.now < t)
  late : ∀ actor key request recordId draw, t ≤ draw.now →
    ¬ Collects db o.id ⟨.collect actor o.id key request recordId, draw⟩
  expired : ∀ draw, Expires db o.id ⟨.expire o.id, draw⟩ ↔ t ≤ draw.now

section Instant
variable {v s s' db : Db} {q : Request} {c : Core} {o : Order} {t : Instant} {draw : Draw} {actor : Actor}
  {key : String} {request : CollectCashRequest} {recordId orderId : Id}

/-- A collection moves cash only for an order that its guards let through. -/
theorem Effect.collects (h : Effect q v db c) (hq : q.action = .collect actor orderId key request recordId) :
    c.movements = db.movements ∨
      ∃ order ∈ v.orders, order.id = orderId ∧ CollectCashService.obstacle order q.draw.now = none := by
  cases h with
  | sold input order n active cart movement rows h =>
    cases h with
    | cash _ _ _ hq' => cases hq.symm.trans hq'
    | direct _ _ hq' => cases hq.symm.trans hq'
    | items _ hq' => cases hq.symm.trans hq'
    | paid _ _ hq' => cases hq.symm.trans hq'
    | confirmed =>
      refine .inl ?_
      rw [book_movements, sell_movements]
      exact List.append_nil _
  | revised order row p f movement released rows h hmem =>
    have hnone (hm : movement = none) : (release released order (book movement
        (revise p f q.draw.now { db.core with attempts := rows }))).movements = db.movements := by
      rw [release_movements, book_movements, revise_movements, hm]
      exact List.append_nil _
    cases h with
    | transition _ _ hq' => cases hq.symm.trans hq'
    | collect _ _ _ _ hq' _ hg =>
      cases hq.symm.trans hq'
      exact .inr ⟨order, hmem, rfl, hg⟩
    | refund _ _ _ _ hq' => cases hq.symm.trans hq'
    | cancel => exact .inl (hnone rfl)
    | expire => exact .inl (hnone rfl)
    | confirm => exact .inl (hnone rfl)
    | refuse => exact .inl (hnone rfl)
  | _ => exact .inl rfl

theorem collect_obstacle_late (hdeadline : o.paymentExpiresAt = some t)
    (h : CollectCashService.obstacle o draw.now = none) : draw.now < t := by
  unfold CollectCashService.obstacle at h
  split at h; · cases h
  split at h; · cases h
  split at h; · cases h
  split at h; · cases h
  rename_i hno
  rw [hdeadline, Option.any_some, decide_eq_true_eq] at hno
  exact Nat.lt_of_not_le hno

theorem collect_obstacle_none (hf : o.fulfillmentStatus = .approved) (hp : o.paymentStatus = .pending)
    (ht : o.tender = .cash) (hdeadline : o.paymentExpiresAt = some t) (hnow : draw.now < t) :
    CollectCashService.obstacle o draw.now = none := by
  have hlate : ¬ o.paymentExpiresAt.any (· ≤ draw.now) = true := by
    rw [hdeadline, Option.any_some, decide_eq_true_eq]
    exact Nat.not_le_of_lt hnow
  rw [CollectCashService.obstacle, hf, hp, ht, if_neg (by decide), if_neg (by decide), if_neg (by decide), if_neg hlate]

/-- The row itself is the one that an update on its version finds. -/
theorem find_ownVersion (hu : UniqueOn Order.id s.orders) (ho : o ∈ s.orders) :
    s.orders.find? (OrderRepository.atVersion o.id o.version) = some o := by
  have hp : OrderRepository.atVersion o.id o.version o = true := by simp [OrderRepository.atVersion]
  have hsome : (s.orders.find? (OrderRepository.atVersion o.id o.version)).isSome = true := by
    rw [List.find?_isSome]
    exact ⟨o, ho, hp⟩
  obtain ⟨x, hx⟩ := Option.isSome_iff_exists.1 hsome
  have hxp : OrderRepository.atVersion o.id o.version x = true := List.find?_some hx
  have hxid : x.id = o.id := of_decide_eq_true (Bool.and_eq_true_iff.1 hxp).1
  rw [hx, hu.eq (List.mem_of_find?_eq_some hx) ho hxid]

theorem updateReturning_found {p : Order → Bool} {f : Order → Order} {now : Instant}
    (hrow : s.orders.find? p = some o) : Commits (OrderRepository.updateReturning p f now) v s (some (bump f now o))
      { s with orders := updateWhere p (bump f now) s.orders } := by
  rw [OrderRepository.updateReturning, commits_current_bind, commits_write_bind, commits_pure, hrow]
  exact ⟨rfl, rfl⟩

/-- The writes of a collection, on the row that its guards have read, fail only if the movement cannot be booked. -/
theorem collectApply_succeeds {claimId : Id} (hu : UniqueOn Order.id s.orders) (ho : o ∈ s.orders)
    (hb : Bookable (depositOf o (openShiftAt o.locationId v) draw) s.movements) :
    Succeeds (CollectCashService.apply o claimId request draw) v s := by
  have hfree : ¬ (s.movements.any fun m => m.id = (depositOf o (openShiftAt o.locationId v) draw).id ||
      (m.orderId.isSome && m.orderId = (depositOf o (openShiftAt o.locationId v) draw).orderId &&
        m.type = (depositOf o (openShiftAt o.locationId v) draw).type) ||
      (m.idempotencyKey.isSome &&
        m.idempotencyKey = (depositOf o (openShiftAt o.locationId v) draw).idempotencyKey)) = true := by
    rw [List.any_eq_true]
    rintro ⟨m, hm, hc⟩
    obtain ⟨hid, htype, hkey⟩ := hb m hm
    simp only [Bool.or_eq_true, Bool.and_eq_true, decide_eq_true_eq] at hc
    rcases hc with (hc | ⟨⟨hsome, horder⟩, hc⟩) | ⟨hsome, hc⟩
    · exact hid hc
    · exact htype hsome horder hc
    · exact hkey hsome hc
  have hfound {s : Db} {updated : Order} : Commits (orStale (some updated)) v s updated s :=
    commits_orThrow.2 ⟨rfl, rfl⟩
  rw [CollectCashService.apply, succeeds_look_bind, succeeds_bind (updateReturning_found (find_ownVersion hu ho)),
    succeeds_bind hfound, recordMovement]
  simp only [bind_assoc, succeeds_current_bind, succeeds_throwIf_bind, succeeds_write_bind]
  refine ⟨hfree, (succeeds_bind_total fun _ => ?_).2 (enqueueOrderTicket_total _ _ _)⟩
  have hevent (e : String) (f t : Option FulfillmentStatus) (p : Payload) :
      Total (OrderRepository.appendEvent o.id e f t p) := Total.write _
  have houtbox (e : String) (p : Payload) : Total (appendOutboxEvent "order" o.id e p) := Total.write _
  have haudit (p : Payload) : Total (appendAuditEvent "order.collect_cash" "order" o.id p) := Total.write _
  have hcomplete (body : IdemResponse) : Total (IdempotencyService.complete claimId 200 body) := by
    unfold IdempotencyService.complete onIdempotency Idempotency.complete
    exact .zoom (.write _)
  exact .bind (hevent _ _ _ _) fun _ => .bind (haudit _) fun _ => .bind (houtbox _ _) fun _ =>
    .bind (houtbox _ _) fun _ => .bind (hcomplete _) fun _ => .pure _

theorem announceCancellation_total (order updated : Order) (reason : String) :
    Total (announceCancellation order updated reason) := by
  have hrelease : Total (releaseCoupon order) := .runIf (.write _)
  have hevent : Total (OrderRepository.appendTransitionEvent order.id order.fulfillmentStatus .cancelled none) :=
    .write _
  exact .bind hrelease fun _ => .bind hevent fun _ => .bind (.write _) fun _ => .write _

theorem expireRun_total : Total (ExpireUnpaidOrdersJob.run orderId draw) := by
  refine .bind (.look _) fun _ => .forSome fun order => .bind ?_ fun returned => ?_
  · exact .bind (.current _) fun _ => .bind (.write _) fun _ => .pure _
  · exact .forSome fun updated => announceCancellation_total _ _ _

/-- The deposit of a storefront order that is not paid can be booked. -/
theorem TillInv.bookable (hi : TillInv db.core) (hnone : ¬ Deposited db o.id)
    (hfresh : ∀ m ∈ db.movements, m.id ≠ draw.movementId) (shift : Option CashShift) :
    Bookable (depositOf o shift draw) db.movements := by
  intro m hm
  refine ⟨hfresh m hm, fun _ hid htype => hnone ⟨m, hm, htype, hid⟩, fun _ hkey => ?_⟩
  exact hnone ⟨m, hm, hi.keys m hm o.id hkey⟩

/-- An authorized collection in time commits. -/
theorem TillInv.collects (hi : TillInv db.core) (ho : o ∈ db.orders) (hs : o.source = .storefrontCash)
    (hp : o.paymentStatus = .pending) (hf : o.fulfillmentStatus = .approved) (hd : o.paymentExpiresAt = some t)
    (ha : Authorized db o actor key request recordId draw) (hnow : draw.now < t) :
    Collects db o.id ⟨.collect actor o.id key request recordId, draw⟩ := by
  have htill := hi.till o ho hs
  have hnone : ¬ Deposited db o.id := by
    intro hdep
    rcases htill.paid.1 hdep with hpaid | hpaid <;> exact PaymentStatus.noConfusion (hp.symm.trans hpaid)
  obtain ⟨claimId, hash, s₁, hclaim⟩ := ha.granted
  have hcore : s₁.core = db.core := keeps_claim _ _ _ _ _ _ _ _ _ _ hclaim
  have horders : s₁.orders = db.orders := congrArg Core.orders hcore
  have hmovements : s₁.movements = db.movements := congrArg Core.movements hcore
  have hunpaid : ¬ o.paymentStatus = .paid := by rw [hp]; exact PaymentStatus.noConfusion
  have hb := hi.bookable hnone ha.movement (openShiftAt o.locationId db)
  obtain ⟨response, db', happly⟩ : Succeeds (CollectCashService.apply o claimId request draw) db s₁ :=
    collectApply_succeeds (by rw [horders]; exact hi.keyed.orders) (horders ▸ ho) (hmovements ▸ hb)
  have hrun : Commits (CollectCashService.collect actor o.id key request recordId draw) db db response db' := by
    rw [CollectCashService.collect, commits_throwIf_bind]
    refine ⟨not_not.2 ha.role, (commits_bind_of hclaim).2 ?_⟩
    rw [commits_look_bind, commits_orThrow_bind]
    refine ⟨o, hi.keyed.orders.lookup ho, commits_ite.2 (.inr ⟨hunpaid, ?_⟩)⟩
    rw [collect_obstacle_none hf hp htill.tender hd hnow, ha.authenticated]
    exact happly
  refine ⟨.done, db', exec_eq.2 ?_, depositOf o (openShiftAt o.locationId db) draw, ?_, rfl, rfl⟩
  · exact commits_bind.2 ⟨response, db', hrun, commits_pure.2 ⟨rfl, rfl⟩⟩
  · have hm : db'.movements = s₁.movements ++ [depositOf o (openShiftAt o.locationId db) draw] :=
      congrArg Core.movements (collectApply_core happly).2.2
    rw [hm]
    exact List.mem_append_right _ (List.mem_singleton.2 rfl)

/-- The job's visit at a due time cancels the order, and an earlier one does not. -/
theorem TillInv.expires_iff (hi : TillInv db.core) (ho : o ∈ db.orders) (hs : o.source = .storefrontCash)
    (hp : o.paymentStatus = .pending) (hf : o.fulfillmentStatus = .approved) (hd : o.paymentExpiresAt = some t) :
    Expires db o.id ⟨.expire o.id, draw⟩ ↔ t ≤ draw.now := by
  have hfound : OrderRepository.findById o.id db = some o := hi.keyed.orders.lookup ho
  have hg : ExpireUnpaidOrdersJob.expires o draw.now = true ↔ t ≤ draw.now := by
    simp [ExpireUnpaidOrdersJob.expires, hs, hp, hf, hd]
  constructor
  · rintro ⟨a, db', hexec, x, hx, hid, -, hfailed⟩
    obtain ⟨_, hrun⟩ := commits_effect (exec_eq.1 hexec)
    rcases expireRun_cases hrun with ⟨order, row, hread, hexpires, -⟩ | ⟨-, hcore⟩
    · cases hfound.symm.trans hread
      exact hg.1 hexpires
    · have horders : db'.orders = db.orders := congrArg Core.orders hcore
      rw [horders] at hx
      rw [hi.keyed.orders.eq hx ho hid, hp] at hfailed
      cases hfailed
  · intro hdue
    obtain ⟨u, db', hrun⟩ : Succeeds (ExpireUnpaidOrdersJob.run o.id draw) db db := expireRun_total db db
    refine ⟨.done, db', exec_eq.2 (commits_bind.2 ⟨u, db', hrun, commits_pure.2 ⟨rfl, rfl⟩⟩), ?_⟩
    have hown := find_ownVersion hi.keyed.orders ho
    rcases expireRun_cases hrun with ⟨order, row, hread, -, -, hcore⟩ | ⟨hno, -⟩
    · cases hfound.symm.trans hread
      refine ⟨bump ExpireUnpaidOrdersJob.expireOrder draw.now o, ?_, rfl, rfl, rfl⟩
      have horders : db'.orders = updateWhere (OrderRepository.atVersion o.id o.version)
          (bump ExpireUnpaidOrdersJob.expireOrder draw.now) db.orders := by
        have hc := congrArg Core.orders hcore
        rwa [release_orders, revise_orders] at hc
      rw [horders]
      exact mem_updateWhere_of ho (List.find?_some hown)
    · have hn := hno o hfound (hg.2 hdue)
      rw [hown] at hn
      cases hn

theorem TillInv.decided (hi : TillInv db.core) (ho : o ∈ db.orders) (hs : o.source = .storefrontCash)
    (hp : o.paymentStatus = .pending) (hf : o.fulfillmentStatus = .approved) (hd : o.paymentExpiresAt = some t) :
    DecidedAt db o t := by
  have hnone : ¬ Deposited db o.id := by
    intro hdep
    rcases (hi.till o ho hs).paid.1 hdep with hpaid | hpaid <;> exact PaymentStatus.noConfusion (hp.symm.trans hpaid)
  have hintime {actor : Actor} {key : String} {request : CollectCashRequest} {recordId : Id} {draw : Draw}
      (h : Collects db o.id ⟨.collect actor o.id key request recordId, draw⟩) : draw.now < t := by
    obtain ⟨a, db', hexec, m, hm, hmid⟩ := h
    rcases (exec_effect hexec).collects rfl with hsame | ⟨order, hmem, hid, hg⟩
    · have hm : m ∈ db'.core.movements := hm
      rw [hsame] at hm
      exact absurd ⟨m, hm, hmid⟩ hnone
    · rw [hi.keyed.orders.eq hmem ho hid] at hg
      exact collect_obstacle_late hd hg
  exact {
    accepted := fun actor key request recordId draw ha => ⟨hintime, hi.collects ho hs hp hf hd ha⟩
    late := fun actor key request recordId draw hlate h => Nat.not_le_of_lt (hintime h) hlate
    expired := fun draw => hi.expires_iff ho hs hp hf hd }

end Instant

/-! ## The law -/

/-- What holds of the unpaid storefront orders in a state that a run has reached. -/
structure CashExcludesExpiry (s : RcState) : Prop where
  /-- A run records no deposit of an order that it records to have expired, in whatever order they come. -/
  excluded : ∀ es s', Runs.exec rcStep s es = some s' → ∀ id,
    ¬ ((Deposited s.db id ∨ Deposited s'.db id) ∧ (Expired s.db id ∨ Expired s'.db id))
  /-- Orders that are paid, or were, have a deposit, and those that have failed are cancelled without one. -/
  ended : ∀ o ∈ s.db.orders, o.source = .storefrontCash → (Deposited s.db o.id ↔ o.Collected) ∧
    (o.paymentStatus = .failed → o.fulfillmentStatus = .cancelled ∧ ¬ Deposited s.db o.id)
  /-- What a run of the job changes has expired. -/
  marked : ∀ t ∈ s.opens, ∀ id, t.action.action = .expire id → ∀ a db',
    exec t.action t.view s.db = some (a, db') → db'.orders = s.db.orders ∨ Expired db' id
  decided : ∀ o ∈ s.db.orders, o.source = .storefrontCash → o.paymentStatus = .pending →
    o.fulfillmentStatus = .approved → ∀ t, o.paymentExpiresAt = some t → DecidedAt s.db o t

section Law
variable {s s' : RcState} {es : List RcEvent} {v db db' : Db} {draw : Draw} {id : Id} {u : Unit}

theorem expireRun_marks (hi : TillInv db.core) (hv : SeesOrders v db)
    (h : Commits (ExpireUnpaidOrdersJob.run id draw) v db u db') : db'.orders = db.orders ∨ Expired db' id := by
  rcases expireRun_cases h with ⟨order, row, hread, hg, hrow, hcore⟩ | ⟨-, hcore⟩
  · have hmem := List.mem_of_find?_eq_some hrow
    have hp := List.find?_some hrow
    have hid : row.id = order.id := of_decide_eq_true (Bool.and_eq_true_iff.1 hp).1
    obtain ⟨x, hx, hf⟩ := hv.facts.orders order (lookup_mem hread)
    have hxrow : x = row := hi.keyed.orders.eq hx hmem ((Order.column Order.id hf).trans hid.symm)
    have hsource : row.source = .storefrontCash := by
      rw [← hxrow, Order.column Order.source hf]
      exact (expires_guards hg).1
    have horders : db'.orders = updateWhere (OrderRepository.atVersion order.id order.version)
        (bump ExpireUnpaidOrdersJob.expireOrder draw.now) db.orders := by
      have hc := congrArg Core.orders hcore
      rwa [release_orders, revise_orders] at hc
    refine .inr ⟨bump ExpireUnpaidOrdersJob.expireOrder draw.now row, ?_, hid.trans (lookup_key hread), hsource,
      rfl⟩
    rw [horders]
    exact mem_updateWhere_of hmem hp
  · exact .inl (congrArg Core.orders hcore)

/-- In every run, an unpaid storefront order is collected or expires, and not both. -/
theorem cash_excludes_expiry {tenantId : Id} {settings : Settings}
    (hr : Runs.exec rcStep (RcState.fresh tenantId settings) es = some s) : CashExcludesExpiry s := by
  have hs := TillSession.reached hr
  refine { excluded := fun es' s' hr' id => ?_, ended := fun o ho hsource => ?_,
           marked := fun t ht id hq a db' hx => ?_,
           decided := fun o ho hsource hp hf t hd => hs.db.decided ho hsource hp hf hd }
  · obtain ⟨hs', hdeposited, hexpired⟩ :
        TillSession s' ∧ (Deposited s.db id → Deposited s'.db id) ∧ (Expired s.db id → Expired s'.db id) :=
      hs.records hr'
    rintro ⟨hd, he⟩
    exact hs'.db.not_both ⟨hd.elim hdeposited fun h => h, he.elim hexpired fun h => h⟩
  · have htill := hs.db.till o ho hsource
    refine ⟨htill.paid, fun hfailed => ⟨htill.expired hfailed, fun hd => ?_⟩⟩
    exact hs.db.not_both ⟨hd, o, ho, rfl, hsource, hfailed⟩
  · have hrun := exec_eq.1 hx
    rw [hq] at hrun
    obtain ⟨_, hrun⟩ := commits_effect hrun
    exact expireRun_marks hs.db (hs.views t ht) hrun

end Law

namespace Demo

/-- A cash order is collected while the job visits it. -/
def collectedOnTime : List RcEvent :=
  inTurn [setUp, fillCart "1" "cart", payInCash "2" "cart"] ++
    [.start (call 3600004 "3" (.expire "order-2")), .start (collect 5 "4" "order-2"), .commit 1, .commit 0]

end Demo

open Demo

theorem cash_excludes_expiry_overlap : ∃ s,
    Runs.exec rcStep (RcState.fresh "tenant" settings) collectedOnTime = some s ∧ CashExcludesExpiry s := by
  have hx : (Runs.exec rcStep (RcState.fresh "tenant" settings) collectedOnTime).isSome = true := by decide +kernel
  obtain ⟨s, hr⟩ := Option.isSome_iff_exists.1 hx
  exact ⟨s, hr, cash_excludes_expiry hr⟩

end Komanda
