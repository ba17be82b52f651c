import Komanda.Proofs.CashLedger
import Komanda.Proofs.Confirmations
import Komanda.Proofs.Tickets

/-!
# The life of an order

Cancelled is final, a refunded order is a cancelled one and stays refunded, and the kitchen works on cash
orders of the storefront that are paid only. The moves of an order are spread over six services; each of them
refuses a refunded order but for the reconciliation, which writes `paid` on whatever order it finds for an
approved payment (`Revives`).
-/

namespace Komanda
open Transaction ReadCommitted Runs Komanda.Core Table

/-- What a later row keeps of an order's end. -/
structure Order.Ends (o r : Order) : Prop where
  cancelled : o.fulfillmentStatus = .cancelled → r.fulfillmentStatus = .cancelled
  refunded : o.paymentStatus = .refunded → r.paymentStatus = .refunded

/-- Refunds are of cancelled orders, and the kitchen waits for the cash of the storefront. -/
structure Order.Gated (o : Order) : Prop where
  refunded : o.paymentStatus = .refunded → o.fulfillmentStatus = .cancelled
  kitchen : o.source = .storefrontCash → o.paymentStatus ≠ .paid →
    o.fulfillmentStatus ∉ [.preparing, .ready, .delivered]

/-- A reconciliation is answered that a payment is approved, and the order it finds for it is refunded. -/
def Revives (db : Db) (q : Request) : Prop :=
  ∃ attempt payment order, Reconciles q db attempt payment ∧ payment.status = .approved ∧
    OrderRepository.findByPaymentAttempt attempt.id db = some order ∧ order.paymentStatus = .refunded

/-- The gates of an order, with what they rest on. -/
structure Order.Lawful (o : Order) : Prop extends o.Gated where
  tender : o.source = .storefrontCash → o.tender = .cash

structure LifeInv (c : Core) : Prop where
  keyed : Keyed c
  lawful : ∀ o ∈ c.orders, o.Lawful

section Effects
variable {q : Request} {v db : Db} {c : Core} {rows : List PaymentAttempt}

/-- What the guards of a transition leave. -/
theorem transition_guards {order : Order} {request : TransitionOrderService.Request}
    (h : TransitionOrderService.obstacle order request = none) :
    canTransition order.fulfillmentStatus request.fulfillmentStatus order.source = true ∧
      (order.source = .storefrontCash → order.paymentStatus ≠ .paid → request.fulfillmentStatus = .cancelled) := by
  unfold TransitionOrderService.obstacle at h
  dsimp only at h
  split at h; · cases h
  split at h; · cases h
  rename_i h₁ h₂
  refine ⟨not_not.1 h₁, fun hs hp => ?_⟩
  by_contra hne
  exact h₂ ⟨.inl hs, hp, hne⟩

/-- A cancelled order does not move. -/
theorem cancelled_final {next : FulfillmentStatus} {source : OrderSource}
    (h : canTransition .cancelled next source = true) : next = .cancelled := by
  cases next <;> cases source <;> first | rfl | exact absurd h (by decide)

/-- A sale makes a lawful order. -/
theorem Sale.lawful {input : SnapshotInput} {order : Order} {cart : Option Cart}
    {movement : Option CashMovement} {n active : Nat} (h : Sale q v db input order cart movement rows) :
    (OrderRepository.newOrder input q.draw n active).Lawful := by
  have hstatus : input.paymentStatus ≠ .refunded := by
    cases h with
    | items request hq hs hp =>
      intro hr
      have hok := request.accepted
      rw [← hp, hr] at hok
      exact absurd hok (by decide)
    | confirmed _ _ _ _ _ _ hi => rw [hi]; exact PaymentStatus.noConfusion
    | cash _ _ _ _ _ _ hp => rw [hp]; exact PaymentStatus.noConfusion
    | direct _ _ _ _ _ hp => rw [hp]; exact PaymentStatus.noConfusion
    | paid _ _ _ _ _ _ _ hp => rw [hp]; exact PaymentStatus.noConfusion
  refine { refunded := fun hr => absurd hr hstatus, kitchen := fun _ _ => ?_, tender := fun hs => ?_ }
  · show FulfillmentStatus.approved ∉ _
    decide
  · have hs : input.source = .storefrontCash := hs
    have ht : input.tender = some .cash := by
      cases h with
      | cash _ _ _ _ _ _ _ ht => exact ht
      | direct _ _ _ _ hs' => rw [hs'] at hs; cases hs
      | items _ _ hs' => rw [hs'] at hs; cases hs
      | paid _ _ _ _ _ _ hs' => rw [hs'] at hs; cases hs
      | confirmed _ _ _ _ _ _ hi => rw [hi] at hs; cases hs
    show input.tender.getD .cash = .cash
    rw [ht]; rfl

/-- An operation keeps an order lawful and its end, unless it revives it. -/
theorem Revision.lives {order : Order} {p : Order → Bool} {f : Order → Order}
    {movement : Option CashMovement} {released : Bool} (h : Revision q v db order p f movement released rows)
    (hl : order.Lawful) : (bump f q.draw.now order).Lawful ∧
      ((order.paymentStatus = .refunded → ¬ Revives v q) → order.Ends (bump f q.draw.now order)) := by
  cases h with
  | transition expectedVersion request hq hg hne =>
    obtain ⟨hmove, hgate⟩ := transition_guards hg
    -- a refunded order is cancelled, and a cancelled one does not move
    have hnot : order.fulfillmentStatus ≠ .cancelled := by
      intro hc
      rw [hc] at hmove
      exact hne (hc.trans (cancelled_final hmove).symm)
    have hrefund : order.paymentStatus ≠ .refunded := fun hr => hnot (hl.refunded hr)
    refine ⟨{ refunded := fun hr => ?_, kitchen := fun hs hp => ?_, tender := hl.tender },
      fun _ => ⟨fun hc => absurd hc hnot, fun hr => absurd hr hrefund⟩⟩
    · show request.fulfillmentStatus = .cancelled
      by_contra hnext
      have hno : TransitionOrderService.refundsCash order request.fulfillmentStatus = false := by
        rw [Bool.eq_false_iff]
        exact fun hx => hnext (refundsCash_iff.1 hx).1
      have hr : (if TransitionOrderService.refundsCash order request.fulfillmentStatus = true then .refunded
        else order.paymentStatus) = PaymentStatus.refunded := hr
      rw [hno] at hr
      exact hrefund hr
    · have hsource : order.source = .storefrontCash := hs
      have hno : TransitionOrderService.refundsCash order request.fulfillmentStatus = false := by
        rw [Bool.eq_false_iff]
        intro hx
        rw [(refundsCash_iff.1 hx).2.1] at hsource
        cases hsource
      have hunpaid : order.paymentStatus ≠ .paid := by
        intro hpaid
        refine hp ?_
        show (if TransitionOrderService.refundsCash order request.fulfillmentStatus = true then .refunded
          else order.paymentStatus) = PaymentStatus.paid
        rw [hno]; exact hpaid
      show request.fulfillmentStatus ∉ _
      rw [hgate hsource hunpaid]
      decide
  | collect actor key request recordId hq hpaid hg =>
    have hrefund := (collect_guards hg).1
    refine ⟨{ refunded := fun hr => ?_, kitchen := fun _ hp => absurd rfl hp, tender := hl.tender },
      fun _ => ⟨id, fun hr => absurd hr hrefund⟩⟩
    cases hr
  | refund actor key request recordId hq hg =>
    refine ⟨{ refunded := fun _ => rfl, kitchen := fun _ _ => ?_, tender := hl.tender },
      fun _ => ⟨fun _ => rfl, fun _ => rfl⟩⟩
    show FulfillmentStatus.cancelled ∉ _
    decide
  | cancel pickupPin hq hne hg =>
    refine ⟨{ refunded := fun _ => rfl, kitchen := fun _ _ => ?_, tender := hl.tender },
      fun _ => ⟨fun _ => rfl, id⟩⟩
    show FulfillmentStatus.cancelled ∉ _
    decide
  | expire hq hg =>
    refine ⟨{ refunded := fun _ => rfl, kitchen := fun _ _ => ?_, tender := hl.tender },
      fun _ => ⟨fun _ => rfl, fun hr => ?_⟩⟩
    · show FulfillmentStatus.cancelled ∉ _
      decide
    · simp only [ExpireUnpaidOrdersJob.expires, Bool.and_eq_true, decide_eq_true_eq] at hg
      rw [hg.1.1.2] at hr
      cases hr
  | confirm attempt rows h ha hpaid payment hr hok hread =>
    refine ⟨{ refunded := fun hr => ?_, kitchen := fun _ hp => absurd rfl hp, tender := hl.tender },
      fun hno => ⟨id, fun hrefund => ?_⟩⟩
    · cases hr
    · exact absurd ⟨attempt, payment, order, hr, hok, hread, hrefund⟩ (hno hrefund)
  | refuse attempt payment h hp ha hs hread =>
    have hnotPaid : order.paymentStatus ≠ .paid := by rw [hs]; exact PaymentStatus.noConfusion
    refine ⟨{ refunded := fun hr => ?_, kitchen := fun hc _ => hl.kitchen hc hnotPaid, tender := hl.tender },
      fun _ => ⟨id, fun hr => ?_⟩⟩
    · cases hr
    · rw [hs] at hr; cases hr

theorem LifeInv.fresh {tenantId : Id} {settings : Settings} : LifeInv (Db.fresh tenantId settings).core :=
  ⟨.empty, fun _ h => (List.not_mem_nil h).elim⟩

theorem LifeInv.effect (hi : LifeInv db.core) (h : Effect q db db c) : LifeInv c := by
  refine ⟨h.keyed hi.keyed, ?_⟩
  cases h with
  | sold input order n active cart movement rows h horder =>
    intro o ho
    rw [book_orders, sell_orders] at ho
    rcases List.mem_append.1 ho with ho | ho
    · exact hi.lawful o ho
    · rw [List.mem_singleton] at ho
      rw [ho, horder]
      exact h.lawful
  | revised order row p f movement released rows h hv hrow =>
    intro o ho
    rw [release_orders, book_orders, revise_orders] at ho
    rcases h.rows hi.keyed.orders hv hrow ho with ⟨ho, -⟩ | rfl
    · exact hi.lawful o ho
    · exact (h.lives (hi.lawful order hv)).1
  | _ => exact hi.lawful

/-- The rows of an order before and after. -/
theorem LifeInv.ends (hi : LifeInv db.core) (h : Effect q db db c) (hno : ¬ Revives db q) {o r : Order}
    (ho : o ∈ db.orders) (hr : r ∈ c.orders) (hid : r.id = o.id) : o.Ends r := by
  have hsame {x : Order} (hx : x ∈ db.orders) (hxo : x.id = o.id) : o.Ends x := by
    rw [hi.keyed.orders.eq hx ho hxo]
    exact ⟨id, id⟩
  cases h with
  | sold input order n active cart movement rows h horder hkey hopen hnew =>
    rw [book_orders, sell_orders] at hr
    rcases List.mem_append.1 hr with hr | hr
    · exact hsame hr hid
    · -- the new order's id is free
      rw [List.mem_singleton] at hr
      have := hnew o ho
      simp only [OrderRepository.conflicts, Bool.or_eq_false_iff, decide_eq_false_iff_not] at this
      exact absurd (hr ▸ hid.symm) this.1.1
  | revised order row p f movement released rows h hv hrow =>
    rw [release_orders, book_orders, revise_orders] at hr
    rcases h.rows hi.keyed.orders hv hrow hr with ⟨hr, -⟩ | rfl
    · exact hsame hr hid
    · have hoo : order = o :=
        hi.keyed.orders.eq hv ho ((Order.column Order.id (h.facts q.draw.now order)).symm.trans hid)
      subst hoo
      exact (h.lives (hi.lawful order hv)).2 fun _ => hno
  | _ => exact hsame hr hid

end Effects

section Steps
variable {q : Request} {db db' : Db}

/-- A reconciliation of a refunded order that commits leaves it paid. -/
theorem Revives.paid (h : Revives db q) (hs : step db q = some db') :
    ∃ o ∈ db.orders, o.paymentStatus = .refunded ∧ ∃ r ∈ db'.orders, r.id = o.id ∧ r.paymentStatus = .paid := by
  obtain ⟨attempt, payment, order, hr, hok, hread, hrefunded⟩ := h
  have hm : order ∈ db.orders := List.mem_of_find?_eq_some hread
  obtain ⟨a, hx⟩ := step_eq.1 hs
  have hrun := exec_eq.1 hx
  rw [hr.request] at hrun
  simp only [Action.run, effect, Reconciliation.reconcilePaymentAttempt, commits_bind, commits_look,
    commits_orThrow, commits_pure] at hrun
  obtain ⟨_, _, ⟨_, _, ⟨hfound, rfl⟩, attempt', _, ⟨rfl, rfl⟩, hrun⟩, -, rfl⟩ := hrun
  have hsome : some attempt' = some attempt := hfound.symm.trans hr.read
  cases hsome
  have hrun := (commits_ite.1 hrun).resolve_left fun h => by rw [hr.unsettled] at h; cases h.1
  have hrun := (commits_ite.1 hrun.2).resolve_left fun h => hr.asked h.1
  simp only [commits_bind, commits_look, commits_orThrow, commits_throwIf] at hrun
  obtain ⟨-, _, _, ⟨-, rfl⟩, account, _, ⟨-, rfl⟩, _, _, ⟨-, rfl⟩, existing, _, ⟨rfl, rfl⟩, hrun⟩ := hrun
  have hrun := (commits_ite.1 hrun).resolve_right fun h => h.1 hok
  have hpaid : ¬ order.paymentStatus = .paid := by rw [hrefunded]; exact PaymentStatus.noConfusion
  simp only [commits_bind, Reconciliation.confirm, hread, commits_runIf, commits_pure] at hrun
  obtain ⟨-, _, _, ⟨_, s₁, hupdate, _, _, ⟨-, _, s₂, hpay, hout⟩ | ⟨h, -⟩, -, rfl⟩, -, rfl⟩ := hrun
  · have h₁ : s₁.orders = db.orders := congrArg Core.orders (updateAttempt_core hupdate)
    have h₂ : s₂.orders = updateWhere (·.id = order.id) (bump (settledAs .paid) q.draw.now) s₁.orders :=
      congrArg Core.orders (updatePaymentStatus_core hpay).2
    refine ⟨order, hm, hrefunded, bump (settledAs .paid) q.draw.now order, ?_, rfl, rfl⟩
    refine mem_of_core (keeps_appendOutboxEvent _ _ _ _ _ _ _ _ hout) ?_
    show _ ∈ s₂.orders
    rw [h₂, h₁]
    exact mem_updateWhere_of hm (decide_eq_true rfl)
  · exact absurd hpaid h

/-- A new ticket is for a paid order, if it is one of cash. -/
theorem LifeInv.tickets (hi : LifeInv db'.core) (hx : Ticketed q.draw db db') {j : PrintJob}
    (hj : j ∈ db'.printJobs) (hnew : j ∉ db.printJobs) {o : Order} (ho : o ∈ db'.orders) (hid : o.id = j.orderId)
    (hs : o.source = .storefrontCash) : o.paymentStatus = .paid := by
  rcases hx with hx | ⟨order, horder, job, hjob⟩
  · exact absurd (hx ▸ hj) hnew
  · rcases Printing.enqueueOrderTicket_cases (v := []) (enqueueOrderTicket_iff.1 hjob) with hx | ⟨-, hpaid, -, hx⟩
    · exact absurd (hx ▸ hj) hnew
    · rw [hx] at hj
      have hjob := List.mem_singleton.1 ((List.mem_append.1 hj).resolve_left hnew)
      have hoo : o = order := hi.keyed.orders.eq ho horder (by rw [hid, hjob]; rfl)
      subst hoo
      by_contra hunpaid
      exact hpaid ⟨(hi.lawful o ho).tender hs, hunpaid⟩

theorem LifeInv.step (hi : LifeInv db.core) (hs : Komanda.step db q = some db') : LifeInv db'.core := by
  obtain ⟨a, hx⟩ := step_eq.1 hs
  exact hi.effect (exec_effect hx)

end Steps

namespace Demo

end Demo

open Demo

end Komanda
