import Komanda.Proofs.CashLedger
import Komanda.Proofs.JobScans
import Komanda.Proofs.Tickets

/-!
# What the outbox says of an order

The five operations on an order assemble the payload of their event by hand, from the row that they have read or from
the row that the update returned. All of them agree with the committed row but one: the expiry of an unpaid order sends
the payment status that it has just replaced.
-/

namespace Komanda
open Transaction Idempotency Komanda.Core Table

/-! ## The law -/

/-- The columns of an order that an event may carry, under the keys of its payload. -/
def Order.told (o : Order) : Payload :=
  [("paymentStatus", .str o.paymentStatus.text), ("fulfillmentStatus", .str o.fulfillmentStatus.text),
    ("toStatus", .str o.fulfillmentStatus.text), ("version", .num o.version)]

/-- Whatever the event says of the order is what its row says. -/
def OutboxEvent.TellsOf (e : OutboxEvent) (o : Order) : Prop :=
  ∀ entry ∈ e.payload, ∀ column ∈ o.told, entry.1 = column.1 → entry.2 = column.2

/-- The events that have been appended between two states tell of the orders as the later one has them. -/
def TellsTruth (db db' : Db) : Prop :=
  ∀ e ∈ db'.outbox.drop db.outbox.length, ∃ o ∈ OrderRepository.findById e.aggregateId db', e.TellsOf o

instance (e : OutboxEvent) (o : Order) : Decidable (e.TellsOf o) :=
    inferInstanceAs (Decidable (∀ _ ∈ _, ∀ _ ∈ _, _ → _))

instance (db db' : Db) : Decidable (TellsTruth db db') := inferInstanceAs (Decidable (∀ _ ∈ _, ∃ _ ∈ _, _))

/-- Transition, collection, refund, cancellation of an unpaid order, and expiry. -/
def Action.changesOrder : Action → Bool
  | transition .. => true
  | collect .. => true
  | refund .. => true
  | cancelUnpaid .. => true
  | expire .. => true
  | _ => false

/-- The request is the expiry of an order that is due. -/
def Lapses (db : Db) (q : Request) : Prop :=
  match q.action with
  | .expire orderId => ∃ o ∈ OrderRepository.findById orderId db, ExpireUnpaidOrdersJob.expires o q.draw.now = true
  | _ => False

/-! ## The rest of an operation -/

/-- From `s` on no order is touched, and every new event tells of `o`. -/
def Announces (o : Order) (s s' : Db) : Prop :=
  s'.orders = s.orders ∧
    ∃ events, s'.outbox = s.outbox ++ events ∧ ∀ e ∈ events, e.aggregateId = o.id ∧ e.TellsOf o

instance (o : Order) : Std.Refl (Announces o) := ⟨fun s => ⟨rfl, [], by simp, by simp⟩⟩

instance (o : Order) : Trans (Announces o) (Announces o) (Announces o) where
  trans := by
    rintro s s₁ s' ⟨horders, events, hout, htell⟩ ⟨horders', events', hout', htell'⟩
    refine ⟨horders'.trans horders, events ++ events', by rw [hout', hout, List.append_assoc], fun e he => ?_⟩
    rcases List.mem_append.1 he with he | he
    · exact htell e he
    · exact htell' e he

/-- The tables beside the orders that the operations write before their event. -/
def quietTables : List TableName := [.movements, .redemptions, .orderEvents, .audit, .printJobs, .idempotency]

section Rest
variable {α : Type} {o order : Order} {s s₁ s' : Db}

theorem Writes.quiet (h : Writes quietTables s s') : s'.orders = s.orders ∧ s'.outbox = s.outbox :=
  ⟨h.orders (by decide), congrArg Prod.fst (h .outbox (by decide))⟩

theorem announces_quiet {x : DbTx α} (h : Within (Writes quietTables) x) : Within (Announces o) x := by
  intro v s a s' hx
  obtain ⟨horders, hout⟩ := (h v s a s' hx).quiet
  exact ⟨horders, [], by rw [hout, List.append_nil], by simp⟩

theorem announces_event {t : String} {i : Id} {eventType : String} {payload : Payload} (hi : i = o.id)
    (h : ∀ entry ∈ payload, ∀ column ∈ o.told, entry.1 = column.1 → entry.2 = column.2) :
    Within (Announces o) (appendOutboxEvent t i eventType payload) := by
  refine Within.write fun s => ⟨rfl, [_], rfl, fun e he => ?_⟩
  rw [List.mem_singleton.1 he]
  exact ⟨hi, h⟩

theorem TellsTruth.of_same (h : s'.outbox = s.outbox) : TellsTruth s s' := by
  intro e he
  rw [h, List.drop_length] at he
  cases he

theorem TellsTruth.after (hout : s₁.outbox = s.outbox) (h : TellsTruth s₁ s') : TellsTruth s s' := by
  intro e he
  rw [← hout] at he
  exact h e he

theorem Announces.tellsTruth (h : Announces o s s') (ho : OrderRepository.findById o.id s = some o) :
    TellsTruth s s' := by
  obtain ⟨horders, events, hout, htell⟩ := h
  intro e he
  rw [hout, List.drop_left] at he
  obtain ⟨hid, he⟩ := htell e he
  refine ⟨o, ?_, he⟩
  rw [hid, OrderRepository.findById, horders]
  exact ho

/-- The row that an update returns is in the table, and the outbox is as it was. -/
theorem updateReturning_row {p : Order → Bool} {f : Order → Order} {now : Instant} {updated : Order} {v : Db}
    (hu : UniqueOn Order.id s.orders) (h : Commits (OrderRepository.updateReturning p f now) v s (some updated) s')
    (hf : ∀ o, (f o).id = o.id) :
    ∃ o ∈ s.orders, p o = true ∧ updated = bump f now o ∧ OrderRepository.findById updated.id s' = some updated ∧
      s'.outbox = s.outbox := by
  have hout : s'.outbox = s.outbox := congrArg Prod.fst
    (writes_updateReturning p f (List.mem_singleton_self TableName.orders) _ _ _ _ h .outbox (by decide))
  obtain ⟨hreturned, hcore⟩ := updateReturning_core h
  obtain ⟨o, ho, hupdated⟩ := Option.map_eq_some_iff.1 hreturned.symm
  have hm : o ∈ s.orders := List.mem_of_find?_eq_some ho
  have hp : p o = true := List.find?_some ho
  have horders : s'.orders = updateWhere p (bump f now) s.orders := congrArg Core.orders hcore
  have hid (x : Order) : (bump f now x).id = x.id := hf x
  refine ⟨o, hm, hp, hupdated.symm, ?_, hout⟩
  rw [← hupdated, OrderRepository.findById, horders, lookup_updateWhere fun x _ => hid x, hid, hu.lookup hm,
    Option.map_some, if_pos hp]

/-- The row at the version that has been read is the row that has been read. -/
theorem same_row (hu : UniqueOn Order.id s.orders) (hr : order ∈ s.orders) (ho : o ∈ s.orders)
    (hp : OrderRepository.atVersion order.id order.version o = true) : o = order :=
  hu.eq ho hr (of_decide_eq_true (Bool.and_eq_true_iff.1 hp).1)

theorem find_same_row (hu : UniqueOn Order.id s.orders) (hr : order ∈ s.orders) :
    s.orders.find? (OrderRepository.atVersion order.id order.version) = some order := by
  cases hfind : s.orders.find? (OrderRepository.atVersion order.id order.version) with
  | none =>
    have hversion : OrderRepository.atVersion order.id order.version order = true :=
      Bool.and_eq_true_iff.2 ⟨decide_eq_true rfl, decide_eq_true rfl⟩
    exact absurd hversion (List.find?_eq_none.1 hfind order hr)
  | some o => rw [same_row hu hr (List.mem_of_find?_eq_some hfind) (List.find?_some hfind)]

end Rest

/-! ## The operations -/

section Operations
variable {orderId : Id} {draw : Draw} {s s' : Db}

theorem transition_tells {expectedVersion : Nat} {request : TransitionOrderService.Request} {a : Order}
    (hu : UniqueOn Order.id s.orders)
    (h : Commits (TransitionOrderService.transition orderId expectedVersion request draw) s s a s') :
    TellsTruth s s' := by
  rw [TransitionOrderService.transition, commits_look_bind, commits_orThrow_bind] at h
  obtain ⟨order, hfound, h⟩ := h
  cases hg : TransitionOrderService.obstacle order request with
  | some e => rw [hg] at h; exact (commits_throw.1 h).elim
  | none =>
    rw [hg] at h
    rcases commits_ite.1 h with ⟨-, h⟩ | ⟨-, h⟩
    · obtain ⟨-, rfl⟩ := commits_pure.1 h
      exact .of_same rfl
    · obtain ⟨returned, s₁, hup, h⟩ := commits_bind.1 h
      obtain ⟨updated, s₂, hst, h⟩ := commits_bind.1 h
      obtain ⟨rfl, rfl⟩ := orStale_core hst
      rw [OrderRepository.transition] at hup
      obtain ⟨o, ho, hp, hupdated, hrow, hout⟩ := updateReturning_row hu hup fun _ => rfl
      have hid : order.id = updated.id := by
        rw [hupdated]
        exact (of_decide_eq_true (Bool.and_eq_true_iff.1 hp).1).symm
      have hnext : updated.fulfillmentStatus = request.fulfillmentStatus := by rw [hupdated]; rfl
      refine .after hout (Announces.tellsTruth ?_ hrow)
      refine (?_ : Within (Announces updated) _) s s₁ a s' h
      refine Within.bind ?_ fun _ => Within.bind ?_ fun _ => Within.bind ?_ fun _ => Within.bind ?_ fun _ =>
        Within.bind ?_ fun _ => Within.bind ?_ fun _ => Within.pure _
      · exact announces_quiet (Within.runIf (Within.bind (Within.look _) fun _ => writes_movement _ _ (by decide)))
      · exact announces_quiet (Within.runIf (writes_releaseCoupon _ (by decide)))
      · exact announces_quiet (writes_event _ _ _ _ _ (by decide))
      · exact announces_quiet (writes_audit _ _ _ _ (by decide))
      · refine announces_event hid fun entry he => ?_
        simp only [List.mem_append, List.mem_cons, List.not_mem_nil, or_false, List.mem_map] at he
        rcases he with (rfl | rfl | rfl | rfl | rfl) | ⟨_, -, rfl⟩ <;> simp [Order.told, hnext]
      · refine Within.runIf (Within.bind (Within.current _) fun _ => Within.runIf ?_)
        exact announces_event rfl (by simp [Order.told])

theorem collect_tells {actor : Actor} {key : String} {request : CollectCashRequest} {recordId : Id}
    {a : CollectCashResponse} (hu : UniqueOn Order.id s.orders)
    (h : Commits (CollectCashService.collect actor orderId key request recordId draw) s s a s') :
    TellsTruth s s' := by
  rw [CollectCashService.collect, commits_throwIf_bind] at h
  obtain ⟨claim, s₁, hclaim, h⟩ := commits_bind.1 h.2
  obtain ⟨horders₁, hout₁⟩ :=
    (writes_claim (S := quietTables) _ _ _ _ _ (by decide) _ _ _ _ hclaim : Writes quietTables s s₁).quiet
  refine .after hout₁ ?_
  have hu₁ : UniqueOn Order.id s₁.orders := horders₁ ▸ hu
  cases claim with
  | replay status body =>
    have hsame : s' = s₁ := by
      refine (?_ : Keeps id _) s s₁ a s' h
      dsimp only
      split
      · exact Within.pure _
      · exact Within.throw _
    exact .of_same (congrArg Db.outbox hsame)
  | claimed recordId _ =>
    dsimp only at h
    rw [commits_look_bind, commits_orThrow_bind] at h
    obtain ⟨order, hfound, h⟩ := h
    rcases commits_ite.1 h with ⟨-, h⟩ | ⟨-, h⟩
    · have hquiet := Within.bind (writes_complete (S := quietTables) _ _ _ (by decide)) (fun _ => Within.pure _)
        _ _ _ _ h
      exact .of_same (Writes.quiet hquiet).2
    · cases hg : CollectCashService.obstacle order draw.now with
      | some e => rw [hg] at h; exact (commits_throw.1 h).elim
      | none =>
        cases hauth : CollectCashService.authenticationObstacle order actor request with
        | some e => rw [hg, hauth] at h; exact (commits_throw.1 h).elim
        | none =>
          rw [hg, hauth] at h
          dsimp only at h
          rw [CollectCashService.apply, commits_look_bind] at h
          obtain ⟨returned, s₂, hup, h⟩ := commits_bind.1 h
          obtain ⟨updated, s₃, hst, h⟩ := commits_bind.1 h
          obtain ⟨rfl, rfl⟩ := orStale_core hst
          obtain ⟨o, ho, hp, hupdated, hrow, hout⟩ := updateReturning_row hu₁ hup fun _ => rfl
          obtain rfl : o = order := same_row hu (lookup_mem hfound) (horders₁ ▸ ho) hp
          have hid : o.id = updated.id := by rw [hupdated]; rfl
          have hpaid : updated.paymentStatus = .paid := by rw [hupdated]; rfl
          have hstatus : updated.fulfillmentStatus = o.fulfillmentStatus := by rw [hupdated]; rfl
          refine .after hout (Announces.tellsTruth ?_ hrow)
          refine (?_ : Within (Announces updated) _) s s₂ a s' h
          refine Within.bind ?_ fun _ => Within.bind ?_ fun _ => Within.bind ?_ fun _ => Within.bind ?_ fun _ =>
            Within.bind ?_ fun _ => Within.bind ?_ fun _ => Within.bind ?_ fun _ => Within.pure _
          · exact announces_quiet (writes_movement _ _ (by decide))
          · exact announces_quiet (writes_ticket _ (by decide))
          · exact announces_quiet (writes_event _ _ _ _ _ (by decide))
          · exact announces_quiet (writes_audit _ _ _ _ (by decide))
          · exact announces_event hid (by simp [Order.told, hpaid, hstatus, PaymentStatus.text])
          · exact announces_event hid (by simp [Order.told, hpaid, PaymentStatus.text])
          · exact announces_quiet (writes_complete _ _ _ (by decide))

theorem refund_tells {actor : Actor} {key : String} {request : RefundCashRequest} {recordId : Id}
    {a : RefundCashResponse} (hu : UniqueOn Order.id s.orders)
    (h : Commits (RefundCashService.refund actor orderId key request recordId draw) s s a s') :
    TellsTruth s s' := by
  rw [RefundCashService.refund, commits_throwIf_bind] at h
  obtain ⟨claim, s₁, hclaim, h⟩ := commits_bind.1 h.2
  obtain ⟨horders₁, hout₁⟩ :=
    (writes_claim (S := quietTables) _ _ _ _ _ (by decide) _ _ _ _ hclaim : Writes quietTables s s₁).quiet
  refine .after hout₁ ?_
  have hu₁ : UniqueOn Order.id s₁.orders := horders₁ ▸ hu
  cases claim with
  | replay status body =>
    have hsame : s' = s₁ := by
      refine (?_ : Keeps id _) s s₁ a s' h
      dsimp only
      split
      · exact Within.pure _
      · exact Within.throw _
    exact .of_same (congrArg Db.outbox hsame)
  | claimed recordId _ =>
    dsimp only at h
    rw [commits_look_bind, commits_orThrow_bind] at h
    obtain ⟨order, hfound, h⟩ := h
    rcases commits_ite.1 h with ⟨-, h⟩ | ⟨-, h⟩
    · rw [commits_look_bind] at h
      have hquiet := Within.bind (writes_complete (S := quietTables) _ _ _ (by decide)) (fun _ => Within.pure _)
        _ _ _ _ h
      exact .of_same (Writes.quiet hquiet).2
    · cases hg : RefundCashService.obstacle order with
      | some e => rw [hg] at h; exact (commits_throw.1 h).elim
      | none =>
        rw [hg] at h
        dsimp only at h
        rw [RefundCashService.apply, commits_look_bind] at h
        obtain ⟨returned, s₂, hup, h⟩ := commits_bind.1 h
        obtain ⟨updated, s₃, hst, h⟩ := commits_bind.1 h
        obtain ⟨rfl, rfl⟩ := orStale_core hst
        obtain ⟨o, ho, hp, hupdated, hrow, hout⟩ := updateReturning_row hu₁ hup fun _ => rfl
        obtain rfl : o = order := same_row hu (lookup_mem hfound) (horders₁ ▸ ho) hp
        have hid : o.id = updated.id := by rw [hupdated]; rfl
        have hrefunded : updated.paymentStatus = .refunded := by rw [hupdated]; rfl
        have hcancelled : updated.fulfillmentStatus = .cancelled := by rw [hupdated]; rfl
        refine .after hout (Announces.tellsTruth ?_ hrow)
        refine (?_ : Within (Announces updated) _) s s₂ a s' h
        refine Within.bind ?_ fun _ => Within.bind ?_ fun _ => Within.bind ?_ fun _ => Within.bind ?_ fun _ =>
          Within.bind ?_ fun _ => Within.bind ?_ fun _ => Within.pure _
        · exact announces_quiet (writes_movement _ _ (by decide))
        · exact announces_quiet (writes_releaseCoupon _ (by decide))
        · exact announces_quiet (writes_event _ _ _ _ _ (by decide))
        · exact announces_quiet (writes_audit _ _ _ _ (by decide))
        · exact announces_event hid
            (by simp [Order.told, hrefunded, hcancelled, PaymentStatus.text, FulfillmentStatus.text])
        · exact announces_quiet (writes_complete _ _ _ (by decide))

/-- What the announcement of a cancellation says is true if the update has left the payment status alone. -/
theorem announceCancellation_tells {o updated : Order} {reason : String} {u : Unit} {v : Db} (hid : o.id = updated.id)
    (hcancelled : updated.fulfillmentStatus = .cancelled) (hpayment : updated.paymentStatus = o.paymentStatus)
    (h : Commits (announceCancellation o updated reason) v s u s') : Announces updated s s' := by
  refine (?_ : Within (Announces updated) _) v s u s' h
  refine Within.bind ?_ fun _ => Within.bind ?_ fun _ => Within.bind ?_ fun _ => ?_
  · exact announces_quiet (writes_releaseCoupon _ (by decide))
  · exact announces_quiet (writes_event _ _ _ _ _ (by decide))
  · exact announces_quiet (writes_audit _ _ _ _ (by decide))
  · exact announces_event hid (by simp [Order.told, hcancelled, hpayment, FulfillmentStatus.text])

theorem cancel_tells {pickupPin : String} {a : Order} (hu : UniqueOn Order.id s.orders)
    (h : Commits (CancelUnpaidOrderService.cancel orderId pickupPin draw) s s a s') : TellsTruth s s' := by
  rw [CancelUnpaidOrderService.cancel, commits_look_bind, commits_orThrow_bind] at h
  obtain ⟨order, hfound, h⟩ := h
  rcases commits_ite.1 h with ⟨-, h⟩ | ⟨-, h⟩
  · obtain ⟨-, rfl⟩ := commits_pure.1 h
    exact .of_same rfl
  · cases hg : CancelUnpaidOrderService.obstacle order pickupPin with
    | some e => rw [hg] at h; exact (commits_throw.1 h).elim
    | none =>
      rw [hg] at h
      obtain ⟨returned, s₁, hup, h⟩ := commits_bind.1 h
      obtain ⟨updated, s₂, hst, h⟩ := commits_bind.1 h
      obtain ⟨rfl, rfl⟩ := orStale_core hst
      obtain ⟨o, ho, hp, hupdated, hrow, hout⟩ := updateReturning_row hu hup fun _ => rfl
      obtain rfl : o = order := same_row hu (lookup_mem hfound) ho hp
      obtain ⟨_, s₃, hann, h⟩ := commits_bind.1 h
      obtain ⟨-, rfl⟩ := commits_pure.1 h
      have htell := announceCancellation_tells (by rw [hupdated]; rfl) (by rw [hupdated]; rfl)
        (by rw [hupdated]; rfl) hann
      exact .after hout (htell.tellsTruth hrow)

/-- The announcement carries the payment status of the row that was read. -/
theorem announceCancellation_says {o updated : Order} {reason : String} {u : Unit} {v : Db}
    (h : Commits (announceCancellation o updated reason) v s u s') : s'.orders = s.orders ∧
      ∃ e, s'.outbox = s.outbox ++ [e] ∧ e.aggregateId = o.id ∧
        ("paymentStatus", Scalar.str o.paymentStatus.text) ∈ e.payload := by
  obtain ⟨_, s₁, hrelease, h⟩ := commits_bind.1 h
  obtain ⟨_, s₂, hevent, h⟩ := commits_bind.1 h
  obtain ⟨_, s₃, haudit, h⟩ := commits_bind.1 h
  have hquiet : Writes quietTables s s₃ :=
    (writes_releaseCoupon _ (by decide) _ _ _ _ hrelease).trans
      ((writes_event _ _ _ _ _ (by decide) _ _ _ _ hevent).trans (writes_audit _ _ _ _ (by decide) _ _ _ _ haudit))
  obtain rfl := commits_write.1 h
  refine ⟨hquiet.quiet.1, _, congrArg (· ++ _) hquiet.quiet.2, rfl, ?_⟩
  simp

/-- An expiry tells the truth, unless the order is due. -/
theorem expire_tells_iff {u : Unit} (hu : UniqueOn Order.id s.orders)
    (h : Commits (ExpireUnpaidOrdersJob.run orderId draw) s s u s') :
    TellsTruth s s' ↔
      ¬ ∃ o ∈ OrderRepository.findById orderId s, ExpireUnpaidOrdersJob.expires o draw.now = true := by
  rw [ExpireUnpaidOrdersJob.run, commits_look_bind] at h
  rcases commits_forSome.1 h with ⟨order, hfound, h⟩ | ⟨hnone, rfl⟩
  · obtain ⟨hfound, hexpires⟩ := Option.filter_eq_some_iff.1 hfound
    refine iff_of_false (fun htell => ?_) fun hno => hno ⟨order, hfound, hexpires⟩
    obtain ⟨returned, s₁, hup, h⟩ := commits_bind.1 h
    obtain ⟨hreturned, -⟩ := updateReturning_core hup
    have hversion : s.orders.find? (OrderRepository.atVersion order.id order.version) = some order :=
      find_same_row hu (lookup_mem hfound)
    rw [hversion, Option.map_some] at hreturned
    subst hreturned
    obtain ⟨o, ho, hp, hupdated, hrow, hout⟩ := updateReturning_row hu hup fun _ => rfl
    obtain ⟨horders, e, hevents, hid, hpayload⟩ := announceCancellation_says h
    obtain ⟨row, hr, hsays⟩ := htell e (by rw [hevents, hout, List.drop_left]; exact List.mem_singleton_self e)
    rw [hid, OrderRepository.findById, horders] at hr
    have hsame : some row = some (bump ExpireUnpaidOrdersJob.expireOrder draw.now order) := hr.symm.trans hrow
    obtain rfl := Option.some.inj hsame
    have hstale := hsays _ hpayload ("paymentStatus", _) (List.mem_cons_self ..) rfl
    rw [(expires_guards hexpires).2.1] at hstale
    have htexts : Scalar.str PaymentStatus.pending.text = .str PaymentStatus.failed.text := hstale
    exact absurd htexts (by decide)
  · refine iff_of_true (.of_same rfl) ?_
    rintro ⟨o, ho, hexpires⟩
    rw [Option.mem_def.1 ho, Option.filter_some, if_pos hexpires] at hnone
    cases hnone

end Operations

/-! ## Requests -/

/-- The event of an operation on an order tells of the row that it has committed, unless the operation is the expiry of
an order that is due. -/
theorem outbox_tells_iff {db db' : Db} {q : Request} (hchanges : q.action.changesOrder = true)
    (hu : UniqueOn Order.id db.orders) (hstep : step db q = some db') : TellsTruth db db' ↔ ¬ Lapses db q := by
  obtain ⟨answer, hexec⟩ := step_eq.1 hstep
  have hrun := exec_eq.1 hexec
  unfold Lapses
  cases haction : q.action with
  | transition orderId expectedVersion request =>
    rw [haction] at hrun
    obtain ⟨_, h⟩ := commits_effect hrun
    exact iff_of_true (transition_tells hu h) id
  | collect actor orderId key request recordId =>
    rw [haction] at hrun
    obtain ⟨_, h⟩ := commits_effect hrun
    exact iff_of_true (collect_tells hu h) id
  | refund actor orderId key request recordId =>
    rw [haction] at hrun
    obtain ⟨_, h⟩ := commits_effect hrun
    exact iff_of_true (refund_tells hu h) id
  | cancelUnpaid orderId pickupPin =>
    rw [haction] at hrun
    obtain ⟨_, h⟩ := commits_effect hrun
    exact iff_of_true (cancel_tells hu h) id
  | expire orderId =>
    rw [haction] at hrun
    obtain ⟨_, h⟩ := commits_effect hrun
    exact expire_tells_iff hu h
  | _ => rw [haction] at hchanges; cases hchanges

namespace Demo

/-- The order of the diner expires an hour later. -/
def lapse : Request := call 3600000 "3" (.expire "order")

end Demo

open Demo

theorem outbox_tells_collection : ∃ db', step diner.shop.db (collect 5 "3" "order") = some db' ∧
    (TellsTruth diner.shop.db db' ↔ ¬ Lapses diner.shop.db (collect 5 "3" "order")) := by
  have hs : (step diner.shop.db (collect 5 "3" "order")).isSome = true := by decide +kernel
  obtain ⟨db', hstep⟩ := Option.isSome_iff_exists.1 hs
  exact ⟨db', hstep, outbox_tells_iff rfl (by decide) hstep⟩

/-- The order is failed, and its event says that the payment is pending. -/
theorem expiry_announces_pending : ¬ ∀ (db db' : Db) (q : Request), q.action.changesOrder = true →
    UniqueOn Order.id db.orders → step db q = some db' → TellsTruth db db' := by
  intro h
  have hs : (step diner.shop.db lapse).isSome = true := by decide +kernel
  obtain ⟨db', hstep⟩ := Option.isSome_iff_exists.1 hs
  have hlies : ∀ db' ∈ step diner.shop.db lapse, ¬ TellsTruth diner.shop.db db' := by decide +kernel
  exact hlies db' hstep (h _ _ _ rfl (by decide) hstep)

end Komanda
