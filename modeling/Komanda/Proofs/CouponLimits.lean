import Komanda.Proofs.ChargedAmounts
import Komanda.Proofs.FinalApprovals

/-!
# A coupon's limit

The redemption write counts a coupon only below its limit, in one statement. Its answer is dropped by the
caller: the row of the redemption and the discounted order are there all the same. And a coupon that
deducts nothing is not counted, though the order carries its snapshot.
-/

namespace Komanda
open Komanda.Core Table Runs ReadCommitted

/-- The redemptions of a coupon. -/
def redemptionsOf (discountId : Id) (rs : List DiscountRedemption) : Nat :=
  rs.countP (·.discountId = discountId)

structure CouponLimit (db : Db) : Prop where
  /-- The count is the number of the rows. -/
  counted : ∀ d ∈ db.discounts, d.redemptionsCount = redemptionsOf d.id db.redemptions
  /-- Neither exceeds the limit. -/
  limited : ∀ d ∈ db.discounts, ∀ m ∈ d.maxRedemptions,
    d.redemptionsCount ≤ m ∧ redemptionsOf d.id db.redemptions ≤ m
  /-- An order that carries a coupon is one of its counted redemptions. -/
  redeemed : ∀ o ∈ db.orders, ∀ s ∈ o.discountSnapshot,
    ∃ r ∈ db.redemptions, r.orderId = o.id ∧ r.discountId = s.discountId

/-! ## The condition -/

/-- A cart that can still be converted to an order with the key. -/
def openCart (cartId : Id) (key : String) (db : Db) : Option Cart :=
  (Table.lookup Cart.id cartId db.carts).filter fun c =>
    c.status ≠ .converted && (Table.lookup Order.idempotencyKey key db.orders).isNone

/-- The cart that a request would sell. -/
def sellsCart (q : Request) (v db : Db) : Option Cart :=
  match q.action with
  | .createCashOrder _ cartId _ key _ => openCart cartId key v
  | .createDirect cartId _ _ key => openCart cartId key v
  | .createPaid attemptId _ =>
    ((Table.lookup PaymentAttempt.id attemptId v.attempts).filter (·.status = .approved)).bind fun a =>
      openCart a.cartId ("payment-attempt:" ++ a.id) v
  | _ => (approves q v db).bind fun a => openCart a.cartId ("payment-attempt:" ++ a.id) v

/-- The coupon of the sale that a request would make, and what it deducts. -/
def sellsCoupon (q : Request) (v db : Db) : Option (Id × Cents) :=
  match q.action with
  | .createDirectFromItems request key _ =>
    if Table.lookup Order.idempotencyKey key v.orders = none then
      (counterPrice request q.draw.now v).bind fun price =>
        price.appliedDiscountCodeId.map fun id => (id, price.discountTotal)
    else none
  | _ => (sellsCart q v db).bind fun cart =>
      cart.appliedDiscountCodeId.map fun id => (id, cart.discountTotal)

/-- A coupon that is sold deducts something, and is below its limit when the redemption is written. -/
def CountsCoupon (q : Request) (v db : Db) : Prop :=
  ∀ s ∈ sellsCoupon q v db, 0 < s.2 ∧ ∃ d ∈ db.discounts, DiscountRepository.countable s.1 d = true

instance (q : Request) (v db : Db) : Decidable (CountsCoupon q v db) :=
  inferInstanceAs (Decidable (∀ s ∈ sellsCoupon q v db, _))

/-! ## The invariant -/

structure CouponInv (c : Core) : Prop where
  keyed : Keyed c
  ids : UniqueOn Discount.id c.discounts
  checked : ∀ d ∈ c.discounts, DiscountRepository.rowChecks d = true
  counted : ∀ d ∈ c.discounts, d.redemptionsCount = redemptionsOf d.id c.redemptions
  known : ∀ r ∈ c.redemptions, (∃ d ∈ c.discounts, d.id = r.discountId) ∧ ∃ o ∈ c.orders, o.id = r.orderId
  redeemed : ∀ o ∈ c.orders, ∀ s ∈ o.discountSnapshot,
    ∃ r ∈ c.redemptions, r.orderId = o.id ∧ r.discountId = s.discountId

section Counting
variable {id : Id} {rs : List DiscountRedemption} {r : DiscountRedemption} {d : Discount}
  {p : DiscountRedemption → Bool} {f : DiscountRedemption → DiscountRedemption}

theorem redemptionsOf_append :
    redemptionsOf id (rs ++ [r]) = redemptionsOf id rs + if r.discountId = id then 1 else 0 := by
  rw [redemptionsOf, redemptionsOf, List.countP_append, List.countP_singleton]
  simp only [decide_eq_true_eq]

theorem redemptionsOf_eq_zero (h : ∀ r ∈ rs, r.discountId ≠ id) : redemptionsOf id rs = 0 := by
  rw [redemptionsOf, List.countP_eq_zero]
  intro r hr
  simpa using h r hr

/-- Releasing a redemption leaves it counted. -/
theorem redemptionsOf_update (hf : ∀ r, (f r).discountId = r.discountId) :
    redemptionsOf id (Table.updateWhere p f rs) = redemptionsOf id rs := by
  rw [redemptionsOf, Table.updateWhere, List.countP_map]
  refine List.countP_congr fun r _ => ?_
  show decide ((if p r then f r else r).discountId = id) = true ↔ _
  split
  · rw [hf]
  · rfl

theorem countable_id (h : DiscountRepository.countable id d = true) : d.id = id :=
  of_decide_eq_true (Bool.and_eq_true_iff.1 h).1

/-- Counting below the limit keeps within it. -/
theorem rowChecks_count (h : DiscountRepository.rowChecks d = true)
    (hc : DiscountRepository.countable id d = true) :
    DiscountRepository.rowChecks (DiscountRepository.countRedemption d) = true := by
  obtain ⟨-, hlt⟩ := Bool.and_eq_true_iff.1 hc
  obtain ⟨hrest, -⟩ := Bool.and_eq_true_iff.1 h
  refine Bool.and_eq_true_iff.2 ⟨hrest, ?_⟩
  show d.maxRedemptions.all (d.redemptionsCount + 1 ≤ ·) = true
  cases hm : d.maxRedemptions with
  | none => rfl
  | some m =>
    rw [hm] at hlt
    have hlt : d.redemptionsCount < m := of_decide_eq_true hlt
    exact decide_eq_true hlt

end Counting

section Invariant
variable {q : Request} {v db : Db} {c : Core}

theorem CouponInv.fresh {tenantId : Id} {settings : Settings} :
    CouponInv (Db.fresh tenantId settings).core :=
  ⟨.empty, .nil, fun _ h => (List.not_mem_nil h).elim, fun _ h => (List.not_mem_nil h).elim,
    fun _ h => (List.not_mem_nil h).elim, fun _ h => (List.not_mem_nil h).elim⟩

theorem openCart_eq {cartId : Id} {key : String} {cart : Cart}
    (hcart : Table.lookup Cart.id cartId v.carts = some cart) (hopen : cart.status ≠ .converted)
    (hkey : Table.lookup Order.idempotencyKey key v.orders = none) : openCart cartId key v = some cart := by
  rw [openCart, hcart, hkey]
  simp [hopen]

/-- A sale of a cart that is there sells the cart which `sellsCart` names. -/
theorem Sale.sells {input : SnapshotInput} {order : Order} {movement : Option CashMovement}
    {rows : List PaymentAttempt} (h : Sale q v db input order none movement rows)
    (hu : UniqueOn PaymentAttempt.id db.attempts) (hv : Sees v db)
    (hkey : Table.lookup Order.idempotencyKey input.idempotencyKey v.orders = none)
    (hopen : input.cart.status ≠ .converted) : sellsCart q v db = some input.cart := by
  cases h with
  | cash _ _ _ hq hcart => rw [sellsCart, hq]; exact openCart_eq hcart hopen hkey
  | direct _ _ hq hcart => rw [sellsCart, hq]; exact openCart_eq hcart hopen hkey
  | paid attempt _ hq hread hok hcart _ _ _ hk =>
    rw [hk] at hkey
    rw [sellsCart, hq]
    dsimp only
    rw [hread, Option.filter_some, if_pos (decide_eq_true hok)]
    exact openCart_eq hcart hopen hkey
  | confirmed attempt updated _ _ h hcart hi =>
    have ht := h.row_terms hu hv
    have hpid : updated.id = attempt.id := PaymentAttempt.column PaymentAttempt.id ht
    have hkey : Table.lookup Order.idempotencyKey ("payment-attempt:" ++ attempt.id) v.orders = none := by
      rw [← hpid]; rw [hi] at hkey; exact hkey
    rw [PaymentAttempt.column PaymentAttempt.cartId ht] at hcart
    have ha := h.approves
    unfold sellsCart
    split
    · rename_i hq; rw [approves, hq] at ha; cases ha
    · rename_i hq; rw [approves, hq] at ha; cases ha
    · rename_i hq; rw [approves, hq] at ha; cases ha
    · rw [ha]; exact openCart_eq hcart hopen hkey

/-- The condition speaks of the coupon of the cart that is sold. -/
theorem Sale.coupon {input : SnapshotInput} {order : Order} {cart : Option Cart}
    {movement : Option CashMovement} {rows : List PaymentAttempt} {id : Id}
    (h : Sale q v db input order cart movement rows) (hu : UniqueOn PaymentAttempt.id db.attempts)
    (hv : Sees v db) (hkey : Table.lookup Order.idempotencyKey input.idempotencyKey v.orders = none)
    (hopen : input.cart.status ≠ .converted) (hid : input.cart.appliedDiscountCodeId = some id) :
    sellsCoupon q v db = some (id, input.cart.discountTotal) := by
  cases cart with
  | none =>
    have hsells := h.sells hu hv hkey hopen
    unfold sellsCoupon
    split
    · rename_i hq; rw [sellsCart, hq, approves, hq] at hsells; cases hsells
    · rw [hsells]; simp [hid]
  | some c =>
    cases h with
    | items request hq _ _ _ _ _ _ price hprice hpc =>
      rw [hpc.1] at hid
      rw [hpc.2, sellsCoupon, hq]
      dsimp only
      rw [if_pos hkey, hprice, Option.bind_some, hid]
      rfl

theorem CouponEdit.inv {ds : List Discount} (h : CouponEdit db.discounts ds) (hi : CouponInv db.core) :
    CouponInv { db.core with discounts := ds } := by
  have hknown (hsub : ∀ d ∈ db.discounts, ∃ d' ∈ ds, d'.id = d.id) : ∀ r ∈ db.redemptions,
      (∃ d ∈ ds, d.id = r.discountId) ∧ ∃ o ∈ db.orders, o.id = r.orderId := by
    intro r hr
    obtain ⟨⟨d, hd, hid⟩, ho⟩ := hi.known r hr
    obtain ⟨d', hd', hid'⟩ := hsub d hd
    exact ⟨⟨d', hd', hid'.trans hid⟩, ho⟩
  cases h with
  | add d hid hcount hd =>
    refine ⟨⟨hi.keyed.attempts, hi.keyed.orders, hi.keyed.keys⟩, hi.ids.append hid, fun x hx => ?_, fun x hx => ?_,
      hknown fun x hx => ⟨x, List.mem_append_left _ hx, rfl⟩, hi.redeemed⟩
    · rcases List.mem_append.1 hx with hx | hx
      · exact hi.checked x hx
      · rw [List.mem_singleton] at hx; subst hx; exact hd
    · rcases List.mem_append.1 hx with hx | hx
      · exact hi.counted x hx
      · rw [List.mem_singleton] at hx; subst hx
        rw [hcount]
        refine (redemptionsOf_eq_zero fun r hr hrd => ?_).symm
        obtain ⟨⟨e, he, heid⟩, -⟩ := hi.known r hr
        exact hid e he (heid.trans hrd)
  | update p f hid hcount hd =>
    refine ⟨⟨hi.keyed.attempts, hi.keyed.orders, hi.keyed.keys⟩, hi.ids.updateWhere fun d _ => hid d, fun x hx => ?_,
      fun x hx => ?_, hknown fun x hx => ?_, hi.redeemed⟩
    · rcases mem_updateWhere_cases hx with ⟨hx, -⟩ | ⟨d, hmem, hp, rfl⟩
      · exact hi.checked x hx
      · exact hd d hmem hp (hi.checked d hmem)
    · rcases mem_updateWhere_cases hx with ⟨hx, -⟩ | ⟨d, hmem, -, rfl⟩
      · exact hi.counted x hx
      · rw [hcount, hid]; exact hi.counted d hmem
    · by_cases hp : p x = true
      · exact ⟨f x, mem_updateWhere_of hx hp, hid x⟩
      · exact ⟨x, mem_updateWhere_of_not hx (Bool.eq_false_iff.2 hp), rfl⟩

/-- A coupon that deducts something is redeemed. -/
theorem redeemed_eq {cart : Cart} {id : Id} (h : redeemed cart = some id) :
    cart.appliedDiscountCodeId = some id := (Option.filter_eq_some_iff.1 h).1

theorem snapshot_redeemed {cart : Cart} {s : DiscountSnapshot}
    (h : OrderRepository.discountSnapshot cart = some s) (hpos : 0 < cart.discountTotal) :
    redeemed cart = some s.discountId := by
  unfold OrderRepository.discountSnapshot at h
  split at h
  · rename_i id m hid hm
    cases h
    exact Option.filter_eq_some_iff.2 ⟨hid, decide_eq_true hpos⟩
  · cases h

/-- Counting a countable coupon and writing its redemption. -/
theorem CouponInv.count (hi : CouponInv db.core) {id : Id} {r : DiscountRedemption}
    (hd : ∃ d ∈ db.discounts, DiscountRepository.countable id d = true) (hr : r.discountId = id) {d : Discount}
    (hdm : d ∈ Table.updateWhere (DiscountRepository.countable id) DiscountRepository.countRedemption
      db.discounts) :
    DiscountRepository.rowChecks d = true ∧ d.redemptionsCount = redemptionsOf d.id (db.redemptions ++ [r]) := by
  obtain ⟨e, he, hec⟩ := hd
  rw [redemptionsOf_append, hr]
  rcases mem_updateWhere_cases hdm with ⟨hdm, hn⟩ | ⟨x, hx, hxc, rfl⟩
  · -- the row is another coupon's: of this coupon, the only row is countable
    have hne : id ≠ d.id := by
      rintro hid
      have hed : e = d := hi.ids.eq he hdm ((countable_id hec).trans hid)
      rw [hed, hn] at hec; cases hec
    rw [if_neg hne]
    exact ⟨hi.checked d hdm, hi.counted d hdm⟩
  · have hid : id = (DiscountRepository.countRedemption x).id := (countable_id hxc).symm
    rw [if_pos hid]
    exact ⟨rowChecks_count (hi.checked x hx) hxc, congrArg (· + 1) (hi.counted x hx)⟩

/-- The redemption of a new order, if its cart has a coupon. -/
theorem CouponInv.redeem (cart : Cart) (hi : CouponInv db.core) {order : Order} {attempts : List PaymentAttempt}
    {carts : List Cart} {movements : List CashMovement} {shifts : List CashShift}
    (hkeyed : Keyed ⟨carts, attempts, db.orders ++ [order], movements, db.redemptions, db.discounts, shifts⟩)
    (hd : ∀ id, cart.appliedDiscountCodeId = some id →
      0 < cart.discountTotal ∧ ∃ d ∈ db.discounts, DiscountRepository.countable id d = true)
    (hs : order.discountSnapshot = OrderRepository.discountSnapshot cart)
    (hnew : ∀ o ∈ db.orders, o.id ≠ order.id) :
    CouponInv (Core.redeem cart order.id
      ⟨carts, attempts, db.orders ++ [order], movements, db.redemptions, db.discounts, shifts⟩) := by
  have hfresh (r : DiscountRedemption) (hr : r ∈ db.redemptions) : r.orderId ≠ order.id := by
    obtain ⟨-, o, ho, hoid⟩ := hi.known r hr
    rw [← hoid]; exact hnew o ho
  have hknown (r : DiscountRedemption) (hr : r ∈ db.redemptions) :
      ∃ o ∈ db.orders ++ [order], o.id = r.orderId := by
    obtain ⟨-, o, ho, hoid⟩ := hi.known r hr
    exact ⟨o, List.mem_append_left _ ho, hoid⟩
  cases hred : Core.redeemed cart with
  | none =>
    rw [redeem_none hred]
    refine ⟨hkeyed, hi.ids, hi.checked, hi.counted, fun r hr => ⟨(hi.known r hr).1, hknown r hr⟩, fun o ho s hos => ?_⟩
    rcases List.mem_append.1 ho with ho | ho
    · exact hi.redeemed o ho s hos
    · rw [List.mem_singleton] at ho; subst ho
      rw [hs] at hos
      have hid : cart.appliedDiscountCodeId ≠ none := by
        rintro hnone; simp [OrderRepository.discountSnapshot, hnone] at hos
      obtain ⟨id, hid⟩ := Option.ne_none_iff_exists'.1 hid
      rw [snapshot_redeemed hos (hd id hid).1] at hred; cases hred
  | some id =>
    obtain ⟨hpos, hd⟩ := hd id (redeemed_eq hred)
    rw [redeem_some hred hfresh]
    refine ⟨⟨hkeyed.attempts, hkeyed.orders, hkeyed.keys⟩, hi.ids.updateWhere fun _ _ => rfl,
      fun d hdm => (hi.count (r := redemption cart id order.id) hd rfl hdm).1,
      fun d hdm => (hi.count hd rfl hdm).2, fun r hr => ?_, fun o ho s hos => ?_⟩
    · rcases List.mem_append.1 hr with hr | hr
      · obtain ⟨⟨d, hdm, hdid⟩, -⟩ := hi.known r hr
        refine ⟨?_, hknown r hr⟩
        by_cases hc : DiscountRepository.countable id d = true
        · exact ⟨_, mem_updateWhere_of hdm hc, hdid⟩
        · exact ⟨d, mem_updateWhere_of_not hdm (Bool.eq_false_iff.2 hc), hdid⟩
      · rw [List.mem_singleton] at hr; subst hr
        obtain ⟨d, hdm, hc⟩ := hd
        have hdid : d.id = id := countable_id hc
        exact ⟨⟨_, mem_updateWhere_of hdm hc, hdid⟩, order, by simp, rfl⟩
    · rcases List.mem_append.1 ho with ho | ho
      · obtain ⟨r, hr, h⟩ := hi.redeemed o ho s hos
        exact ⟨r, List.mem_append_left _ hr, h⟩
      · rw [List.mem_singleton] at ho; subst ho
        rw [hs] at hos
        have hid := (snapshot_redeemed hos hpos).symm.trans hred
        exact ⟨_, List.mem_append_right _ (List.mem_singleton_self _), rfl, (Option.some.inj hid).symm⟩

/-- Releasing a redemption changes its status only. -/
theorem CouponInv.release {order : Order} {released : Bool} {c : Core} (hi : CouponInv c) :
    CouponInv (Core.release released order c) := by
  unfold Core.release
  dsimp only
  split
  · refine ⟨⟨hi.keyed.attempts, hi.keyed.orders, hi.keyed.keys⟩, hi.ids, hi.checked, fun d hd => ?_,
      fun r hr => ?_, fun o ho s hos => ?_⟩
    · let cancel (r : DiscountRedemption) := { r with status := .orderCancelled }
      have hcount : redemptionsOf d.id (Table.updateWhere (·.orderId = order.id) cancel c.redemptions) =
          redemptionsOf d.id c.redemptions := redemptionsOf_update fun _ => rfl
      exact (hi.counted d hd).trans hcount.symm
    · rcases mem_updateWhere_cases hr with ⟨hr, -⟩ | ⟨x, hx, -, rfl⟩
      · exact hi.known r hr
      · exact hi.known x hx
    · obtain ⟨r, hr, hro, hrd⟩ := hi.redeemed o ho s hos
      by_cases hp : r.orderId = order.id
      · exact ⟨_, mem_updateWhere_of hr (decide_eq_true hp), hro, hrd⟩
      · exact ⟨r, mem_updateWhere_of_not hr (decide_eq_false hp), hro, hrd⟩
  · exact hi

theorem CouponInv.effect (hi : CouponInv db.core) (hv : Sees v db) (hc : CountsCoupon q v db)
    (h : Effect q v db c) : CouponInv c := by
  have hkeyed := h.keyed hi.keyed
  cases h with
  | coupons ds h => exact h.inv hi
  | sold input order n active cart movement rows h horder hkey hopen hnew =>
    have hne (o : Order) (ho : o ∈ db.orders) : o.id ≠ order.id := by
      have hn := hnew o ho
      simp only [OrderRepository.conflicts, Bool.or_eq_false_iff, decide_eq_false_iff_not] at hn
      exact hn.1.1
    have hd (id : Id) (hid : input.cart.appliedDiscountCodeId = some id) :=
      hc _ (h.coupon hi.keyed.attempts hv hkey hopen hid)
    have hk : Keyed (convertCart input.cart.id
        { db.core with carts := db.carts ++ cart.toList, attempts := rows, orders := db.orders ++ [order] }) := by
      obtain ⟨ha, ho, hk⟩ := hkeyed
      rw [book_orders, sell_orders] at ho hk
      rw [book_attempts, sell_attempts] at ha
      exact ⟨ha, ho, hk⟩
    have hsold := hi.redeem input.cart hk hd (by rw [horder]; rfl) hne
    exact ⟨hkeyed, hsold.ids, hsold.checked, hsold.counted, hsold.known, hsold.redeemed⟩
  | revised order row p f movement released rows h hmem hrow =>
    have hf (o : Order) := h.facts q.draw.now o
    have hfacts {o : Order} (ho : o ∈ Table.updateWhere p (bump f q.draw.now) db.orders) :
        ∃ r ∈ db.orders, r.facts = o.facts := exists_mem_of_map_eq (map_updateWhere fun o _ => hf o) ho
    obtain ⟨ha, ho, hk⟩ := hkeyed
    rw [release_attempts] at ha
    rw [release_orders] at ho hk
    refine CouponInv.release ⟨⟨ha, ho, hk⟩, hi.ids, hi.checked, hi.counted, fun r hr => ?_,
      fun o ho s hos => ?_⟩
    · obtain ⟨hd, o, ho, hoid⟩ := hi.known r hr
      refine ⟨hd, ?_⟩
      by_cases hp : p o = true
      · exact ⟨_, mem_updateWhere_of ho hp, (Order.column Order.id (hf o)).trans hoid⟩
      · exact ⟨o, mem_updateWhere_of_not ho (Bool.eq_false_iff.2 hp), hoid⟩
    · obtain ⟨r, hr, hro⟩ := hfacts ho
      rw [← Order.column Order.discountSnapshot hro] at hos
      obtain ⟨x, hx, hxo, hxd⟩ := hi.redeemed r hr s hos
      exact ⟨x, hx, hxo.trans (Order.column Order.id hro), hxd⟩
  | _ => exact ⟨hkeyed, hi.ids, hi.checked, hi.counted, hi.known, hi.redeemed⟩

end Invariant

/-! ## Every run -/

theorem CouponInv.limit {db : Db} (hi : CouponInv db.core) : CouponLimit db := by
  refine ⟨hi.counted, fun d hd m hm => ?_, hi.redeemed⟩
  have hle : d.redemptionsCount ≤ m := by
    have hmax := (Bool.and_eq_true_iff.1 (hi.checked d hd)).2
    rw [Option.mem_def.1 hm] at hmax
    exact of_decide_eq_true hmax
  exact ⟨hle, hi.counted d hd ▸ hle⟩

/-- In a run that only sells coupons it can count, the limit of every coupon is kept. -/
theorem coupon_limit {tenantId : Id} {settings : Settings} {es : List RcEvent} {s : RcState}
    (hC : Along rcStep (AtCommit CountsCoupon) (RcState.fresh tenantId settings) es)
    (hr : Runs.exec rcStep (RcState.fresh tenantId settings) es = some s) : CouponLimit s.db := by
  have hrely := Sees.rely (I := CouponInv) (C := CountsCoupon) fun hi hv hc h => hi.effect hv hc h
  exact (exec_inv hrely ⟨CouponInv.fresh, fun _ h => (List.not_mem_nil h).elim⟩ hC hr).db.limit

namespace Demo

/-- Two checkouts of carts with a coupon that may be redeemed `m` times, at the same time. -/
def twoCheckouts (m : Nat) : List RcEvent :=
  inTurn [setUp, offer { tenPercent with maxRedemptions := some m }, fillCart "1" "cart-1",
    fillCart "2" "cart-2", useCoupon 2 "cart-1", useCoupon 2 "cart-2"] ++
  [.start (payInCash "3" "cart-1"), .start (payInCash "4" "cart-2"), .commit 0, .commit 0]

end Demo

open Demo

theorem coupon_limit_two_checkouts :
    ∃ s, Runs.exec rcStep (RcState.fresh "tenant" settings) (twoCheckouts 2) = some s ∧ CouponLimit s.db := by
  have hs : (Runs.exec rcStep (RcState.fresh "tenant" settings) (twoCheckouts 2)).isSome = true := by
    decide +kernel
  obtain ⟨s, hr⟩ := Option.isSome_iff_exists.1 hs
  exact ⟨s, hr, coupon_limit (by decide +kernel) hr⟩

/-- Both checkouts find the coupon unused: it is counted once and redeemed twice. -/
theorem coupon_redeemed_beyond_limit :
    ¬ ∀ (tenantId : Id) (settings : Settings) (es : List RcEvent) (s : RcState),
      Runs.exec rcStep (RcState.fresh tenantId settings) es = some s → CouponLimit s.db := by
  intro h
  have hx : (Runs.exec rcStep (RcState.fresh "tenant" settings) (twoCheckouts 1)).any (fun s =>
      s.db.discounts.any fun d => d.redemptionsCount ≠ redemptionsOf d.id s.db.redemptions) = true := by
    decide +kernel
  obtain ⟨s, hr, hs⟩ := (Option.any_eq_true _ _).1 hx
  obtain ⟨d, hd, hne⟩ := List.any_eq_true.1 hs
  exact of_decide_eq_true hne ((h _ _ _ _ hr).counted d hd)

end Komanda
