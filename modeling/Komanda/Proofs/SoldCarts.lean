import Komanda.Proofs.CouponLimits
import Komanda.Proofs.DiscountRules

/-!
# A sold cart and its order

An order copies the cart that it is made from. The calls that give a cart its price ask for neither its status
nor its order: reading a cart revalidates its coupon and writes what it finds, and a coupon is applied to a sold
cart, or taken from it, as to any other.
-/

namespace Komanda
open Transaction Komanda.Core Table Runs

/-- The order says what the cart says. -/
structure Order.Copies (o : Order) (c : Cart) : Prop where
  lines : o.lines = c.lines.map OrderRepository.orderLine
  subtotal : o.subtotal = c.subtotal
  discountTotal : o.discountTotal = c.discountTotal
  total : o.total = c.total
  coupon : o.discountSnapshot = OrderRepository.discountSnapshot c

/-- Every cart that has been made into an order is as the order has copied it. -/
def SoldUnchanged (c : Core) : Prop := ∀ o ∈ c.orders, ∀ x ∈ c.carts, x.id = o.cartId → o.Copies x

/-! ## The condition -/

/-- The coupon deducts from the lines of the cart what the cart says. -/
def Discount.Deducts (d : Discount) (c : Cart) (now : Instant) : Prop :=
  let result := calculateDiscountAmounts (CartService.linesForDiscount c.lines) d now none
  result.discountTotalCents = c.discountTotal ∧ result.totalCents = c.total

instance (d : Discount) (c : Cart) (now : Instant) : Decidable (d.Deducts c now) :=
  inferInstanceAs (Decidable (_ ∧ _))

/-- The cart has the coupon, with its terms of today. -/
def Discount.AppliedTo (d : Discount) (c : Cart) : Prop :=
  c.appliedDiscountCodeId = some d.id ∧ ∀ m ∈ c.discountMetadata,
    m.code = d.code ∧ m.name = d.name ∧ m.discountType = d.discountType ∧ m.discountValue = d.discountValue

instance (d : Discount) (c : Cart) : Decidable (d.AppliedTo c) := inferInstanceAs (Decidable (_ ∧ _))

/-- The coupon can be used for the lines of the cart. -/
def Discount.Usable (d : Discount) (c : Cart) (now : Instant) : Prop :=
  evaluateCouponEligibility d (sumCents ((CartService.linesForDiscount c.lines).filter (lineQualifies d))) now
    none = none

instance (d : Discount) (c : Cart) (now : Instant) : Decidable (d.Usable c now) :=
  inferInstanceAs (Decidable (_ = _))

/-- The sold cart that a request names keeps its coupon: reading it finds the coupon there, usable and
deducting the same; the coupon that is applied is the one it has; and the cart it is taken from has none. -/
def LeavesSold (db : Db) (q : Request) : Prop :=
  match q.action with
  | .getCart cartId => ∀ c ∈ CartRepository.find cartId db, c.status = .converted →
      ∀ id ∈ c.appliedDiscountCodeId, ∃ d ∈ DiscountRepository.findById id db,
        d.Usable c q.draw.now ∧ d.Deducts c q.draw.now
  | .applyDiscount cartId code _ => ∀ c ∈ CartRepository.find cartId db, c.status = .converted →
      ∀ d ∈ DiscountRepository.findByCode code db, d.AppliedTo c ∧ d.Deducts c q.draw.now
  | .removeDiscount cartId => ∀ c ∈ CartRepository.find cartId db, c.status = .converted →
      c.appliedDiscountCodeId = none
  | _ => True

/-- The price is the one that the cart has. -/
structure CartRepository.Repricing.Confirms (r : CartRepository.Repricing) (c : Cart) : Prop where
  discountTotal : r.discountTotal = c.discountTotal
  total : r.total = c.total
  coupon : OrderRepository.discountSnapshot (r.apply c) = OrderRepository.discountSnapshot c

section Prices
variable {c : Cart} {d : Discount} {now : Instant} {r : CartRepository.Repricing} {o : Order} {q : Request} {db : Db}

/-- An order that has copied the cart has copied what it becomes exactly when that is the same. -/
theorem Order.Copies.reprice_iff (h : o.Copies c) : o.Copies (r.apply c) ↔ r.Confirms c := by
  constructor
  · intro h'
    exact ⟨h'.discountTotal.symm.trans h.discountTotal, h'.total.symm.trans h.total, h'.coupon.symm.trans h.coupon⟩
  · intro hr
    exact ⟨h.lines, h.subtotal, h.discountTotal.trans hr.discountTotal.symm, h.total.trans hr.total.symm,
      h.coupon.trans hr.coupon.symm⟩

/-- Taking the coupon away confirms a cart that has none. -/
theorem removed_confirms_iff (hc : c.Couponed) : CartRepository.Repricing.Confirms
    { discountTotal := 0, total := c.subtotal, appliedDiscountCodeId := none, discountMetadata := none } c ↔
      c.appliedDiscountCodeId = none := by
  constructor
  · intro h
    by_contra hne
    obtain ⟨id, hid⟩ := Option.ne_none_iff_exists'.1 hne
    obtain ⟨m, hm⟩ := Option.ne_none_iff_exists'.1 (hc.remembered hne)
    have hcoupon := h.coupon
    simp only [OrderRepository.discountSnapshot, CartRepository.Repricing.apply, hid, hm] at hcoupon
    cases hcoupon
  · intro hnone
    obtain ⟨hdiscount, htotal⟩ := hc.plain hnone
    refine ⟨hdiscount.symm, htotal.symm, ?_⟩
    simp [OrderRepository.discountSnapshot, CartRepository.Repricing.apply, hnone]

/-- A coupon confirms the cart that has it on the same terms. -/
theorem applied_confirms_iff (hc : c.Couponed) : CartRepository.Repricing.Confirms
    { discountTotal := (calculateDiscountAmounts (CartService.linesForDiscount c.lines) d now none).discountTotalCents
      total := (calculateDiscountAmounts (CartService.linesForDiscount c.lines) d now none).totalCents
      appliedDiscountCodeId := some d.id
      discountMetadata := some (CartService.metadata d
        (calculateDiscountAmounts (CartService.linesForDiscount c.lines) d now none).discountTotalCents) } c ↔
      d.AppliedTo c ∧ d.Deducts c now := by
  constructor
  · rintro ⟨hdiscount, htotal, hcoupon⟩
    refine ⟨?_, hdiscount, htotal⟩
    simp only [OrderRepository.discountSnapshot, CartRepository.Repricing.apply, CartService.metadata] at hcoupon
    split at hcoupon
    · rename_i id m hid hm
      simp only [Option.some.injEq, DiscountSnapshot.mk.injEq] at hcoupon
      obtain ⟨rfl, hcode, hname, htype, hvalue, -⟩ := hcoupon
      refine ⟨hid, fun x hx => ?_⟩
      rw [hm] at hx
      cases hx
      exact ⟨hcode.symm, hname.symm, htype.symm, hvalue.symm⟩
    · cases hcoupon
  · rintro ⟨⟨hid, hterms⟩, hdiscount, htotal⟩
    obtain ⟨m, hm⟩ := Option.ne_none_iff_exists'.1 (hc.remembered (by rw [hid]; exact Option.some_ne_none _))
    obtain ⟨hcode, hname, htype, hvalue⟩ := hterms m hm
    refine ⟨hdiscount, htotal, ?_⟩
    simp only [OrderRepository.discountSnapshot, CartRepository.Repricing.apply, CartService.metadata, hid, hm, hcode,
      hname, htype, hvalue, hdiscount]

/-- Reading a cart with a coupon confirms it exactly when the coupon is there, usable and deducts the same. -/
theorem revalidated_confirms_iff (hc : c.Couponed) {id : Id} (hid : c.appliedDiscountCodeId = some id) :
    (∀ r ∈ CartService.revalidateDiscount c id now db, r.Confirms c) ↔
      ∃ d ∈ DiscountRepository.findById id db, d.Usable c now ∧ d.Deducts c now := by
  have hnot : ¬ CartRepository.Repricing.Confirms
      { discountTotal := 0, total := c.subtotal, appliedDiscountCodeId := none, discountMetadata := none } c := by
    rw [removed_confirms_iff hc, hid]
    exact Option.some_ne_none _
  unfold CartService.revalidateDiscount
  dsimp only
  cases hd : DiscountRepository.findById id db with
  | none => simpa using hnot
  | some d =>
    dsimp only
    have husable : d.Usable c now ↔ (calculateDiscountAmounts (CartService.linesForDiscount c.lines) d now
        none).ineligibilityReason = none := by rw [amounts_reason]; rfl
    simp only [Option.mem_some_iff, exists_eq_left', husable]
    split
    · rename_i hne
      constructor
      · intro h; exact absurd (h _ rfl) hnot
      · rintro ⟨h, -⟩; exact absurd h hne
    · rename_i hok
      split
      · -- the amounts differ, and the price that is written has the new ones
        rename_i hne
        constructor
        · intro h
          have hr := h _ rfl
          rcases hne with hne | hne
          · exact absurd hr.discountTotal hne
          · exact absurd hr.total hne
        · rintro ⟨-, hdiscount, htotal⟩
          rcases hne with hne | hne
          · exact absurd hdiscount hne
          · exact absurd htotal hne
      · rename_i hsame
        obtain ⟨hdiscount, htotal⟩ := not_or.1 hsame
        constructor
        · intro _; exact ⟨not_not.1 hok, not_not.1 hdiscount, not_not.1 htotal⟩
        · intro _ r hr; cases hr

/-- The condition is that the price which the request gives a sold cart is the one it has. -/
theorem leavesSold_iff (hc : ∀ c ∈ db.carts, c.Couponed) : LeavesSold db q ↔
    ∀ p ∈ repricing q db, ∀ c ∈ CartRepository.find p.1 db, c.status = .converted → p.2.Confirms c := by
  unfold LeavesSold repricing
  cases q.action with
  | getCart cartId =>
    dsimp only
    cases hcart : CartRepository.find cartId db with
    | none => simp
    | some c =>
      have hcoupon := hc c (lookup_mem hcart)
      simp only [Option.mem_some_iff, forall_eq', Option.bind_some, Option.mem_map, forall_exists_index, and_imp,
        forall_apply_eq_imp_iff₂]
      refine ⟨fun h r hr x hx hs => ?_, fun h hs id hid => ?_⟩
      · cases hcart.symm.trans hx
        obtain ⟨id, hid, hr⟩ := Option.bind_eq_some_iff.1 hr
        exact (revalidated_confirms_iff hcoupon hid).2 (h hs id hid) r hr
      · refine (revalidated_confirms_iff hcoupon hid).1 fun r hr => h r ?_ c hcart hs
        exact Option.bind_eq_some_iff.2 ⟨id, hid, hr⟩
  | applyDiscount cartId code _ =>
    dsimp only
    cases hcart : CartRepository.find cartId db with
    | none => simp
    | some c =>
      have hcoupon := hc c (lookup_mem hcart)
      cases hcode : DiscountRepository.findByCode code db with
      | none => simp
      | some d => simp [hcart, applied_confirms_iff hcoupon]
  | removeDiscount cartId =>
    dsimp only
    cases hcart : CartRepository.find cartId db with
    | none => simp
    | some c => simp [hcart, removed_confirms_iff (hc c (lookup_mem hcart))]
  | _ => simp

end Prices

/-! ## The invariant -/

/-- The carts, and the orders made from them. -/
structure SoldInv (c : Core) : Prop where
  carts : UniqueOn Cart.id c.carts
  couponed : ∀ x ∈ c.carts, x.Couponed
  sold : ∀ o ∈ c.orders, ∃ x ∈ c.carts, x.id = o.cartId ∧ x.status = .converted
  ordered : ∀ x ∈ c.carts, x.status = .converted → ∃ o ∈ c.orders, o.cartId = x.id

section Invariant
variable {q : Request} {v db : Db} {c : Core} {cart : Cart} {input : SnapshotInput} {order : Order}
  {new : Option Cart} {movement : Option CashMovement} {rows : List PaymentAttempt}

theorem SoldInv.fresh {tenantId : Id} {settings : Settings} : SoldInv (Db.fresh tenantId settings).core :=
  ⟨.nil, fun _ h => (List.not_mem_nil h).elim, fun _ h => (List.not_mem_nil h).elim,
    fun _ h => (List.not_mem_nil h).elim⟩

/-- The cart of a sale has been read, or is inserted with it. -/
theorem Sale.cart_cases (h : Sale q v db input order new movement rows) :
    (new = none ∧ input.cart ∈ v.carts) ∨ new = some input.cart := by
  cases h with
  | cash _ _ _ _ hcart => exact .inl ⟨rfl, lookup_mem hcart⟩
  | direct _ _ _ hcart => exact .inl ⟨rfl, lookup_mem hcart⟩
  | items => exact .inr rfl
  | paid _ _ _ _ _ hcart => exact .inl ⟨rfl, lookup_mem hcart⟩
  | confirmed _ _ _ _ _ hcart => exact .inl ⟨rfl, lookup_mem hcart⟩

/-- No order has been made from a cart that is not there, or not converted. -/
theorem SoldInv.not_sold (hi : SoldInv db.core) {id : Id}
    (h : ∀ x ∈ db.carts, x.id = id → x.status ≠ .converted) {o : Order} (ho : o ∈ db.orders) : o.cartId ≠ id := by
  intro hid
  obtain ⟨x, hx, hxid, hs⟩ := hi.sold o ho
  exact h x hx (hxid.trans hid) hs

/-- The carts that a sale meets: other ones, and the cart it sells. -/
theorem SoldInv.met (hi : SoldInv db.core) (h : Sale q db db input order new movement rows)
    (hcart : ∀ c ∈ new, ∀ x ∈ db.carts, x.id ≠ c.id) :
    UniqueOn Cart.id (db.carts ++ new.toList) ∧ input.cart ∈ db.carts ++ new.toList ∧
      ∀ x ∈ db.carts, x.id = input.cart.id → x = input.cart := by
  rcases h.cart_cases with ⟨rfl, hmem⟩ | rfl
  · rw [Option.toList_none, List.append_nil]
    exact ⟨hi.carts, hmem, fun x hx hid => hi.carts.eq hx hmem hid⟩
  · have hne := hcart input.cart rfl
    exact ⟨hi.carts.append hne, List.mem_append_right _ (List.mem_singleton_self _),
      fun x hx hid => absurd hid (hne x hx)⟩

/-- The carts that a sale leaves. -/
theorem SoldInv.left (hi : SoldInv db.core) (h : Sale q db db input order new movement rows)
    (hcart : ∀ c ∈ new, ∀ x ∈ db.carts, x.id ≠ c.id) {x : Cart}
    (hx : x ∈ (convertCart input.cart.id { db.core with carts := db.carts ++ new.toList }).carts) :
    (x ∈ db.carts ∧ x.id ≠ input.cart.id) ∨ x = { input.cart with status := .converted } := by
  obtain ⟨hunique, hmem, -⟩ := hi.met h hcart
  rcases mem_updateWhere_cases hx with ⟨hx, hne⟩ | ⟨y, hy, hid, rfl⟩
  · have hne := of_decide_eq_false hne
    rcases List.mem_append.1 hx with hx | hx
    · exact .inl ⟨hx, hne⟩
    · rcases h.cart_cases with ⟨rfl, -⟩ | rfl
      · exact (List.not_mem_nil hx).elim
      · exact absurd (congrArg Cart.id (List.mem_singleton.1 hx)) hne
  · have hyc := hunique.eq hy hmem (of_decide_eq_true hid)
    rw [hyc]; exact .inr rfl

/-- The price that a request gives is one of the cart it names. -/
theorem repricing_prices {cartId : Id} {r : CartRepository.Repricing} (h : repricing q db = some (cartId, r)) :
    ∃ cart, CartRepository.find cartId db = some cart ∧ r.Prices cart.subtotal db := by
  unfold repricing at h
  split at h
  · obtain ⟨cart, hcart, h⟩ := Option.bind_eq_some_iff.1 h
    obtain ⟨r', hr, h⟩ := Option.map_eq_some_iff.1 h
    obtain ⟨id, -, hr⟩ := Option.bind_eq_some_iff.1 hr
    cases h
    refine ⟨cart, hcart, ?_⟩
    unfold CartService.revalidateDiscount at hr
    dsimp only at hr
    split at hr
    · cases hr; exact .without rfl rfl rfl
    · next hd =>
      split at hr
      · cases hr; exact .without rfl rfl rfl
      · split at hr
        · cases hr; exact .with (List.mem_of_find?_eq_some hd) rfl (Option.some_ne_none _)
        · cases hr
  · obtain ⟨cart, hcart, h⟩ := Option.bind_eq_some_iff.1 h
    obtain ⟨d, hd, h⟩ := Option.map_eq_some_iff.1 h
    cases h
    exact ⟨cart, hcart, .with (findByCode_mem hd) rfl (Option.some_ne_none _)⟩
  · obtain ⟨cart, hcart, h⟩ := Option.map_eq_some_iff.1 h
    cases h
    exact ⟨cart, hcart, .without rfl rfl rfl⟩
  · cases h

/-- A new cart, which has no order. -/
theorem SoldInv.add (hi : SoldInv db.core) {carts : List Cart} (hid : ∀ x ∈ db.carts, x.id ≠ cart.id)
    (hs : cart.status = .validated) (hc : cart.Couponed) (hcarts : carts = db.carts ++ [cart]) :
    SoldInv { db.core with carts } := by
  subst hcarts
  refine ⟨hi.carts.append hid, fun x hx => ?_, fun o ho => ?_, fun x hx hsx => ?_⟩
  · rcases List.mem_append.1 hx with hx | hx
    · exact hi.couponed x hx
    · rw [List.mem_singleton.1 hx]; exact hc
  · obtain ⟨x, hx, h⟩ := hi.sold o ho
    exact ⟨x, List.mem_append_left _ hx, h⟩
  · rcases List.mem_append.1 hx with hx | hx
    · exact hi.ordered x hx hsx
    · rw [List.mem_singleton.1 hx, hs] at hsx
      cases hsx

theorem SoldInv.reprice (hi : SoldInv db.core) {cartId : Id} {r : CartRepository.Repricing}
    (hx : repricing q db = some (cartId, r)) :
    SoldInv { db.core with carts := Table.updateWhere (·.id = cartId) r.apply db.carts } := by
  obtain ⟨cart, hcart, hprices⟩ := repricing_prices hx
  refine ⟨hi.carts.updateWhere fun _ _ => rfl, fun x hx => ?_, fun o ho => ?_, fun x hx hs => ?_⟩
  · rcases mem_updateWhere_cases hx with ⟨hx, -⟩ | ⟨y, hy, hid, rfl⟩
    · exact hi.couponed x hx
    · have hyc := hi.carts.eq hy (lookup_mem hcart) ((of_decide_eq_true hid).trans (lookup_key hcart).symm)
      subst hyc
      exact ⟨hprices.plain, hprices.remembered⟩
  · obtain ⟨x, hx, hid, hs⟩ := hi.sold o ho
    by_cases hxc : x.id = cartId
    · exact ⟨r.apply x, mem_updateWhere_of hx (decide_eq_true hxc), hid, hs⟩
    · exact ⟨x, mem_updateWhere_of_not hx (decide_eq_false hxc), hid, hs⟩
  · rcases mem_updateWhere_cases hx with ⟨hx, -⟩ | ⟨y, hy, -, rfl⟩
    · exact hi.ordered x hx hs
    · exact hi.ordered y hy hs

theorem SoldInv.effect (hi : SoldInv db.core) (h : Effect q db db c) : SoldInv c := by
  cases h with
  | editCarts carts h =>
    cases h with
    | same => exact hi
    | add cart hid hs hc => exact hi.add hid hs hc rfl
    | reprice cartId r _ hx => exact hi.reprice hx
  | kiosk cart _ _ _ _ _ _ _ _ _ _ _ _ hid hs _ _ hc =>
    have hadd := hi.add hid hs hc rfl
    exact ⟨hadd.carts, hadd.couponed, hadd.sold, hadd.ordered⟩
  | sold input order n active new movement rows h horder hkey hopen hnew hcart =>
    obtain ⟨hunique, hmem, hsame⟩ := hi.met h hcart
    have hleft {x : Cart} (hx : x ∈ (convertCart input.cart.id
        { db.core with carts := db.carts ++ new.toList }).carts) := hi.left h hcart hx
    have hconverted : { input.cart with status := .converted } ∈ (convertCart input.cart.id
        { db.core with carts := db.carts ++ new.toList }).carts := mem_updateWhere_of hmem (decide_eq_true rfl)
    have hcoupon : input.cart.Couponed := by
      rcases h.cart_cases with ⟨-, hmem⟩ | rfl
      · exact hi.couponed _ hmem
      · cases h; assumption
    refine ⟨?_, fun x hx => ?_, fun o ho => ?_, fun x hx hs => ?_⟩
    · rw [book_carts, sell_carts]
      exact hunique.updateWhere fun _ _ => rfl
    · rw [book_carts, sell_carts] at hx
      rcases hleft hx with ⟨hx, -⟩ | rfl
      · exact hi.couponed x hx
      · exact ⟨hcoupon.plain, hcoupon.remembered⟩
    · rw [book_orders, sell_orders] at ho
      rw [book_carts, sell_carts]
      rcases List.mem_append.1 ho with ho | ho
      · obtain ⟨x, hx, hid, hs⟩ := hi.sold o ho
        have hne : ¬ x.id = input.cart.id := fun hxid => hopen (hsame x hx hxid ▸ hs)
        exact ⟨x, mem_updateWhere_of_not (List.mem_append_left _ hx) (decide_eq_false hne), hid, hs⟩
      · rw [List.mem_singleton.1 ho, horder]
        exact ⟨_, hconverted, rfl, rfl⟩
    · rw [book_carts, sell_carts] at hx
      rw [book_orders, sell_orders]
      rcases hleft hx with ⟨hx, -⟩ | rfl
      · obtain ⟨o, ho, hid⟩ := hi.ordered x hx hs
        exact ⟨o, List.mem_append_left _ ho, hid⟩
      · exact ⟨order, by simp, by rw [horder]; rfl⟩
  | revised order row p f movement released rows h =>
    have hf (o : Order) : (bump f q.draw.now o).cartId = o.cartId := Order.column Order.cartId (h.facts _ o)
    refine ⟨by simpa using hi.carts, by simpa using hi.couponed, fun o ho => ?_, fun x hx hs => ?_⟩
    · rw [release_orders, book_orders, revise_orders] at ho
      rw [release_carts, book_carts, revise_carts]
      rcases mem_updateWhere_cases ho with ⟨ho, -⟩ | ⟨r, hr, -, rfl⟩
      · exact hi.sold o ho
      · rw [hf]; exact hi.sold r hr
    · rw [release_carts, book_carts, revise_carts] at hx
      rw [release_orders, book_orders, revise_orders]
      obtain ⟨o, ho, hid⟩ := hi.ordered x hx hs
      by_cases hp : p o = true
      · exact ⟨_, mem_updateWhere_of ho hp, (hf o).trans hid⟩
      · exact ⟨o, mem_updateWhere_of_not ho (Bool.eq_false_iff.2 hp), hid⟩
  | _ => exact ⟨hi.carts, hi.couponed, hi.sold, hi.ordered⟩

/-! ## What one request does to the sold carts -/

theorem Order.Copies.of_facts {o r : Order} (h : r.Copies cart) (hf : o.facts = r.facts) : o.Copies cart :=
  ⟨(Order.column Order.lines hf).trans h.lines, (Order.column Order.subtotal hf).trans h.subtotal,
    (Order.column Order.discountTotal hf).trans h.discountTotal, (Order.column Order.total hf).trans h.total,
    (Order.column Order.discountSnapshot hf).trans h.coupon⟩

/-- A new cart has no order. -/
theorem SoldUnchanged.add (hu : SoldUnchanged db.core) (hi : SoldInv db.core) (hid : ∀ x ∈ db.carts, x.id ≠ cart.id)
    {o : Order} {x : Cart} (ho : o ∈ db.orders) (hx : x ∈ db.carts ++ [cart]) (hxo : x.id = o.cartId) :
    o.Copies x := by
  rcases List.mem_append.1 hx with hx | hx
  · exact hu o ho x hx hxo
  · rw [List.mem_singleton.1 hx] at hxo
    exact absurd hxo.symm (hi.not_sold (fun y hy hyid => absurd hyid (hid y hy)) ho)

/-- A request leaves the sold carts as their orders have copied them when it leaves their price. -/
theorem SoldUnchanged.effect (hu : SoldUnchanged db.core) (hi : SoldInv db.core) (hc : LeavesSold db q)
    (h : Effect q db db c) : SoldUnchanged c := by
  cases h with
  | editCarts carts h =>
    cases h with
    | same => exact hu
    | add cart hid => exact fun o ho x hx hxo => hu.add hi hid ho hx hxo
    | reprice cartId r _ hr =>
      intro o ho x hx hxo
      rcases mem_updateWhere_cases hx with ⟨hx, -⟩ | ⟨y, hy, hid, rfl⟩
      · exact hu o ho x hx hxo
      · -- the cart is the one that the order was made from
        obtain ⟨z, hz, hzo, hs⟩ := hi.sold o ho
        have hyz : y = z := hi.carts.eq hy hz (hxo.trans hzo.symm)
        subst hyz
        have hfind : CartRepository.find cartId db = some y :=
          (of_decide_eq_true hid : y.id = cartId) ▸ hi.carts.lookup hy
        have hconfirms := (leavesSold_iff hi.couponed).1 hc _ hr y hfind hs
        exact (hu o ho y hy hxo).reprice_iff.2 hconfirms
  | kiosk cart _ _ _ _ _ _ _ _ _ _ _ _ hid => exact fun o ho x hx hxo => hu.add hi hid ho hx hxo
  | sold input order n active new movement rows h horder hkey hopen hnew hcart =>
    obtain ⟨-, -, hsame⟩ := hi.met h hcart
    intro o ho x hx hxo
    rw [book_orders, sell_orders] at ho
    rw [book_carts, sell_carts] at hx
    rcases hi.left h hcart hx with ⟨hx, hne⟩ | rfl
    · rcases List.mem_append.1 ho with ho | ho
      · exact hu o ho x hx hxo
      · rw [List.mem_singleton.1 ho, horder] at hxo
        exact absurd hxo hne
    · rcases List.mem_append.1 ho with ho | ho
      · exact absurd hxo.symm (hi.not_sold (fun y hy hid => hsame y hy hid ▸ hopen) ho)
      · rw [List.mem_singleton.1 ho, horder]
        exact ⟨rfl, rfl, rfl, rfl, rfl⟩
  | revised order row p f movement released rows h =>
    intro o ho x hx hxo
    rw [release_orders, book_orders, revise_orders] at ho
    rw [release_carts, book_carts, revise_carts] at hx
    obtain ⟨r, hr, hf⟩ := exists_mem_of_map_eq (map_updateWhere fun o _ => h.facts _ o) ho
    have hrx := hu r hr x hx (hxo.trans (Order.column Order.cartId hf).symm)
    exact hrx.of_facts hf.symm
  | _ => exact hu

/-- A request that leaves the sold carts as they are copied leaves their price. -/
theorem SoldUnchanged.leaves (hu : SoldUnchanged db.core) (hi : SoldInv db.core) {db' : Db}
    (hs : step db q = some db') (hu' : SoldUnchanged db'.core) : LeavesSold db q := by
  rw [leavesSold_iff hi.couponed]
  rintro ⟨cartId, r⟩ hr x hfind hconverted
  obtain ⟨a, hx⟩ := step_eq.1 hs
  have hcore := exec_reprices hx hr
  have hmem : x ∈ db.carts := lookup_mem hfind
  obtain ⟨o, ho, hid⟩ := hi.ordered x hmem hconverted
  have hnew : r.apply x ∈ db'.core.carts := by
    rw [hcore]
    exact mem_updateWhere_of hmem (decide_eq_true (lookup_key hfind))
  have hold : o ∈ db'.core.orders := by rw [hcore]; exact ho
  exact (hu o ho x hmem hid.symm).reprice_iff.1 (hu' o hold _ hnew hid.symm)

end Invariant

/-! ## Every run -/

/-- Every request of the run leaves the sold carts as their orders have copied them. -/
def SoldCartsUnchangedAlong (tenantId : Id) (settings : Settings) (qs : List Request) : Prop :=
  Along step (fun db q => ∀ db' ∈ step db q, SoldUnchanged db'.core) (Db.fresh tenantId settings) qs

/-- It does exactly when every request leaves the price of the sold cart that it names. -/
theorem sold_carts_unchanged_iff {tenantId : Id} {settings : Settings} {qs : List Request} {db : Db}
    (hr : Runs.exec step (Db.fresh tenantId settings) qs = some db) :
    SoldCartsUnchangedAlong tenantId settings qs ↔ Along step LeavesSold (Db.fresh tenantId settings) qs := by
  refine Along.congr (I := fun db => SoldInv db.core ∧ SoldUnchanged db.core) (fun d q d' hi hc hs => ?_)
    (fun d q d' hi hs => ?_) ⟨.fresh, fun _ h => (List.not_mem_nil h).elim⟩ hr
  · obtain ⟨a, hx⟩ := step_eq.1 hs
    exact ⟨hi.1.effect (exec_effect hx), hc d' hs⟩
  · constructor
    · intro h
      exact hi.2.leaves hi.1 hs (h d' hs)
    · intro hc d'' hs'
      cases hs.symm.trans hs'
      obtain ⟨a, hx⟩ := step_eq.1 hs
      exact hi.2.effect hi.1 hc (exec_effect hx)

namespace Demo

def readCart (n cartId : String) : Request := call 5 n (.getCart cartId)

/-- A cart with a coupon that may be redeemed `m` times is sold for cash. -/
def sellWithCoupon (m : Nat) : List Request :=
  [setUp, offer { tenPercent with maxRedemptions := some m }, fillCart "1" "cart", useCoupon 2 "cart",
    payInCash "2" "cart"]

end Demo

open Demo

theorem sold_carts_unchanged_iff_cash : SoldCartsUnchangedAlong "tenant" settings (sellWithCoupon 2) ↔
    Along step LeavesSold (Db.fresh "tenant" settings) (sellWithCoupon 2) := by
  have hs : (Runs.exec step (Db.fresh "tenant" settings) (sellWithCoupon 2)).isSome = true := by decide +kernel
  obtain ⟨db, hr⟩ := Option.isSome_iff_exists.1 hs
  exact sold_carts_unchanged_iff hr

/-- The sale has used the coupon up: reading the cart afterwards takes it from the cart. -/
theorem reading_sold_cart_reprices_it : ¬ ∀ (tenantId : Id) (settings : Settings) (qs : List Request) (db : Db),
    Runs.exec step (Db.fresh tenantId settings) qs = some db → SoldCartsUnchangedAlong tenantId settings qs := by
  intro h
  have hx : (Runs.exec step (Db.fresh "tenant" settings) (sellWithCoupon 1)).any (fun db =>
      (step db (readCart "3" "cart")).any fun db' => db'.orders.any fun o => db'.carts.any fun x =>
        x.id = o.cartId && o.total ≠ x.total) = true := by decide +kernel
  obtain ⟨db, hr, hdb⟩ := (Option.any_eq_true _ _).1 hx
  obtain ⟨db', hs, hdb'⟩ := (Option.any_eq_true _ _).1 hdb
  obtain ⟨o, ho, hrow⟩ := List.any_eq_true.1 hdb'
  obtain ⟨x, hmem, hrow⟩ := List.any_eq_true.1 hrow
  simp only [Bool.and_eq_true, decide_eq_true_eq] at hrow
  have hrun : Runs.exec step (Db.fresh "tenant" settings) (sellWithCoupon 1 ++ [readCart "3" "cart"]) = some db' :=
    exec_append.2 ⟨db, hr, by simp [hs]⟩
  have hlast := (Along.append.1 (h _ _ _ _ hrun)).2 db hr
  exact hrow.2 (hlast.1 db' hs o ho x hmem hrow.1).total

end Komanda
