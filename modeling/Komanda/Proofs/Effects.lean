import Komanda.Proofs.DiscountRules
import Komanda.Proofs.Operations

/-!
# Every committed request has an effect

`exec_effect`: the tables of the sale change as `Effect` says. One lemma a service, from the lemmas of
the repository functions.
-/

namespace Komanda
open Transaction Komanda.Core

variable {q : Request} {v s s' : Db} {u : Unit}

namespace Effect

theorem idle (h : s'.core = s.core) : Effect q v s s'.core := h ▸ .editCarts _ .same

theorem carts {rows : List Cart} (hc : CartEdit q v s rows)
    (h : s'.core = { s.core with carts := rows }) : Effect q v s s'.core :=
  h ▸ .editCarts _ hc

theorem attempts {rows : List PaymentAttempt} (ha : AttemptEdit q v s rows)
    (h : s'.core = { s.core with attempts := rows }) : Effect q v s s'.core :=
  h ▸ .editAttempts _ ha

end Effect

/-! ## Coupons and carts -/

theorem createDiscount_effect {d : Discount} (h : Commits (DiscountRepository.create d) v s u s') :
    Effect q v s s'.core := by
  simp only [DiscountRepository.create, commits_bind, commits_throwIf, commits_current,
    commits_write] at h
  obtain ⟨_, _, ⟨-, rfl⟩, _, _, ⟨rfl, rfl⟩, _, _, ⟨hn, rfl⟩, _, _, ⟨hd, rfl⟩, rfl⟩ := h
  refine .coupons _ (.add _ (fun x hx he => ?_) rfl (not_not.1 hd))
  exact hn (List.any_eq_true.2 ⟨x, hx, by simp [he]⟩)

theorem updateDiscount_effect {id : Id} {input : DiscountRepository.UpdateInput} {version : Option Nat}
    (h : Commits (DiscountRepository.update id input version) v s u s') : Effect q v s s'.core := by
  simp only [DiscountRepository.update, commits_bind, commits_throwIf, commits_current,
    commits_write] at h
  obtain ⟨_, _, ⟨rfl, rfl⟩, _, _, ⟨hd, rfl⟩, rfl⟩ := h
  refine .coupons _ (.update _ _ (fun _ => rfl) (fun _ => rfl) fun d hm hp _ => ?_)
  exact List.all_eq_true.1 (not_not.1 hd) d (List.mem_filter.2 ⟨hm, hp⟩)

theorem deleteDiscount_effect {id : Id} {now : Instant}
    (h : Commits (DiscountRepository.softDelete id now) v s u s') : Effect q v s s'.core := by
  simp only [DiscountRepository.softDelete, commits_write] at h
  subst h
  exact .coupons _ (.update _ _ (fun _ => rfl) (fun _ => rfl) fun _ _ _ hd => hd)

/-- A price that a service computes, with the coupons of `db`, for lines of a subtotal. -/
structure CartRepository.Repricing.Prices (r : CartRepository.Repricing) (subtotal : Cents) (db : Db) : Prop where
  plain : r.appliedDiscountCodeId = none → r.discountTotal = 0 ∧ r.total = subtotal
  remembered : r.appliedDiscountCodeId ≠ none → r.discountMetadata ≠ none
  known : ∀ id ∈ r.appliedDiscountCodeId, ∃ d ∈ db.discounts, d.id = id

/-- The price of a new cart, which adds up to the subtotal. -/
structure CartRepository.Repricing.PricesNew (r : CartRepository.Repricing) (subtotal : Cents) (db : Db) : Prop
    extends r.Prices subtotal db where
  adds : r.discountTotal + r.total = subtotal

section Prices
variable {r : CartRepository.Repricing} {subtotal : Cents} {db : Db}

theorem CartRepository.Repricing.Prices.without (hid : r.appliedDiscountCodeId = none) (hd : r.discountTotal = 0)
    (ht : r.total = subtotal) : r.Prices subtotal db := by
  refine ⟨fun _ => ⟨hd, ht⟩, fun h => absurd hid h, fun id h => ?_⟩
  rw [hid] at h
  cases h

theorem CartRepository.Repricing.Prices.with {d : Discount} (hd : d ∈ db.discounts)
    (hid : r.appliedDiscountCodeId = some d.id) (hm : r.discountMetadata ≠ none) : r.Prices subtotal db := by
  refine ⟨fun h => ?_, fun _ => hm, fun id h => ⟨d, hd, ?_⟩⟩
  · rw [hid] at h
    cases h
  · rw [hid] at h
    exact Option.some.inj h

end Prices

theorem findByCode_mem {code : String} {db : Db} {d : Discount} (h : DiscountRepository.findByCode code db = some d) :
    d ∈ db.discounts := by
  unfold DiscountRepository.findByCode at h
  dsimp only at h
  split at h
  · cases h
  · exact List.mem_of_find?_eq_some h

/-- A new line costs its quantity at its price. -/
def NewCartLine.Priced (line : NewCartLine) : Prop := line.lineTotal = line.unitPrice * line.quantity

/-- The cart of such a price and such lines. -/
theorem CartRepository.Repricing.PricesNew.row {r : CartRepository.Repricing} {subtotal : Cents} {db : Db}
    {lines : List NewCartLine} (h : r.PricesNew subtotal db) (hlines : ∀ l ∈ lines, l.Priced)
    (hsum : (lines.map (·.lineTotal)).sum = subtotal) {locationId cartId : Id} {currency : String}
    {expiresAt : Instant} {cart : Cart} (hcart : cart = CartRepository.CreateInput.row
      { locationId, currency, subtotal, discountTotal := r.discountTotal, total := r.total,
        appliedDiscountCodeId := r.appliedDiscountCodeId, discountMetadata := r.discountMetadata, expiresAt,
        lines } cartId) : cart.Couponed ∧ cart.CouponIn db ∧ cart.AddsUp := by
  subst hcart
  refine ⟨⟨h.plain, h.remembered⟩, h.known, fun l hl => ?_, ?_, h.adds⟩
  · obtain ⟨line, hline, rfl⟩ := List.mem_map.1 hl
    exact hlines line hline
  · exact (congrArg List.sum List.map_map).trans hsum

/-- The same of lines that come with the category of their item. -/
theorem CartRepository.Repricing.PricesNew.rowOf {r : CartRepository.Repricing} {db : Db}
    {lines : List (NewCartLine × Option Id)} (h : r.PricesNew (lines.map (·.1.lineTotal)).sum db)
    (hlines : ∀ l ∈ lines, l.1.Priced) {locationId cartId : Id} {currency : String} {expiresAt : Instant}
    {cart : Cart} (hcart : cart = CartRepository.CreateInput.row
      { locationId, currency, subtotal := (lines.map (·.1.lineTotal)).sum, discountTotal := r.discountTotal,
        total := r.total, appliedDiscountCodeId := r.appliedDiscountCodeId,
        discountMetadata := r.discountMetadata, expiresAt, lines := lines.map (·.1) } cartId) :
    cart.Couponed ∧ cart.CouponIn db ∧ cart.AddsUp := by
  refine h.row (fun l hl => ?_) (congrArg List.sum List.map_map) hcart
  obtain ⟨line, hline, rfl⟩ := List.mem_map.1 hl
  exact hlines line hline

/-! ### The lines that the services make -/

theorem validateLine_priced {currency : String} {db : Db} {selection : CartSelection} {line : NewCartLine}
    (h : CartService.validateLine currency db selection = .ok line) : line.Priced := by
  unfold CartService.validateLine at h
  split at h
  · cases h
  · split at h
    · cases h
    · split at h
      · cases h
      · cases h
        rfl

theorem directLine_priced {currency : String} {db : Db} {selection : CartSelection} {line : NewCartLine × Option Id}
    (h : CreateOrderService.directLine currency db selection = .ok line) : line.1.Priced := by
  unfold CreateOrderService.directLine at h
  split at h
  · cases h
  · split at h
    · cases h
    · split at h
      · cases h
      · cases h
        rfl

theorem kioskLine_priced {currency : String} {db : Db} {item : KioskPaymentItem} {line : NewCartLine × Option Id}
    (h : KioskPaymentService.kioskLine currency db item = .ok line) : line.1.Priced := by
  unfold KioskPaymentService.kioskLine at h
  split at h
  · cases h
  · split at h
    · cases h
    · split at h
      · cases h
      · cases h
        rfl

/-- What every line that is made meets, all lines meet. -/
theorem forall_of_mapM {ε α β : Type} {f : α → Except ε β} {P : β → Prop} {as : List α} {bs : List β}
    (h : as.mapM f = .ok bs) (hP : ∀ {a b}, f a = .ok b → P b) : ∀ b ∈ bs, P b := by
  induction mapM_ok_iff.1 h with
  | nil => exact fun b hb => absurd hb List.not_mem_nil
  | cons hab hrest ih =>
    intro b hb
    rcases List.mem_cons.1 hb with rfl | hb
    · exact hP hab
    · exact ih (mapM_ok_iff.2 hrest) b hb

/-- The price of lines and the discount on them. -/
theorem amounts_of_lines {lines : List CartLineForDiscount} {totals : List Cents} {d : Discount} {now : Instant}
    {tender : Option Tender} (h : lines.map (·.lineTotalCents) = totals) :
    (calculateDiscountAmounts lines d now tender).discountTotalCents +
      (calculateDiscountAmounts lines d now tender).totalCents = totals.sum :=
  amounts_add.trans (congrArg List.sum h)

theorem initialPrice_prices (lines : List NewCartLine) (code : Option String) (now : Instant) (db : Db) :
    (CartService.initialPrice lines code now db).PricesNew (lines.map (·.lineTotal)).sum db := by
  unfold CartService.initialPrice
  dsimp only
  split
  · exact ⟨.without rfl rfl rfl, Nat.zero_add _⟩
  · next hd =>
    obtain ⟨code', -, hd⟩ := Option.bind_eq_some_iff.1 hd
    split
    · exact ⟨.without rfl rfl rfl, Nat.zero_add _⟩
    · exact ⟨.with (findByCode_mem hd) rfl (Option.some_ne_none _), amounts_of_lines List.map_map⟩

theorem directPrice_prices {lines : List (NewCartLine × Option Id)} {code : Option String} {tender : OrderTender}
    {now : Instant} {db : Db} {price : CartRepository.Repricing}
    (h : CreateOrderService.directPrice lines code tender now db = .ok price) :
    price.PricesNew (lines.map (·.1.lineTotal)).sum db := by
  unfold CreateOrderService.directPrice at h
  split at h
  · cases h; exact ⟨.without rfl rfl rfl, Nat.zero_add _⟩
  · split at h
    · cases h
    · next hd =>
      dsimp only at h
      split at h
      · cases h
      · cases h
      · cases h; exact ⟨.with (findByCode_mem hd) rfl (Option.some_ne_none _), amounts_of_lines List.map_map⟩

theorem kioskPrice_prices {lines : List (NewCartLine × Option Id)} {code : Option String} {now : Instant}
    {db : Db} {price : CartRepository.Repricing}
    (h : KioskPaymentService.kioskPrice lines code now db = .ok price) :
    price.PricesNew (lines.map (·.1.lineTotal)).sum db := by
  unfold KioskPaymentService.kioskPrice at h
  split at h
  · cases h; exact ⟨.without rfl rfl rfl, Nat.zero_add _⟩
  · split at h
    · cases h
    · next hd =>
      dsimp only at h
      split at h
      · cases h
      · cases h
      · cases h; exact ⟨.with (findByCode_mem hd) rfl (Option.some_ne_none _), amounts_of_lines List.map_map⟩

theorem createCart_effect {tenant : PublicTenant} {request : CreateCartRequest} {key : String}
    {recordId cartId : Id} {now : Instant} {cart : Cart}
    (h : Commits (CartService.create tenant request key recordId cartId now) v s cart s') :
    Effect q v s s'.core := by
  simp only [CartService.create, commits_bind, commits_look, commits_throwIf] at h
  obtain ⟨_, _, ⟨-, rfl⟩, _, _, ⟨-, rfl⟩, claim, s₁, hclaim, h⟩ := h
  have h₁ := keeps_claim _ _ _ _ _ _ _ _ _ _ hclaim
  cases claim with
  | replay status body =>
    simp only [commits_bind, commits_look, commits_orThrow] at h
    obtain ⟨_, _, ⟨-, rfl⟩, -, rfl⟩ := h
    exact .idle h₁
  | claimed recordId hash =>
    simp only [commits_bind, commits_look, commits_fromExcept, commits_pure] at h
    obtain ⟨_, _, ⟨hvalid, rfl⟩, lines, _, ⟨hlines, rfl⟩, _, _, ⟨rfl, rfl⟩, created, s₂, hcreate, _, s₃, hcomplete,
      rfl, rfl⟩ := h
    obtain ⟨rfl, hid, h₂⟩ := create_core hcreate
    have h₃ := keeps_onIdempotency _ _ _ _ _ hcomplete
    have hcarts : s₁.carts = s.carts := congrArg Core.carts h₁
    rw [hcarts] at hid h₂
    have hpriced : ∀ l ∈ lines, l.Priced := forall_of_mapM (hvalid.trans hlines) validateLine_priced
    obtain ⟨hcoupon, hknown, hadds⟩ := (initialPrice_prices _ _ _ _).row hpriced rfl rfl
    exact .carts (.add _ hid rfl hcoupon hknown hadds) (by rw [h₃, h₂, h₁])

/-- The tables once the carts have got the price of a request, if it gives one. -/
def Core.repriceCart (p : Option (Id × CartRepository.Repricing)) (c : Core) : Core :=
  match p with
  | none => c
  | some (cartId, r) => { c with carts := Table.updateWhere (·.id = cartId) r.apply c.carts }

theorem Effect.repriced (h : s'.core = Core.repriceCart (repricing q v) s.core) : Effect q v s s'.core := by
  cases hr : repricing q v with
  | none => rw [hr] at h; exact .idle h
  | some p =>
    rw [hr] at h
    obtain ⟨cartId, r⟩ := p
    exact .carts (.reprice cartId r (by rw [repriced_eq, hr]; rfl) hr) h

theorem findAvailable_cases {cartId : Id} {now : Instant} {cart : Cart}
    (h : Commits (CartService.findAvailable cartId now) v s cart s') :
    CartRepository.find cartId v = some cart ∧ s' = s := by
  simp only [CartService.findAvailable, commits_bind, commits_look, commits_orThrow, commits_throwIf,
    commits_pure] at h
  obtain ⟨_, _, ⟨hfound, rfl⟩, c, _, ⟨rfl, rfl⟩, _, _, ⟨-, rfl⟩, rfl, rfl⟩ := h
  exact ⟨hfound, rfl⟩

theorem getCart_core {cartId : Id} {cart : Cart} (hq : q.action = .getCart cartId)
    (h : Commits (CartService.get cartId q.draw.now) v s cart s') :
    s'.core = Core.repriceCart (repricing q v) s.core := by
  simp only [CartService.get, commits_bind, commits_look] at h
  obtain ⟨found, s₁, ha, price, _, ⟨hr, rfl⟩, h⟩ := h
  obtain ⟨hfound, rfl⟩ := findAvailable_cases ha
  have hp : repricing q v = price.map fun r => (cartId, r) := by
    simp only [repricing, hq, hfound, Option.bind_some, hr]
  rw [hp]
  cases price with
  | none =>
    rw [commits_pure] at h
    rw [h.2]; rfl
  | some r =>
    simp only [commits_bind, commits_pure] at h
    obtain ⟨_, _, hup, -, rfl⟩ := h
    exact reprice_core hup

theorem applyDiscount_core {cartId : Id} {code : String} {retry : Option Nat} {cart : Cart}
    (hq : q.action = .applyDiscount cartId code retry)
    (h : Commits (CartService.applyDiscount cartId code retry q.draw.now) v s cart s') :
    s'.core = Core.repriceCart (repricing q v) s.core := by
  simp only [CartService.applyDiscount, commits_bind, commits_throwIf, commits_look,
    commits_orThrow] at h
  obtain ⟨_, _, ⟨-, rfl⟩, found, s₁, ha, _, _, ⟨hcode, rfl⟩, discount, _, ⟨rfl, rfl⟩, h⟩ := h
  obtain ⟨hfound, rfl⟩ := findAvailable_cases ha
  split at h
  · exact (commits_throw.1 h).elim
  · simp only [commits_bind, commits_orThrow] at h
    obtain ⟨_, _, hup, -, rfl⟩ := h
    simp only [repricing, hq, hfound, hcode, Option.bind_some, Option.map_some]
    exact reprice_core hup

theorem removeDiscount_core {cartId : Id} {cart : Cart} (hq : q.action = .removeDiscount cartId)
    (h : Commits (CartService.removeDiscount cartId q.draw.now) v s cart s') :
    s'.core = Core.repriceCart (repricing q v) s.core := by
  simp only [CartService.removeDiscount, commits_bind, commits_orThrow] at h
  obtain ⟨found, s₁, ha, _, _, hup, -, rfl⟩ := h
  obtain ⟨hfound, rfl⟩ := findAvailable_cases ha
  simp only [repricing, hq, hfound, Option.map_some]
  exact reprice_core hup

/-! ## Sales -/

/-- An inserted snapshot is the effect of its sale. -/
theorem Effect.snapshot {input : SnapshotInput} {order : Order} (cart : Option Cart)
    (movement : Option CashMovement) {rows : List PaymentAttempt} {s₁ s₂ : Db}
    (hsale : Sale q v s input order cart movement rows)
    (hkey : Table.lookup Order.idempotencyKey input.idempotencyKey v.orders = none)
    (hopen : input.cart.status ≠ .converted) (hcart : ∀ c ∈ cart, ∀ x ∈ s.carts, x.id ≠ c.id)
    (hs₁ : s₁.core = { s.core with carts := s.carts ++ cart.toList, attempts := rows })
    (hins : Commits (OrderRepository.insertSnapshot input q.draw) v s₁ order s₂)
    (hm : ∀ m ∈ movement, Bookable m s.movements) (hs' : s'.core = book movement s₂.core) :
    Effect q v s s'.core := by
  obtain ⟨⟨n, active, rfl⟩, hnew, hcore⟩ := insertSnapshot_core hins
  have horders : s₁.orders = s.orders := congrArg Core.orders hs₁
  rw [hs', hcore, hs₁]
  exact .sold input _ n active cart movement rows hsale rfl hkey hopen (horders ▸ hnew) hcart hm

theorem readCart_keeps (id' : Id) : Keeps id (look (CartRepository.find id') : DbTx (Option Cart)) :=
  Within.look _

theorem currentCart_keeps (id' : Id) :
    Keeps id (current (CartRepository.find id') : DbTx (Option Cart)) :=
  Within.current _

theorem createCashOrder_effect {tenant : PublicTenant} {cartId : Id} {request : CheckoutRequest}
    {key : String} {recordId : Id} {response : CreateCashOrderResponse}
    (hq : q.action = .createCashOrder tenant cartId request key recordId)
    (h : Commits (CreateCashOrderService.create tenant cartId request key recordId q.draw) v s response s') :
    Effect q v s s'.core := by
  simp only [CreateCashOrderService.create, commits_look_bind, commits_throwIf_bind] at h
  rw [commits_bind] at h
  obtain ⟨-, -, claim, s₁, hclaim, h⟩ := h
  have h₁ := keeps_claim _ _ _ _ _ _ _ _ _ _ hclaim
  cases claim with
  | replay status body =>
    dsimp only at h
    split at h
    · rw [commits_pure] at h
      exact .idle (by rw [← h.2, h₁])
    · exact (commits_throw.1 h).elim
  | claimed claimId hash =>
    simp only [commits_look_bind, commits_orThrow_bind, commits_throwIf_bind, commits_fromExcept_bind,
      CreateCashOrderService.convert] at h
    obtain ⟨cart, hfound, -, hopen, -, -, -, -, date, -, h⟩ := h
    rw [commits_bind] at h
    obtain ⟨⟨order, created⟩, s₂, hcreate, h⟩ := h
    rw [commits_bind] at h
    obtain ⟨_, s₃, hcomplete, h⟩ := h
    rw [commits_pure] at h
    obtain ⟨-, rfl⟩ := h
    have h₃ := keeps_onIdempotency _ _ _ _ _ hcomplete
    have hid := Table.lookup_key hfound
    rcases createFromCartSnapshotWith_core (readCart_keeps _) hcreate with ⟨-, -, rfl⟩ | ⟨-, hkey, -, hins⟩
    · exact .idle (h₃.trans h₁)
    · refine Effect.snapshot none none
        (.cash tenant request recordId ?_ ?_ rfl rfl rfl rfl) hkey hopen (by simp) ?_ hins (by simp) ?_
      · exact hid ▸ hq
      · exact hid ▸ hfound
      · rw [h₁]; simp [Db.core]
      · rw [h₃, book_none]

theorem createDirect_effect {cartId : Id} {customer : Customer} {notes : Option String} {key : String}
    {order : Order} (hq : q.action = .createDirect cartId customer notes key)
    (h : Commits (CreateOrderService.createDirect cartId customer notes key q.draw) v s order s') :
    Effect q v s s'.core := by
  simp only [CreateOrderService.createDirect, commits_bind, commits_look, commits_orThrow,
    commits_throwIf] at h
  obtain ⟨_, _, ⟨hfound, rfl⟩, cart, _, ⟨rfl, rfl⟩, _, _, ⟨-, rfl⟩, _, _, ⟨hopen, rfl⟩, ⟨o, created⟩, s₁, hcreate,
    h⟩ := h
  have hid := Table.lookup_key hfound
  simp only [commits_bind, commits_runIf, commits_pure] at h
  rcases createFromCartSnapshotWith_core (readCart_keeps _) hcreate with ⟨rfl, -, rfl⟩ | ⟨rfl, hkey, -, hins⟩
  · obtain ⟨_, _, ⟨⟨⟩, -⟩ | ⟨-, rfl⟩, -, rfl⟩ := h
    exact .idle rfl
  · obtain ⟨_, _, ⟨-, _, s₂, hdep, _, s₃, hann, _, s₄, htick, hbill⟩ | ⟨hf, -⟩, -, rfl⟩ := h
    · obtain ⟨hb, h₂⟩ := recordMovement_core hdep
      have hm : s₁.movements = s.movements :=
        (congrArg Core.movements (insertSnapshot_core hins).2.2).trans sell_movements
      refine Effect.snapshot none (some _)
        (.direct customer notes ?_ ?_ rfl rfl rfl rfl) hkey (fun hc => hopen (.inl hc)) (by simp) ?_ hins ?_ ?_
      · exact hid ▸ hq
      · exact hid ▸ hfound
      · simp [Db.core]
      · intro m hm'; cases hm'; exact hm ▸ hb
      · rw [keeps_issueDocument _ _ _ _ _ hbill, keeps_enqueueOrderTicket _ _ _ _ _ _ htick,
          keeps_announce _ _ _ _ _ _ _ _ hann, h₂]; rfl
    · exact (hf rfl).elim

theorem createDirectFromItems_effect {request : CreateOrderService.DirectItemsRequest} {key : String}
    {cartId : Id} {order : Order} (hq : q.action = .createDirectFromItems request key cartId)
    (h : Commits (CreateOrderService.createDirectFromItems request key cartId q.draw) v s order s') :
    Effect q v s s'.core := by
  simp only [CreateOrderService.createDirectFromItems, commits_bind, commits_look, commits_orThrow,
    commits_fromExcept] at h
  obtain ⟨settings, _, ⟨rfl, rfl⟩, locationId, _, ⟨hloc, rfl⟩, _, _, ⟨hvalid, rfl⟩, lines, _, ⟨hlines, rfl⟩, _, _,
    ⟨hpriced, rfl⟩, price, _, ⟨hprice, rfl⟩, cart, s₁, hcart, ⟨o, created⟩, s₂, hcreate, h⟩ := h
  obtain ⟨hrow, hid, h₁⟩ := create_core hcart
  have hquote : counterPrice request q.draw.now v = some price := by
    rw [counterPrice, hvalid.trans hlines]
    exact congrArg Except.toOption (hpriced.trans hprice)
  have hpc : cart.appliedDiscountCodeId = price.appliedDiscountCodeId ∧
      cart.discountTotal = price.discountTotal := by rw [hrow]; exact ⟨rfl, rfl⟩
  have hcid : cart.id = cartId := by rw [hrow]; rfl
  have hst : cart.status = .validated := by rw [hrow]; rfl
  obtain ⟨hcoupon, hknown, hadds⟩ := (directPrice_prices (hpriced.trans hprice)).rowOf
    (forall_of_mapM (P := fun l : NewCartLine × Option Id => l.1.Priced) (hvalid.trans hlines) directLine_priced) hrow
  have hcl : v.settings.primaryLocationId = some cart.locationId := by rw [hrow]; exact hloc
  simp only [commits_bind, commits_runIf, commits_pure] at h
  rcases createFromCartSnapshotWith_core (currentCart_keeps _) hcreate with
    ⟨rfl, -, rfl⟩ | ⟨rfl, hkey, -, hins⟩
  · obtain ⟨_, _, ⟨⟨⟩, -⟩ | ⟨-, rfl⟩, -, rfl⟩ := h
    exact .carts (.add cart hid hst hcoupon hknown hadds) h₁
  · obtain ⟨_, s₇, ⟨-, _, s₃, hdep, _, s₄, hann, _, s₅, htick, _, s₆, hbill, hwa⟩ | ⟨hf, -⟩, -, rfl⟩ := h
    · have hm : s₂.movements = s.movements :=
        ((congrArg Core.movements (insertSnapshot_core hins).2.2).trans sell_movements).trans
          (congrArg Core.movements h₁)
      have h₆ : s₆.core = s₅.core := by
        rcases hbill with ⟨-, hbill⟩ | ⟨-, rfl⟩
        · exact keeps_issueDocument _ _ _ _ _ hbill
        · rfl
      have h₇ : s₇.core = s₆.core := by
        rcases hwa with ⟨-, hwa⟩ | ⟨-, rfl⟩
        · exact keeps_appendOutboxEvent _ _ _ _ _ _ _ _ hwa
        · rfl
      have hdep : (∀ m ∈ (if request.tender = .cash ∧ request.paymentStatus = .paid then
          some (depositOf o none q.draw) else none), Bookable m s.movements) ∧
          s₃.core = book (if request.tender = .cash ∧ request.paymentStatus = .paid then
            some (depositOf o none q.draw) else none) s₂.core := by
        rcases hdep with ⟨hc, hdep⟩ | ⟨hc, rfl⟩
        · obtain ⟨hb, h₃⟩ := recordMovement_core hdep
          rw [if_pos hc]
          exact ⟨fun m hm' => by cases hm'; exact hm ▸ hb, h₃⟩
        · rw [if_neg hc]
          exact ⟨by simp, by rw [book_none]⟩
      refine Effect.snapshot (some cart) _ (.items request ?_ rfl rfl rfl rfl hst hcl price hquote hpc hcoupon hadds) hkey
        (by simp [hst]) ?_ ?_ hins hdep.1 ?_
      · rw [hq, hcid]
      · intro c hc; cases hc; exact hid
      · rw [h₁]; simp [Db.core]
      · rw [h₇, h₆, keeps_enqueueOrderTicket _ _ _ _ _ _ htick, keeps_announce _ _ _ _ _ _ _ _ hann,
          hdep.2]
    · exact (hf rfl).elim

theorem createPaid_effect {attemptId : Id} {approvedAt : Option Instant} {order : Order}
    (hq : q.action = .createPaid attemptId approvedAt)
    (h : Commits (CreateOrderService.createPaidFromPaymentAttempt attemptId approvedAt q.draw) v s order
      s') : Effect q v s s'.core := by
  simp only [CreateOrderService.createPaidFromPaymentAttempt, commits_bind, commits_look, commits_orThrow,
    commits_throwIf] at h
  obtain ⟨_, _, ⟨hfound, rfl⟩, attempt, _, ⟨rfl, rfl⟩, _, _, ⟨hok, rfl⟩, _, _, ⟨hcart, rfl⟩, cart, _, ⟨rfl, rfl⟩,
    ⟨o, created⟩, s₁, hcreate, h⟩ := h
  have hid := Table.lookup_key hfound
  simp only [commits_bind, commits_runIf, commits_pure] at h
  rcases createFromCartSnapshotWith_core (readCart_keeps _) hcreate with
    ⟨rfl, -, rfl⟩ | ⟨rfl, hkey, ⟨c, hc, hopen⟩, hins⟩
  · obtain ⟨_, _, ⟨⟨⟩, -⟩ | ⟨-, rfl⟩, -, rfl⟩ := h
    exact .idle rfl
  · obtain ⟨_, _, ⟨-, _, s₂, hann, _, s₃, htick, hbill⟩ | ⟨hf, -⟩, -, rfl⟩ := h
    · have hcc : c = cart := by
        have := (commits_look.1 hc).1
        rw [Table.lookup_key hcart, hcart] at this
        exact (Option.some.inj this).symm
      refine Effect.snapshot none none
        (.paid attempt approvedAt ?_ ?_ (not_not.1 hok) ?_ rfl rfl rfl rfl rfl) hkey (hcc ▸ hopen)
        (by simp) ?_ hins (by simp) ?_
      · rw [hq, hid]
      · rw [hid]; exact hfound
      · exact hcart
      · simp [Db.core]
      · rw [keeps_issueDocument _ _ _ _ _ hbill, keeps_enqueueOrderTicket _ _ _ _ _ _ htick,
          keeps_announce _ _ _ _ _ _ _ _ hann, book_none]
    · exact (hf rfl).elim

/-! ## Payment sessions -/

theorem prepareSession_effect {tenant : PublicTenant} {cartId : Id} {request : CheckoutRequest}
    {key : String} {recordId attemptId : Id}
    (hq : q.action = .prepareSession tenant cartId request key recordId attemptId)
    (h : Commits (beginSession
      (PaymentSessionService.prepare tenant cartId request key recordId attemptId q.draw.now)) v s u s') :
    Effect q v s s'.core := by
  rw [beginSession, commits_bind] at h
  obtain ⟨prepared, s₃, hp, h⟩ := h
  rw [PaymentSessionService.prepare, commits_throwIf_bind, commits_look_bind, commits_throwIf_bind, commits_look_bind,
    commits_orThrow_bind] at hp
  obtain ⟨-, -, account, -, hp⟩ := hp
  rw [commits_bind] at hp
  obtain ⟨claim, s₁, hclaim, hp⟩ := hp
  have h₁ := keeps_claim _ _ _ _ _ _ _ _ _ _ hclaim
  have h₄ : s'.core = s₃.core := by
    cases prepared with
    | replayed body => rw [commits_pure] at h; rw [h.2]
    | ready session => rw [commits_write] at h; rw [← h]; rfl
  cases claim with
  | replay status body =>
    rw [commits_pure] at hp
    exact .idle (by rw [h₄, ← hp.2, h₁])
  | claimed claimId hash =>
    simp only [commits_look_bind, commits_orThrow_bind, commits_throwIf_bind, commits_fromExcept_bind] at hp
    obtain ⟨cart, hfound, hopen, -, -, -, -, _, -, hnone, scheduled, -, hp⟩ := hp
    rw [commits_bind] at hp
    obtain ⟨a, s₂, hattempt, hp⟩ := hp
    rw [commits_throwIf_bind, commits_pure] at hp
    obtain ⟨-, -, rfl⟩ := hp
    obtain ⟨rows, hfor, h₂⟩ := createPaymentAttempt_core hattempt
    have hrows : s₁.attempts = s.attempts := congrArg Core.attempts h₁
    have hid : cart.id = cartId := Table.lookup_key hfound
    refine .attempts (.prepare tenant cartId request key recordId attemptId cart _ a rows hq hfound
      (fun hc => hopen (.inr hc)) ?_ ⟨hid, rfl⟩ (hrows ▸ hfor) rfl) (by rw [h₄, h₂, h₁])
    rw [← hid]
    simpa using hnone

theorem attachSession_effect {i : Nat} {preference : Preference}
    (hq : q.action = .attachSession i preference)
    (h : Commits (endSession i fun session => PaymentSessionService.attach session preference) v s u s') :
    Effect q v s s'.core := by
  simp only [endSession, PaymentSessionService.attach, commits_bind, commits_current, commits_orThrow,
    commits_pure, commits_write] at h
  obtain ⟨_, _, ⟨hs, rfl⟩, session, _, ⟨rfl, rfl⟩, _, _, ⟨_, s₁, hattach, _, s₂, hcomplete, -, rfl⟩, rfl⟩ := h
  refine .attempts (.attach i preference session hq hs) ?_
  rw [← attachPreference_core hattach, ← keeps_onIdempotency _ _ _ _ _ hcomplete]; rfl

theorem giveUpSession_effect {i : Nat}
    (h : Commits (endSession i PaymentSessionService.giveUp) v s u s') : Effect q v s s'.core := by
  simp only [endSession, PaymentSessionService.giveUp, commits_bind, commits_current, commits_orThrow,
    commits_write] at h
  obtain ⟨_, _, ⟨-, rfl⟩, session, _, ⟨-, rfl⟩, _, _, hfail, rfl⟩ := h
  have h₁ := keeps_onIdempotency _ _ _ _ _ hfail
  exact .idle h₁

theorem kioskSession_effect {request : KioskPaymentSessionRequest} {key : String}
    {recordId cartId attemptId : Id} {preference : Except AppError Preference}
    {response : KioskPaymentSessionResponse}
    (hq : q.action = .kioskSession request key recordId cartId attemptId preference)
    (h : Commits (KioskPaymentService.createSession request key recordId cartId attemptId preference
      q.draw.now) v s response s') : Effect q v s s'.core := by
  rw [KioskPaymentService.createSession, commits_look_bind, commits_orThrow_bind] at h
  obtain ⟨account, -, h⟩ := h
  rw [commits_bind] at h
  obtain ⟨claim, s₁, hclaim, h⟩ := h
  have h₁ := keeps_claim _ _ _ _ _ _ _ _ _ _ hclaim
  cases claim with
  | replay status body =>
    dsimp only at h
    split at h
    · rw [commits_pure] at h
      exact .idle (by rw [← h.2, h₁])
    · exact (commits_throw.1 h).elim
  | claimed claimId hash =>
    simp only [commits_look_bind, commits_orThrow_bind, commits_fromExcept_bind] at h
    obtain ⟨locationId, -, lines, hlines, price, hprice, h⟩ := h
    rw [commits_bind] at h
    obtain ⟨cart, s₂, hcart, h⟩ := h
    rw [commits_bind] at h
    obtain ⟨a, s₃, hattempt, h⟩ := h
    rw [commits_throwIf_bind, commits_fromExcept_bind] at h
    obtain ⟨-, issued, -, h⟩ := h
    rw [commits_bind] at h
    obtain ⟨_, s₄, hattach, h⟩ := h
    rw [commits_bind] at h
    obtain ⟨_, s₅, hcomplete, h⟩ := h
    rw [commits_pure] at h
    obtain ⟨-, rfl⟩ := h
    obtain ⟨hrow, hid, h₂⟩ := create_core hcart
    obtain ⟨rows, hfor, h₃⟩ := createPaymentAttempt_core hattempt
    have hcarts : s₁.carts = s.carts := congrArg Core.carts h₁
    have hrows : s₂.attempts = s.attempts :=
      (congrArg Core.attempts h₂).trans (congrArg Core.attempts h₁)
    rw [hcarts] at hid h₂
    rw [hrows] at hfor
    have h₅ : s₅.core = { s.core with
        carts := s.carts ++ [cart],
        attempts := preferredAt a.id account.id issued.preferenceId rows } := by
      rw [keeps_onIdempotency _ _ _ _ _ hcomplete, attachPreference_core hattach,
        show s₃.attempts = rows from congrArg Core.attempts h₃, h₃, h₂, h₁]
    obtain ⟨hcoupon, hknown, hadds⟩ := (kioskPrice_prices hprice).rowOf
      (forall_of_mapM (P := fun l : NewCartLine × Option Id => l.1.Priced) hlines kioskLine_priced) hrow
    rw [h₅]
    refine .kiosk cart request key recordId cartId attemptId preference _ _ _ a rows hq hid ?_
      ⟨?_, ?_⟩ hfor hcoupon hknown hadds
    · rw [hrow]; rfl
    · rfl
    · rfl

theorem kioskCancel_effect {attemptId : Id} {key : String} {recordId : Id} {cancelledAt : Instant}
    (hq : q.action = .kioskCancel attemptId key recordId)
    (h : Commits (KioskPaymentService.cancelAttempt attemptId key recordId q.draw.now) v s cancelledAt
      s') : Effect q v s s'.core := by
  simp only [KioskPaymentService.cancelAttempt, commits_bind] at h
  obtain ⟨claim, s₁, hclaim, h⟩ := h
  have h₁ := keeps_claim _ _ _ _ _ _ _ _ _ _ hclaim
  cases claim with
  | replay status body =>
    dsimp only at h
    split at h
    · rw [commits_pure] at h
      exact .idle (by rw [← h.2, h₁])
    · exact (commits_throw.1 h).elim
  | claimed claimId hash =>
    simp only [commits_bind, commits_look, commits_orThrow, commits_runIf, commits_pure] at h
    obtain ⟨_, _, ⟨hfound, rfl⟩, attempt, _, ⟨rfl, rfl⟩, _, s₂, hcancel, _, s₃, hcomplete, -, rfl⟩ := h
    have h₃ := keeps_onIdempotency _ _ _ _ _ hcomplete
    have hid : attempt.id = attemptId := Table.lookup_key hfound
    subst hid
    rcases hcancel with ⟨hc, hcancel⟩ | ⟨-, rfl⟩
    · have hrows : s₁.attempts = s.attempts := congrArg Core.attempts h₁
      refine .attempts (.cancel attempt key recordId hq hfound hc) ?_
      rw [h₃, updateAttempt_core hcancel, hrows, h₁]
    · exact .idle (h₃.trans h₁)

/-! ## Confirmations -/

/-- A confirmation that sells the cart of the row it has. -/
theorem Effect.confirm {attempt updated : PaymentAttempt} {rows : List PaymentAttempt} {cart : Cart}
    {approvedAt : Instant} {order : Order} {s₁ s₂ : Db}
    (h : Approval q v s attempt (some updated) rows)
    (hcart : Table.lookup Cart.id updated.cartId v.carts = some cart) (hopen : cart.status ≠ .converted)
    (hkey : Table.lookup Order.idempotencyKey ("payment-attempt:" ++ updated.id) v.orders = none)
    (hs₁ : s₁.core = { s.core with attempts := rows })
    (hins : Commits (OrderRepository.insertSnapshot (Webhook.paidSnapshot cart updated approvedAt) q.draw)
      v s₁ order s₂) (hs' : s'.core = s₂.core) : Effect q v s s'.core := by
  refine Effect.snapshot none none (.confirmed attempt updated rows approvedAt h hcart rfl) hkey hopen
    (by simp) ?_ hins (by simp) ?_
  · rw [hs₁]; simp [Db.core]
  · rw [hs', book_none]

theorem Effect.approvedOnly {attempt : PaymentAttempt} {row : Option PaymentAttempt}
    {rows : List PaymentAttempt} (h : Approval q v s attempt row rows)
    (hu : ∀ a ∈ row, Unsold v a ∨ ∃ o ∈ v.orders, o.paymentAttemptId = some attempt.id)
    (hs' : s'.core = { s.core with attempts := rows }) : Effect q v s s'.core :=
  hs' ▸ .approved attempt row rows h hu

theorem orderOfApproved_effect {attempt updated : PaymentAttempt} {rows : List PaymentAttempt}
    {event : ReceivedMercadoPagoWebhook} {target : Option Order} {s₁ s₂ : Db}
    (ha : Approval q v s attempt (some updated) rows) (hs₁ : s₁.core = { s.core with attempts := rows })
    (h : Commits (Webhook.orderOfApproved updated event q.draw) v s₁ target s₂)
    (hs' : s'.core = s₂.core) : Effect q v s s'.core := by
  simp only [Webhook.orderOfApproved, commits_bind, commits_look] at h
  obtain ⟨found, _, ⟨hfound, rfl⟩, h⟩ := h
  cases hf : found.filter (·.status ≠ .converted) with
  | none =>
    simp only [hf, commits_look] at h
    obtain ⟨-, rfl⟩ := h
    refine .approvedOnly ha (fun a haa => .inl (.inl fun cart hcart => ?_)) (hs'.trans hs₁)
    cases haa
    rw [show found = some cart from hfound.symm.trans hcart] at hf
    simpa using hf
  | some cart =>
    obtain ⟨rfl, hopen⟩ := Option.filter_eq_some_iff.1 hf
    have hcart : Table.lookup Cart.id updated.cartId v.carts = some cart := hfound
    simp only [hf, commits_bind, commits_runIf, commits_pure] at h
    obtain ⟨⟨order, created⟩, s₃, hcreate, _, _, hrest, -, rfl⟩ := h
    rcases createFromCartSnapshotWith_core (readCart_keeps _) hcreate with
      ⟨rfl, hkey, rfl⟩ | ⟨rfl, hkey, -, hins⟩
    · obtain ⟨⟨⟩, -⟩ | ⟨-, rfl⟩ := hrest
      refine .approvedOnly ha (fun a haa => ?_) (hs'.trans hs₁)
      cases haa
      exact .inl (.inr ⟨_, hkey⟩)
    · refine .confirm ha hcart (by simpa using hopen) hkey hs₁ hins (hs'.trans ?_)
      rcases hrest with ⟨-, _, _, ha, _, _, ho, ht⟩ | ⟨hf, -⟩
      · rw [keeps_enqueueOrderTicket _ _ _ _ _ _ ht, keeps_appendOutboxEvent _ _ _ _ _ _ _ _ ho,
          keeps_appendAuditEvent _ _ _ _ _ _ _ _ ha]
      · exact (hf rfl).elim

theorem record_effect {attempt : PaymentAttempt} {event : ReceivedMercadoPagoWebhook}
    {payment : MercadoPagoPayment} {s₁ : Db} (hr : Reports q v s attempt payment)
    (hs₁ : s₁.core = s.core) (h : Commits (Webhook.record attempt event payment q.draw) v s₁ u s') :
    Effect q v s s'.core := by
  simp only [Webhook.record, commits_bind, commits_current] at h
  obtain ⟨_, s₂, hroute, _, s₃, hupdate, updated, _, ⟨hu, rfl⟩, _, s₄, hout, h⟩ := h
  have h₂ : s₂.core = s.core := (keeps_insertRoute _ _ _ _ _ hroute).trans hs₁
  have h₃ : s₃.core = { s.core with
      attempts := updateAttempt attempt.id (Webhook.reported payment q.draw.now) s.attempts } := by
    rw [updateAttempt_core hupdate, show s₂.attempts = s.attempts from congrArg Core.attempts h₂, h₂]
  have h₄ := (keeps_appendOutboxEvent _ _ _ _ _ _ _ _ hout).trans h₃
  rcases commits_runIf.1 h with ⟨hp, h⟩ | ⟨hp, rfl⟩
  · have ha : Approval q v s attempt _ _ := .webhook payment _ hr hp rfl
    have hu : Table.lookup PaymentAttempt.id attempt.id
        (updateAttempt attempt.id (Webhook.reported payment q.draw.now) s.attempts) = updated := by
      rw [← hu, OrderRepository.loadPaymentAttempt, show s₃.attempts = _ from congrArg Core.attempts h₃]
    rw [hu] at ha
    rcases commits_forSome.1 h with ⟨a, rfl, h⟩ | ⟨rfl, rfl⟩
    · obtain ⟨target, s₅, htarget, hfin⟩ := commits_bind.1 h
      refine orderOfApproved_effect ha h₄ htarget ?_
      rcases commits_forSome.1 hfin with ⟨o, -, hfin⟩ | ⟨-, rfl⟩
      · exact keeps_upsertFinancialRecord _ _ _ _ _ hfin
      · rfl
    · exact .approvedOnly ha (by simp) h₄
  · exact .attempts (.report attempt payment hr hp) h₄

theorem webhook_effect {event : ReceivedMercadoPagoWebhook} {payment : MercadoPagoPayment} {eventId : Id}
    {outcome : Webhook.Outcome} (hq : q.action = .webhook event payment eventId)
    (h : Commits (Webhook.receive event payment eventId q.draw) v s outcome s') :
    Effect q v s s'.core := by
  simp only [Webhook.receive, commits_bind, commits_look, commits_orThrow, commits_throwIf] at h
  obtain ⟨_, _, ⟨haccount, rfl⟩, account, _, ⟨rfl, rfl⟩, _, _, ⟨-, rfl⟩, attemptId, _, ⟨hid, rfl⟩, found, _,
    ⟨hfound, rfl⟩, isNew, s₁, hpersist, h⟩ := h
  have h₁ := keeps_persistEvent _ _ _ _ _ _ _ hpersist
  cases found with
  | none =>
    rw [commits_pure] at h
    exact .idle (by rw [← h.2, h₁])
  | some attempt =>
    simp only [commits_bind, commits_runIf, commits_pure] at h
    obtain ⟨_, _, ⟨⟨hnew, hord⟩, h⟩ | ⟨-, rfl⟩, -, rfl⟩ := h
    · refine record_effect ⟨⟨event, eventId, hq, ?_, ?_⟩, ?_⟩ h₁ h
      · rw [Webhook.routed, haccount, Option.bind_some, hid, hfound]
      · simp only [Webhook.persistEvent, commits_bind, commits_current, commits_pure] at hpersist
        obtain ⟨_, _, ⟨rfl, rfl⟩, _, _, -, rfl, -⟩ := hpersist
        simpa [Webhook.known] using hnew
      · simpa using hord
    · exact .idle h₁

theorem updatePaymentStatus_core {orderId : Id} {status : PaymentStatus} {now : Instant}
    {returned : Option Order}
    (h : Commits (OrderRepository.updatePaymentStatus orderId status now) v s returned s') :
    returned = (s.orders.find? (·.id = orderId)).map (bump (settledAs status) now) ∧
      s'.core = revise (·.id = orderId) (settledAs status) now s.core :=
  updateReturning_core h

/-- An update of rows that are not there is none. -/
theorem revise_eq_self {p : Order → Bool} {f : Order → Order} {now : Instant} {c : Core}
    (h : c.orders.find? p = none) : revise p f now c = c := by
  rw [revise, Table.updateWhere_eq_self fun o ho => by simpa using List.find?_eq_none.1 h o ho]

theorem createOrder_effect {attempt : PaymentAttempt} {rows : List PaymentAttempt}
    {approvedAt : Instant} {id : Option Id} {s₁ : Db} (ha : Approval q v s attempt (some attempt) rows)
    (hs₁ : s₁.core = { s.core with attempts := rows })
    (h : Commits (Reconciliation.createOrder attempt approvedAt q.draw) v s₁ id s') :
    Effect q v s s'.core := by
  simp only [Reconciliation.createOrder, commits_bind, commits_look] at h
  obtain ⟨found, _, ⟨hfound, rfl⟩, h⟩ := h
  cases hf : found.filter (·.status ≠ .converted) with
  | none =>
    simp only [hf, commits_pure] at h
    obtain ⟨-, rfl⟩ := h
    refine .approvedOnly ha (fun a haa => .inl (.inl fun cart hcart => ?_)) hs₁
    cases haa
    rw [show found = some cart from hfound.symm.trans hcart] at hf
    simpa using hf
  | some cart =>
    obtain ⟨rfl, hopen⟩ := Option.filter_eq_some_iff.1 hf
    have hcart : Table.lookup Cart.id attempt.cartId v.carts = some cart := hfound
    simp only [hf, commits_bind, commits_pure] at h
    obtain ⟨⟨order, created⟩, s₂, hcreate, _, s₃, haudit, _, s₄, hout, _, s₅, hout', -, rfl⟩ := h
    have h₅ : s₅.core = s₂.core := by
      rw [keeps_appendOutboxEvent _ _ _ _ _ _ _ _ hout', keeps_appendOutboxEvent _ _ _ _ _ _ _ _ hout,
        keeps_appendAuditEvent _ _ _ _ _ _ _ _ haudit]
    rcases createFromCartSnapshotWith_core (readCart_keeps _) hcreate with
      ⟨rfl, hkey, rfl⟩ | ⟨rfl, hkey, -, hins⟩
    · refine .approvedOnly ha (fun a haa => ?_) (h₅.trans hs₁)
      cases haa
      exact .inl (.inr ⟨_, hkey⟩)
    · exact .confirm ha hcart (by simpa using hopen) hkey hs₁ hins h₅

theorem confirm_effect {attempt : PaymentAttempt} {payment : MercadoPagoPayment} {id : Option Id}
    (hr : Reconciles q v attempt payment) (hp : payment.status = .approved)
    (h : Commits (Reconciliation.confirm attempt (OrderRepository.findByPaymentAttempt attempt.id v)
      (payment.dateApproved.getD q.draw.now) q.draw) v s id s') : Effect q v s s'.core := by
  simp only [Reconciliation.confirm, commits_bind] at h
  obtain ⟨_, s₁, hupdate, h⟩ := h
  have h₁ := updateAttempt_core hupdate
  have ha : Approval q v s attempt _ _ := .reconcile payment _ hr hp rfl
  cases hex : OrderRepository.findByPaymentAttempt attempt.id v with
  | none =>
    simp only [hex] at h
    exact createOrder_effect ha h₁ h
  | some order =>
    have hv : order ∈ v.orders := List.mem_of_find?_eq_some hex
    have hoa : order.paymentAttemptId = some attempt.id := by simpa using List.find?_some hex
    simp only [hex, commits_bind, commits_runIf, commits_pure] at h
    obtain ⟨_, _, ⟨hpaid, returned, s₂, hup, hout⟩ | ⟨-, rfl⟩, -, rfl⟩ := h
    · obtain ⟨-, h₂⟩ := updatePaymentStatus_core hup
      rw [h₁] at h₂
      have h₃ := (keeps_appendOutboxEvent _ _ _ _ _ _ _ _ hout).trans h₂
      cases hrow : s.orders.find? (·.id = order.id) with
      | none => exact .approvedOnly ha (fun _ _ => .inr ⟨order, hv, hoa⟩) (h₃.trans (revise_eq_self hrow))
      | some row =>
        have he : Effect q v s _ := .revised order row _ _ none false _
          (.confirm attempt _ ha hoa hpaid payment hr hp hex) hv hrow (by simp)
        rw [h₃]
        simpa only [book_none, release_false] using he
    · exact .approvedOnly ha (fun _ _ => .inr ⟨order, hv, hoa⟩) h₁

theorem refuse_effect {attempt : PaymentAttempt} {payment : MercadoPagoPayment}
    (hr : Reconciles q v attempt payment) (hp : payment.status = .rejected ∨ payment.status = .cancelled)
    (h : Commits (Reconciliation.refuse attempt (OrderRepository.findByPaymentAttempt attempt.id v) q.draw)
      v s u s') : Effect q v s s'.core := by
  simp only [Reconciliation.refuse, commits_bind] at h
  obtain ⟨_, s₁, hupdate, h⟩ := h
  have h₁ := updateAttempt_core hupdate
  rcases commits_forSome.1 h with ⟨order, ho, h⟩ | ⟨-, rfl⟩
  · obtain ⟨hex, hst⟩ := Option.filter_eq_some_iff.1 ho
    have hv : order ∈ v.orders := List.mem_of_find?_eq_some hex
    have hoa : order.paymentAttemptId = some attempt.id := by simpa using List.find?_some hex
    simp only [commits_bind, commits_pure] at h
    obtain ⟨returned, s₂, hup, -, rfl⟩ := h
    obtain ⟨-, h₂⟩ := updatePaymentStatus_core hup
    rw [h₁] at h₂
    cases hrow : s.orders.find? (·.id = order.id) with
    | none => exact .attempts (.reject attempt payment hr hp) (h₂.trans (revise_eq_self hrow))
    | some row =>
      have he : Effect q v s _ := .revised order row _ _ none false _
        (.refuse attempt payment hr hp hoa (by simpa using hst) hex) hv hrow (by simp)
      rw [h₂]
      simpa only [book_none, release_false] using he
  · exact .attempts (.reject attempt payment hr hp) h₁

theorem reconcile_effect {attemptId : Id} {lookup : Option MercadoPagoPayment}
    {result : Reconciliation.Result} (hq : q.action = .reconcile attemptId lookup)
    (h : Commits (Reconciliation.reconcilePaymentAttempt attemptId lookup q.draw) v s result s') :
    Effect q v s s'.core := by
  simp only [Reconciliation.reconcilePaymentAttempt, commits_bind, commits_look, commits_orThrow] at h
  obtain ⟨_, _, ⟨hfound, rfl⟩, attempt, _, ⟨rfl, rfl⟩, h⟩ := h
  have hid : attempt.id = attemptId := Table.lookup_key hfound
  subst hid
  rcases commits_ite.1 h with ⟨-, h⟩ | ⟨hs, h⟩
  · rw [commits_pure] at h; exact .idle (by rw [h.2])
  rcases commits_ite.1 h with ⟨-, h⟩ | ⟨hasked, h⟩
  · rw [commits_pure] at h; exact .idle (by rw [h.2])
  simp only [commits_bind, commits_look, commits_orThrow, commits_throwIf] at h
  obtain ⟨_, _, ⟨-, rfl⟩, account, _, ⟨-, rfl⟩, _, _, ⟨-, rfl⟩, h⟩ := h
  cases lookup with
  | none => rw [commits_pure] at h; exact .idle (by rw [h.2])
  | some payment =>
    have hr : Reconciles q v attempt payment := ⟨hq, hfound, Bool.eq_false_iff.2 hs, hasked⟩
    simp only [commits_bind, commits_look] at h
    obtain ⟨existing, _, ⟨hexisting, rfl⟩, h⟩ := h
    subst hexisting
    rcases commits_ite.1 h with ⟨hp, h⟩ | ⟨hp, h⟩
    · simp only [commits_bind, commits_pure] at h
      obtain ⟨id, _, hc, -, rfl⟩ := h
      exact confirm_effect hr hp hc
    rcases commits_ite.1 h with ⟨hp', h⟩ | ⟨hp', h⟩
    · simp only [commits_bind, commits_pure] at h
      obtain ⟨_, _, hc, -, rfl⟩ := h
      exact refuse_effect hr hp' hc
    · simp only [commits_bind, commits_runIf, commits_pure] at h
      obtain ⟨_, _, ⟨hs, hc⟩ | ⟨-, rfl⟩, -, rfl⟩ := h
      · exact .attempts (.doubt attempt payment hr hp hs (not_or.1 hp')) (updateAttempt_core hc)
      · exact .idle rfl

/-! ## Operations on orders -/

theorem orStale_core {updated : Option Order} {o : Order} (h : Commits (orStale updated) v s o s') :
    updated = some o ∧ s = s' := commits_orThrow.1 h

/-- An update on a version that matched a row. -/
theorem updated_core {p : Order → Bool} {f : Order → Order} {now : Instant} {returned : Option Order}
    {updated : Order} {s₁ : Db} (h : Commits (OrderRepository.updateReturning p f now) v s returned s₁)
    (hu : returned = some updated) :
    (∃ row, s.orders.find? p = some row ∧ updated = bump f now row) ∧
      s₁.core = revise p f now s.core := by
  obtain ⟨hr, hcore⟩ := updateReturning_core h
  rw [hu] at hr
  obtain ⟨row, hrow, hb⟩ := Option.map_eq_some_iff.1 hr.symm
  exact ⟨⟨row, hrow, hb.symm⟩, hcore⟩

theorem announceCancellation_core {order updated : Order} {reason : String}
    (h : Commits (announceCancellation order updated reason) v s u s') :
    s'.core = release true order s.core := by
  simp only [announceCancellation, commits_bind] at h
  obtain ⟨_, s₁, hrelease, _, s₂, hevent, _, s₃, haudit, hout⟩ := h
  rw [keeps_appendOutboxEvent _ _ _ _ _ _ _ _ hout, keeps_appendAuditEvent _ _ _ _ _ _ _ _ haudit,
    keeps_appendEvent _ _ _ _ _ _ _ _ _ hevent, releaseCoupon_core hrelease]

theorem transition_update {order : Order} {next : FulfillmentStatus} {p : Order → Bool} {now : Instant}
    {c : Core} : revise p (fun o => { o with
      fulfillmentStatus := next
      deliveredAt := if next = .delivered then some now else o.deliveredAt
      paymentStatus := Option.getD (if TransitionOrderService.refundsCash order next then
        some .refunded else none) o.paymentStatus }) now c =
      revise p (transitioned next (TransitionOrderService.refundsCash order next) now) now c := by
  congr 1
  funext o
  unfold transitioned
  split <;> simp_all

theorem transition_effect {orderId : Id} {expectedVersion : Nat}
    {request : TransitionOrderService.Request} {order : Order}
    (hq : q.action = .transition orderId expectedVersion request)
    (h : Commits (TransitionOrderService.transition orderId expectedVersion request q.draw) v s order s') :
    Effect q v s s'.core := by
  simp only [TransitionOrderService.transition, commits_bind, commits_look, commits_orThrow] at h
  obtain ⟨_, _, ⟨hfound, rfl⟩, order, _, ⟨rfl, rfl⟩, h⟩ := h
  have hid : order.id = orderId := Table.lookup_key hfound
  have hv : order ∈ v.orders := Table.lookup_mem hfound
  subst hid
  cases hg : TransitionOrderService.obstacle order request with
  | some e => rw [hg] at h; exact (commits_throw.1 h).elim
  | none =>
    rw [hg] at h
    rcases commits_ite.1 h with ⟨-, h⟩ | ⟨hne, h⟩
    · rw [commits_pure] at h; exact .idle (by rw [h.2])
    simp only [TransitionOrderService.apply, OrderRepository.transition, commits_bind, commits_runIf,
      commits_look, commits_pure] at h
    obtain ⟨returned, s₁, hup, updated, _, hst, _, s₂, hcash, _, s₃, hcoupon, _, s₄, hevent, _, s₅, haudit, _, s₆,
      hout, _, s₇, hnotify, -, rfl⟩ := h
    obtain ⟨hret, rfl⟩ := orStale_core hst
    obtain ⟨⟨row, hrow, -⟩, h₁⟩ := updated_core hup hret
    have h₇ : s₇.core = s₃.core := by
      rw [keeps_notifyReady _ _ _ _ _ _ hnotify, keeps_appendOutboxEvent _ _ _ _ _ _ _ _ hout,
        keeps_appendAuditEvent _ _ _ _ _ _ _ _ haudit, keeps_appendEvent _ _ _ _ _ _ _ _ _ hevent]
    have h₃ : s₃.core = release (request.fulfillmentStatus = .cancelled) order s₂.core := by
      rcases hcoupon with ⟨hc, hcoupon⟩ | ⟨hc, rfl⟩
      · rw [releaseCoupon_core hcoupon, decide_eq_true hc]
      · rw [decide_eq_false hc, release_false]
    have hm : s₁.movements = s.movements := congrArg Core.movements h₁
    have h₂ : (∀ m ∈ transitionMovement order request (openShiftAt order.locationId v) q.draw,
          Bookable m s.movements) ∧
        s₂.core = book (transitionMovement order request (openShiftAt order.locationId v) q.draw)
          s₁.core := by
      rcases hcash with ⟨hc, _, _, ⟨rfl, rfl⟩, hcash⟩ | ⟨hc, rfl⟩
      · obtain ⟨hb, h₂⟩ := recordMovement_core hcash
        rw [transitionMovement, if_pos hc]
        exact ⟨fun m hm' => by cases hm'; exact hm ▸ hb, h₂⟩
      · rw [transitionMovement, if_neg hc]
        exact ⟨by simp, by rw [book_none]⟩
    rw [h₇, h₃, h₂.2, h₁, transition_update]
    exact .revised order row _ _ _ _ _ (.transition expectedVersion request hq hg hne) hv hrow h₂.1

/-- The writes of an accepted collection. -/
theorem collectApply_core {order : Order} {recordId : Id} {request : CollectCashRequest} {draw : Draw}
    {response : CollectCashResponse} (h : Commits (CollectCashService.apply order recordId request draw) v s response s') :
    (∃ row, s.orders.find? (OrderRepository.atVersion order.id order.version) = some row) ∧
      Bookable (depositOf order (openShiftAt order.locationId v) draw) s.movements ∧
      s'.core = book (some (depositOf order (openShiftAt order.locationId v) draw))
        (revise (OrderRepository.atVersion order.id order.version) CollectCashService.pay draw.now s.core) := by
  rw [CollectCashService.apply, commits_look_bind] at h
  obtain ⟨returned, s₂, hup, h⟩ := commits_bind.1 h
  obtain ⟨updated, _, hst, h⟩ := commits_bind.1 h
  obtain ⟨hret, rfl⟩ := orStale_core hst
  obtain ⟨⟨row, hrow, -⟩, h₂⟩ := updated_core hup hret
  obtain ⟨_, s₃, hbook, h⟩ := commits_bind.1 h
  obtain ⟨hb, h₃⟩ := recordMovement_core hbook
  obtain ⟨_, s₄, htick, h⟩ := commits_bind.1 h
  obtain ⟨_, s₅, hevent, h⟩ := commits_bind.1 h
  obtain ⟨_, s₆, haudit, h⟩ := commits_bind.1 h
  obtain ⟨_, s₇, hout, h⟩ := commits_bind.1 h
  obtain ⟨_, s₈, hout', h⟩ := commits_bind.1 h
  obtain ⟨_, s₉, hcomplete, h⟩ := commits_bind.1 h
  obtain ⟨-, rfl⟩ := commits_pure.1 h
  have hm : s₂.movements = s.movements := congrArg Core.movements h₂
  refine ⟨⟨row, hrow⟩, hm ▸ hb, ?_⟩
  rw [keeps_onIdempotency _ _ _ _ _ hcomplete, keeps_appendOutboxEvent _ _ _ _ _ _ _ _ hout',
    keeps_appendOutboxEvent _ _ _ _ _ _ _ _ hout, keeps_appendAuditEvent _ _ _ _ _ _ _ _ haudit,
    keeps_appendEvent _ _ _ _ _ _ _ _ _ hevent, keeps_enqueueOrderTicket _ _ _ _ _ _ htick, h₃, h₂]
  rfl

theorem collect_effect {actor : Actor} {orderId : Id} {key : String} {request : CollectCashRequest}
    {recordId : Id} {response : CollectCashResponse}
    (hq : q.action = .collect actor orderId key request recordId)
    (h : Commits (CollectCashService.collect actor orderId key request recordId q.draw) v s response s') :
    Effect q v s s'.core := by
  simp only [CollectCashService.collect, commits_bind, commits_throwIf] at h
  obtain ⟨_, _, ⟨-, rfl⟩, claim, s₁, hclaim, h⟩ := h
  have h₁ := keeps_claim _ _ _ _ _ _ _ _ _ _ hclaim
  cases claim with
  | replay status body =>
    dsimp only at h
    split at h
    · rw [commits_pure] at h
      exact .idle (by rw [← h.2, h₁])
    · exact (commits_throw.1 h).elim
  | claimed claimId hash =>
    simp only [commits_bind, commits_look, commits_orThrow] at h
    obtain ⟨_, _, ⟨hfound, rfl⟩, order, _, ⟨rfl, rfl⟩, h⟩ := h
    have hid : order.id = orderId := Table.lookup_key hfound
    have hv : order ∈ v.orders := Table.lookup_mem hfound
    subst hid
    rcases commits_ite.1 h with ⟨-, h⟩ | ⟨hpaid, h⟩
    · simp only [commits_bind, commits_pure] at h
      obtain ⟨_, _, hcomplete, -, rfl⟩ := h
      exact .idle ((keeps_onIdempotency _ _ _ _ _ hcomplete).trans h₁)
    split at h
    · exact (commits_throw.1 h).elim
    · exact (commits_throw.1 h).elim
    · rename_i hg _
      obtain ⟨⟨row, hrow⟩, hb, hcore⟩ := collectApply_core h
      have horders : s₁.orders = s.orders := congrArg Core.orders h₁
      have hm : s₁.movements = s.movements := congrArg Core.movements h₁
      have he : Effect q v s _ := .revised order row _ _ _ _ _ (.collect actor key request recordId hq hpaid hg)
        hv (horders ▸ hrow) (fun m hm' => by cases hm'; exact hm ▸ hb)
      rw [hcore, h₁]
      rwa [release_false] at he

theorem refund_effect {actor : Actor} {orderId : Id} {key : String} {request : RefundCashRequest}
    {recordId : Id} {response : RefundCashResponse}
    (hq : q.action = .refund actor orderId key request recordId)
    (h : Commits (RefundCashService.refund actor orderId key request recordId q.draw) v s response s') :
    Effect q v s s'.core := by
  simp only [RefundCashService.refund, commits_bind, commits_throwIf] at h
  obtain ⟨_, _, ⟨-, rfl⟩, claim, s₁, hclaim, h⟩ := h
  have h₁ := keeps_claim _ _ _ _ _ _ _ _ _ _ hclaim
  cases claim with
  | replay status body =>
    dsimp only at h
    split at h
    · rw [commits_pure] at h
      exact .idle (by rw [← h.2, h₁])
    · exact (commits_throw.1 h).elim
  | claimed claimId hash =>
    simp only [commits_bind, commits_look, commits_orThrow] at h
    obtain ⟨_, _, ⟨hfound, rfl⟩, order, _, ⟨rfl, rfl⟩, h⟩ := h
    have hid : order.id = orderId := Table.lookup_key hfound
    have hv : order ∈ v.orders := Table.lookup_mem hfound
    subst hid
    rcases commits_ite.1 h with ⟨-, h⟩ | ⟨-, h⟩
    · simp only [commits_bind, commits_look, commits_pure] at h
      obtain ⟨_, _, ⟨-, rfl⟩, _, _, hcomplete, -, rfl⟩ := h
      exact .idle ((keeps_onIdempotency _ _ _ _ _ hcomplete).trans h₁)
    split at h
    · exact (commits_throw.1 h).elim
    · rename_i hg
      simp only [RefundCashService.apply, commits_bind, commits_look, commits_pure] at h
      obtain ⟨shift, _, ⟨rfl, rfl⟩, returned, s₂, hup, updated, _, hst, _, s₃, hbook, _, s₄, hrelease, _, s₅, hevent,
        _, s₆, haudit, _, s₇, hout, _, s₈, hcomplete, -, rfl⟩ := h
      obtain ⟨hret, rfl⟩ := orStale_core hst
      obtain ⟨⟨row, hrow, -⟩, h₂⟩ := updated_core hup hret
      obtain ⟨hb, h₃⟩ := recordMovement_core hbook
      have horders : s₁.orders = s.orders := congrArg Core.orders h₁
      have hm : s₂.movements = s.movements :=
        (congrArg Core.movements h₂).trans (congrArg Core.movements h₁)
      rw [keeps_onIdempotency _ _ _ _ _ hcomplete, keeps_appendOutboxEvent _ _ _ _ _ _ _ _ hout,
        keeps_appendAuditEvent _ _ _ _ _ _ _ _ haudit, keeps_appendEvent _ _ _ _ _ _ _ _ _ hevent,
        releaseCoupon_core hrelease, h₃, h₂, h₁]
      exact .revised order row _ _ _ _ _ (.refund actor key request recordId hq hg) hv (horders ▸ hrow)
        (fun m hm' => by cases hm'; exact hm ▸ hb)

theorem cancelUnpaid_effect {orderId : Id} {pickupPin : String} {order : Order}
    (hq : q.action = .cancelUnpaid orderId pickupPin)
    (h : Commits (CancelUnpaidOrderService.cancel orderId pickupPin q.draw) v s order s') :
    Effect q v s s'.core := by
  simp only [CancelUnpaidOrderService.cancel, commits_bind, commits_look, commits_orThrow] at h
  obtain ⟨_, _, ⟨hfound, rfl⟩, order, _, ⟨rfl, rfl⟩, h⟩ := h
  have hid : order.id = orderId := Table.lookup_key hfound
  have hv : order ∈ v.orders := Table.lookup_mem hfound
  subst hid
  rcases commits_ite.1 h with ⟨-, h⟩ | ⟨hne, h⟩
  · rw [commits_pure] at h; exact .idle (by rw [h.2])
  cases hg : CancelUnpaidOrderService.obstacle order pickupPin with
  | some e => rw [hg] at h; exact (commits_throw.1 h).elim
  | none =>
    rw [hg] at h
    simp only [commits_bind, commits_pure] at h
    obtain ⟨returned, s₁, hup, updated, _, hst, _, s₂, hann, -, rfl⟩ := h
    obtain ⟨hret, rfl⟩ := orStale_core hst
    obtain ⟨⟨row, hrow, -⟩, h₁⟩ := updated_core hup hret
    have he : Effect q v s _ :=
      .revised order row _ _ none _ _ (.cancel pickupPin hq hne hg) hv hrow (by simp)
    rw [announceCancellation_core hann, h₁]
    rwa [book_none] at he

/-- The job cancels the order that it has read if that has expired and has not moved since. -/
theorem expireRun_cases {orderId : Id} {draw : Draw} (h : Commits (ExpireUnpaidOrdersJob.run orderId draw) v s u s') :
    (∃ order row, OrderRepository.findById orderId v = some order ∧
      ExpireUnpaidOrdersJob.expires order draw.now = true ∧
      s.orders.find? (OrderRepository.atVersion order.id order.version) = some row ∧
      s'.core = release true order (revise (OrderRepository.atVersion order.id order.version)
        ExpireUnpaidOrdersJob.expireOrder draw.now s.core)) ∨
    ((∀ order, OrderRepository.findById orderId v = some order →
      ExpireUnpaidOrdersJob.expires order draw.now = true →
      s.orders.find? (OrderRepository.atVersion order.id order.version) = none) ∧ s'.core = s.core) := by
  rw [ExpireUnpaidOrdersJob.run, commits_look_bind] at h
  rcases commits_forSome.1 h with ⟨order, ho, hrun⟩ | ⟨hnone, rfl⟩
  · obtain ⟨hfound, hg⟩ := Option.filter_eq_some_iff.1 ho
    obtain ⟨returned, s₁, hup, hann⟩ := commits_bind.1 hrun
    rcases commits_forSome.1 hann with ⟨updated, hret, hann⟩ | ⟨hret, rfl⟩
    · obtain ⟨⟨row, hrow, -⟩, h₁⟩ := updated_core hup hret
      exact .inl ⟨order, row, hfound, hg, hrow, by rw [announceCancellation_core hann, h₁]⟩
    · obtain ⟨hr, h₁⟩ := updateReturning_core hup
      rw [hret] at hr
      have hno := Option.map_eq_none_iff.1 hr.symm
      refine .inr ⟨fun order' hfound' _ => ?_, h₁.trans (revise_eq_self hno)⟩
      cases hfound.symm.trans hfound'
      exact hno
  · refine .inr ⟨fun order hfound hg => ?_, rfl⟩
    rw [hfound, Option.filter_some, if_pos hg] at hnone
    cases hnone

theorem expire_effect {orderId : Id} (hq : q.action = .expire orderId)
    (h : Commits (ExpireUnpaidOrdersJob.run orderId q.draw) v s u s') : Effect q v s s'.core := by
  rcases expireRun_cases h with ⟨order, row, hfound, hg, hrow, hcore⟩ | ⟨-, hcore⟩
  · have hid : order.id = orderId := Table.lookup_key hfound
    have hv : order ∈ v.orders := Table.lookup_mem hfound
    subst hid
    have he : Effect q v s _ := .revised order row _ _ none _ _ (.expire hq hg) hv hrow (by simp)
    rw [hcore]
    rwa [book_none] at he
  · exact .idle hcore

/-! ## Shifts -/

theorem openShift_effect {userId : String} {balance : Cents} {locationId : Option Id}
    {notes : Option String} {id : Id} {shift : CashShift}
    (hq : q.action = .openShift userId balance locationId id)
    (h : Commits (CashShiftService.openShift userId balance locationId notes id q.draw.now) v s shift s') :
    Effect q v s s'.core := by
  simp only [CashShiftService.openShift, commits_bind, commits_look, commits_throwIf, commits_current,
    commits_write, commits_pure] at h
  obtain ⟨_, _, ⟨rfl, rfl⟩, _, _, ⟨hnone, rfl⟩, _, _, ⟨rfl, rfl⟩, _, _, ⟨hn, rfl⟩, _, _, rfl, rfl, rfl⟩ := h
  refine .openShift _ _ _ _ hq rfl rfl (fun x hx ho => hnone ?_) fun x hx he => hn ?_
  · exact List.any_eq_true.2 ⟨x, hx, by simpa using ho⟩
  · exact List.any_eq_true.2 ⟨x, hx, by simp [he]⟩

theorem closeShift_effect {shiftId : Id} {balance expected : Cents}
    (hq : q.action = .closeShift shiftId balance)
    (h : Commits (CashShiftService.close shiftId balance none q.draw.now) v s expected s') :
    Effect q v s s'.core := by
  simp only [CashShiftService.close, commits_bind, commits_look, commits_orThrow, commits_throwIf,
    commits_write, commits_pure] at h
  obtain ⟨_, _, ⟨hfound, rfl⟩, shift, _, ⟨rfl, rfl⟩, _, _, ⟨hopen, rfl⟩, _, _, ⟨rfl, rfl⟩, _, _, rfl, -, rfl⟩ := h
  have hid : shift.id = shiftId := Table.lookup_key hfound
  subst hid
  exact .closeShift shift balance hq hfound (not_not.1 hopen)

/-! ## All requests -/

theorem commits_effect {α : Type} {x : DbTx α} {a : Answer} (h : Commits (effect x) v s a s') :
    ∃ b, Commits x v s b s' := by
  simp only [effect, commits_bind, commits_pure] at h
  obtain ⟨b, _, h, -, rfl⟩ := h
  exact ⟨b, h⟩

theorem exec_effect {a : Answer} (h : exec q v s = some (a, s')) : Effect q v s s'.core := by
  have h := exec_eq.1 h
  cases hq : q.action with
  | configure c =>
    rw [hq] at h
    obtain ⟨_, h⟩ := commits_effect h
    rw [configure, commits_write] at h
    exact .idle (by rw [← h]; rfl)
  | createDiscount d => rw [hq] at h; obtain ⟨_, h⟩ := commits_effect h; exact createDiscount_effect h
  | updateDiscount => rw [hq] at h; obtain ⟨_, h⟩ := commits_effect h; exact updateDiscount_effect h
  | deleteDiscount => rw [hq] at h; obtain ⟨_, h⟩ := commits_effect h; exact deleteDiscount_effect h
  | createCart => rw [hq] at h; obtain ⟨_, h⟩ := commits_effect h; exact createCart_effect h
  | getCart => rw [hq] at h; obtain ⟨_, h⟩ := commits_effect h; exact .repriced (getCart_core hq h)
  | applyDiscount => rw [hq] at h; obtain ⟨_, h⟩ := commits_effect h; exact .repriced (applyDiscount_core hq h)
  | removeDiscount => rw [hq] at h; obtain ⟨_, h⟩ := commits_effect h; exact .repriced (removeDiscount_core hq h)
  | createCashOrder =>
    rw [hq] at h
    obtain ⟨_, _, h, h'⟩ := commits_bind.1 h
    rw [commits_pure] at h'
    exact createCashOrder_effect hq (h'.2 ▸ h)
  | prepareSession => rw [hq] at h; obtain ⟨_, h⟩ := commits_effect h; exact prepareSession_effect hq h
  | attachSession => rw [hq] at h; obtain ⟨_, h⟩ := commits_effect h; exact attachSession_effect hq h
  | giveUpSession => rw [hq] at h; obtain ⟨_, h⟩ := commits_effect h; exact giveUpSession_effect h
  | kioskSession => rw [hq] at h; obtain ⟨_, h⟩ := commits_effect h; exact kioskSession_effect hq h
  | kioskCancel => rw [hq] at h; obtain ⟨_, h⟩ := commits_effect h; exact kioskCancel_effect hq h
  | webhook => rw [hq] at h; obtain ⟨_, h⟩ := commits_effect h; exact webhook_effect hq h
  | reconcile => rw [hq] at h; obtain ⟨_, h⟩ := commits_effect h; exact reconcile_effect hq h
  | createDirect =>
    rw [hq] at h
    obtain ⟨_, _, h, h'⟩ := commits_bind.1 h
    rw [commits_pure] at h'
    exact createDirect_effect hq (h'.2 ▸ h)
  | createDirectFromItems =>
    rw [hq] at h
    obtain ⟨_, _, h, h'⟩ := commits_bind.1 h
    rw [commits_pure] at h'
    exact createDirectFromItems_effect hq (h'.2 ▸ h)
  | createPaid =>
    rw [hq] at h
    obtain ⟨_, _, h, h'⟩ := commits_bind.1 h
    rw [commits_pure] at h'
    exact createPaid_effect hq (h'.2 ▸ h)
  | transition => rw [hq] at h; obtain ⟨_, h⟩ := commits_effect h; exact transition_effect hq h
  | collect => rw [hq] at h; obtain ⟨_, h⟩ := commits_effect h; exact collect_effect hq h
  | refund => rw [hq] at h; obtain ⟨_, h⟩ := commits_effect h; exact refund_effect hq h
  | cancelUnpaid => rw [hq] at h; obtain ⟨_, h⟩ := commits_effect h; exact cancelUnpaid_effect hq h
  | expire => rw [hq] at h; obtain ⟨_, h⟩ := commits_effect h; exact expire_effect hq h
  | openShift => rw [hq] at h; obtain ⟨_, h⟩ := commits_effect h; exact openShift_effect hq h
  | closeShift => rw [hq] at h; obtain ⟨_, h⟩ := commits_effect h; exact closeShift_effect hq h

/-- A request that gives a cart its price does nothing else. -/
theorem exec_reprices {a : Answer} {p : Id × CartRepository.Repricing} (h : exec q v s = some (a, s'))
    (hp : repricing q v = some p) : s'.core = Core.repriceCart (some p) s.core := by
  have h := exec_eq.1 h
  rw [← hp]
  cases hq : q.action with
  | getCart => rw [hq] at h; obtain ⟨_, h⟩ := commits_effect h; exact getCart_core hq h
  | applyDiscount => rw [hq] at h; obtain ⟨_, h⟩ := commits_effect h; exact applyDiscount_core hq h
  | removeDiscount => rw [hq] at h; obtain ⟨_, h⟩ := commits_effect h; exact removeDiscount_core hq h
  | _ => rw [repricing, hq] at hp; cases hp

/-- What every effect keeps holds in the state a run reaches. -/
theorem run_inv {I : Core → Prop} {C : Db → Request → Prop} {db db' : Db} {qs : List Request}
    (hI : ∀ q db c, I db.core → C db q → Effect q db db c → I c) (h₀ : I db.core)
    (hC : Runs.Along step C db qs) (hr : Runs.exec step db qs = some db') : I db'.core := by
  refine Runs.exec_inv (I := fun db => I db.core) (fun db q db' hi hc hs => ?_) h₀ hC hr
  obtain ⟨a, hx⟩ := step_eq.1 hs
  exact hI q db db'.core hi hc (exec_effect hx)

end Komanda
