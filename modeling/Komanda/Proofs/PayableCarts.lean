import Mathlib.Algebra.Order.BigOperators.Group.List
import Mathlib.Algebra.Order.Group.Nat
import Komanda.Proofs.NewCarts

/-!
# A cart that is accepted again

`prepare` validates the stored lines of a cart once more, from their columns. While the catalog is the same, a unit
or a combo is found as it was and costs the same. A line that is sold by weight is not: its subtotal came with the
request, is stored as its price, and is not sent along when the line is validated again.
-/

namespace Komanda
open Transaction Komanda.Core Table Runs

/-- The catalog answers every selection as before. -/
def SameCatalog (db db' : Db) : Prop :=
  ∀ isCombo id, CartRepository.loadSelection isCombo id db' = CartRepository.loadSelection isCombo id db

/-- The coupon deducts by the same terms. -/
structure Discount.SameTerms (d d' : Discount) : Prop where
  discountType : d.discountType = d'.discountType
  discountValue : d.discountValue = d'.discountValue
  scope : d.scope = d'.scope
  targetCategoryIds : d.targetCategoryIds = d'.targetCategoryIds
  targetItemIds : d.targetItemIds = d'.targetItemIds

/-- The selection that `prepare` makes of a stored line. -/
def CartLine.selection (line : CartLine) (resourceId : Id) : CartSelection where
  isCombo := line.itemId.isNone
  resourceId
  quantity := line.quantity
  optionIds := line.options.map (·.addonOptionId)

/-- What the line costs when it is validated again. -/
def revalidatedTotal (db : Db) (line : CartLine) : Option Cents := do
  let resourceId ← line.itemId.or line.comboId
  let catalog ← CartRepository.loadSelection line.itemId.isNone resourceId db
  let validated ← (revalidateCartSelection (line.selection resourceId) catalog).toOption
  return validated.unitPriceCents * line.quantity

/-- `prepare` accepts every line of the cart, and what the lines cost then is what the cart says; a coupon that has
been on the cart from the start, has kept its terms since `db₀` and can be used deducts what the cart says. -/
structure AcceptedAsStored (db₀ : Db) (cart : Cart) (now : Instant) (db : Db) : Prop where
  accepted : cart.lines.forM (PaymentSessionService.revalidateLine cart db) = .ok ()
  lineTotals : ∀ line ∈ cart.lines, revalidatedTotal db line = some line.lineTotal
  subtotal : (cart.lines.map (·.lineTotal)).sum = cart.subtotal
  total : cart.discountTotal + cart.total = cart.subtotal
  coupon : cart.version = 1 → ∀ id ∈ cart.appliedDiscountCodeId, ∀ d ∈ DiscountRepository.findById id db,
    (∀ d₀ ∈ db₀.discounts, d₀.id = id → d.SameTerms d₀) → d.Usable cart now → d.Deducts cart now

/-! ## Options -/

section Options
variable {optionIds : List Id} {groups : List AddonGroup} {group : AddonGroup}

/-- The ids of the chosen options choose the same options. -/
theorem selected_again (hg : group ∈ groups) :
    group.selected ((selectedOptions optionIds groups).map (·.optionId)) = group.selected optionIds := by
  unfold AddonGroup.selected
  refine List.filter_congr fun option ho => ?_
  rw [Bool.eq_iff_iff, List.contains_iff_mem, List.contains_iff_mem]
  simp only [selectedOptions, AddonGroup.selected, List.mem_map, List.mem_flatMap, List.mem_filter,
    List.contains_iff_mem]
  constructor
  · rintro ⟨-, ⟨g, -, o, ⟨-, hid⟩, rfl⟩, heq⟩
    exact heq ▸ hid
  · intro hid
    exact ⟨_, ⟨group, hg, option, ⟨ho, hid⟩, rfl⟩, rfl⟩

theorem selectedOptions_congr {ids : List Id} (h : ∀ group ∈ groups, group.selected ids = group.selected optionIds) :
    selectedOptions ids groups = selectedOptions optionIds groups := by
  unfold selectedOptions
  refine List.flatMap_congr fun group hg => ?_
  rw [h group hg]

theorem selected_known {id : Id} (h : id ∈ (selectedOptions optionIds groups).map (·.optionId)) :
    id ∈ knownOptions groups := by
  simp only [selectedOptions, AddonGroup.selected, List.mem_map, List.mem_flatMap, List.mem_filter] at h
  obtain ⟨-, ⟨g, hg, o, ⟨ho, -⟩, rfl⟩, rfl⟩ := h
  exact List.mem_flatMap.2 ⟨g, hg, List.mem_map_of_mem ho⟩

end Options

/-! ## One line -/

section Lines
variable {db db' : Db} {isCombo : Bool} {id : Id} {catalog : CartSelectionCatalog} {currency : String}
  {selection : CartSelection} {line : NewCartLine} {cart : Cart}

theorem loadItemSelection_kind (h : CartRepository.loadItemSelection id db = some catalog) :
    catalog.isCombo = false := by
  obtain ⟨item, -, rfl⟩ := Option.map_eq_some_iff.1 h
  rfl

theorem loadComboSelection_kind (h : CartRepository.loadComboSelection id db = some catalog) :
    catalog.isCombo = true := by
  obtain ⟨combo, -, rfl⟩ := Option.map_eq_some_iff.1 h
  rfl

/-- What is found is an item or a combo. -/
theorem loadSelection_cases (h : CartRepository.loadSelection isCombo id db = some catalog) :
    CartRepository.loadItemSelection id db = some catalog ∨ CartRepository.loadComboSelection id db = some catalog := by
  unfold CartRepository.loadSelection at h
  split at h
  · rcases Option.or_eq_some_iff.1 h with hc | ⟨-, hi⟩
    · exact .inr hc
    · exact .inl hi
  · rcases Option.or_eq_some_iff.1 h with hi | ⟨-, hc⟩
    · exact .inl hi
    · exact .inr hc

/-- What is found under another kind than it was asked for is found again under its own. -/
theorem loadSelection_kind (h : CartRepository.loadSelection isCombo id db = some catalog) :
    CartRepository.loadSelection catalog.isCombo id db = some catalog := by
  rcases loadSelection_cases h with hi | hc
  · rw [loadItemSelection_kind hi, CartRepository.loadSelection, if_neg Bool.false_ne_true, hi, Option.some_or]
  · rw [loadComboSelection_kind hc, CartRepository.loadSelection, if_pos rfl, hc, Option.some_or]

theorem NewCartLine.row_itemId (line : NewCartLine) : line.row.itemId.isNone = line.isCombo := by
  cases hc : line.isCombo with
  | true => simp [NewCartLine.row, hc]
  | false => simp [NewCartLine.row, hc]

theorem NewCartLine.row_resource (line : NewCartLine) :
    line.row.itemId.or line.row.comboId = some line.resourceId := by
  cases hc : line.isCombo with
  | true => simp [NewCartLine.row, hc]
  | false => simp [NewCartLine.row, hc]

/-- The line is looked up as it was. -/
theorem stored_line_found (hs : SameCatalog db db')
    (h : CartService.validateLine currency db selection = .ok line) : ∃ catalog validated,
      CartRepository.loadSelection selection.isCombo selection.resourceId db = some catalog ∧
      CartRepository.loadSelection line.row.itemId.isNone line.resourceId db' = some catalog ∧
      catalog.currency = currency ∧ revalidateCartSelection selection catalog = .ok validated ∧
      line = newLine selection catalog validated := by
  obtain ⟨catalog, validated, hfound, hcurrency, hvalid, rfl⟩ := validateLine_iff.1 h
  refine ⟨catalog, validated, hfound, ?_, hcurrency, hvalid, rfl⟩
  rw [NewCartLine.row_itemId, hs]
  exact loadSelection_kind hfound

/-- A line of a unit is found to cost what it did. -/
theorem stored_unit_accepted (hs : SameCatalog db db') (hc : cart.currency = currency)
    (h : CartService.validateLine currency db selection = .ok line) (hu : ¬ selection.Weighed db) :
    PaymentSessionService.revalidateLine cart db' line.row = .ok () ∧
      revalidatedTotal db' line.row = some line.row.lineTotal := by
  obtain ⟨catalog, validated, hfound, hstored, hcurrency, hvalid, rfl⟩ := stored_line_found hs h
  have hunit : catalog.itemType = .unit := by
    cases hitem : catalog.itemType with
    | unit => rfl
    | weighted => exact absurd ⟨catalog, hfound, hitem⟩ hu
  obtain ⟨haccepted, rfl⟩ := (revalidate_unit_iff hunit).1 hvalid
  let stored := newLine selection catalog (catalog.priced selection.optionIds)
  have hids : stored.row.options.map (·.addonOptionId) =
      (selectedOptions selection.optionIds catalog.addonGroups).map (·.optionId) := by
    show (List.map _ _).map _ = _
    rw [List.map_map]
    rfl
  have hagain : revalidateCartSelection (stored.row.selection stored.resourceId) catalog =
      .ok (catalog.priced selection.optionIds) := by
    refine (revalidate_unit_iff hunit).2 ⟨⟨haccepted.active, rfl, fun _ h => (nomatch h), fun id hid => ?_,
      fun group hg => ?_⟩, ?_⟩
    · rw [CartLine.selection, hids] at hid
      exact selected_known hid
    · rw [CartLine.selection, hids, AddonGroup.withinBounds, selected_again hg]
      exact haccepted.bounded group hg
    · rw [CartLine.selection, hids, CartSelectionCatalog.priced, CartSelectionCatalog.priced,
        selectedOptions_congr fun _ hg => selected_again hg]
  constructor
  · unfold PaymentSessionService.revalidateLine
    rw [NewCartLine.row_resource]
    dsimp only
    rw [hstored]
    dsimp only
    rw [if_neg (by rw [hc, hcurrency]; exact not_not.2 rfl)]
    rw [CartLine.selection] at hagain
    rw [hagain]
    exact if_neg (not_not.2 rfl)
  · unfold revalidatedTotal
    rw [NewCartLine.row_resource]
    simp only [Option.bind_eq_bind, Option.bind_some]
    rw [hstored]
    simp only [Option.bind_some]
    rw [hagain]
    rfl

/-- A line that is sold by weight is turned down. -/
theorem stored_weight_refused (hs : SameCatalog db db')
    (h : CartService.validateLine currency db selection = .ok line) (hw : selection.Weighed db) :
    PaymentSessionService.revalidateLine cart db' line.row ≠ .ok () := by
  obtain ⟨catalog, validated, hfound, hstored, hcurrency, hvalid, rfl⟩ := stored_line_found hs h
  obtain ⟨catalog', hfound', hitem⟩ := hw
  cases hfound.symm.trans hfound'
  unfold PaymentSessionService.revalidateLine
  rw [NewCartLine.row_resource]
  dsimp only
  rw [hstored]
  dsimp only
  intro haccepted
  split at haccepted
  · cases haccepted
  · split at haccepted
    · cases haccepted
    · rename_i again hagain
      obtain ⟨-, subtotal, hsubtotal, -⟩ := (revalidate_weighted_iff hitem).1 hagain
      cases hsubtotal

end Lines

/-! ## Amounts -/

section Amounts
variable {lines : List CartLineForDiscount} {d d' : Discount} {now : Instant} {tender : Option Tender}

theorem Discount.SameTerms.deduction (h : d.SameTerms d') : d.deduction lines = d'.deduction lines := by
  have hq : lineQualifies d = lineQualifies d' := by
    funext line
    rw [lineQualifies, lineQualifies, h.scope, h.targetCategoryIds, h.targetItemIds]
  rw [Discount.deduction, Discount.deduction, hq, h.discountType, h.discountValue]

theorem sumCents_lines (lines : List CartLine) :
    sumCents (CartService.linesForDiscount lines) = (lines.map (·.lineTotal)).sum := by
  rw [sumCents, CartService.linesForDiscount, List.map_map]
  rfl

end Amounts

/-! ## What becomes of a cart -/

section Runs
variable {q : Request} {v db db' : Db} {c : Core} {cart x y : Cart} {r : CartRepository.Repricing} {id : Id}
  {lines : List NewCartLine} {code : Option String} {now : Instant}

/-- A price that a request gives a cart is a price of its subtotal. -/
theorem repricing_amounts (h : repricing q db = some (id, r)) : ∃ cart, CartRepository.find id db = some cart ∧
    ((cart.lines.map (·.lineTotal)).sum = cart.subtotal → r.discountTotal + r.total = cart.subtotal) := by
  unfold repricing at h
  split at h
  · obtain ⟨cart, hcart, h⟩ := Option.bind_eq_some_iff.1 h
    obtain ⟨r', hr, h⟩ := Option.map_eq_some_iff.1 h
    obtain ⟨discountId, -, hr⟩ := Option.bind_eq_some_iff.1 hr
    cases h
    refine ⟨cart, hcart, fun hsum => ?_⟩
    unfold CartService.revalidateDiscount at hr
    dsimp only at hr
    split at hr
    · cases hr; exact Nat.zero_add _
    · split at hr
      · cases hr; exact Nat.zero_add _
      · split at hr
        · cases hr
          exact amounts_add.trans ((sumCents_lines _).trans hsum)
        · cases hr
  · obtain ⟨cart, hcart, h⟩ := Option.bind_eq_some_iff.1 h
    obtain ⟨d, -, h⟩ := Option.map_eq_some_iff.1 h
    cases h
    exact ⟨cart, hcart, fun hsum => amounts_add.trans ((sumCents_lines _).trans hsum)⟩
  · obtain ⟨cart, hcart, h⟩ := Option.map_eq_some_iff.1 h
    cases h
    exact ⟨cart, hcart, fun _ => Nat.zero_add _⟩
  · cases h

/-- A new cart of a sale adds up. -/
theorem Sale.cart_adds {input : SnapshotInput} {order : Order} {movement : Option CashMovement}
    {rows : List PaymentAttempt} (h : Sale q v db input order (some cart) movement rows) : cart.AddsUp := by
  cases h with
  | items _ _ _ _ _ _ _ _ _ _ _ _ hadds => exact hadds

/-- A cart is as it was but for its status, has got another price, or is new and adds up. -/
theorem Effect.cart_cases (h : Effect q v db c) (hx : x ∈ c.carts) :
    (∃ y ∈ db.carts, ∃ status, x = { y with status }) ∨
      (∃ y ∈ db.carts, ∃ r, repricing q v = some (y.id, r) ∧ x = r.apply y) ∨
        (∀ y ∈ db.carts, y.id ≠ x.id) ∧ x.AddsUp := by
  have hsame (hx : x ∈ db.carts) : ∃ y ∈ db.carts, ∃ status, x = { y with status } := ⟨x, hx, x.status, rfl⟩
  cases h with
  | editCarts rows h =>
    cases h with
    | same => exact .inl (hsame hx)
    | add cart hid _ _ _ hadds =>
      rcases List.mem_append.1 hx with hx | hx
      · exact .inl (hsame hx)
      · rw [List.mem_singleton.1 hx]
        exact .inr (.inr ⟨hid, hadds⟩)
    | reprice cartId r _ hr =>
      rcases mem_updateWhere_cases hx with ⟨hx, -⟩ | ⟨y, hy, hid, rfl⟩
      · exact .inl (hsame hx)
      · exact .inr (.inl ⟨y, hy, r, (of_decide_eq_true hid : y.id = cartId) ▸ hr, rfl⟩)
  | kiosk cart _ _ _ _ _ _ _ _ _ _ _ _ hid _ _ _ _ _ hadds =>
    rcases List.mem_append.1 hx with hx | hx
    · exact .inl (hsame hx)
    · rw [List.mem_singleton.1 hx]
      exact .inr (.inr ⟨hid, hadds⟩)
  | sold input order _ _ cart movement rows h horder hkey hopen hnew hcart =>
    rw [book_carts, sell_carts] at hx
    obtain ⟨y, hy, hxy⟩ : ∃ y ∈ db.carts ++ cart.toList, ∃ status, x = { y with status } := by
      rcases mem_updateWhere_cases hx with ⟨hx, -⟩ | ⟨y, hy, -, rfl⟩
      · exact ⟨x, hx, x.status, rfl⟩
      · exact ⟨y, hy, _, rfl⟩
    rcases List.mem_append.1 hy with hy | hy
    · exact .inl ⟨y, hy, hxy⟩
    · obtain ⟨status, rfl⟩ := hxy
      have hy := Option.mem_toList.1 hy
      rw [hy] at h
      have hadds := h.cart_adds
      exact .inr (.inr ⟨hcart y hy, hadds.lines, hadds.subtotal, hadds.total⟩)
  | revised =>
    rw [release_carts, book_carts, revise_carts] at hx
    exact .inl (hsame hx)
  | _ => exact .inl (hsame hx)

/-- What a stored cart keeps of the cart that was created. -/
structure Cart.KeptBy (cart x : Cart) : Prop where
  lines : x.lines = cart.lines
  subtotal : x.subtotal = cart.subtotal
  currency : x.currency = cart.currency
  total : x.discountTotal + x.total = x.subtotal
  version : cart.version ≤ x.version
  price : x.version = cart.version → x.appliedDiscountCodeId = cart.appliedDiscountCodeId ∧
    x.discountTotal = cart.discountTotal ∧ x.total = cart.total

/-- The cart is stored, and every row of its id keeps what was created. -/
structure Cart.StoredIn (cart : Cart) (rows : List Cart) : Prop where
  stored : ∃ x ∈ rows, x.id = cart.id
  kept : ∀ x ∈ rows, x.id = cart.id → cart.KeptBy x

/-- No request changes the lines of a cart, and a new price is one of its subtotal. -/
theorem Cart.StoredIn.effect (hc : cart.StoredIn db.carts)
    (hsum : (cart.lines.map (·.lineTotal)).sum = cart.subtotal) (h : Effect q db db c) : cart.StoredIn c.carts := by
  obtain ⟨z, hz, hzid⟩ := hc.stored
  constructor
  · obtain ⟨x, hx, hid⟩ := h.cartIds.exists_mem hz
    exact ⟨x, hx, hid.trans hzid⟩
  · intro x hx hid
    rcases h.cart_cases hx with ⟨y, hy, status, rfl⟩ | ⟨y, hy, r, hr, rfl⟩ | ⟨hnew, -⟩
    · have hkept := hc.kept y hy hid
      exact ⟨hkept.lines, hkept.subtotal, hkept.currency, hkept.total, hkept.version, hkept.price⟩
    · have hkept := hc.kept y hy hid
      obtain ⟨found, hfound, hamounts⟩ := repricing_amounts hr
      have hfkept := hc.kept found (lookup_mem hfound) ((lookup_key hfound).trans hid)
      refine ⟨hkept.lines, hkept.subtotal, hkept.currency, ?_, Nat.le_succ_of_le hkept.version, fun hversion => ?_⟩
      · rw [hfkept.lines, hfkept.subtotal] at hamounts
        exact (hamounts hsum).trans hkept.subtotal.symm
      · have hle := hkept.version
        have hlt : y.version + 1 = cart.version := hversion
        omega
    · exact absurd (hzid.trans hid.symm) (hnew z hz)

theorem Cart.StoredIn.run {qs : List Request} (hc : cart.StoredIn db.carts)
    (hsum : (cart.lines.map (·.lineTotal)).sum = cart.subtotal) (hr : Runs.exec step db qs = some db') :
    cart.StoredIn db'.carts :=
  exec_inv (I := fun db => cart.StoredIn db.carts) (C := fun _ _ => True) (fun _ _ _ hi _ hs => by
    obtain ⟨answer, hx⟩ := step_eq.1 hs
    exact hi.effect hsum (exec_effect hx)) hc (.of_forall fun _ _ => trivial) hr

/-- The coupon of a new cart was found then, and has taken off what it deducts. -/
theorem initialPrice_coupon (h : (CartService.initialPrice lines code now db).appliedDiscountCodeId = some id) :
    ∃ d ∈ db.discounts, d.id = id ∧
      (CartService.initialPrice lines code now db).discountTotal =
        d.deduction (CartService.linesForDiscount (lines.map NewCartLine.row)) := by
  have hlines : (lines.map fun l : NewCartLine =>
      ({ resourceId := some l.resourceId, lineTotalCents := l.lineTotal } : CartLineForDiscount)) =
      CartService.linesForDiscount (lines.map NewCartLine.row) := by
    rw [CartService.linesForDiscount, List.map_map]
    refine List.map_congr_left fun l _ => ?_
    rw [Function.comp_apply, NewCartLine.row_resource]
    rfl
  unfold CartService.initialPrice at h ⊢
  dsimp only at h ⊢
  cases hd : code.bind (DiscountRepository.findByCode · db) with
  | none => rw [hd] at h; cases h
  | some d =>
    rw [hd] at h
    dsimp only at h ⊢
    obtain ⟨code', -, hfound⟩ := Option.bind_eq_some_iff.1 hd
    rcases amounts_cases (lines.map fun l : NewCartLine =>
      ({ resourceId := some l.resourceId, lineTotalCents := l.lineTotal } : CartLineForDiscount)) d now none
      with ⟨hreason, hdiscount, -⟩ | ⟨hreason, -⟩
    · rw [if_neg (not_not.2 hreason)] at h ⊢
      cases h
      exact ⟨d, findByCode_mem hfound, rfl, hdiscount.trans (congrArg d.deduction hlines)⟩
    · rw [if_pos hreason] at h
      cases h

theorem initialPrice_add : (CartService.initialPrice lines code now db).discountTotal +
    (CartService.initialPrice lines code now db).total = (lines.map (·.lineTotal)).sum := by
  unfold CartService.initialPrice
  dsimp only
  split
  · exact Nat.zero_add _
  · split
    · exact Nat.zero_add _
    · refine amounts_add.trans ?_
      rw [sumCents, List.map_map]
      rfl

end Runs

/-! ## A created cart, later -/

section Created
variable {tenant : PublicTenant} {request : CreateCartRequest} {now now' : Instant} {v s s' db : Db}
  {cart row : Cart} {later : List Request}

/-- The total of the stored lines. -/
theorem rows_sum (lines : List NewCartLine) :
    ((lines.map NewCartLine.row).map (·.lineTotal)).sum = (lines.map (·.lineTotal)).sum := by
  rw [List.map_map]
  rfl

/-- The cart that is created is stored, and costs what its lines cost. -/
theorem Creates.stored (h : Creates tenant request now v s cart s') :
    (cart.lines.map (·.lineTotal)).sum = cart.subtotal ∧ cart.StoredIn s'.carts := by
  obtain ⟨lines, -, hrow, hnew⟩ := h.lines
  obtain ⟨key, recordId, -, hcarts⟩ := h
  have hsubtotal : cart.subtotal = (lines.map (·.lineTotal)).sum := by rw [hrow]; rfl
  have htotal : cart.discountTotal + cart.total = cart.subtotal := by
    rw [hsubtotal, hrow]
    exact initialPrice_add
  refine ⟨?_, ⟨cart, by rw [hcarts]; simp, rfl⟩, fun x hx hid => ?_⟩
  · rw [hsubtotal, hrow]
    exact rows_sum lines
  · rw [hcarts] at hx
    rcases List.mem_append.1 hx with hx | hx
    · exact absurd hid (hnew x hx)
    · rw [List.mem_singleton.1 hx]
      exact ⟨rfl, rfl, rfl, htotal, Nat.le_refl _, fun _ => ⟨rfl, rfl, rfl⟩⟩

/-- A coupon that has been on the cart from the start still deducts what the cart says. -/
theorem Cart.KeptBy.coupon {lines : List NewCartLine} (hkept : cart.KeptBy row)
    (hcart : cart = (newCart tenant request.discountCode now v lines).row cart.id) (hversion : row.version = 1)
    {id : Id} (hid : row.appliedDiscountCodeId = some id) {d : Discount}
    (hterms : ∀ d₀ ∈ v.discounts, d₀.id = id → d.SameTerms d₀) (husable : d.Usable row now') :
    d.Deducts row now' := by
  have hcversion : cart.version = 1 := by rw [hcart]; rfl
  obtain ⟨happlied, hdiscount, -⟩ := hkept.price (hversion.trans hcversion.symm)
  have hlines : row.lines = lines.map NewCartLine.row := hkept.lines.trans (by rw [hcart]; rfl)
  have hcoupon : (CartService.initialPrice lines request.discountCode now v).appliedDiscountCodeId = some id := by
    rw [← hid, happlied, hcart]
    rfl
  obtain ⟨d₀, hd₀, hid₀, hprice⟩ := initialPrice_coupon hcoupon
  have hreason := amounts_reason.trans husable
  rcases amounts_cases (CartService.linesForDiscount row.lines) d now' none with ⟨-, hdeducted, -⟩ | ⟨hne, -⟩
  · have hsame : (calculateDiscountAmounts (CartService.linesForDiscount row.lines) d now' none).discountTotalCents =
        row.discountTotal := by
      rw [hdeducted, (hterms d₀ hd₀ hid₀).deduction, hlines, ← hprice, hdiscount, hcart]
      rfl
    refine ⟨hsame, Nat.add_left_cancel (n := row.discountTotal) ?_⟩
    -- what is left of the lines
    have hsum : sumCents (CartService.linesForDiscount row.lines) = row.subtotal := by
      rw [sumCents_lines, hlines, rows_sum, hkept.subtotal, hcart]
      rfl
    rw [hkept.total, ← hsum, ← hsame]
    exact amounts_add
  · exact absurd hreason hne

/-- While the catalog answers as it did, `prepare` accepts the lines of a created cart for what they cost exactly
when none of them is sold by weight. -/
theorem created_cart_accepted_iff (hcreate : Creates tenant request now v s cart s')
    (hlater : Runs.exec step s' later = some db) (hsame : SameCatalog v db)
    (hrow : CartRepository.find cart.id db = some row) :
    AcceptedAsStored v row now' db ↔ ∀ selection ∈ request.lines, ¬ selection.Weighed v := by
  obtain ⟨hsum, hstored⟩ := hcreate.stored
  have hkept := (hstored.run hsum hlater).kept row (lookup_mem hrow) (lookup_key hrow)
  obtain ⟨lines, hlines, hcart, -⟩ := hcreate.lines
  have hrows : row.lines = lines.map NewCartLine.row := hkept.lines.trans (by rw [hcart]; rfl)
  have hcurrency : row.currency = tenant.currency := hkept.currency.trans (by rw [hcart]; rfl)
  constructor
  · intro haccepted selection hselection hw
    obtain ⟨line, hline, hvalid⟩ := (exists_of_forall₂ hlines).1 selection hselection
    have hmem : line.row ∈ row.lines := by rw [hrows]; exact List.mem_map_of_mem hline
    exact stored_weight_refused hsame hvalid hw (forM_ok_iff.1 haccepted.accepted line.row hmem)
  · intro hunits
    have hall : ∀ x ∈ row.lines, PaymentSessionService.revalidateLine row db x = .ok () ∧
        revalidatedTotal db x = some x.lineTotal := by
      intro x hx
      rw [hrows] at hx
      obtain ⟨line, hline, rfl⟩ := List.mem_map.1 hx
      obtain ⟨selection, hselection, hvalid⟩ := (exists_of_forall₂ hlines).2 line hline
      exact stored_unit_accepted hsame hcurrency hvalid (hunits selection hselection)
    refine ⟨forM_ok_iff.2 fun x hx => (hall x hx).1, fun x hx => (hall x hx).2, ?_, hkept.total, ?_⟩
    · rw [hkept.lines, hkept.subtotal]
      exact hsum
    · intro hversion id hid d _ hterms husable
      exact hkept.coupon hcart hversion hid hterms husable

end Created

/-- The tables that a selection is looked up in. -/
theorem sameCatalog_of_tables {db db' : Db} (hitems : db'.items = db.items) (hcombos : db'.combos = db.combos)
    (hgroups : db'.addonGroups = db.addonGroups) (hlinks : db'.itemAddonGroups = db.itemAddonGroups) :
    SameCatalog db db' := by
  intro isCombo id
  simp only [CartRepository.loadSelection, CartRepository.loadItemSelection, CartRepository.loadComboSelection, hitems,
    hcombos, hgroups, hlinks]

namespace Demo

/-- The cart is stored, and the catalog is the one of the store. -/
def shelved (cart : Cart) (db : Db) : Bool :=
  CartRepository.find cart.id db = some cart && db.items = deli.items && db.combos = deli.combos &&
    db.addonGroups = deli.addonGroups && db.itemAddonGroups = deli.itemAddonGroups

theorem shelved_iff {cart : Cart} {db : Db} (h : shelved cart db = true) :
    CartRepository.find cart.id db = some cart ∧ SameCatalog deli db := by
  simp only [shelved, Bool.and_eq_true, decide_eq_true_eq] at h
  obtain ⟨⟨⟨⟨hfind, hitems⟩, hcombos⟩, hgroups⟩, hlinks⟩ := h
  exact ⟨hfind, sameCatalog_of_tables hitems hcombos hgroups hlinks⟩

end Demo

open Demo

theorem created_cart_accepted_iff_burger : ∃ cart s' db row, Creates tenant (buyBurger none) 1 deli deli cart s' ∧
    Runs.exec step s' [readCart "2" cart.id] = some db ∧ (AcceptedAsStored deli row 5 db ↔
      ∀ selection ∈ (buyBurger none).lines, ¬ selection.Weighed deli) := by
  obtain ⟨cart, s', h, hp⟩ := creates_of (buyBurger none)
    (fun c s => (Runs.exec step s [readCart "2" c.id]).any (shelved c)) (by decide +kernel)
  obtain ⟨db, hr, hdb⟩ := (Option.any_eq_true _ _).1 hp
  obtain ⟨hfind, hsame⟩ := shelved_iff hdb
  exact ⟨cart, s', db, cart, h, hr, created_cart_accepted_iff h hr hsame hfind⟩

/-- A cart of cheese is created, and its line is turned down the next moment. -/
theorem weighed_cart_turned_down : ¬ ∀ (tenant : PublicTenant) (request : CreateCartRequest) (now now' : Instant)
    (v s s' db : Db) (cart row : Cart) (later : List Request), Creates tenant request now v s cart s' →
    Runs.exec step s' later = some db → SameCatalog v db → CartRepository.find cart.id db = some row →
    AcceptedAsStored v row now' db := by
  intro hall
  obtain ⟨cart, s', h, hp⟩ := creates_of (buyCheese 100) (fun c s => shelved c s &&
    (c.lines.forM (PaymentSessionService.revalidateLine c s)).toOption.isNone) (by decide +kernel)
  obtain ⟨hshelved, hrefused⟩ := Bool.and_eq_true_iff.1 hp
  obtain ⟨hfind, hsame⟩ := shelved_iff hshelved
  have haccepted := (hall _ _ _ 1 _ _ _ _ _ _ [] h (exec_nil.2 rfl) hsame hfind).accepted
  rw [haccepted] at hrefused
  cases hrefused

end Komanda
