import Komanda.Proofs.PayableCarts

/-!
# One coupon on every sales channel

The storefront, the counter and the kiosk each list the lines of a sale for `calculateDiscountAmounts`, with the
tender if they know it. What a coupon grants depends on the tender only by its restriction to cash, and on the
categories of the lines only by its scope.
-/

namespace Komanda
open Transaction

/-- What the coupon takes off the lines, if it can be used. -/
def Discount.grants (d : Discount) (lines : List CartLineForDiscount) (now : Instant) (tender : Option Tender) :
    Option Cents :=
  if (calculateDiscountAmounts lines d now tender).ineligibilityReason = none then some (d.deduction lines) else none

/-- A coupon for cash is refused to every other tender that is known. -/
def Discount.admits (d : Discount) (tender : Option Tender) : Bool :=
    d.applicableTender ≠ .cash || tender.all (· = .cash)

/-- The lines of a sale as the counter and the kiosk list them. -/
def categorized (lines : List (NewCartLine × Option Id)) : List CartLineForDiscount :=
  lines.map fun l => { resourceId := some l.1.resourceId, categoryId := l.2, lineTotalCents := l.1.lineTotal }

/-- The tender that the counter asks the coupon for. -/
def counterTender (tender : OrderTender) : Tender := if tender = .cash then .cash else .posnet

section Rules
variable {d : Discount} {lines lines' : List CartLineForDiscount} {now : Instant} {tender : Option Tender}

/-- The restriction to cash is the first thing that is checked, and the only one that reads the tender. -/
theorem eligibility_tender (d : Discount) (subtotal : Cents) (now : Instant) (tender : Option Tender) :
    evaluateCouponEligibility d subtotal now tender =
      if d.admits tender then evaluateCouponEligibility d subtotal now none else some .tenderMismatch := by
  by_cases hcash : d.applicableTender = .cash
  · cases tender with
    | none => simp [evaluateCouponEligibility, Discount.admits]
    | some t => cases t <;> simp [evaluateCouponEligibility, Discount.admits, hcash]
  · simp [evaluateCouponEligibility, Discount.admits, hcash]

theorem reason_tender : (calculateDiscountAmounts lines d now tender).ineligibilityReason =
    if d.admits tender then (calculateDiscountAmounts lines d now none).ineligibilityReason
    else some .tenderMismatch := by
  rw [amounts_reason, amounts_reason, eligibility_tender]

theorem grants_tender (d : Discount) (lines : List CartLineForDiscount) (now : Instant) (tender : Option Tender) :
    d.grants lines now tender = if d.admits tender then d.grants lines now none else none := by
  rw [Discount.grants, Discount.grants, reason_tender]
  cases d.admits tender with
  | true => rfl
  | false => rfl

/-- The amount is what the coupon grants. -/
theorem grants_amount (h : (calculateDiscountAmounts lines d now tender).ineligibilityReason = none) :
    d.grants lines now tender = some (calculateDiscountAmounts lines d now tender).discountTotalCents := by
  rw [Discount.grants, if_pos h]
  rcases amounts_cases lines d now tender with ⟨-, hamount, -⟩ | ⟨hne, -⟩
  · rw [hamount]
  · exact absurd h hne

theorem grants_none {reason : IneligibilityReason}
    (h : (calculateDiscountAmounts lines d now tender).ineligibilityReason = some reason) :
    d.grants lines now tender = none := by
  rw [Discount.grants, if_neg (h ▸ Option.some_ne_none reason)]

/-- The lines of a storefront cart: they name no categories. -/
def uncategorized (lines : List NewCartLine) : List CartLineForDiscount :=
  lines.map fun l => { resourceId := some l.resourceId, lineTotalCents := l.lineTotal }

/-- What qualifies for a coupon that names no categories does not depend on them. -/
theorem applicable_uncategorized (hscope : d.scope ≠ .category) (lines : List (NewCartLine × Option Id)) :
    sumCents ((uncategorized (lines.map (·.1))).filter (lineQualifies d)) =
      sumCents ((categorized lines).filter (lineQualifies d)) := by
  induction lines with
  | nil => rfl
  | cons l lines ih =>
    have hline : lineQualifies d { resourceId := some l.1.resourceId, lineTotalCents := l.1.lineTotal } =
        lineQualifies d { resourceId := some l.1.resourceId, categoryId := l.2, lineTotalCents := l.1.lineTotal } := by
      unfold lineQualifies
      cases hs : d.scope with
      | category => exact absurd hs hscope
      | _ => rfl
    simp only [uncategorized, categorized, List.map_cons, List.filter_cons, hline] at ih ⊢
    split
    · simp only [sumCents, List.map_cons, List.sum_cons]
      exact congrArg _ ih
    · exact ih

/-- A coupon that names no categories grants the same on lines that name none. -/
theorem grants_uncategorized (hscope : d.scope ≠ .category) (lines : List (NewCartLine × Option Id)) :
    d.grants (uncategorized (lines.map (·.1))) now tender = d.grants (categorized lines) now tender := by
  rw [Discount.grants, Discount.grants, amounts_reason, amounts_reason, Discount.deduction, Discount.deduction,
    applicable_uncategorized hscope]

end Rules

/-! ## The channels -/

/-- The discount of a new storefront cart, if its code has been applied. -/
def storefrontDiscount (lines : List NewCartLine) (code : String) (now : Instant) (db : Db) : Option Cents :=
  let price := CartService.initialPrice lines (some code) now db
  price.appliedDiscountCodeId.map fun _ => price.discountTotal

section Channels
variable {lines : List (NewCartLine × Option Id)} {code : String} {coupon : Discount} {now : Instant} {db : Db}
  {cart : Cart}

theorem storefrontDiscount_eq (hcode : DiscountRepository.findByCode code db = some coupon)
    (hscope : coupon.scope ≠ .category) :
    storefrontDiscount (lines.map (·.1)) code now db = coupon.grants (categorized lines) now none := by
  rw [← grants_uncategorized hscope, storefrontDiscount, CartService.initialPrice, uncategorized]
  simp only [Option.bind_some, hcode]
  split
  · next h =>
    obtain ⟨reason, hreason⟩ := Option.ne_none_iff_exists'.1 h
    exact (grants_none hreason).symm
  · next h => exact (grants_amount (not_not.1 h)).symm

/-- The lines of a stored cart are those of its sale. -/
theorem linesForDiscount_rows (lines : List NewCartLine) :
    CartService.linesForDiscount (lines.map NewCartLine.row) = uncategorized lines := by
  rw [CartService.linesForDiscount, uncategorized, List.map_map]
  refine List.map_congr_left fun l _ => ?_
  rw [Function.comp_apply, NewCartLine.row_resource]
  rfl

/-- A cart that is there gets its new price. -/
theorem reprice_commits (r : CartRepository.Repricing) (hcart : CartRepository.find cart.id db = some cart) :
    Commits (CartRepository.reprice cart.id r) db db (some (r.apply cart))
      { db with carts := Table.updateWhere (·.id = cart.id) r.apply db.carts } := by
  have hfind : Table.lookup Cart.id cart.id (Table.updateWhere (·.id = cart.id) r.apply db.carts) =
      some (r.apply cart) := by
    rw [Table.lookup_updateWhere (f := r.apply) fun _ _ => rfl,
      show Table.lookup Cart.id cart.id db.carts = some cart from hcart]
    simp
  rw [CartRepository.reprice, commits_write_bind, commits_current]
  exact ⟨hfind, rfl⟩

/-- A stored cart is found as long as it is available. -/
theorem findAvailable_iff {found : Cart} {s : Db} (hcart : CartRepository.find cart.id db = some cart) :
    Commits (CartService.findAvailable cart.id now) db db found s ↔
      CartService.unavailable now cart = false ∧ found = cart ∧ s = db := by
  simp only [CartService.findAvailable, commits_look_bind, commits_orThrow_bind, commits_throwIf_bind, commits_pure,
    hcart, Option.some.injEq, exists_eq_left', Bool.not_eq_true]
  rw [eq_comm (a := cart), eq_comm (a := db)]

/-- What a stored cart is given when the code is applied to it, if it is. -/
def appliedDiscount (cartId : Id) (code : String) (now : Instant) (db : Db) : Option Cents :=
  (CartService.applyDiscount cartId code none now db db).toOption.map fun r => r.1.discountTotal

theorem appliedDiscount_eq (hcode : DiscountRepository.findByCode code db = some coupon)
    (hscope : coupon.scope ≠ .category) (hcart : CartRepository.find cart.id db = some cart)
    (havailable : CartService.unavailable now cart = false) (hlines : cart.lines = lines.map (·.1.row)) :
    appliedDiscount cart.id code now db = coupon.grants (categorized lines) now none := by
  have hfound := (findAvailable_iff hcart).2 ⟨havailable, rfl, rfl⟩
  have hlimit : Commits (throwIf ((none : Option Nat).isSome = true)
      (AppError.rateLimitExceeded ((none : Option Nat).getD 60))) db db () db :=
    commits_throwIf.2 ⟨Bool.false_ne_true, rfl⟩
  have hrows : CartService.linesForDiscount cart.lines = uncategorized (lines.map (·.1)) := by
    rw [hlines, ← linesForDiscount_rows, List.map_map]; rfl
  rw [appliedDiscount, CartService.applyDiscount, bind_ok hlimit, bind_ok hfound,
    bind_ok (commits_look.2 ⟨hcode, rfl⟩), bind_ok (commits_orThrow.2 ⟨rfl, rfl⟩), hrows,
    ← grants_uncategorized hscope]
  cases hreason : (calculateDiscountAmounts (uncategorized (lines.map (·.1))) coupon now none).ineligibilityReason with
  | some reason =>
    rw [grants_none hreason]
    rfl
  | none =>
    rw [grants_amount hreason]
    dsimp only
    rw [CartRepository.applyDiscount, bind_ok (reprice_commits _ hcart)]
    rfl

/-- The discount of a sale at the counter, if it is not refused. -/
def counterDiscount (lines : List (NewCartLine × Option Id)) (code : String) (tender : OrderTender) (now : Instant)
    (db : Db) : Option Cents :=
  (CreateOrderService.directPrice lines (some code) tender now db).toOption.map (·.discountTotal)

theorem counterDiscount_eq (hcode : DiscountRepository.findByCode code db = some coupon) (tender : OrderTender) :
    counterDiscount lines code tender now db = coupon.grants (categorized lines) now (some (counterTender tender)) := by
  rw [counterDiscount, CreateOrderService.directPrice]
  simp only [hcode]
  split
  · next h => rw [categorized, counterTender, grants_none h]; rfl
  · next h => rw [categorized, counterTender, grants_none h]; rfl
  · next h => rw [categorized, counterTender, grants_amount h]; rfl

theorem code_ne_empty (hcode : DiscountRepository.findByCode code db = some coupon) : code ≠ "" := by
  rintro rfl
  cases hcode

/-- The discount of a kiosk session, if it is not refused. -/
def kioskDiscount (lines : List (NewCartLine × Option Id)) (code : String) (now : Instant) (db : Db) : Option Cents :=
  (KioskPaymentService.kioskPrice lines (some code) now db).toOption.map (·.discountTotal)

theorem kioskDiscount_eq (hcode : DiscountRepository.findByCode code db = some coupon) :
    kioskDiscount lines code now db = coupon.grants (categorized lines) now (some .mercadopago) := by
  rw [kioskDiscount, KioskPaymentService.kioskPrice, Option.filter_some,
    if_pos (decide_eq_true (code_ne_empty hcode))]
  simp only [hcode]
  split
  · next h => rw [categorized, grants_none h]; rfl
  · next h => rw [categorized, grants_none h]; rfl
  · next h => rw [categorized, grants_amount h]; rfl

/-- The discount that the kiosk previews, if it is eligible. -/
def previewedDiscount (lines : List (NewCartLine × Option Id)) (code : String) (tender : Option Tender) (now : Instant)
    (db : Db) : Option Cents :=
  let answer := KioskPaymentService.preview (categorized lines) code tender now db
  if answer.eligible then some answer.discountTotal else none

theorem previewedDiscount_eq (hcode : DiscountRepository.findByCode code db = some coupon) (tender : Option Tender) :
    previewedDiscount lines code tender now db = coupon.grants (categorized lines) now tender := by
  simp only [previewedDiscount, KioskPaymentService.preview, hcode]
  split
  · next h => rw [grants_none h]; rfl
  · next h => rw [grants_amount h]; rfl

/-! A coupon for cash is refused to another tender, and the refusal says so. -/

theorem counter_refuses (hcode : DiscountRepository.findByCode code db = some coupon) {tender : OrderTender}
    (h : coupon.admits (some (counterTender tender)) = false) :
    CreateOrderService.directPrice lines (some code) tender now db = .error (.orderConflict
      "Este cupón de descuento es exclusivo para pagos en efectivo en mostrador.") := by
  have hreason : (calculateDiscountAmounts (categorized lines) coupon now
      (some (counterTender tender))).ineligibilityReason = some .tenderMismatch := by
    rw [reason_tender, h]; rfl
  rw [categorized, counterTender] at hreason
  rw [CreateOrderService.directPrice]
  simp only [hcode, hreason]

theorem session_refuses (hcode : DiscountRepository.findByCode code db = some coupon)
    (h : coupon.admits (some .mercadopago) = false) :
    KioskPaymentService.kioskPrice lines (some code) now db =
      .error (.kioskPaymentCartUnavailable "Este cupón es exclusivo para pagos en efectivo.") := by
  have hreason : (calculateDiscountAmounts (categorized lines) coupon now
      (some .mercadopago)).ineligibilityReason = some .tenderMismatch := by
    rw [reason_tender, h]; rfl
  rw [categorized] at hreason
  rw [KioskPaymentService.kioskPrice, Option.filter_some, if_pos (decide_eq_true (code_ne_empty hcode))]
  simp only [hcode, hreason]

theorem preview_refuses (hcode : DiscountRepository.findByCode code db = some coupon) {tender : Option Tender}
    (h : coupon.admits tender = false) :
    (KioskPaymentService.preview (categorized lines) code tender now db).reason = some "COUPON_TENDER_MISMATCH" := by
  have hreason : (calculateDiscountAmounts (categorized lines) coupon now tender).ineligibilityReason =
      some .tenderMismatch := by
    rw [reason_tender, h]; rfl
  simp only [KioskPaymentService.preview, hcode, hreason, IneligibilityReason.code]

/-- What the channels take off the same lines with the same coupon. -/
structure ChannelsAgree (code : String) (coupon : Discount) (lines : List (NewCartLine × Option Id)) (now : Instant)
    (db : Db) : Prop where
  /-- The storefront prices a new cart and a stored one alike; it does not know the tender. -/
  storefront : coupon.scope ≠ .category →
    storefrontDiscount (lines.map (·.1)) code now db = coupon.grants (categorized lines) now none ∧
      ∀ cart, CartRepository.find cart.id db = some cart → CartService.unavailable now cart = false →
        cart.lines = lines.map (·.1.row) →
          appliedDiscount cart.id code now db = coupon.grants (categorized lines) now none
  counter : ∀ tender, counterDiscount lines code tender now db =
    if coupon.admits (some (counterTender tender)) then coupon.grants (categorized lines) now none else none
  session : kioskDiscount lines code now db =
    if coupon.admits (some .mercadopago) then coupon.grants (categorized lines) now none else none
  preview : ∀ tender, previewedDiscount lines code tender now db =
    if coupon.admits tender then coupon.grants (categorized lines) now none else none
  counterRefusal : ∀ tender, coupon.admits (some (counterTender tender)) = false →
    CreateOrderService.directPrice lines (some code) tender now db = .error (.orderConflict
      "Este cupón de descuento es exclusivo para pagos en efectivo en mostrador.")
  sessionRefusal : coupon.admits (some .mercadopago) = false →
    KioskPaymentService.kioskPrice lines (some code) now db =
      .error (.kioskPaymentCartUnavailable "Este cupón es exclusivo para pagos en efectivo.")
  previewRefusal : ∀ tender, coupon.admits tender = false →
    (KioskPaymentService.preview (categorized lines) code tender now db).reason = some "COUPON_TENDER_MISMATCH"

/-- A coupon is worth the same on every channel that takes it with the tender. -/
theorem channels_agree (code : String) (coupon : Discount) (lines : List (NewCartLine × Option Id)) (now : Instant)
    (db : Db) (hcode : DiscountRepository.findByCode code db = some coupon) :
    ChannelsAgree code coupon lines now db where
  storefront hscope := ⟨storefrontDiscount_eq hcode hscope, fun _ hcart havailable hlines =>
    appliedDiscount_eq hcode hscope hcart havailable hlines⟩
  counter tender := (counterDiscount_eq hcode tender).trans (grants_tender ..)
  session := (kioskDiscount_eq hcode).trans (grants_tender ..)
  preview tender := (previewedDiscount_eq hcode tender).trans (grants_tender ..)
  counterRefusal _ h := counter_refuses hcode h
  sessionRefusal h := session_refuses hcode h
  previewRefusal _ h := preview_refuses hcode h

end Channels

/-! ## One selection on every channel -/

/-- What the storefront and the counter call an item of the kiosk. -/
def KioskPaymentItem.selection (item : KioskPaymentItem) : CartSelection where
  isCombo := false
  resourceId := item.catalogItemId
  quantity := item.quantity
  calculatedSubtotal := item.calculatedSubtotal

section Selections
variable {currency : String} {db : Db} {item : KioskPaymentItem} {line : NewCartLine × Option Id}

/-- What the kiosk has validated. -/
theorem kioskLine_ok (h : KioskPaymentService.kioskLine currency db item = .ok line) :
    ∃ catalog validated, CartRepository.loadSelection false item.catalogItemId db = some catalog ∧
      catalog.currency = currency ∧ revalidateCartSelection item.selection catalog = .ok validated ∧
      line.1.resourceId = item.catalogItemId ∧ line.2 = catalog.categoryId ∧ line.1.itemType = validated.itemType ∧
      line.1.lineTotal = validated.unitPriceCents * if validated.itemType = .weighted then 1 else item.quantity := by
  unfold KioskPaymentService.kioskLine at h
  split at h
  · cases h
  · next catalog hfound =>
    split at h
    · cases h
    · next hcurrency =>
      split at h
      · cases h
      · next validated hvalid =>
        cases h
        exact ⟨catalog, validated, hfound, not_not.1 hcurrency, hvalid, rfl, rfl, rfl, rfl⟩

/-- The counter sells what the kiosk sells, in the same category and at the same price. -/
theorem directLine_of_kioskLine (h : KioskPaymentService.kioskLine currency db item = .ok line) :
    ∃ line', CreateOrderService.directLine currency db item.selection = .ok line' ∧
      categorized [line'] = categorized [line] := by
  obtain ⟨catalog, validated, hfound, hcurrency, hvalid, hid, hcategory, -, htotal⟩ := kioskLine_ok h
  unfold CreateOrderService.directLine
  rw [show item.selection.isCombo = false from rfl, show item.selection.resourceId = item.catalogItemId from rfl, hfound]
  dsimp only
  rw [if_neg (not_not.2 hcurrency), hvalid]
  refine ⟨_, rfl, ?_⟩
  simp only [categorized, List.map_cons, List.map_nil, hid, hcategory, htotal]
  rfl

/-- So does the storefront, a weighed item once. -/
theorem validateLine_of_kioskLine (h : KioskPaymentService.kioskLine currency db item = .ok line)
    (hweighed : line.1.itemType = .weighted → item.quantity = 1) :
    ∃ line', CartService.validateLine currency db item.selection = .ok line' ∧
      uncategorized [line'] = uncategorized [line.1] := by
  obtain ⟨catalog, validated, hfound, hcurrency, hvalid, hid, -, htype, htotal⟩ := kioskLine_ok h
  have hquantity : (if validated.itemType = .weighted then 1 else item.quantity) = item.quantity := by
    split
    · next hw => exact (hweighed (htype.trans hw)).symm
    · rfl
  unfold CartService.validateLine
  rw [show item.selection.isCombo = false from rfl, show item.selection.resourceId = item.catalogItemId from rfl, hfound]
  dsimp only
  rw [if_neg (not_not.2 hcurrency), hvalid]
  refine ⟨_, rfl, ?_⟩
  simp only [uncategorized, List.map_cons, List.map_nil, hid, htotal, hquantity]
  rfl

end Selections

namespace Demo

/-- The coupon is for cash only. -/
def cashOnly : Discount := { tenPercent with applicableTender := .cash }

/-- The coupon is for food. -/
def foodOnly : Discount := { tenPercent with scope := .category, targetCategoryIds := ["food"] }

/-- A line of the menu, and its category. -/
def burgerLine : NewCartLine × Option Id :=
  ({ isCombo := false, resourceId := "burger", itemType := .unit, quantity := 1, name := "Burger", unitPrice := 1000,
     lineTotal := 1000, imageUrl := none, note := none, options := [] }, some "food")

def offering (coupon : Discount) : Db := { Db.fresh "tenant" settings with discounts := [coupon] }

end Demo

open Demo

theorem channels_agree_ten_percent : ChannelsAgree "ten" tenPercent [burgerLine] 1 (offering tenPercent) :=
  channels_agree "ten" tenPercent [burgerLine] 1 (offering tenPercent) (by decide +kernel)

/-- A coupon for cash is applied to a storefront cart and refused at the kiosk; and one for a category is never
applied to a storefront cart. -/
theorem channels_differ :
    (storefrontDiscount [burgerLine.1] "TEN" 1 (offering cashOnly) = some 100 ∧
      counterDiscount [burgerLine] "TEN" .cash 1 (offering cashOnly) = some 100 ∧
      counterDiscount [burgerLine] "TEN" .posnet 1 (offering cashOnly) = none ∧
      kioskDiscount [burgerLine] "TEN" 1 (offering cashOnly) = none) ∧
    storefrontDiscount [burgerLine.1] "TEN" 1 (offering foodOnly) = none ∧
      kioskDiscount [burgerLine] "TEN" 1 (offering foodOnly) = some 100 := by
  decide +kernel

end Komanda
