import Komanda.KioskSessions
import Komanda.Proofs.CouponChannels
import Komanda.Proofs.HeldCarts
import Komanda.Proofs.NewCarts

/-!
# The preview of the kiosk and its session

A preview prices the lines and the coupon that a session would charge, and writes nothing. The session prices them
alike and stores what it has priced: a payment attempt of nothing, a line whose item is a combo, and a number that its
column does not hold are refused by the tables after the preview has promised them.
-/

namespace Komanda
open Transaction Idempotency KioskPaymentService

/-! ## The law -/

/-- A session, with the lines and the coupon that it shares with its preview. -/
structure KioskCall where
  items : List KioskPaymentItem
  discountCode : String
  customer : Customer
  notes : Option String
  key : String
  recordId : Id
  cartId : Id
  attemptId : Id
  preference : Except AppError Preference
  now : Instant

namespace KioskCall

def preview (c : KioskCall) : KioskDiscountPreviewRequest where
  items := c.items
  discountCode := c.discountCode
  tender := some .mercadopago

def session (c : KioskCall) : KioskPaymentSessionRequest where
  items := c.items
  customer := c.customer
  notes := c.notes
  discountCode := some c.discountCode

/-- What the schema makes of the session. -/
def request (c : KioskCall) : KioskPaymentSessionRequest where
  items := c.items
  customer := { name := c.customer.name, email := c.customer.email }
  notes := c.notes
  discountCode := some (Text.trim c.discountCode)

def Reports (c : KioskCall) (db : Db) (answer : KioskDiscountPreviewResponse) : Prop :=
  ∃ db', Commits (parsedPreview c.preview c.now) db db answer db'

def Creates (isEmail : String → Bool) (c : KioskCall) (db : Db) (body : KioskPaymentSessionResponse) (db' : Db) : Prop :=
  Commits (parsedSession isEmail c.session c.key c.recordId c.cartId c.attemptId c.preference c.now) db db body db'

def Claims (c : KioskCall) (db : Db) (answer : Idempotency.Answer IdemRequest IdemResponse) : Prop :=
  ∃ db', Commits (IdempotencyService.claim "kiosk-payment-session" c.key (.kioskSession c.request) (some 120)
    c.recordId c.now) db db answer db'

/-- What a session needs besides its lines and its coupon. -/
structure Ready (isEmail : String → Bool) (c : KioskCall) (db : Db) : Prop where
  name : 1 ≤ Text.length c.customer.name
  email : c.customer.email.all isEmail = true
  notes : c.notes.all (Text.length · ≤ 255) = true
  account : ∃ account, IntegrationRepository.currentMercadoPago db = some account ∧ account.status = .active ∧
    account.decryptable = true
  location : db.settings.primaryLocationId ≠ none
  claimed : ∃ id stored, c.Claims db (.claimed id stored)
  cartId : ∀ cart ∈ db.carts, cart.id ≠ c.cartId
  attempt : ∀ a ∈ db.attempts, a.id ≠ c.attemptId ∧ a.idempotencyKey ≠ c.key
  preference : ∃ issued, c.preference = .ok issued

/-- The lines can be sold and the coupon can be used on them. -/
structure Applies (c : KioskCall) (db : Db) (lines : List (NewCartLine × Option Id)) (coupon : Discount) : Prop where
  schema : kioskDiscountPreviewSchema c.preview ≠ none
  priced : c.items.mapM (kioskLine db.settings.defaultCurrency db) = .ok lines
  found : DiscountRepository.findByCode (Text.trim c.discountCode) db = some coupon
  eligible : evaluateCouponEligibility coupon (sumCents ((categorized lines).filter (lineQualifies coupon))) c.now
    (some .mercadopago) = none

end KioskCall

/-- The coupon is worth all that the lines cost, and every line that costs something qualifies. -/
def Discount.CoversAll (d : Discount) (lines : List CartLineForDiscount) : Prop :=
  (∀ line ∈ lines, 0 < line.lineTotalCents → lineQualifies d line = true) ∧ d.deducts (sumCents lines) = sumCents lines

section Covers
variable {d : Discount} {lines : List CartLineForDiscount}

theorem applicable_eq_iff : sumCents (lines.filter (lineQualifies d)) = sumCents lines ↔
    ∀ line ∈ lines, 0 < line.lineTotalCents → lineQualifies d line = true := by
  induction lines with
  | nil => exact iff_of_true rfl fun _ h => absurd h List.not_mem_nil
  | cons line lines ih =>
    have hle : sumCents (lines.filter (lineQualifies d)) ≤ sumCents lines := applicable_le
    rw [List.forall_mem_cons, ← ih, List.filter_cons]
    have hcons : sumCents (line :: lines) = line.lineTotalCents + sumCents lines := rfl
    by_cases hq : lineQualifies d line = true
    · have hkeep : sumCents (line :: lines.filter (lineQualifies d)) =
          line.lineTotalCents + sumCents (lines.filter (lineQualifies d)) := rfl
      rw [if_pos hq, hcons, hkeep, Nat.add_left_cancel_iff]
      exact (and_iff_right fun _ => hq).symm
    · rw [if_neg hq, hcons]
      constructor
      · intro h
        have hfree : line.lineTotalCents = 0 := Nat.le_zero.1 (add_le_iff_nonpos_left.1 (h ▸ hle))
        exact ⟨fun hpos => absurd hfree hpos.ne', h.trans (by rw [hfree, Nat.zero_add])⟩
      · rintro ⟨hqualifies, h⟩
        have hfree : line.lineTotalCents = 0 := Nat.eq_zero_of_not_pos fun hpos => hq (hqualifies hpos)
        rw [h, hfree, Nat.zero_add]

theorem deduction_eq_iff : d.deduction lines = sumCents lines ↔ d.CoversAll lines := by
  have hle : sumCents (lines.filter (lineQualifies d)) ≤ sumCents lines := applicable_le
  have hded : d.deduction lines = d.deducts (sumCents (lines.filter (lineQualifies d))) := rfl
  have hmin : d.deducts (sumCents (lines.filter (lineQualifies d))) ≤ sumCents (lines.filter (lineQualifies d)) :=
    Nat.min_le_left _ _
  rw [Discount.CoversAll, ← applicable_eq_iff, hded]
  constructor
  · intro h
    have happlicable : sumCents (lines.filter (lineQualifies d)) = sumCents lines :=
      le_antisymm hle (h.symm.trans_le hmin)
    exact ⟨happlicable, happlicable ▸ h⟩
  · rintro ⟨happlicable, h⟩
    rw [happlicable, h]

end Covers

/-! ## The two prices -/

section Prices
variable {lines : List (NewCartLine × Option Id)} {code : String} {now : Instant} {db : Db}

/-- The session prices lines as the preview does, and refuses what it finds ineligible. -/
theorem kioskPrice_preview (lines : List (NewCartLine × Option Id)) (now : Instant) (db : Db) (hcode : code ≠ "") :
    let answer := KioskPaymentService.preview (categorized lines) code (some .mercadopago) now db
    (answer.eligible = true ∧ ∃ price, kioskPrice lines (some code) now db = .ok price ∧
        price.discountTotal = answer.discountTotal ∧ price.total = answer.total) ∨
      answer.eligible = false ∧ ∃ e, kioskPrice lines (some code) now db = .error e := by
  dsimp only
  rw [kioskPrice, Option.filter_some, if_pos (decide_eq_true hcode)]
  dsimp only
  rw [KioskPaymentService.preview]
  cases hfound : DiscountRepository.findByCode code db with
  | none => exact .inr ⟨rfl, _, rfl⟩
  | some coupon =>
    dsimp only
    cases hreason : (calculateDiscountAmounts (categorized lines) coupon now (some .mercadopago)).ineligibilityReason with
    | none =>
      have hreason' := hreason
      rw [categorized] at hreason'
      rw [hreason']
      exact .inl ⟨rfl, _, rfl, rfl, rfl⟩
    | some reason =>
      have hreason' := hreason
      rw [categorized] at hreason'
      rw [hreason']
      cases reason <;> exact .inr ⟨rfl, _, rfl⟩

/-- The amounts of an eligible preview. -/
theorem preview_amounts {coupon : Discount} (hfound : DiscountRepository.findByCode code db = some coupon)
    (heligible : evaluateCouponEligibility coupon (sumCents ((categorized lines).filter (lineQualifies coupon))) now
      (some .mercadopago) = none) :
    (KioskPaymentService.preview (categorized lines) code (some .mercadopago) now db).total =
      sumCents (categorized lines) - coupon.deduction (categorized lines) := by
  rw [← amounts_reason] at heligible
  rw [KioskPaymentService.preview, hfound]
  dsimp only
  rw [heligible]
  dsimp only
  rcases amounts_cases (categorized lines) coupon now (some .mercadopago) with ⟨-, -, htotal⟩ | ⟨hreason, -⟩
  · exact htotal
  · exact absurd heligible hreason

end Prices

/-! ## The run of a session -/

/-- The cart that a session writes. -/
def KioskCall.cart (c : KioskCall) (locationId : Id) (currency : String) (lines : List (NewCartLine × Option Id))
    (price : CartRepository.Repricing) : Cart :=
  CartRepository.CreateInput.row
    { locationId, currency, subtotal := (lines.map (·.1.lineTotal)).sum, discountTotal := price.discountTotal,
      total := price.total, appliedDiscountCodeId := price.appliedDiscountCodeId,
      discountMetadata := price.discountMetadata, expiresAt := c.now + 120 * 1000, lines := lines.map (·.1) } c.cartId

/-- The payment attempt that it writes. -/
def KioskCall.attempt (c : KioskCall) (accountId : Id) (cart : Cart) : PaymentAttempt :=
  IntegrationRepository.CreateAttemptInput.row
    { cartId := cart.id, integrationAccountId := accountId, amount := cart.total, currency := cart.currency,
      customer := c.request.customer, notes := some (c.request.notes.getD "Cobro Kiosk QR Mercado Pago"),
      idempotencyKey := c.key } c.attemptId

section Run
variable {v s s' : Db}

variable {c : KioskCall} {db : Db} {account : IntegrationAccount} {locationId : Id} {issued : Preference}
  {lines : List (NewCartLine × Option Id)} {price : CartRepository.Repricing}

end Run

/-! ## The tables after a session -/

section Lines
variable {currency : String} {db : Db} {item : KioskPaymentItem} {line : NewCartLine × Option Id}

end Lines

/-- The tables after a session. -/
def KioskCall.after (db : Db) (rows : List (Idempotency.Record IdemRequest IdemResponse)) (cart : Cart)
    (attempt : PaymentAttempt) (routes : List ProviderResourceRoute) : Db :=
  { db with idempotency := rows, carts := db.carts ++ [cart], attempts := db.attempts ++ [attempt], routes := routes }

section Tables
open Constraint Constraints KioskCall
variable {db : Db} {rows : List (Idempotency.Record IdemRequest IdemResponse)} {cart : Cart}
  {attempt : PaymentAttempt} {routes : List ProviderResourceRoute}

/-- A cart that the tables take: lines of items, without options. -/
structure Cart.Fits (cart : Cart) (db : Db) : Prop where
  currency : cart.currency = db.settings.defaultCurrency
  subtotal : isMoney cart.subtotal = true
  discountTotal : isMoney cart.discountTotal = true
  total : isMoney cart.total = true
  version : 0 < cart.version
  items : ∀ l ∈ cart.lines, ∃ row ∈ db.items, l.itemId = some row.id ∧ l.comboId = none
  quantities : ∀ l ∈ cart.lines, 0 < l.quantity ∧ l.quantity < 2 ^ 31
  amounts : ∀ l ∈ cart.lines, isMoney l.unitPriceSnapshot = true ∧ isMoney l.lineTotal = true
  options : ∀ l ∈ cart.lines, l.options = []

/-- An attempt that the tables take. -/
structure PaymentAttempt.Fits (attempt : PaymentAttempt) (cart : Cart) (db : Db) : Prop where
  cart : attempt.cartId = cart.id
  account : ∃ account ∈ db.accounts, account.id = attempt.integrationAccountId
  positive : 0 < attempt.amount
  amount : isMoney attempt.amount = true

end Tables

/-! ## A preview and its session -/

namespace KioskCall
open Constraint
variable {isEmail : String → Bool} {c : KioskCall} {db : Db} {lines : List (NewCartLine × Option Id)}
  {coupon : Discount} {answer : KioskDiscountPreviewResponse}

theorem previewSchema_eq : kioskDiscountPreviewSchema c.preview =
    if areKioskItems c.items = true ∧ 1 ≤ Text.length (Text.trim c.discountCode) ∧
      Text.length (Text.trim c.discountCode) ≤ 50
    then some { c.preview with discountCode := Text.trim c.discountCode } else none := rfl

theorem previewSchema_iff : kioskDiscountPreviewSchema c.preview ≠ none ↔
    areKioskItems c.items = true ∧ 1 ≤ Text.length (Text.trim c.discountCode) ∧
      Text.length (Text.trim c.discountCode) ≤ 50 := by
  rw [previewSchema_eq]
  split
  · next h => exact iff_of_true (Option.some_ne_none _) h
  · next h => exact iff_of_false (not_not.2 rfl) h

theorem sessionSchema_iff {r : KioskPaymentSessionRequest} :
    createKioskPaymentSessionSchema isEmail c.session = some r ↔
      (areKioskItems c.items = true ∧ 1 ≤ Text.length c.customer.name ∧ c.customer.email.all isEmail = true ∧
        c.notes.all (Text.length · ≤ 255) = true ∧ decide (Text.length (Text.trim c.discountCode) ≤ 50) = true) ∧
        c.request = r := by
  have hcode : (c.session.discountCode.map Text.trim).all (Text.length · ≤ 50) =
      decide (Text.length (Text.trim c.discountCode) ≤ 50) := by
    show ((some c.discountCode).map Text.trim).all _ = _
    rw [Option.map_some, Option.all_some]
  rw [createKioskPaymentSessionSchema]
  split
  · next h =>
    rw [hcode] at h
    exact ⟨fun heq => ⟨h, Option.some.inj heq⟩, fun heq => congrArg some heq.2⟩
  · next h =>
    rw [hcode] at h
    refine iff_of_false (Option.some_ne_none _).symm ?_
    rintro ⟨haccepted, -⟩
    exact h haccepted

/-- A session that can proceed is as well formed as its preview. -/
theorem Ready.parsed (hready : c.Ready isEmail db) (hschema : kioskDiscountPreviewSchema c.preview ≠ none) :
    createKioskPaymentSessionSchema isEmail c.session = some c.request := by
  obtain ⟨hitems, -, hcode⟩ := previewSchema_iff.1 hschema
  rw [sessionSchema_iff]
  exact ⟨⟨hitems, hready.name, hready.email, hready.notes, decide_eq_true hcode⟩, rfl⟩

theorem code_of_schema (h : kioskDiscountPreviewSchema c.preview ≠ none) : Text.trim c.discountCode ≠ "" := by
  intro hempty
  have hlength := (previewSchema_iff.1 h).2.1
  rw [hempty] at hlength
  exact absurd hlength (by decide)

theorem reports_iff : c.Reports db answer ↔ kioskDiscountPreviewSchema c.preview ≠ none ∧
    ∃ lines, c.items.mapM (kioskLine db.settings.defaultCurrency db) = .ok lines ∧
      answer = KioskPaymentService.preview (categorized lines) (Text.trim c.discountCode) (some .mercadopago) c.now db := by
  have hparsed : ∀ request, kioskDiscountPreviewSchema c.preview = some request →
      request = { c.preview with discountCode := Text.trim c.discountCode } := by
    intro request h
    rw [previewSchema_eq] at h
    split at h
    · exact (Option.some.inj h).symm
    · cases h
  rw [Reports]
  simp only [parsedPreview, previewDiscount, commits_orThrow_bind, commits_look_bind, commits_fromExcept_bind,
    commits_look]
  constructor
  · rintro ⟨db', request, hschema, lines, hlines, hanswer, -⟩
    obtain rfl := hparsed request hschema
    exact ⟨hschema ▸ Option.some_ne_none _, lines, hlines, hanswer.symm⟩
  · rintro ⟨hschema, lines, hlines, hanswer⟩
    obtain ⟨request, hschema⟩ := Option.ne_none_iff_exists'.1 hschema
    obtain rfl := hparsed request hschema
    exact ⟨db, _, hschema, lines, hlines, hanswer.symm, rfl⟩

/-- After an ineligible preview there is no new session. -/
theorem rejects (hreports : c.Reports db answer) (hineligible : answer.eligible = false)
    (hnew : ∀ status stored, ¬ c.Claims db (.replay status stored)) (body : KioskPaymentSessionResponse) (db' : Db) :
    ¬ c.Creates isEmail db body db' := by
  obtain ⟨hschema, lines, hlines, hanswer⟩ := reports_iff.1 hreports
  rw [hanswer] at hineligible
  intro h
  obtain ⟨request, hrequest, h⟩ := commits_orThrow_bind.1 h
  obtain ⟨-, rfl⟩ := sessionSchema_iff.1 hrequest
  obtain ⟨h, -⟩ := commits_checked.1 h
  rw [createSession, commits_look_bind, commits_orThrow_bind] at h
  obtain ⟨account, -, h⟩ := h
  obtain ⟨claim, db₁, hclaim, h⟩ := commits_bind.1 h
  cases claim with
  | replay status stored => exact hnew status stored ⟨db₁, hclaim⟩
  | claimed id stored =>
    dsimp only at h
    simp only [commits_look_bind, commits_orThrow_bind, commits_fromExcept_bind] at h
    obtain ⟨locationId, -, lines', hlines', price, hprice, -⟩ := h
    obtain rfl := Except.ok.inj (hlines.symm.trans hlines')
    rcases kioskPrice_preview lines c.now db (code_of_schema hschema) with
      ⟨heligible, -⟩ | ⟨-, e, herror⟩
    · rw [hineligible] at heligible
      cases heligible
    · cases herror.symm.trans hprice

section Stored
variable {price : CartRepository.Repricing} {locationId : Id} {account : IntegrationAccount}

/-- Something is left to pay unless the coupon covers all. -/
theorem Applies.total_eq_zero (h : c.Applies db lines coupon) :
    (KioskPaymentService.preview (categorized lines) (Text.trim c.discountCode) (some .mercadopago) c.now db).total = 0 ↔
      coupon.CoversAll (categorized lines) := by
  rw [preview_amounts h.found h.eligible, ← deduction_eq_iff, Nat.sub_eq_zero_iff_le]
  exact ⟨fun hle => le_antisymm deduction_le hle, fun heq => heq.ge⟩

end Stored

end KioskCall

namespace Demo

def burgerMenu : CatalogCombo where
  id := "menu"
  categoryId := none
  name := "Menu"
  price := 900
  currency := "ARS"
  status := .active
  media := none
  itemIds := ["burger"]

def kiosk (coupon : Discount) : Db :=
  { Db.fresh "tenant" settings with accounts := [account], items := [burger], combos := [burgerMenu], discounts := [coupon] }

/-- Two of what has the id, with the coupon. -/
def order (catalogItemId : Id) : KioskCall where
  items := [{ catalogItemId, quantity := 2 }]
  discountCode := "ten"
  customer
  notes := none
  key := "key"
  recordId := "record"
  cartId := "cart"
  attemptId := "attempt"
  preference := .ok { preferenceId := "preference", redirectUrl := "https" }
  now := 1

end Demo

open Demo

namespace Demo

end Demo

end Komanda
