import Komanda.Proofs.CouponChannels

/-!
# The coupon of a cart and its conversion

`CartService.get` asks the coupon of a cart again, on the lines that qualify for it; the two conversions ask it on the
whole cart, with their tender, and carry the discount that is stored.
-/

namespace Komanda
open Transaction

/-- `get` keeps the coupon on the cart, with the same discount. -/
def KeepsCoupon (cart : Cart) (now : Instant) (db : Db) : Prop :=
  ∃ c db', Commits (CartService.get cart.id now) db db c db' ∧
    c.appliedDiscountCodeId = cart.appliedDiscountCodeId ∧ c.discountTotal = cart.discountTotal

/-- A conversion with the tender accepts the cart and its coupon. -/
def AcceptsCoupon (tender : Tender) (cart : Cart) (now : Instant) (db : Db) : Prop :=
  CartService.unavailable now cart = false ∧ CreateCashOrderService.couponObstacle cart now tender db = none

instance (tender : Tender) (cart : Cart) (now : Instant) (db : Db) : Decidable (AcceptsCoupon tender cart now db) :=
  inferInstanceAs (Decidable (_ ∧ _))

/-- The lines that qualify are worth something and reach the minimum of the coupon if the whole cart does. -/
def QualifiesAsWhole (d : Discount) (lines : List CartLineForDiscount) : Prop :=
  0 < sumCents lines → d.minOrderAmount ≤ sumCents lines →
    0 < sumCents (lines.filter (lineQualifies d)) ∧ d.minOrderAmount ≤ sumCents (lines.filter (lineQualifies d))

instance (d : Discount) (lines : List CartLineForDiscount) : Decidable (QualifiesAsWhole d lines) :=
  inferInstanceAs (Decidable (_ → _ → _ ∧ _))

section Rules
variable {d : Discount} {lines : List CartLineForDiscount} {now : Instant} {tender : Option Tender} {a b : Cents}

/-- The part of the eligibility that does not depend on the subtotal. -/
def Discount.current (d : Discount) (now : Instant) : Prop :=
  d.isActive = true ∧ d.startsAt ≤ now ∧ d.endsAt.any (· < now) = false ∧
    d.maxRedemptions.any (d.redemptionsCount ≥ ·) = false

theorem eligible_iff : evaluateCouponEligibility d a now tender = none ↔
    d.admits tender = true ∧ d.current now ∧ 0 < a ∧ d.minOrderAmount ≤ a := by
  rw [eligibility_tender]
  cases d.admits tender with
  | false => exact iff_of_false (Option.some_ne_none _) fun h => Bool.false_ne_true h.1
  | true =>
    have htender : ¬ (d.applicableTender = .cash ∧ (none : Option Tender) ≠ none ∧ (none : Option Tender) ≠ some .cash) :=
      fun h => h.2.1 rfl
    rw [if_pos rfl, evaluateCouponEligibility, first_reason, first_reason, first_reason, first_reason, first_reason,
      first_reason, first_reason, not_not, not_lt, Bool.not_eq_true, Bool.not_eq_true, not_lt, Discount.current,
      Nat.pos_iff_ne_zero]
    constructor
    · rintro ⟨-, hactive, hstart, hend, hlimit, hzero, hmin, -⟩
      exact ⟨rfl, ⟨hactive, hstart, hend, hlimit⟩, hzero, hmin⟩
    · rintro ⟨-, ⟨hactive, hstart, hend, hlimit⟩, hzero, hmin⟩
      exact ⟨htender, hactive, hstart, hend, hlimit, hzero, hmin, rfl⟩

end Rules

section Decisions
variable {cart : Cart} {id : Id} {d : Discount} {now : Instant} {db : Db} {tender : Tender}

/-- What `get` answers about a stored cart with a coupon. -/
theorem get_commits_iff (hfind : CartRepository.find cart.id db = some cart)
    (hid : cart.appliedDiscountCodeId = some id)
    {c : Cart} : (∃ db', Commits (CartService.get cart.id now) db db c db') ↔
      CartService.unavailable now cart = false ∧
        c = ((CartService.revalidateDiscount cart id now db).map fun r => r.apply cart).getD cart := by
  have hprice : (fun db => cart.appliedDiscountCodeId.bind fun discountId =>
      CartService.revalidateDiscount cart discountId now db) = fun db => CartService.revalidateDiscount cart id now db := by
    rw [hid]; rfl
  have hrun (havailable : CartService.unavailable now cart = false) :
      (∃ db', Commits (CartService.get cart.id now) db db c db') ↔
        c = ((CartService.revalidateDiscount cart id now db).map fun r => r.apply cart).getD cart := by
    have hfound : Commits (CartService.findAvailable cart.id now) db db cart db :=
      (findAvailable_iff hfind).2 ⟨havailable, rfl, rfl⟩
    simp only [CartService.get, commits_bind_of hfound, hprice, commits_look_bind]
    cases CartService.revalidateDiscount cart id now db with
    | none => simp [eq_comm]
    | some r => simp [-bind_pure_comp, commits_bind_of (reprice_commits r hfind), eq_comm]
  constructor
  · rintro ⟨db', h⟩
    obtain ⟨found, s₁, ha, -⟩ := commits_bind.1 h
    have havailable := ((findAvailable_iff hfind).1 ha).1
    exact ⟨havailable, (hrun havailable).1 ⟨db', h⟩⟩
  · rintro ⟨havailable, hc⟩
    exact (hrun havailable).2 hc

/-- `get` keeps the coupon that is there, can be used, and takes off what is stored. -/
theorem keepsCoupon_iff (hfind : CartRepository.find cart.id db = some cart)
    (hid : cart.appliedDiscountCodeId = some id) :
    KeepsCoupon cart now db ↔ CartService.unavailable now cart = false ∧ ∃ d ∈ DiscountRepository.findById id db,
      (calculateDiscountAmounts (CartService.linesForDiscount cart.lines) d now none).ineligibilityReason = none ∧
        cart.discountTotal = d.deduction (CartService.linesForDiscount cart.lines) := by
  have hget : KeepsCoupon cart now db ↔ CartService.unavailable now cart = false ∧
      ∀ r ∈ CartService.revalidateDiscount cart id now db, r.appliedDiscountCodeId = cart.appliedDiscountCodeId ∧
        r.discountTotal = cart.discountTotal := by
    have hcommits : KeepsCoupon cart now db ↔ ∃ c, (∃ db', Commits (CartService.get cart.id now) db db c db') ∧
        c.appliedDiscountCodeId = cart.appliedDiscountCodeId ∧ c.discountTotal = cart.discountTotal := by
      simp only [KeepsCoupon, exists_and_right]
    rw [hcommits]
    simp only [get_commits_iff hfind hid, and_assoc, exists_and_left, exists_eq_left]
    cases CartService.revalidateDiscount cart id now db with
    | none => simp
    | some r => simp [CartRepository.Repricing.apply]
  rw [hget, hid]
  refine and_congr_right fun _ => ?_
  unfold CartService.revalidateDiscount
  dsimp only
  cases hd : DiscountRepository.findById id db with
  | none => simp
  | some d =>
    dsimp only
    have hdid : d.id = id := by
      have hfound := List.find?_some hd
      exact of_decide_eq_true (Bool.and_eq_true_iff.1 hfound).1
    simp only [Option.mem_some_iff, exists_eq_left']
    rcases amounts_cases (CartService.linesForDiscount cart.lines) d now none with ⟨hreason, hamount, -⟩ | ⟨hreason, -⟩
    · rw [if_neg (not_not.2 hreason), hamount]
      split
      · simp [hdid, hreason, eq_comm]
      · next hsame =>
        have hstored : d.deduction (CartService.linesForDiscount cart.lines) = cart.discountTotal :=
          not_not.1 fun hne => hsame (.inl hne)
        simp [hreason, hstored]
    · rw [if_pos hreason]
      simp [hreason]

theorem acceptsCoupon_iff (hid : cart.appliedDiscountCodeId = some id)
    (hd : DiscountRepository.findById id db = some d) :
    AcceptsCoupon tender cart now db ↔ CartService.unavailable now cart = false ∧ d.admits (some tender) = true ∧
      d.current now ∧ 0 < sumCents (CartService.linesForDiscount cart.lines) ∧
        d.minOrderAmount ≤ sumCents (CartService.linesForDiscount cart.lines) := by
  rw [AcceptsCoupon, CreateCashOrderService.couponObstacle, hid, Option.bind_some, hd, Option.bind_some, eligible_iff,
    sumCents_lines]

/-- Where `get` keeps the coupon, the conversion in cash takes it, the one online takes it unless it is for cash, and
both carry what the coupon takes off. -/
theorem accepts_of_keeps (hfind : CartRepository.find cart.id db = some cart)
    (hid : cart.appliedDiscountCodeId = some id) (h : KeepsCoupon cart now db) :
    ∃ d ∈ DiscountRepository.findById id db, AcceptsCoupon .cash cart now db ∧
      (AcceptsCoupon .mercadopago cart now db ↔ d.admits (some .mercadopago) = true) ∧
        cart.discountTotal = d.deduction (CartService.linesForDiscount cart.lines) := by
  obtain ⟨havailable, d, hd, hreason, hstored⟩ := (keepsCoupon_iff hfind hid).1 h
  rw [amounts_reason, eligible_iff] at hreason
  obtain ⟨-, hcurrent, hpos, hmin⟩ := hreason
  -- the whole cart is worth no less than what qualifies
  have hle : sumCents _ ≤ sumCents (CartService.linesForDiscount cart.lines) := applicable_le (d := d)
  have haccepts (tender : Tender) : AcceptsCoupon tender cart now db ↔ d.admits (some tender) = true := by
    rw [acceptsCoupon_iff hid hd]
    constructor
    · exact fun h => h.2.1
    · exact fun h => ⟨havailable, h, hcurrent, hpos.trans_le hle, hmin.trans hle⟩
  refine ⟨d, hd, (haccepts .cash).2 ?_, haccepts .mercadopago, hstored⟩
  simp [Discount.admits]

/-- Where a conversion takes a coupon that is there, whose lines qualify as the whole cart does and which takes off what
is stored, `get` keeps it. -/
theorem keeps_of_accepts (hfind : CartRepository.find cart.id db = some cart)
    (hid : cart.appliedDiscountCodeId = some id) (hd : DiscountRepository.findById id db = some d)
    (hqualifies : QualifiesAsWhole d (CartService.linesForDiscount cart.lines))
    (hstored : cart.discountTotal = d.deduction (CartService.linesForDiscount cart.lines))
    (h : AcceptsCoupon tender cart now db) : KeepsCoupon cart now db := by
  obtain ⟨havailable, -, hcurrent, hpos, hmin⟩ := (acceptsCoupon_iff hid hd).1 h
  obtain ⟨hpos, hmin⟩ := hqualifies hpos hmin
  refine (keepsCoupon_iff hfind hid).2 ⟨havailable, d, hd, ?_, hstored⟩
  rw [amounts_reason, eligible_iff]
  exact ⟨by simp [Discount.admits], hcurrent, hpos, hmin⟩

/-- How the decisions about the coupon of a cart hang together. -/
structure DecisionsAgree (cart : Cart) (id : Id) (now : Instant) (db : Db) : Prop where
  kept : KeepsCoupon cart now db → ∃ d ∈ DiscountRepository.findById id db, AcceptsCoupon .cash cart now db ∧
    (AcceptsCoupon .mercadopago cart now db ↔ d.admits (some .mercadopago) = true) ∧
      ∀ input : SnapshotInput, input.cart = cart → ∀ draw purchaseNumber activeCount,
        (OrderRepository.newOrder input draw purchaseNumber activeCount).discountTotal =
          d.deduction (CartService.linesForDiscount cart.lines)
  accepted : ∀ d ∈ DiscountRepository.findById id db, QualifiesAsWhole d (CartService.linesForDiscount cart.lines) →
    cart.discountTotal = d.deduction (CartService.linesForDiscount cart.lines) →
      (AcceptsCoupon .cash cart now db ↔ KeepsCoupon cart now db) ∧
        (AcceptsCoupon .mercadopago cart now db ↔ KeepsCoupon cart now db ∧ d.admits (some .mercadopago) = true)

/-- The decisions of `get` and of the two conversions about the coupon of a stored cart. -/
theorem coupon_decisions_agree (hfind : CartRepository.find cart.id db = some cart)
    (hid : cart.appliedDiscountCodeId = some id) : DecisionsAgree cart id now db := by
  constructor
  · intro h
    obtain ⟨d, hd, hcash, honline, hstored⟩ := accepts_of_keeps hfind hid h
    refine ⟨d, hd, hcash, honline, fun input hinput draw n active => ?_⟩
    rw [← hstored, ← hinput]
    rfl
  · intro d hd hqualifies hstored
    have hkeeps {tender : Tender} (h : AcceptsCoupon tender cart now db) : KeepsCoupon cart now db :=
      keeps_of_accepts hfind hid hd hqualifies hstored h
    refine ⟨⟨hkeeps, fun h => ?_⟩, ⟨fun h => ⟨hkeeps h, ?_⟩, ?_⟩⟩
    · obtain ⟨-, -, hcash, -⟩ := accepts_of_keeps hfind hid h
      exact hcash
    · exact ((acceptsCoupon_iff hid hd).1 h).2.1
    · rintro ⟨h, hadmits⟩
      obtain ⟨d', hd', -, honline, -⟩ := accepts_of_keeps hfind hid h
      cases hd.symm.trans hd'
      exact honline.2 hadmits

end Decisions

namespace Demo

/-- A cart of one burger at ten percent off. -/
def tenOff : Cart where
  id := "cart"
  locationId := "location"
  status := .validated
  currency := "ARS"
  subtotal := 1000
  discountTotal := 100
  total := 900
  appliedDiscountCodeId := some "discount"
  discountMetadata := some (CartService.metadata tenPercent 100)
  expiresAt := 10
  version := 2
  lines := [burgerLine.1.row]

/-- The cart is stored, and the coupon is as it is now. -/
def today (coupon : Discount) : Db := { offering coupon with carts := [tenOff] }

def deleted : Discount := { tenPercent with deletedAt := some 0 }
def saladOnly : Discount := { tenPercent with scope := .item, targetItemIds := ["salad"] }
def twentyPercent : Discount := { tenPercent with discountValue := 2000 }

end Demo

open Demo

theorem coupon_decisions_agree_ten_percent : DecisionsAgree tenOff "discount" 1 (today tenPercent) :=
  coupon_decisions_agree (by decide +kernel) rfl

/-- A coupon for cash is kept and refused online; one that has been deleted, one that has been moved to other items and
one that has been changed to twenty percent are accepted, and not kept. -/
theorem coupon_decisions_differ :
    (KeepsCoupon tenOff 1 (today cashOnly) ∧ ¬ AcceptsCoupon .mercadopago tenOff 1 (today cashOnly)) ∧
    (AcceptsCoupon .cash tenOff 1 (today deleted) ∧ ¬ KeepsCoupon tenOff 1 (today deleted)) ∧
    (AcceptsCoupon .cash tenOff 1 (today saladOnly) ∧ ¬ KeepsCoupon tenOff 1 (today saladOnly)) ∧
    AcceptsCoupon .cash tenOff 1 (today twentyPercent) ∧ ¬ KeepsCoupon tenOff 1 (today twentyPercent) := by
  have hkeeps (coupon : Discount) := @keepsCoupon_iff tenOff "discount" 1 (today coupon) rfl rfl
  simp only [hkeeps]
  decide +kernel

end Komanda
