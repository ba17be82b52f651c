import Mathlib.Algebra.Order.BigOperators.Group.List
import Mathlib.Algebra.Order.Group.Nat
import Mathlib.Data.Rat.Floor
import Mathlib.Data.List.Perm.Subperm
import Komanda.Discounts

/-!
# The rules of coupons (`discount.rules.ts`)

`prorateLineDiscounts` rounds the share of every line but the last on its own and leaves the rest to the last, as far as
it goes: it spreads the discount exactly iff the last line can bear what the roundings add up to.

The discount itself depends on the lines through their qualifying subtotal alone; `Discount.deducts` is that function.
-/

namespace Komanda
open Proration

/-! ## Spreading a discount -/

/-- One entry for each line in order, with a part of the line, and the parts add up to the discount. -/
structure SpreadsExactly (lines : List CartLineForDiscount) (discountTotalCents : Cents)
    (result : List LineDiscount) : Prop where
  ids : result.map (·.lineId) = lines.map (·.id)
  parts : List.Forall₂ (fun d l => d.lineDiscountCents ≤ l.lineTotalCents ∧
    d.discountedLineTotalCents = l.lineTotalCents - d.lineDiscountCents) result lines
  sum : (result.map (·.lineDiscountCents)).sum = discountTotalCents

section Spreading
variable {lines : List CartLineForDiscount} {s d allocated : Cents}

theorem prorateFrom_ids : (prorateFrom s d allocated lines).map (·.lineId) = lines.map (·.id) := by
  induction lines generalizing allocated with
  | nil => rfl
  | cons line rest ih => exact congrArg (line.id :: ·) ih

theorem prorateFrom_parts : List.Forall₂ (fun d l => d.lineDiscountCents ≤ l.lineTotalCents ∧
    d.discountedLineTotalCents = l.lineTotalCents - d.lineDiscountCents) (prorateFrom s d allocated lines) lines := by
  induction lines generalizing allocated with
  | nil => exact .nil
  | cons line rest ih => exact .cons ⟨Nat.min_le_left .., rfl⟩ ih

/-- The parts are those of the line totals. -/
theorem prorateFrom_amounts : (prorateFrom s d allocated lines).map (·.lineDiscountCents) =
    prorate (halfUp s d) d allocated (lines.map (·.lineTotalCents)) := by
  induction lines generalizing allocated with
  | nil => rfl
  | cons line rest ih =>
    rw [prorateFrom, List.map_cons, ih]
    cases rest with
    | nil => rfl
    | cons line' rest => rfl

theorem noDiscount_spreads : SpreadsExactly lines 0 (lines.map fun l =>
    { lineId := l.id, lineDiscountCents := 0, discountedLineTotalCents := l.lineTotalCents }) := by
  refine ⟨by rw [List.map_map]; rfl, ?_, ?_⟩
  · rw [List.forall₂_map_left_iff, List.forall₂_same]
    exact fun l _ => ⟨Nat.zero_le _, rfl⟩
  · rw [List.map_map]
    exact List.sum_eq_zero fun n hn => (List.mem_map.1 hn).elim fun _ h => h.2.symm

end Spreading

theorem bearable_zero (lines : List ℕ) : Bearable 0 lines := by
  have hdrift : drift 0 lines = 0 := by
    refine List.sum_eq_zero fun n hn => ?_
    obtain ⟨l, hl, rfl⟩ := List.mem_map.1 hn
    rw [rounding, Nat.mul_zero, Nat.zero_mod]
    split
    · next h => rw [Nat.le_zero.1 h]; rfl
    · rfl
  rw [Bearable, hdrift]
  constructor
  · simp only [Nat.cast_zero, mul_zero, le_refl]
  · rw [Nat.cast_zero, sub_zero, neg_zero]
    positivity

/-- The discount is spread exactly iff what rounding adds to the shares before the last is at most the last line's exact
share, and what it takes from them at most the rest of that line. -/
theorem line_proration_iff (lines : List CartLineForDiscount) (discountTotalCents : Cents)
    (h : discountTotalCents ≤ sumCents lines) :
    SpreadsExactly lines discountTotalCents (prorateLineDiscounts lines discountTotalCents) ↔
      Bearable discountTotalCents (lines.map (·.lineTotalCents)) := by
  unfold prorateLineDiscounts
  split
  · next hnone =>
    have hd : discountTotalCents = 0 := by
      rcases hnone with rfl | hd
      · exact Nat.le_zero.1 h
      · exact hd
    subst hd
    exact iff_of_true noDiscount_spreads (bearable_zero _)
  · next hsome =>
    have hpos : 0 < sumCents lines := Nat.lt_of_lt_of_le (Nat.pos_of_ne_zero fun hd => hsome (.inr hd)) h
    rw [if_neg (Nat.ne_of_gt hpos), ← absorbed_iff h hpos, ← sum_prorate h, ← prorateFrom_amounts]
    constructor
    · intro hspread
      exact hspread.sum
    · intro hsum
      exact ⟨prorateFrom_ids, prorateFrom_parts, hsum⟩

namespace DiscountRules

def line (id : Id) (lineTotalCents : Cents) : CartLineForDiscount := { id, resourceId := none, lineTotalCents }

/-- Three lines of nearly the same price. -/
def thirds : List CartLineForDiscount := [line "1" 333333, line "2" 333333, line "3" 333334]

/-- Half of each of the first three lines ends on half a cent. -/
def halves : List CartLineForDiscount := [line "1" 1005, line "2" 1005, line "3" 1005, line "4" 1]

end DiscountRules

open DiscountRules

theorem line_proration_thirds : SpreadsExactly thirds 100000 (prorateLineDiscounts thirds 100000) :=
  (line_proration_iff thirds 100000 (by decide)).2 (by decide)

/-- The first three lines get a cent more than the discount. -/
theorem halves_overspent : 1508 ≤ sumCents halves ∧ ¬SpreadsExactly halves 1508 (prorateLineDiscounts halves 1508) := by
  refine ⟨by decide, fun h => ?_⟩
  have hsum : ((prorateLineDiscounts halves 1508).map (·.lineDiscountCents)).sum = 1509 := by decide
  rw [h.sum] at hsum
  cases hsum

/-! ## What a coupon takes off -/

/-- What a coupon that can be used takes off the lines. -/
def Discount.deduction (d : Discount) (lines : List CartLineForDiscount) : Cents :=
  let applicable := sumCents (lines.filter (lineQualifies d))
  min applicable (match d.discountType with
    | .percentage => percentageCents applicable d.discountValue
    | .fixedAmount => d.discountValue)

section Amounts
variable {lines : List CartLineForDiscount} {d : Discount} {now : Instant} {tender : Option Tender}

theorem applicable_le : sumCents (lines.filter (lineQualifies d)) ≤ sumCents lines :=
  List.Sublist.sum_le_sum (List.filter_sublist.map _) fun _ _ => Nat.zero_le _

theorem deduction_le : d.deduction lines ≤ sumCents lines := (Nat.min_le_left _ _).trans applicable_le

/-- The amounts of a coupon that can be used, and of one that cannot. -/
theorem amounts_cases (lines : List CartLineForDiscount) (d : Discount) (now : Instant) (tender : Option Tender) :
    let result := calculateDiscountAmounts lines d now tender
    result.ineligibilityReason = none ∧ result.discountTotalCents = d.deduction lines ∧
        result.totalCents = sumCents lines - d.deduction lines ∨
      result.ineligibilityReason ≠ none ∧ result.discountTotalCents = 0 ∧ result.totalCents = sumCents lines := by
  unfold calculateDiscountAmounts
  dsimp only
  split
  · exact .inr ⟨Option.some_ne_none _, rfl, rfl⟩
  · exact .inl ⟨rfl, rfl, rfl⟩

theorem amounts_add : (calculateDiscountAmounts lines d now tender).discountTotalCents +
    (calculateDiscountAmounts lines d now tender).totalCents = sumCents lines := by
  have hle : d.deduction lines ≤ sumCents lines := deduction_le
  rcases amounts_cases lines d now tender with ⟨-, h, h'⟩ | ⟨-, h, h'⟩
  · rw [h, h']; exact Nat.add_sub_of_le hle
  · rw [h, h']; exact Nat.zero_add _

theorem amounts_reason : (calculateDiscountAmounts lines d now tender).ineligibilityReason =
    evaluateCouponEligibility d (sumCents (lines.filter (lineQualifies d))) now tender := by
  unfold calculateDiscountAmounts
  dsimp only
  split
  · next h => exact h.symm
  · next h => exact h.symm

/-- A list of reasons has none when its first does not apply and the others are none. -/
theorem first_reason {c : Prop} [Decidable c] {reason : IneligibilityReason} {others : Option IneligibilityReason} :
    (if c then some reason else others) = none ↔ ¬ c ∧ others = none := by
  by_cases hc : c
  · rw [if_pos hc]
    exact iff_of_false (Option.some_ne_none _) fun h => h.1 hc
  · rw [if_neg hc]
    exact (and_iff_right hc).symm

end Amounts

/-! ## The calculation -/

/-- The line is one that the coupon is meant for. -/
def Discount.Covers (coupon : Discount) (line : CartLineForDiscount) : Prop :=
  match coupon.scope with
  | .global => True
  | .category => ∃ id, line.categoryId = some id ∧ id ∈ coupon.targetCategoryIds
  | .item => ∃ id, line.resourceId = some id ∧ id ∈ coupon.targetItemIds

/-- The coupon can be used, with this tender, on lines of this qualifying subtotal. -/
structure Discount.Accepts (coupon : Discount) (qualifying : Cents) (now : Instant) (tender : Option Tender) :
    Prop where
  tender : coupon.applicableTender = .cash → tender = none ∨ tender = some .cash
  active : coupon.isActive = true
  started : coupon.startsAt ≤ now
  unexpired : ∀ endsAt ∈ coupon.endsAt, now ≤ endsAt
  unexhausted : ∀ limit ∈ coupon.maxRedemptions, coupon.redemptionsCount < limit
  qualifies : 0 < qualifying
  minimum : coupon.minOrderAmount ≤ qualifying

/-- The integer nearest to `x`, of two the larger. -/
def roundHalfUp (x : ℚ) : ℤ := ⌊x + 1 / 2⌋

/-- What the coupon is worth on lines of this qualifying subtotal; percentages are stored in hundredths. -/
def Discount.worth (coupon : Discount) (qualifying : Cents) : ℤ :=
  match coupon.discountType with
  | .percentage => roundHalfUp (qualifying * ((coupon.discountValue / 100 : ℚ) / 100))
  | .fixedAmount => coupon.discountValue

/-- The totals of the lines that qualify. -/
def qualifyingTotals (coupon : Discount) (lines : List CartLineForDiscount) : List Cents :=
  (lines.filter (lineQualifies coupon)).map (·.lineTotalCents)

/-- To each amount of `m` there is another of `n` that is at least as large. -/
def Dominated (m n : List Cents) : Prop := ∃ k, List.Forall₂ (· ≤ ·) m k ∧ k.Subperm n

/-- What a calculation of discounts has to do. -/
structure CalculatesDiscounts
    (calculate : List CartLineForDiscount → Discount → Instant → Option Tender → DiscountCalculationResult) :
    Prop where
  qualifying : ∀ coupon line, lineQualifies coupon line = true ↔ 0 < line.lineTotalCents ∧ coupon.Covers line
  subtotal : ∀ lines coupon now tender, (calculate lines coupon now tender).subtotalCents = sumCents lines
  applicable : ∀ lines coupon now tender,
    (calculate lines coupon now tender).applicableSubtotalCents = (qualifyingTotals coupon lines).sum
  eligible : ∀ lines coupon now tender, (calculate lines coupon now tender).isEligible = true ↔
    coupon.Accepts (qualifyingTotals coupon lines).sum now tender
  qualifyingLines : ∀ lines coupon now tender, (calculate lines coupon now tender).isEligible = true →
    (calculate lines coupon now tender).qualifyingLineIds = (lines.filter (lineQualifies coupon)).map (·.id)
  discount : ∀ lines coupon now tender, (calculate lines coupon now tender).isEligible = true →
    ((calculate lines coupon now tender).discountTotalCents : ℤ) =
      min ((qualifyingTotals coupon lines).sum : ℤ) (coupon.worth (qualifyingTotals coupon lines).sum)
  noDiscount : ∀ lines coupon now tender, (calculate lines coupon now tender).isEligible = false →
    (calculate lines coupon now tender).discountTotalCents = 0
  bounds : ∀ lines coupon now tender,
    (calculate lines coupon now tender).discountTotalCents ≤
      (calculate lines coupon now tender).applicableSubtotalCents ∧
    (calculate lines coupon now tender).applicableSubtotalCents ≤ (calculate lines coupon now tender).subtotalCents
  total : ∀ lines coupon now tender, (calculate lines coupon now tender).totalCents =
    (calculate lines coupon now tender).subtotalCents - (calculate lines coupon now tender).discountTotalCents
  order : ∀ lines lines' coupon now tender,
    (qualifyingTotals coupon lines).Perm (qualifyingTotals coupon lines') →
      (calculate lines coupon now tender).discountTotalCents = (calculate lines' coupon now tender).discountTotalCents
  monotone : ∀ lines lines' coupon now tender,
    Dominated (qualifyingTotals coupon lines) (qualifyingTotals coupon lines') →
      (calculate lines coupon now tender).discountTotalCents ≤ (calculate lines' coupon now tender).discountTotalCents
  value : ∀ lines coupon discountValue now tender, coupon.discountValue ≤ discountValue →
    (calculate lines coupon now tender).discountTotalCents ≤
      (calculate lines { coupon with discountValue } now tender).discountTotalCents
  texts : ∀ lines coupon now tender,
    moneyToCents (calculate lines coupon now tender).subtotal = some (calculate lines coupon now tender).subtotalCents ∧
    moneyToCents (calculate lines coupon now tender).discountTotal =
      some (calculate lines coupon now tender).discountTotalCents ∧
    moneyToCents (calculate lines coupon now tender).total = some (calculate lines coupon now tender).totalCents

section Calculation
variable {lines lines' : List CartLineForDiscount} {coupon : Discount} {now : Instant} {tender : Option Tender}
  {qualifying : Cents} {m n : List Cents}

theorem lineQualifies_iff {line : CartLineForDiscount} :
    lineQualifies coupon line = true ↔ 0 < line.lineTotalCents ∧ coupon.Covers line := by
  rw [lineQualifies, Bool.and_eq_true, decide_eq_true_eq, Discount.Covers]
  refine and_congr_right fun _ => ?_
  cases coupon.scope with
  | global => exact iff_of_true rfl trivial
  | category => simp only [Option.any_eq_true, List.contains_eq_mem, decide_eq_true_eq]
  | item => simp only [Option.any_eq_true, List.contains_eq_mem, decide_eq_true_eq]

theorem none_meets {α : Type} {o : Option α} {p : α → Bool} : ¬o.any p = true ↔ ∀ x ∈ o, p x = false := by
  rw [Bool.not_eq_true]
  cases o with
  | none => exact iff_of_true rfl fun x hx => absurd hx (Option.not_mem_none x)
  | some x => exact ⟨fun h y hy => Option.mem_some.1 hy ▸ h, fun h => h x rfl⟩

theorem eligibility_iff : evaluateCouponEligibility coupon qualifying now tender = none ↔
    coupon.Accepts qualifying now tender := by
  simp only [evaluateCouponEligibility, first_reason, not_and, not_not, not_lt, none_meets, decide_eq_false_iff_not,
    not_le, ge_iff_le, gt_iff_lt, and_true]
  have htender : (coupon.applicableTender = .cash → tender ≠ none → tender = some .cash) ↔
      (coupon.applicableTender = .cash → tender = none ∨ tender = some .cash) :=
    forall_congr' fun _ => or_iff_not_imp_left.symm
  rw [htender]
  constructor
  · rintro ⟨htender, hactive, hstart, hend, hlimit, hzero, hmin⟩
    exact ⟨htender, hactive, hstart, hend, hlimit, Nat.pos_of_ne_zero hzero, hmin⟩
  · intro h
    exact ⟨h.tender, h.active, h.started, h.unexpired, h.unexhausted, Nat.ne_of_gt h.qualifies, h.minimum⟩

theorem isEligible_iff : (calculateDiscountAmounts lines coupon now tender).isEligible = true ↔
    coupon.Accepts (qualifyingTotals coupon lines).sum now tender := by
  rw [DiscountCalculationResult.isEligible, Option.isNone_iff_eq_none, amounts_reason, eligibility_iff]
  rfl

/-! ### What it is worth -/

/-- The amount that is taken off lines of this qualifying subtotal. -/
def Discount.deducts (coupon : Discount) (qualifying : Cents) : Cents :=
  min qualifying (match coupon.discountType with
    | .percentage => percentageCents qualifying coupon.discountValue
    | .fixedAmount => coupon.discountValue)

theorem percentageCents_eq (pct : Nat) :
    (percentageCents qualifying pct : ℤ) = roundHalfUp (qualifying * ((pct / 100 : ℚ) / 100)) := by
  rw [percentageCents, roundHalfUp, eq_comm, Int.floor_eq_iff]
  have hdiv := Nat.div_add_mod (qualifying * pct + 5000) 10000
  have hmod := Nat.mod_lt (qualifying * pct + 5000) (by omega : 10000 > 0)
  have hq : (10000 * ((qualifying * pct + 5000) / 10000 : ℕ) + ((qualifying * pct + 5000) % 10000 : ℕ) : ℚ) =
      qualifying * pct + 5000 := mod_cast hdiv
  have hlt : ((qualifying * pct + 5000) % 10000 : ℕ) < (10000 : ℚ) := mod_cast hmod
  have hpos : (0 : ℚ) ≤ ((qualifying * pct + 5000) % 10000 : ℕ) := Nat.cast_nonneg _
  rw [Int.cast_natCast]
  constructor
  · linarith
  · linarith

theorem deducts_eq : (coupon.deducts qualifying : ℤ) = min (qualifying : ℤ) (coupon.worth qualifying) := by
  rw [Discount.deducts, Discount.worth, Nat.cast_min]
  cases coupon.discountType with
  | percentage => rw [percentageCents_eq]
  | fixedAmount => rfl

theorem percentageCents_mono {qualifying' pct pct' : Nat} (hq : qualifying ≤ qualifying') (hp : pct ≤ pct') :
    percentageCents qualifying pct ≤ percentageCents qualifying' pct' :=
  Nat.div_le_div_right (Nat.add_le_add_right (Nat.mul_le_mul hq hp) _)

theorem deducts_mono {qualifying' : Cents} (h : qualifying ≤ qualifying') :
    coupon.deducts qualifying ≤ coupon.deducts qualifying' := by
  rw [Discount.deducts, Discount.deducts]
  cases coupon.discountType with
  | percentage => exact min_le_min h (percentageCents_mono h le_rfl)
  | fixedAmount => exact min_le_min h le_rfl

theorem deducts_value {discountValue : Nat} (h : coupon.discountValue ≤ discountValue) :
    coupon.deducts qualifying ≤ ({ coupon with discountValue } : Discount).deducts qualifying := by
  rw [Discount.deducts, Discount.deducts]
  cases coupon.discountType with
  | percentage => exact min_le_min le_rfl (percentageCents_mono le_rfl h)
  | fixedAmount => exact min_le_min le_rfl h

theorem discountTotal_of_eligible (h : coupon.Accepts (qualifyingTotals coupon lines).sum now tender) :
    (calculateDiscountAmounts lines coupon now tender).discountTotalCents =
      coupon.deducts (qualifyingTotals coupon lines).sum := by
  rcases amounts_cases lines coupon now tender with ⟨-, hamount, -⟩ | ⟨hne, -⟩
  · exact hamount
  · rw [amounts_reason] at hne
    exact absurd (eligibility_iff.2 h) hne

theorem discountTotal_of_not (h : ¬coupon.Accepts (qualifyingTotals coupon lines).sum now tender) :
    (calculateDiscountAmounts lines coupon now tender).discountTotalCents = 0 := by
  rcases amounts_cases lines coupon now tender with ⟨hnone, -⟩ | ⟨-, hzero, -⟩
  · rw [amounts_reason] at hnone
    exact absurd (eligibility_iff.1 hnone) h
  · exact hzero

/-- A larger qualifying subtotal never loses the coupon. -/
theorem Discount.Accepts.mono {qualifying' : Cents} (h : coupon.Accepts qualifying now tender)
    (hle : qualifying ≤ qualifying') : coupon.Accepts qualifying' now tender :=
  { h with qualifies := Nat.lt_of_lt_of_le h.qualifies hle, minimum := Nat.le_trans h.minimum hle }

theorem discountTotal_mono (h : (qualifyingTotals coupon lines).sum ≤ (qualifyingTotals coupon lines').sum) :
    (calculateDiscountAmounts lines coupon now tender).discountTotalCents ≤
      (calculateDiscountAmounts lines' coupon now tender).discountTotalCents := by
  by_cases haccepts : coupon.Accepts (qualifyingTotals coupon lines).sum now tender
  · rw [discountTotal_of_eligible haccepts, discountTotal_of_eligible (haccepts.mono h)]
    exact deducts_mono h
  · rw [discountTotal_of_not haccepts]
    exact Nat.zero_le _

theorem Dominated.sum_le (h : Dominated m n) : m.sum ≤ n.sum := by
  obtain ⟨k, hle, l, hperm, hsub⟩ := h
  calc m.sum ≤ k.sum := hle.sum_le_sum
    _ = l.sum := hperm.symm.sum_eq
    _ ≤ n.sum := hsub.sum_le_sum fun _ _ => Nat.zero_le _

theorem discountTotal_value {discountValue : Nat} (h : coupon.discountValue ≤ discountValue) :
    (calculateDiscountAmounts lines coupon now tender).discountTotalCents ≤
      (calculateDiscountAmounts lines { coupon with discountValue } now tender).discountTotalCents := by
  by_cases haccepts : coupon.Accepts (qualifyingTotals coupon lines).sum now tender
  · have haccepts' : ({ coupon with discountValue } : Discount).Accepts
        (qualifyingTotals { coupon with discountValue } lines).sum now tender :=
      ⟨haccepts.tender, haccepts.active, haccepts.started, haccepts.unexpired, haccepts.unexhausted,
        haccepts.qualifies, haccepts.minimum⟩
    rw [discountTotal_of_eligible haccepts, discountTotal_of_eligible haccepts']
    exact deducts_value h
  · rw [discountTotal_of_not haccepts]
    exact Nat.zero_le _

/-! ### What it says in words -/

theorem result_fields : (calculateDiscountAmounts lines coupon now tender).subtotalCents = sumCents lines ∧
    (calculateDiscountAmounts lines coupon now tender).applicableSubtotalCents = (qualifyingTotals coupon lines).sum ∧
    (calculateDiscountAmounts lines coupon now tender).subtotal = centsToMoney (sumCents lines) ∧
    (calculateDiscountAmounts lines coupon now tender).total =
      centsToMoney (calculateDiscountAmounts lines coupon now tender).totalCents := by
  unfold calculateDiscountAmounts
  dsimp only
  split
  · exact ⟨rfl, rfl, rfl, rfl⟩
  · exact ⟨rfl, rfl, rfl, rfl⟩

theorem zero_text : "0.00" = centsToMoney 0 := rfl

theorem discountTotal_text : (calculateDiscountAmounts lines coupon now tender).discountTotal =
    centsToMoney (calculateDiscountAmounts lines coupon now tender).discountTotalCents := by
  unfold calculateDiscountAmounts
  dsimp only
  split
  · exact zero_text
  · rfl

theorem qualifyingLineIds_eq (h : (calculateDiscountAmounts lines coupon now tender).isEligible = true) :
    (calculateDiscountAmounts lines coupon now tender).qualifyingLineIds =
      (lines.filter (lineQualifies coupon)).map (·.id) := by
  rw [DiscountCalculationResult.isEligible, Option.isNone_iff_eq_none, amounts_reason] at h
  rw [calculateDiscountAmounts, h]

end Calculation

/-- `calculateDiscountAmounts` does what it has to, and an amount of cents is read from its text as it was. -/
theorem calculateDiscountAmounts_spec : CalculatesDiscounts calculateDiscountAmounts ∧
    ∀ n, moneyToCents (centsToMoney n) = some n := by
  refine ⟨?_, moneyToCents_centsToMoney⟩
  constructor
  case qualifying => exact fun coupon line => lineQualifies_iff
  case subtotal => exact fun lines coupon now tender => result_fields.1
  case applicable => exact fun lines coupon now tender => result_fields.2.1
  case eligible => exact fun lines coupon now tender => isEligible_iff
  case qualifyingLines => exact fun lines coupon now tender h => qualifyingLineIds_eq h
  case discount =>
    intro lines coupon now tender h
    rw [discountTotal_of_eligible (isEligible_iff.1 h), deducts_eq]
  case noDiscount =>
    intro lines coupon now tender h
    refine discountTotal_of_not fun haccepts => ?_
    rw [isEligible_iff.2 haccepts] at h
    cases h
  case bounds =>
    intro lines coupon now tender
    rw [result_fields.1, result_fields.2.1]
    refine ⟨?_, applicable_le⟩
    by_cases haccepts : coupon.Accepts (qualifyingTotals coupon lines).sum now tender
    · rw [discountTotal_of_eligible haccepts]
      exact Nat.min_le_left ..
    · rw [discountTotal_of_not haccepts]
      exact Nat.zero_le _
  case total =>
    intro lines coupon now tender
    rw [result_fields.1, ← amounts_add, Nat.add_sub_cancel_left]
  case order =>
    intro lines lines' coupon now tender h
    exact Nat.le_antisymm (discountTotal_mono (Nat.le_of_eq h.sum_eq)) (discountTotal_mono (Nat.le_of_eq h.symm.sum_eq))
  case monotone => exact fun lines lines' coupon now tender h => discountTotal_mono h.sum_le
  case value => exact fun lines coupon discountValue now tender h => discountTotal_value h
  case texts =>
    intro lines coupon now tender
    rw [result_fields.2.2.1, result_fields.2.2.2, discountTotal_text, result_fields.1]
    exact ⟨moneyToCents_centsToMoney _, moneyToCents_centsToMoney _, moneyToCents_centsToMoney _⟩

end Komanda
