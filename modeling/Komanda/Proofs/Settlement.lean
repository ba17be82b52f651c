import Komanda.Proofs.Confirmations
import Komanda.Settlement

/-!
# When a settlement is balanced

The record of a payment balances (`settlement_balanced_iff`) except where the fee is derived from the net amount while
the taxes are listed and not given as one amount: the fee then takes in the taxes, which the record counts once more.
The doubles that the service computes with give the same record, to the cent, as long as the lists do not run into the
thousands (`financialRecordInDoubles_eq`).
-/

namespace Komanda
open Transaction

/-! ## Payments -/

namespace MercadoPagoPayment
variable (payment : MercadoPagoPayment)

/-- The fees as they are listed. -/
def feeTotal : Int := (payment.feeDetails.map (·.amount)).sum

/-- The taxes: as one amount, or as they are listed. -/
def taxTotal : Int := payment.taxesAmount.getD (payment.taxes.map (·.amount)).sum

/-- What is given of fees, taxes and net amount, together. -/
def given : Int := payment.feeTotal + payment.taxTotal + payment.netReceivedAmount.getD 0

/-- No amount is negative. -/
structure NonNegative : Prop where
  gross : ∀ gross ∈ payment.transactionAmount, 0 ≤ gross
  net : ∀ net ∈ payment.netReceivedAmount, 0 ≤ net
  fees : ∀ fee ∈ payment.feeDetails, 0 ≤ fee.amount
  taxesAmount : ∀ taxes ∈ payment.taxesAmount, 0 ≤ taxes
  taxes : ∀ tax ∈ payment.taxes, 0 ≤ tax.amount

/-- The fee or the net amount is left to the webhook. -/
def Derives : Prop := payment.feeDetails = [] ∨ payment.netReceivedAmount = none

/-- The fee is what lies between gross and net amount, and there are taxes which are only listed. -/
def TaxesListedOnly : Prop :=
  payment.feeDetails = [] ∧ payment.netReceivedAmount.isSome ∧ payment.taxesAmount = none ∧
    0 < (payment.taxes.map (·.amount)).sum

end MercadoPagoPayment

def MpFinancialRecord.Balanced (record : MpFinancialRecord) : Prop :=
  record.grossAmount = record.feeAmount + record.taxesAmount + record.netReceivedAmount

section Records
variable {payment : MercadoPagoPayment} {attempt : PaymentAttempt} {order : Order} {now : Instant}

namespace MercadoPagoPayment.NonNegative

theorem feeTotal (h : payment.NonNegative) : 0 ≤ payment.feeTotal := by
  refine List.sum_nonneg fun a ha => ?_
  obtain ⟨fee, hfee, rfl⟩ := List.mem_map.1 ha
  exact h.fees fee hfee

theorem listedTaxes (h : payment.NonNegative) : 0 ≤ (payment.taxes.map (·.amount)).sum := by
  refine List.sum_nonneg fun a ha => ?_
  obtain ⟨tax, htax, rfl⟩ := List.mem_map.1 ha
  exact h.taxes tax htax

theorem taxTotal (h : payment.NonNegative) : 0 ≤ payment.taxTotal := by
  unfold MercadoPagoPayment.taxTotal
  cases htaxes : payment.taxesAmount with
  | none => exact h.listedTaxes
  | some taxes => exact h.taxesAmount taxes htaxes

end MercadoPagoPayment.NonNegative

/-- What the record has as its fee: the listed fees, or what is left of the gross amount. -/
def derivedFee (payment : MercadoPagoPayment) (gross : Int) : Int :=
  match payment.netReceivedAmount with
  | some net => gross - net - payment.taxesAmount.getD 0
  | none => 0

theorem feeAmount_listed (h : payment.feeDetails ≠ []) :
    (Webhook.financialRecord payment attempt order now).feeAmount = payment.feeTotal := if_pos h

theorem feeAmount_derived (h : payment.feeDetails = []) (hsigns : payment.NonNegative)
    (hgiven : payment.given ≤ payment.transactionAmount.getD attempt.amount) :
    (Webhook.financialRecord payment attempt order now).feeAmount =
      derivedFee payment (payment.transactionAmount.getD attempt.amount) := by
  have htaxes := hsigns.taxTotal
  have hfees := hsigns.feeTotal
  simp only [Webhook.financialRecord, h, ne_eq, not_true_eq_false, if_false, derivedFee]
  cases hnet : payment.netReceivedAmount with
  | none => rfl
  | some net =>
    refine max_eq_right ?_
    rw [MercadoPagoPayment.given, hnet] at hgiven
    cases hone : payment.taxesAmount with
    | none => simp only [Option.getD_some, Option.getD_none] at hgiven ⊢; omega
    | some taxes =>
      rw [MercadoPagoPayment.taxTotal, hone] at hgiven
      simp only [Option.getD_some] at hgiven ⊢
      omega

/-- In a record that the webhook completes, only listed taxes can be counted twice. -/
theorem balanced_iff (hsigns : payment.NonNegative) (hderives : payment.Derives)
    (hgiven : payment.given ≤ payment.transactionAmount.getD attempt.amount) :
    (Webhook.financialRecord payment attempt order now).Balanced ↔ ¬ payment.TaxesListedOnly := by
  have hlisted := hsigns.listedTaxes
  by_cases hfees : payment.feeDetails = []
  · have hfee := @feeAmount_derived payment attempt order now hfees hsigns hgiven
    rw [MpFinancialRecord.Balanced, hfee]
    simp only [MercadoPagoPayment.TaxesListedOnly, derivedFee, Webhook.financialRecord, hfees]
    cases payment.netReceivedAmount with
    | none => simp
    | some net =>
      cases payment.taxesAmount with
      | some taxes => simp
      | none =>
        simp only [Option.getD_none, Option.getD_some, Option.isSome_some, true_and]
        omega
  · have hnet : payment.netReceivedAmount = none := hderives.resolve_left hfees
    rw [MpFinancialRecord.Balanced, feeAmount_listed hfees]
    simp only [MercadoPagoPayment.TaxesListedOnly, Webhook.financialRecord, hfees, hnet]
    simp [hfees, MercadoPagoPayment.feeTotal]

/-! ## In doubles -/

open Binary64

/-- Amounts up to ten digits before the point, whose sums come to no more: each line of the details adds less than
half of a thousandth of a cent. -/
theorem near_listed {amounts : List Int} (hsigns : ∀ a ∈ amounts, 0 ≤ a) (hsum : amounts.sum ≤ 2 ^ 40)
    (hlength : amounts.length ≤ 1000) :
    Near 2 (amounts.length / 2 ^ 11) (total (amounts.map (ofFixed 2))) amounts.sum := by
  refine (near_total 2 (M := 2 ^ 40) hsigns (by simpa using hsum) (by omega)).mono (le_of_eq ?_)
  norm_num
  ring

theorem near_amount {n : Int} (hn : 0 ≤ n) (h : n ≤ 2 ^ 40) : Near 2 (1 / 2 ^ 13) (ofFixed 2 n) n := by
  refine (near_ofFixed 2 n).mono ?_
  have hnonneg : (0 : ℚ) ≤ n := mod_cast hn
  have hle : (n : ℚ) ≤ 2 ^ 40 := mod_cast h
  rw [abs_of_nonneg hnonneg]
  linarith

theorem printed_eq {n : Int} (hn : 0 ≤ n) (h : n ≤ 2 ^ 40) : Webhook.printed n = n :=
  (near_amount hn h).toFixedInt_eq (by norm_num)

/-- A difference of amounts, rounded. -/
theorem near_difference {n m : Int} {x y ε δ : ℚ} (hx : Near 2 ε x n) (hy : Near 2 δ y m) (hm : m ≤ n) (hn : n ≤ 2 ^ 40)
    (hm0 : 0 ≤ m) (hsmall : ε + δ ≤ 1) : Near 2 (ε + δ + 1 / 2 ^ 12) (nearest (x - y)) (n - m) := by
  refine (hx.sub hy).nearest.mono ?_
  have hnonneg : (0 : ℚ) ≤ ((n - m : ℤ) : ℚ) := mod_cast (by omega : 0 ≤ n - m)
  have hle : ((n - m : ℤ) : ℚ) ≤ 2 ^ 40 := mod_cast (by omega : n - m ≤ 2 ^ 40)
  rw [abs_of_nonneg hnonneg]
  linarith

/-- Details whose sum fits are printed as they are. -/
theorem printed_listed {amounts : List Int} (hsigns : ∀ a ∈ amounts, 0 ≤ a) (hsum : amounts.sum ≤ 2 ^ 40) :
    ∀ a ∈ amounts, Webhook.printed a = a :=
  fun a ha => printed_eq (hsigns a ha) ((List.single_le_sum hsigns a ha).trans hsum)

theorem ofFixed_listed {amounts : List Int} (hsigns : ∀ a ∈ amounts, 0 ≤ a) (hsum : amounts.sum = 0) :
    total (amounts.map (ofFixed 2)) = 0 := by
  refine total_eq_zero fun x hx => ?_
  obtain ⟨a, ha, rfl⟩ := List.mem_map.1 hx
  have hle : a ≤ 0 := (List.single_le_sum hsigns a ha).trans hsum.le
  rw [le_antisymm hle (hsigns a ha), ofFixed_zero]

/-- Amounts of at most ten digits before the point, and a thousand lines of details. -/
structure MercadoPagoPayment.Moderate (payment : MercadoPagoPayment) (gross : Int) : Prop where
  signs : payment.NonNegative
  covered : payment.given ≤ gross
  fits : gross ≤ 2 ^ 40
  listed : (payment.taxes.map (·.amount)).sum ≤ 2 ^ 40
  lines : payment.feeDetails.length + payment.taxes.length ≤ 1000

namespace MercadoPagoPayment.Moderate
variable {gross : Int}

theorem net_nonneg (h : payment.Moderate gross) : 0 ≤ payment.netReceivedAmount.getD 0 := by
  cases hnet : payment.netReceivedAmount with
  | none => exact le_refl 0
  | some net => exact h.signs.net net hnet

/-- Each of the amounts given fits beside the others. -/
theorem bounds (h : payment.Moderate gross) : 0 ≤ payment.feeTotal ∧ 0 ≤ payment.taxTotal ∧
    0 ≤ payment.netReceivedAmount.getD 0 ∧
    payment.feeTotal + payment.taxTotal + payment.netReceivedAmount.getD 0 ≤ gross ∧ gross ≤ 2 ^ 40 :=
  ⟨h.signs.feeTotal, h.signs.taxTotal, h.net_nonneg, h.covered, h.fits⟩

theorem fees_nonneg (h : payment.Moderate gross) : ∀ a ∈ payment.feeDetails.map (·.amount), 0 ≤ a := by
  intro a ha
  obtain ⟨fee, hfee, rfl⟩ := List.mem_map.1 ha
  exact h.signs.fees fee hfee

theorem taxes_nonneg (h : payment.Moderate gross) : ∀ a ∈ payment.taxes.map (·.amount), 0 ≤ a := by
  intro a ha
  obtain ⟨tax, htax, rfl⟩ := List.mem_map.1 ha
  exact h.signs.taxes tax htax

theorem fees_fit (h : payment.Moderate gross) : (payment.feeDetails.map (·.amount)).sum ≤ 2 ^ 40 := by
  obtain ⟨-, htaxes, hnet, hcovered, hfits⟩ := h.bounds
  show payment.feeTotal ≤ 2 ^ 40
  omega

theorem fees_printed (h : payment.Moderate gross) :
    payment.feeDetails.map (fun f => { f with amount := Webhook.printed f.amount }) = payment.feeDetails := by
  refine (List.map_congr_left fun f hf => ?_).trans (List.map_id' _)
  rw [printed_listed h.fees_nonneg h.fees_fit f.amount (List.mem_map_of_mem hf)]

theorem taxes_printed (h : payment.Moderate gross) :
    payment.taxes.map (fun t => { t with amount := Webhook.printed t.amount }) = payment.taxes := by
  refine (List.map_congr_left fun t ht => ?_).trans (List.map_id' _)
  rw [printed_listed h.taxes_nonneg h.listed t.amount (List.mem_map_of_mem ht)]

theorem taxesNum_eq (h : payment.Moderate gross) : Webhook.taxesNum payment =
    match payment.taxesAmount with
    | some taxes => ofFixed 2 taxes
    | none => total ((payment.taxes.map (·.amount)).map (ofFixed 2)) := by
  unfold Webhook.taxesNum
  rw [h.taxes_printed, List.map_map]
  cases payment.taxesAmount with
  | some taxes => rfl
  | none =>
    cases payment.taxes with
    | nil => rfl
    | cons t taxes => exact if_pos (Nat.succ_pos _)

theorem near_taxesNum (h : payment.Moderate gross) :
    Near 2 (payment.taxes.length / 2 ^ 11 + 1 / 2 ^ 13) (Webhook.taxesNum payment) payment.taxTotal := by
  obtain ⟨hfees, htaxes, hnet, hcovered, hfits⟩ := h.bounds
  have hlines := h.lines
  rw [h.taxesNum_eq]
  unfold MercadoPagoPayment.taxTotal at htaxes hcovered ⊢
  cases hone : payment.taxesAmount with
  | some taxes =>
    rw [hone, Option.getD_some] at htaxes hcovered
    exact (near_amount htaxes (by omega)).mono (le_add_of_nonneg_left (by positivity))
  | none =>
    have hnear := near_listed h.taxes_nonneg h.listed (by rw [List.length_map]; omega)
    rw [List.length_map] at hnear
    exact hnear.mono (le_add_of_nonneg_right (by norm_num))

theorem taxesNum_eq_zero (h : payment.Moderate gross) (hzero : payment.taxTotal = 0) : Webhook.taxesNum payment = 0 := by
  rw [h.taxesNum_eq]
  unfold MercadoPagoPayment.taxTotal at hzero
  cases hone : payment.taxesAmount with
  | some taxes =>
    rw [hone, Option.getD_some] at hzero
    rw [hzero]
    exact ofFixed_zero 2
  | none =>
    rw [hone, Option.getD_none] at hzero
    exact ofFixed_listed h.taxes_nonneg hzero

theorem feeNum_eq (h : payment.Moderate gross) : Webhook.feeNum payment (ofFixed 2 gross) =
    if payment.feeDetails ≠ [] then total ((payment.feeDetails.map (·.amount)).map (ofFixed 2))
    else match payment.netReceivedAmount with
      | some net => max 0 (nearest (nearest (ofFixed 2 gross - ofFixed 2 net) - ofFixed 2 (payment.taxesAmount.getD 0)))
      | none => 0 := by
  unfold Webhook.feeNum
  rw [h.fees_printed, List.map_map]
  cases payment.feeDetails with
  | nil => rfl
  | cons f fees => exact if_pos (Nat.succ_pos _)

/-- What a derived fee leaves for the taxes. -/
theorem taken_le (h : payment.Moderate gross) :
    payment.taxesAmount.getD 0 ≤ payment.taxTotal ∧ 0 ≤ payment.taxesAmount.getD 0 := by
  have htaxes := h.signs.taxTotal
  unfold MercadoPagoPayment.taxTotal at htaxes ⊢
  cases hone : payment.taxesAmount with
  | none => exact ⟨by simpa [hone] using htaxes, le_refl 0⟩
  | some taxes => exact ⟨le_refl _, by simpa [hone] using htaxes⟩

variable (order now)

/-- The fee that is derived takes two subtractions. -/
theorem near_feeNum (h : payment.Moderate gross) (hgross : payment.transactionAmount.getD attempt.amount = gross) :
    Near 2 (payment.feeDetails.length / 2 ^ 11 + 1 / 2 ^ 10) (Webhook.feeNum payment (ofFixed 2 gross))
      (Webhook.financialRecord payment attempt order now).feeAmount := by
  obtain ⟨hfees, htaxes, hnet, hcovered, hfits⟩ := h.bounds
  have hlines := h.lines
  rw [h.feeNum_eq]
  by_cases hlisted : payment.feeDetails = []
  · have hcovers : payment.given ≤ payment.transactionAmount.getD attempt.amount := hgross ▸ h.covered
    rw [feeAmount_derived hlisted h.signs hcovers, if_neg (not_not_intro hlisted), hgross]
    refine Near.mono (ε := 1 / 2 ^ 10) ?_ (le_add_of_nonneg_left (by positivity))
    unfold derivedFee
    cases hone : payment.netReceivedAmount with
    | none => exact near_zero.mono (by norm_num)
    | some net =>
      rw [hone, Option.getD_some] at hnet hcovered
      have htaken := h.taken_le
      have hfirst := near_difference (near_amount (by omega) hfits) (near_amount hnet (by omega))
        (by omega : net ≤ gross) hfits hnet (by norm_num)
      have hsecond := near_difference hfirst (near_amount htaken.2 (by omega))
        (by omega : payment.taxesAmount.getD 0 ≤ gross - net) (by omega) htaken.2 (by norm_num)
      exact (hsecond.clamp (by omega)).mono (by norm_num)
  · rw [feeAmount_listed hlisted, if_pos hlisted]
    have hnear := near_listed h.fees_nonneg h.fees_fit (by rw [List.length_map]; omega)
    rw [List.length_map] at hnear
    exact hnear.mono (le_add_of_nonneg_right (by norm_num))

/-- Without taxes, a fee of no cents is no fee in doubles either. -/
theorem feeNum_eq_zero (h : payment.Moderate gross) (hgross : payment.transactionAmount.getD attempt.amount = gross)
    (hnone : payment.taxTotal = 0) (hzero : (Webhook.financialRecord payment attempt order now).feeAmount = 0) :
    Webhook.feeNum payment (ofFixed 2 gross) = 0 := by
  rw [h.feeNum_eq]
  by_cases hlisted : payment.feeDetails = []
  · have hcovers : payment.given ≤ payment.transactionAmount.getD attempt.amount := hgross ▸ h.covered
    rw [feeAmount_derived hlisted h.signs hcovers, hgross] at hzero
    rw [if_neg (not_not_intro hlisted)]
    unfold derivedFee at hzero
    cases hone : payment.netReceivedAmount with
    | none => rfl
    | some net =>
      have htaken : payment.taxesAmount.getD 0 = 0 := by
        unfold MercadoPagoPayment.taxTotal at hnone
        cases htaxes : payment.taxesAmount with
        | none => rfl
        | some taxes => simpa [htaxes] using hnone
      rw [hone] at hzero
      dsimp only at hzero ⊢
      rw [htaken] at hzero ⊢
      have hnet : net = gross := by omega
      rw [hnet, ofFixed_zero, sub_self, nearest_zero, sub_zero, nearest_zero, max_self]
  · rw [if_pos hlisted]
    rw [feeAmount_listed hlisted] at hzero
    exact ofFixed_listed h.fees_nonneg hzero

/-- The fee and the taxes leave something for the net amount. -/
theorem feeAmount_le (h : payment.Moderate gross) (hgross : payment.transactionAmount.getD attempt.amount = gross) :
    0 ≤ (Webhook.financialRecord payment attempt order now).feeAmount ∧
    (payment.netReceivedAmount = none →
      (Webhook.financialRecord payment attempt order now).feeAmount + payment.taxTotal ≤ gross) := by
  obtain ⟨hfees, htaxes, hnet, hcovered, hfits⟩ := h.bounds
  by_cases hlisted : payment.feeDetails = []
  · have hcovers : payment.given ≤ payment.transactionAmount.getD attempt.amount := hgross ▸ h.covered
    have htaken := h.taken_le
    rw [feeAmount_derived hlisted h.signs hcovers, hgross]
    unfold derivedFee
    cases hone : payment.netReceivedAmount with
    | none =>
      dsimp only
      exact ⟨le_refl 0, fun _ => by omega⟩
    | some net =>
      rw [hone, Option.getD_some] at hcovered
      dsimp only
      exact ⟨by omega, fun hnone => by cases hnone⟩
  · rw [feeAmount_listed hlisted]
    exact ⟨hfees, fun _ => by omega⟩

/-- A net amount that is derived takes two subtractions more. -/
theorem near_netNum (h : payment.Moderate gross) (hgross : payment.transactionAmount.getD attempt.amount = gross) :
    Near 2 ((payment.feeDetails.length + payment.taxes.length) / 2 ^ 11 + 1 / 2 ^ 8)
      (Webhook.netNum payment (ofFixed 2 gross) (Webhook.feeNum payment (ofFixed 2 gross)) (Webhook.taxesNum payment))
      (Webhook.financialRecord payment attempt order now).netReceivedAmount := by
  obtain ⟨hfees, htaxes, hnet, hcovered, hfits⟩ := h.bounds
  have hlines : (payment.feeDetails.length : ℚ) + payment.taxes.length ≤ 1000 := mod_cast h.lines
  have hfeeLines : (0 : ℚ) ≤ payment.feeDetails.length := by positivity
  have htaxLines : (0 : ℚ) ≤ payment.taxes.length := by positivity
  cases hone : payment.netReceivedAmount with
  | some net =>
    have hnetAmount : (Webhook.financialRecord payment attempt order now).netReceivedAmount = net := by
      simp only [Webhook.financialRecord, hone, Option.getD_some]
    rw [hnetAmount, Webhook.netNum, hone]
    rw [hone, Option.getD_some] at hnet hcovered
    exact (near_amount hnet (by omega)).mono (by linarith)
  | none =>
    obtain ⟨hfee, hleft⟩ := h.feeAmount_le order now hgross
    have hnetAmount : (Webhook.financialRecord payment attempt order now).netReceivedAmount =
        gross - (Webhook.financialRecord payment attempt order now).feeAmount - payment.taxTotal := by
      rw [← hgross]
      simp only [Webhook.financialRecord, hone, Option.getD_none]
      rfl
    have hfirst := near_difference (near_amount (by omega) hfits) (h.near_feeNum order now hgross)
      (by linarith [hleft hone]) hfits hfee (by linarith)
    have hsecond := near_difference hfirst h.near_taxesNum (by linarith [hleft hone]) (by omega) htaxes (by linarith)
    rw [hnetAmount, Webhook.netNum, hone]
    exact hsecond.mono (by linarith)

/-- The flag reads the same. -/
theorem flag_eq (h : payment.Moderate gross) (hgross : payment.transactionAmount.getD attempt.amount = gross) :
    (Webhook.taxesNum payment = 0 ∧ 0 < Webhook.feeNum payment (ofFixed 2 gross)) ↔
      payment.taxTotal = 0 ∧ 0 < (Webhook.financialRecord payment attempt order now).feeAmount := by
  have hlines : (payment.feeDetails.length : ℚ) + payment.taxes.length ≤ 1000 := mod_cast h.lines
  have hfeeLines : (0 : ℚ) ≤ payment.feeDetails.length := by positivity
  have htaxLines : (0 : ℚ) ≤ payment.taxes.length := by positivity
  have htaxes := h.signs.taxTotal
  obtain ⟨hfee, -⟩ := h.feeAmount_le order now hgross
  constructor
  · rintro ⟨htaxesNum, hfeeNum⟩
    have hnone : payment.taxTotal = 0 := by
      by_contra hsome
      have hpos := h.near_taxesNum.pos (by linarith) (by omega)
      exact hpos.ne' htaxesNum
    refine ⟨hnone, lt_of_le_of_ne hfee fun hzero => ?_⟩
    exact hfeeNum.ne' (h.feeNum_eq_zero order now hgross hnone hzero.symm)
  · rintro ⟨hnone, hpos⟩
    exact ⟨h.taxesNum_eq_zero hnone, (h.near_feeNum order now hgross).pos (by linarith) hpos⟩

end MercadoPagoPayment.Moderate

/-- To the cent, and in the flag, the doubles give the record of exact arithmetic. -/
theorem financialRecordInDoubles_eq (h : payment.Moderate (payment.transactionAmount.getD attempt.amount)) :
    Webhook.financialRecordInDoubles payment attempt order now = Webhook.financialRecord payment attempt order now := by
  obtain ⟨hfees, htaxes, hnet, hcovered, hfits⟩ := h.bounds
  have hlines : (payment.feeDetails.length : ℚ) + payment.taxes.length ≤ 1000 := mod_cast h.lines
  have hfeeLines : (0 : ℚ) ≤ payment.feeDetails.length := by positivity
  have htaxLines : (0 : ℚ) ≤ payment.taxes.length := by positivity
  have hgross := (near_amount (by omega) hfits).toFixedInt_eq (by norm_num)
  have hfee := (h.near_feeNum order now rfl).toFixedInt_eq (by linarith)
  have htax := h.near_taxesNum.toFixedInt_eq (by linarith)
  have hrest := (h.near_netNum order now rfl).toFixedInt_eq (by linarith)
  have hflag : (decide (Webhook.taxesNum payment = 0) &&
      decide (Webhook.feeNum payment (ofFixed 2 (payment.transactionAmount.getD attempt.amount)) > 0) &&
      decide (payment.taxes.length = 0)) =
      (Webhook.financialRecord payment attempt order now).isFeeInclusiveOfTax := by
    have hempty : decide (payment.taxes.length = 0) = payment.taxes.isEmpty := by cases payment.taxes <;> rfl
    have hboth := h.flag_eq order now rfl
    rw [← Bool.decide_and, decide_eq_decide.2 hboth, Bool.decide_and, hempty]
    rfl
  unfold Webhook.financialRecordInDoubles
  dsimp only
  rw [h.fees_printed, h.taxes_printed, hgross, hfee, htax, hrest, hflag]
  rfl

end Records

/-! ## What is stored -/

/-- A webhook that completes the record of a payment balances it exactly when it does not derive the fee beside taxes
that are only listed. -/
theorem settlement_balanced_iff {event : ReceivedMercadoPagoWebhook} {payment : MercadoPagoPayment} {eventId : Id}
    {draw : Draw} {v s s' : Db} {result : Webhook.Outcome}
    (h : Commits (Webhook.receive event payment eventId draw) v s result s') {r : MpFinancialRecord}
    (hr : r ∈ s'.financialRecords) (hnew : r ∉ s.financialRecords) (hsigns : payment.NonNegative)
    (hderives : payment.Derives) (hgiven : payment.given ≤ r.grossAmount) :
    r.Balanced ↔ ¬ payment.TaxesListedOnly := by
  rcases webhook_records h hr with hold | ⟨attempt, o, -, rfl⟩
  · exact absurd hold hnew
  · exact balanced_iff hsigns hderives hgiven

namespace Demo

/-- The notification of a payment. -/
def settled (payment : MercadoPagoPayment) : Request := call 5 "4" (.webhook
  { routingKey := "route", providerEventId := "4", topic := "payment" } payment "event-4")

def onlineCheckout : List Request := [setUp, fillCart "1" "cart", payOnline "2" "cart" "attempt", issued "3"]

/-- The net amount is given, and the taxes as one amount. -/
def withTaxesAmount : MercadoPagoPayment :=
  { id := "payment-3", status := .approved, preferenceId := some "preference-3", transactionAmount := some 1000
    netReceivedAmount := some 900, taxesAmount := some 50 }

/-- The net amount is given, and the taxes as a list. -/
def withTaxesListed : MercadoPagoPayment :=
  { id := "payment-3", status := .approved, preferenceId := some "preference-3", transactionAmount := some 1000
    netReceivedAmount := some 900, taxes := [{ type := "iva", amount := 50 }] }

end Demo

open Demo

theorem settlement_balanced_once : ∃ db db' r, Runs.exec step (Db.fresh "tenant" settings) onlineCheckout = some db ∧
    step db (settled withTaxesAmount) = some db' ∧ r ∈ db'.financialRecords ∧
    (r.Balanced ↔ ¬ withTaxesAmount.TaxesListedOnly) := by
  have hx : (Runs.exec step (Db.fresh "tenant" settings) onlineCheckout).any (fun db =>
      db.financialRecords = [] && (step db (settled withTaxesAmount)).any fun db' =>
        db'.financialRecords.map (·.grossAmount) = [1000]) = true := by decide +kernel
  obtain ⟨db, hr, hdb⟩ := (Option.any_eq_true _ _).1 hx
  obtain ⟨hnone, hsome⟩ := Bool.and_eq_true_iff.1 hdb
  obtain ⟨db', hs, hamounts⟩ := (Option.any_eq_true _ _).1 hsome
  obtain ⟨r, hrecord, hgross⟩ := List.map_eq_singleton_iff.1 (of_decide_eq_true hamounts)
  obtain ⟨answer, hexec⟩ := step_eq.1 hs
  obtain ⟨result, s, hreceive, hp⟩ := commits_bind.1 (exec_eq.1 hexec)
  obtain ⟨-, rfl⟩ := commits_pure.1 hp
  have hmem : r ∈ s.financialRecords := by rw [hrecord]; simp
  have hnew : r ∉ db.financialRecords := by rw [of_decide_eq_true hnone]; simp
  refine ⟨db, s, r, hr, hs, hmem, settlement_balanced_iff hreceive hmem hnew ⟨?_, ?_, ?_, ?_, ?_⟩ ?_ ?_⟩
  · decide
  · decide
  · decide
  · decide
  · decide
  · exact .inl rfl
  · rw [hgross]; decide

/-- Of ten pesos, nine are received and fifty cents are listed as a tax: the fee is recorded as a whole peso. -/
theorem listed_taxes_unbalanced : ¬ ∀ (qs : List Request) (db db' : Db) (event : ReceivedMercadoPagoWebhook)
    (payment : MercadoPagoPayment) (eventId : Id) (draw : Draw),
    Runs.exec step (Db.fresh "tenant" settings) qs = some db →
    step db { action := .webhook event payment eventId, draw } = some db' →
    payment.NonNegative → payment.Derives →
    ∀ r ∈ db'.financialRecords, r ∉ db.financialRecords → payment.given ≤ r.grossAmount → r.Balanced := by
  intro hlaw
  have hx : (Runs.exec step (Db.fresh "tenant" settings) onlineCheckout).any (fun db =>
      db.financialRecords = [] && (step db (settled withTaxesListed)).any fun db' =>
        db'.financialRecords.map (fun r => (r.grossAmount, r.feeAmount, r.taxesAmount, r.netReceivedAmount)) =
          [(1000, 100, 50, 900)]) = true := by decide +kernel
  obtain ⟨db, hr, hdb⟩ := (Option.any_eq_true _ _).1 hx
  obtain ⟨hnone, hsome⟩ := Bool.and_eq_true_iff.1 hdb
  obtain ⟨db', hs, hamounts⟩ := (Option.any_eq_true _ _).1 hsome
  obtain ⟨r, hrecord, hamounts⟩ := List.map_eq_singleton_iff.1 (of_decide_eq_true hamounts)
  simp only [Prod.mk.injEq] at hamounts
  obtain ⟨hgross, hfee, htaxes, hnet⟩ := hamounts
  have hbalanced := hlaw onlineCheckout db db' _ withTaxesListed _ _ hr hs
    ⟨by decide, by decide, by decide, by decide, by decide⟩ (.inl rfl) r (by rw [hrecord]; simp)
    (by rw [of_decide_eq_true hnone]; simp) (by rw [hgross]; decide)
  rw [MpFinancialRecord.Balanced, hgross, hfee, htaxes, hnet] at hbalanced
  exact absurd hbalanced (by decide)

end Komanda
