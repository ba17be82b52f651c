import Komanda.Analytics
import Mathlib.Algebra.Order.Field.Rat
import Mathlib.Tactic.FieldSimp
import Mathlib.Tactic.Linarith
import Mathlib.Tactic.Ring

/-!
# The reports read what they write

A decimal text (`DecimalText`) of at most two decimals is read as the cents it denotes (`parseMoneyToCents_text`), and
every number of cents is written as such a text (`exists_decimalText`). Adding up texts of amounts is adding up the
amounts.
-/

namespace Komanda.Analytics

/-- A decimal numeral of at most two decimals, negative ones with a minus sign. -/
structure DecimalText where
  negative : Bool
  whole : List Char
  /-- What stands behind a decimal point. -/
  point : Option (List Char)
  digits : ∀ c ∈ whole ++ point.getD [], c.isDigit = true
  nonempty : whole ++ point.getD [] ≠ []
  short : (point.getD []).length ≤ 2

namespace DecimalText
variable (d : DecimalText)

def magnitude : List Char := d.whole ++ d.point.elim [] ('.' :: ·)

def text : String := String.ofList (if d.negative then '-' :: d.magnitude else d.magnitude)

/-- The number that the digits write. -/
def value : ℚ :=
  let fraction := d.point.getD []
  let abs : ℚ := Nat.ofDigitChars 10 d.whole 0 + Nat.ofDigitChars 10 fraction 0 / 10 ^ fraction.length
  if d.negative then -abs else abs

/-- The two digits that are taken for the cents. -/
def frac : List Char := (d.point.getD [] ++ ['0', '0']).take 2

def absCents : Nat := Nat.ofDigitChars 10 d.whole 0 * 100 + Nat.ofDigitChars 10 d.frac 0

def cents : Int := if d.negative then -d.absCents else d.absCents

end DecimalText

/-! ## Reading -/

theorem numberOf_digits {l : List Char} (h : ∀ c ∈ l, c.isDigit = true) : numberOf l = some (Nat.ofDigitChars 10 l 0) :=
  if_pos (List.all_eq_true.2 h)

theorem bigInt_digits {l : List Char} (h : ∀ c ∈ l, c.isDigit = true) :
    bigInt (String.ofList l) = some (Nat.ofDigitChars 10 l 0 : Int) := by
  have htrim : Text.trim (String.ofList l) = String.ofList l := Text.trim_eq_self fun c hc =>
    Text.not_isSpace_of_digit (h c (by simpa using hc))
  have hsign : ∀ c ∈ l, c ≠ '-' ∧ c ≠ '+' := by
    intro c hc
    constructor <;> rintro rfl <;> exact absurd (h _ hc) (by decide)
  rw [bigInt, htrim, String.toList_ofList]
  split
  · exact absurd rfl (hsign _ List.mem_cons_self).1
  · exact absurd rfl (hsign _ List.mem_cons_self).2
  · rw [numberOf_digits h, Option.map_some, Int.ofNat_eq_natCast]

section Reading
variable (d : DecimalText)

theorem DecimalText.whole_digits : ∀ c ∈ d.whole, c.isDigit = true := fun c hc => d.digits c (List.mem_append_left _ hc)

theorem DecimalText.point_digits : ∀ c ∈ d.point.getD [], c.isDigit = true :=
  fun c hc => d.digits c (List.mem_append_right _ hc)

theorem DecimalText.frac_digits : ∀ c ∈ d.frac, c.isDigit = true := by
  intro c hc
  rcases List.mem_append.1 (List.mem_of_mem_take hc) with hc | hc
  · exact d.point_digits c hc
  · rcases List.mem_pair.1 hc with rfl | rfl <;> rfl

theorem DecimalText.wholeAndFrac_magnitude :
    wholeAndFrac d.magnitude = (d.whole, d.point.getD ['0', '0']) := by
  have hwhole : ∀ c ∈ d.whole, decide (c ≠ '.') = true :=
    fun c hc => decide_eq_true (not_dot_of_isDigit (d.whole_digits c hc))
  rw [wholeAndFrac, magnitude, List.takeWhile_append_of_pos hwhole, List.dropWhile_append_of_pos hwhole]
  cases hp : d.point with
  | none => exact congrArg (·, ['0', '0']) (List.append_nil _)
  | some f =>
    have hf : ∀ c ∈ f, decide (c ≠ '.') = true := fun c hc =>
      decide_eq_true (not_dot_of_isDigit (d.point_digits c (by rw [hp]; exact hc)))
    exact congrArg₂ Prod.mk (List.append_nil _) (List.takeWhile_eq_self_iff.2 hf)

theorem DecimalText.head?_magnitude : d.magnitude.head? ≠ some '-' := by
  intro hhead
  rcases d with ⟨_, whole, point, hdigits, _, _⟩
  cases whole with
  | cons c whole =>
    cases hhead
    exact absurd (hdigits '-' (by simp)) (by decide)
  | nil => cases point with
    | none => cases hhead
    | some f => exact absurd (Option.some.inj hhead) (by decide)

theorem DecimalText.not_isSpace_text : ∀ c ∈ d.text.toList, Text.isSpace c = false := by
  have hmagnitude : ∀ c ∈ d.magnitude, Text.isSpace c = false := by
    intro c hc
    rcases List.mem_append.1 hc with hc | hc
    · exact Text.not_isSpace_of_digit (d.whole_digits c hc)
    cases hp : d.point with
    | none => simp [hp] at hc
    | some f =>
      rw [hp, Option.elim_some] at hc
      rcases List.mem_cons.1 hc with rfl | hc
      · decide
      · exact Text.not_isSpace_of_digit (d.point_digits c (by rw [hp]; exact hc))
  rw [text, String.toList_ofList]
  cases d.negative with
  | false => exact hmagnitude
  | true => exact List.forall_mem_cons.2 ⟨by decide, hmagnitude⟩

theorem DecimalText.unsignedCents_magnitude : unsignedCents d.magnitude = some (d.absCents : Int) := by
  have hfrac : (d.point.getD ['0', '0'] ++ ['0', '0']).take 2 = d.frac := by
    rw [frac]
    cases d.point <;> rfl
  simp only [unsignedCents, d.wholeAndFrac_magnitude, hfrac, bigInt_digits d.whole_digits, bigInt_digits d.frac_digits]
  rfl

theorem parseMoneyToCents_text : parseMoneyToCents d.text = some d.cents := by
  rw [parseMoneyToCents, Text.trim_eq_self d.not_isSpace_text, DecimalText.text, String.toList_ofList,
    DecimalText.cents]
  cases d.negative with
  | false => exact (if_neg d.head?_magnitude).trans d.unsignedCents_magnitude
  | true => exact (if_pos rfl).trans (congrArg (Option.map (-·)) d.unsignedCents_magnitude)

/-- The digits of the fraction, filled up with zeros, are its hundredths. -/
theorem DecimalText.ofDigitChars_frac : (Nat.ofDigitChars 10 d.frac 0 : ℚ) / 100 =
    Nat.ofDigitChars 10 (d.point.getD []) 0 / 10 ^ (d.point.getD []).length := by
  have hshort := d.short
  rw [frac]
  generalize d.point.getD [] = fraction at *
  match fraction, hshort with
  | [], _ => simp [Nat.ofDigitChars]
  | [c], _ =>
    simp [Nat.ofDigitChars]
    ring
  | [c, c'], _ => simp [Nat.ofDigitChars]; norm_num

theorem DecimalText.cents_value : (d.cents : ℚ) / 100 = d.value := by
  have habs : (d.absCents : ℚ) / 100 =
      Nat.ofDigitChars 10 d.whole 0 + Nat.ofDigitChars 10 (d.point.getD []) 0 / 10 ^ (d.point.getD []).length := by
    rw [← d.ofDigitChars_frac, absCents]
    push_cast
    ring
  rw [cents, value, ← habs]
  cases d.negative with
  | false => simp
  | true =>
    simp only [if_true]
    push_cast
    ring

end Reading

/-! ## Writing -/

theorem centsToMoneyString_eq (cents : Int) :
    centsToMoneyString cents = (if cents < 0 then "-" else "") ++ centsToMoney cents.natAbs := by
  simp only [centsToMoneyString, centsToMoney, String.append_assoc]

theorem centsToMoney_eq (cents : Cents) : centsToMoney cents = centsToMoneyString cents := by
  rw [centsToMoneyString_eq, if_neg (by omega), Int.natAbs_natCast, String.empty_append]

theorem exists_decimalText (n : Int) : ∃ d : DecimalText, d.text = centsToMoneyString n ∧ d.cents = n := by
  obtain ⟨frac, htext, hlength, hdigits, hnumber⟩ := centsToMoney_toList n.natAbs
  have hwhole : ∀ c ∈ Nat.toDigits 10 (n.natAbs / 100), c.isDigit = true := isDigit_toDigits
  let d : DecimalText :=
    { negative := n < 0
      whole := Nat.toDigits 10 (n.natAbs / 100)
      point := some frac
      digits := List.forall_mem_append.2 ⟨hwhole, hdigits⟩
      nonempty := by
        intro h
        have hfrac : frac = [] := (List.append_eq_nil_iff.1 h).2
        rw [hfrac] at hlength
        cases hlength
      short := hlength.le }
  have habs : d.absCents = n.natAbs := by
    have hfrac : d.frac = frac := List.take_left' hlength
    have hcents : Nat.ofDigitChars 10 frac 0 = n.natAbs % 100 :=
      Option.some.inj ((numberOf_digits hdigits).symm.trans hnumber)
    rw [DecimalText.absCents, hfrac, hcents, Nat.ofDigitChars_toDigits (by omega) (by omega)]
    exact Nat.div_add_mod' _ _
  refine ⟨d, ?_, ?_⟩
  · apply String.toList_injective
    rw [centsToMoneyString_eq, String.toList_append, htext, DecimalText.text, String.toList_ofList,
      DecimalText.magnitude]
    by_cases hn : n < 0
    · simp [d, hn]
    · simp [d, hn]
  · rw [DecimalText.cents, habs]
    by_cases hn : n < 0
    · simp only [d, hn, decide_true, if_true]
      omega
    · simp only [d, hn, decide_false]
      exact Int.natAbs_of_nonneg (by omega)

theorem parseMoneyToCents_centsToMoneyString (n : Int) : parseMoneyToCents (centsToMoneyString n) = some n := by
  obtain ⟨d, htext, hcents⟩ := exists_decimalText n
  rw [← htext, parseMoneyToCents_text, hcents]

theorem parseMoneyToCents_centsToMoney (cents : Cents) :
    parseMoneyToCents (centsToMoney cents) = some (cents : Int) := by
  rw [centsToMoney_eq, parseMoneyToCents_centsToMoneyString]

/-! ## Sums -/

theorem parse_sumText (amounts : List Int) : parseMoneyToCents (sumText amounts) = some amounts.sum := by
  cases amounts with
  | nil => decide
  | cons amount amounts => exact parseMoneyToCents_centsToMoneyString _

section Sums
variable {α : Type} {text : α → String} {amount : α → Int}

theorem sumCents_texts (l : List α) (h : ∀ a ∈ l, parseMoneyToCents (text a) = some (amount a)) (start : Int) :
    l.foldlM (fun acc a => (acc + ·) <$> parseMoneyToCents (text a)) start = some (start + (l.map amount).sum) := by
  induction l generalizing start with
  | nil => simp
  | cons a l ih =>
    rw [List.forall_mem_cons] at h
    rw [List.foldlM_cons, h.1, Option.map_eq_map, Option.map_some, Option.bind_eq_bind, Option.bind_some, ih h.2,
      List.map_cons, List.sum_cons, add_assoc]

theorem addMoneyStrings_texts {l : List α} (h : ∀ a ∈ l, parseMoneyToCents (text a) = some (amount a)) :
    addMoneyStrings (l.map text) = some (centsToMoneyString (l.map amount).sum) := by
  have hsum := sumCents_texts l h 0
  rw [zero_add] at hsum
  rw [addMoneyStrings, List.foldlM_map, hsum]
  rfl

/-- Texts of amounts are added up. -/
theorem addMoneyStrings_map (amounts : List Int) :
    addMoneyStrings (amounts.map centsToMoneyString) = some (centsToMoneyString amounts.sum) := by
  have hsum := addMoneyStrings_texts (l := amounts) fun n _ => parseMoneyToCents_centsToMoneyString n
  rwa [List.map_id'] at hsum

end Sums
end Komanda.Analytics
