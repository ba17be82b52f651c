import Mathlib.Data.List.TakeWhile
import Komanda.Schema

/-!
# Amounts as texts (`cart.rules.ts`)

Amounts are cents; on the wire and in messages they are decimal texts. A text of digits is read as the number it writes,
the empty one as zero, as `Number` does; texts of other forms are no amounts.
-/

namespace Komanda

/-- `centsToMoney` -/
def centsToMoney (value : Cents) : String :=
  toString (value / 100) ++ "." ++ (if value % 100 < 10 then "0" else "") ++ toString (value % 100)

/-- `Number` of a text of digits. -/
def numberOf (digits : List Char) : Option Nat :=
  if digits.all Char.isDigit then some (Nat.ofDigitChars 10 digits 0) else none

/-- `moneyToCents`: the fraction is padded with zeros or cut to two digits. -/
def moneyToCents (value : String) : Option Cents := do
  let fraction := match value.toList.dropWhile (· ≠ '.') with
    | [] => ['0', '0']
    | _ :: rest => rest.takeWhile (· ≠ '.')
  let whole ← numberOf (value.toList.takeWhile (· ≠ '.'))
  let cents ← numberOf ((fraction ++ ['0', '0']).take 2)
  return whole * 100 + cents

theorem isDigit_toDigits {n : Nat} : ∀ c ∈ Nat.toDigits 10 n, c.isDigit = true :=
  fun _ hc => Nat.isDigit_of_mem_toDigits (by omega) (by omega) hc

theorem numberOf_toDigits (n : Nat) : numberOf (Nat.toDigits 10 n) = some n := by
  rw [numberOf, if_pos (List.all_eq_true.2 isDigit_toDigits), Nat.ofDigitChars_toDigits (by omega) (by omega)]

/-- Two digits write what is left of the hundreds. -/
theorem centsToMoney_toList (value : Cents) : ∃ cents : List Char,
    (centsToMoney value).toList = Nat.toDigits 10 (value / 100) ++ '.' :: cents ∧ cents.length = 2 ∧
      (∀ c ∈ cents, c.isDigit = true) ∧ numberOf cents = some (value % 100) := by
  have htext (digits : List Char)
      (h : ((if value % 100 < 10 then "0" else "") ++ toString (value % 100)).toList = digits) :
      (centsToMoney value).toList = Nat.toDigits 10 (value / 100) ++ '.' :: digits := by
    rw [centsToMoney, String.append_assoc, String.append_assoc, String.toList_append, String.toList_append, h]
    simp
  by_cases hsmall : value % 100 < 10
  · refine ⟨'0' :: Nat.toDigits 10 (value % 100), htext _ ?_, ?_, ?_, ?_⟩
    · rw [if_pos hsmall]
      simp
    · rw [Nat.toDigits_of_lt_base hsmall]
      rfl
    · rintro c (_ | ⟨_, hc⟩)
      · rfl
      · exact isDigit_toDigits c hc
    · have hnumber := numberOf_toDigits (value % 100)
      rw [numberOf] at hnumber ⊢
      exact hnumber
  · refine ⟨Nat.toDigits 10 (value % 100), htext _ ?_, ?_, isDigit_toDigits, numberOf_toDigits _⟩
    · rw [if_neg hsmall]
      simp
    · have hle : (Nat.toDigits 10 (value % 100)).length ≤ 2 :=
        (Nat.length_toDigits_le_iff (by omega) (by omega)).2 (by omega)
      have hlt : ¬ (Nat.toDigits 10 (value % 100)).length ≤ 1 := fun hle =>
        hsmall ((Nat.length_toDigits_le_iff (by omega) (by omega)).1 hle)
      omega

theorem not_dot_of_isDigit {c : Char} (h : c.isDigit = true) : c ≠ '.' := by
  rintro rfl
  cases h

theorem moneyToCents_centsToMoney (value : Cents) : moneyToCents (centsToMoney value) = some value := by
  obtain ⟨cents, htext, hlength, hdigits, hnumber⟩ := centsToMoney_toList value
  have hwhole : ∀ c ∈ Nat.toDigits 10 (value / 100), decide (c ≠ '.') = true :=
    fun c hc => decide_eq_true (not_dot_of_isDigit (isDigit_toDigits c hc))
  have hcents : ∀ c ∈ cents, decide (c ≠ '.') = true := fun c hc => decide_eq_true (not_dot_of_isDigit (hdigits c hc))
  have htake : (Nat.toDigits 10 (value / 100) ++ '.' :: cents).takeWhile (fun c => decide (c ≠ '.')) =
      Nat.toDigits 10 (value / 100) := by
    rw [List.takeWhile_append_of_pos hwhole, List.takeWhile_cons_of_neg (by decide), List.append_nil]
  have hdrop : (Nat.toDigits 10 (value / 100) ++ '.' :: cents).dropWhile (fun c => decide (c ≠ '.')) =
      '.' :: cents := by
    rw [List.dropWhile_append_of_pos hwhole, List.dropWhile_cons_of_neg (by decide)]
  have hfraction : (cents.takeWhile (fun c => decide (c ≠ '.')) ++ ['0', '0']).take 2 = cents := by
    rw [List.takeWhile_eq_self_iff.2 hcents, List.take_left' hlength]
  rw [moneyToCents, htext, htake, hdrop]
  simp only [hfraction, numberOf_toDigits, hnumber, bind, Option.bind, pure, Option.some.injEq]
  exact Nat.div_add_mod' value 100

end Komanda
