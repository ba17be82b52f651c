import Mathlib.Data.Int.Log
import Mathlib.Data.Rat.Floor
import Mathlib.Tactic.Linarith
import Mathlib.Tactic.Positivity
import Mathlib.Tactic.FieldSimp
import Mathlib.Tactic.Ring

/-!
# Numbers rounded to doubles

The double that an operation of the language returns is the one nearest to the exact result: 53 binary digits,
the even one of two that are as near. Exponents are not bounded here: the numbers are far from overflow and
underflow. `abs_nearest_sub_le` bounds the error of one rounding; `toFixed_eq` says when rounding to decimal
digits gives a certain decimal, whatever the error of its argument.
-/

namespace Binary64

/-- The gap between the doubles of the size of `x`. -/
def ulp (x : ℚ) : ℚ := 2 ^ (Int.log 2 |x| - 52)

/-- The integer nearest to `x`, of two the even one. -/
def roundEven (x : ℚ) : ℤ :=
  if x - ⌊x⌋ < 1 / 2 ∨ (x - ⌊x⌋ = 1 / 2 ∧ Even ⌊x⌋) then ⌊x⌋ else ⌊x⌋ + 1

/-- The double nearest to `x`. -/
def nearest (x : ℚ) : ℚ := roundEven (x / ulp x) * ulp x

/-- The double that the decimal `n / 10 ^ digits` is read as. -/
def ofDecimal (digits n : ℕ) : ℚ := nearest (n / 10 ^ digits)

/-- `toFixed` of a number that is not negative, in units of the last digit: of two decimals as near, the larger. -/
def toFixed (digits : ℕ) (x : ℚ) : ℕ := ⌊x * 10 ^ digits + 1 / 2⌋₊

variable {x y ε : ℚ} {digits n : ℕ}

theorem ulp_pos (x : ℚ) : 0 < ulp x := zpow_pos (by norm_num) _

theorem abs_roundEven_sub_le (x : ℚ) : |roundEven x - x| ≤ 1 / 2 := by
  have hle := Int.floor_le x
  have hlt := Int.lt_floor_add_one x
  unfold roundEven
  split
  · next h =>
    rw [abs_le]
    rcases h with h | ⟨h, -⟩ <;> constructor <;> linarith
  · next h =>
    have hhalf : 1 / 2 ≤ x - ⌊x⌋ := not_lt.1 fun hc => h (.inl hc)
    rw [abs_le]
    push_cast
    constructor <;> linarith

theorem ulp_le (hx : x ≠ 0) : ulp x ≤ |x| / 2 ^ 52 := by
  have hlog := Int.zpow_log_le_self (b := 2) (r := |x|) (by norm_num) (abs_pos.2 hx)
  rw [ulp, zpow_sub₀ (by norm_num)]
  exact div_le_div_of_nonneg_right (mod_cast hlog) (by positivity)

/-- The relative error of a rounding. -/
theorem abs_nearest_sub_le (x : ℚ) : |nearest x - x| ≤ |x| / 2 ^ 53 := by
  rcases eq_or_ne x 0 with rfl | hx
  · simp [nearest, roundEven]
  · have hu := ulp_pos x
    have hsplit : nearest x - x = (roundEven (x / ulp x) - x / ulp x) * ulp x := by
      rw [sub_mul, div_mul_cancel₀ _ hu.ne', nearest]
    calc |nearest x - x| = |roundEven (x / ulp x) - x / ulp x| * ulp x := by
          rw [hsplit, abs_mul, abs_of_pos hu]
      _ ≤ 1 / 2 * ulp x := mul_le_mul_of_nonneg_right (abs_roundEven_sub_le _) hu.le
      _ ≤ 1 / 2 * (|x| / 2 ^ 52) := mul_le_mul_of_nonneg_left (ulp_le hx) (by norm_num)
      _ = |x| / 2 ^ 53 := by ring

/-- The error of the rounding of a number that is itself off by `ε`. -/
theorem abs_nearest_sub_le_of (h : |x - y| ≤ ε) : |nearest x - y| ≤ ε + (|y| + ε) / 2 ^ 53 := by
  have hx : |x| ≤ |y| + ε := by
    calc |x| = |y + (x - y)| := by ring_nf
      _ ≤ |y| + |x - y| := abs_add_le _ _
      _ ≤ |y| + ε := by linarith
  calc |nearest x - y| ≤ |nearest x - x| + |x - y| := abs_sub_le _ _ _
    _ ≤ |x| / 2 ^ 53 + ε := add_le_add (abs_nearest_sub_le x) h
    _ ≤ ε + (|y| + ε) / 2 ^ 53 := by linarith [div_le_div_of_nonneg_right hx (by positivity : (0 : ℚ) ≤ 2 ^ 53)]

/-- Rounding to `digits` digits finds the decimal that is nearer than half a unit. -/
theorem toFixed_eq (h : |x * 10 ^ digits - n| < 1 / 2) : toFixed digits x = n := by
  rw [abs_lt] at h
  rw [toFixed, Nat.floor_eq_iff (by linarith [Nat.cast_nonneg (α := ℚ) n, h.1])]
  constructor <;> linarith [h.1, h.2]

theorem toFixed_near (h : |x - n / 10 ^ digits| ≤ ε / 10 ^ digits) (hε : ε < 1 / 2) : toFixed digits x = n := by
  have hu : (0 : ℚ) < 10 ^ digits := by positivity
  have hx : x * 10 ^ digits - n = (x - n / 10 ^ digits) * 10 ^ digits := by
    rw [sub_mul, div_mul_cancel₀ _ hu.ne']
  refine toFixed_eq (lt_of_le_of_lt ?_ hε)
  rw [hx, abs_mul, abs_of_pos hu]
  exact (le_div_iff₀ hu).1 h

/-! ## Decimals -/

theorem abs_ofDecimal_sub_le (digits n : ℕ) :
    |ofDecimal digits n - n / 10 ^ digits| ≤ (n / 2 ^ 53 : ℚ) / 10 ^ digits := by
  have h := abs_nearest_sub_le (n / 10 ^ digits)
  rw [abs_of_nonneg (by positivity : (0 : ℚ) ≤ n / 10 ^ digits), div_right_comm] at h
  exact h

/-- A decimal of fifteen digits is printed as it was read. -/
theorem toFixed_ofDecimal (digits : ℕ) (h : n < 2 ^ 52) : toFixed digits (ofDecimal digits n) = n := by
  have hn : (n : ℚ) < 2 ^ 52 := mod_cast h
  exact toFixed_near (abs_ofDecimal_sub_le digits n) (by linarith)

/-- Subtraction of such decimals is exact once it is rounded to their digits. -/
theorem toFixed_sub {m : ℕ} (digits : ℕ) (hm : m ≤ n) (hn : n < 2 ^ 50) :
    toFixed digits (nearest (ofDecimal digits n - ofDecimal digits m)) = n - m := by
  have hu : (0 : ℚ) < 10 ^ digits := by positivity
  have hmq : (m : ℚ) ≤ n := mod_cast hm
  have hnq : (n : ℚ) < 2 ^ 50 := mod_cast hn
  have hoff : |ofDecimal digits n - ofDecimal digits m - ((n - m : ℕ) : ℚ) / 10 ^ digits| ≤
      ((n + m) / 2 ^ 53 : ℚ) / 10 ^ digits := by
    have hsplit : ofDecimal digits n - ofDecimal digits m - ((n - m : ℕ) : ℚ) / 10 ^ digits =
        (ofDecimal digits n - n / 10 ^ digits) - (ofDecimal digits m - m / 10 ^ digits) := by
      rw [Nat.cast_sub hm]; ring
    calc _ ≤ (n / 2 ^ 53 : ℚ) / 10 ^ digits + (m / 2 ^ 53 : ℚ) / 10 ^ digits := by
          rw [hsplit]
          exact (abs_sub _ _).trans (add_le_add (abs_ofDecimal_sub_le _ _) (abs_ofDecimal_sub_le _ _))
      _ = ((n + m) / 2 ^ 53 : ℚ) / 10 ^ digits := by ring
  have hdiff : |((n - m : ℕ) : ℚ) / 10 ^ digits| = (n - m : ℚ) / 10 ^ digits := by
    rw [Nat.cast_sub hm, abs_of_nonneg (div_nonneg (by linarith) hu.le)]
  have hnear := abs_nearest_sub_le_of hoff
  rw [hdiff] at hnear
  refine toFixed_near (ε := (n + m) / 2 ^ 53 + (n - m + (n + m) / 2 ^ 53) / 2 ^ 53) (hnear.trans (le_of_eq ?_)) ?_
  · ring
  · linarith [Nat.cast_nonneg (α := ℚ) m]

end Binary64
