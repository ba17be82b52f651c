import Komanda.Lib.Binary64
import Mathlib.Algebra.Order.BigOperators.Group.List

/-!
# Decimals carried through sums of doubles

`Near digits ε x n`: the double `x` stands for the decimal `n / 10 ^ digits`, off by `ε` units of its last digit. Each
operation adds the errors of its operands and that of its own rounding; as long as less than half a unit has come
together, `toFixedInt` prints the decimal. `total` adds up a list as `reduce` does.
-/

namespace Binary64

/-- `toFixed` of any number, in units of the last digit: the sign stands before what is left without it. -/
def toFixedInt (digits : ℕ) (x : ℚ) : ℤ := if x < 0 then -(toFixed digits (-x)) else toFixed digits x

/-- The double that a printed number is read as. -/
def ofFixed (digits : ℕ) (n : ℤ) : ℚ := nearest (n / 10 ^ digits)

def total (xs : List ℚ) : ℚ := xs.foldl (fun sum x => nearest (sum + x)) 0

@[simp] theorem total_nil : total [] = 0 := rfl

theorem total_concat (xs : List ℚ) (x : ℚ) : total (xs ++ [x]) = nearest (total xs + x) := by
  rw [total, List.foldl_append]
  rfl

@[simp] theorem nearest_zero : nearest 0 = 0 := by simp [nearest, roundEven]

@[simp] theorem ofFixed_zero (digits : ℕ) : ofFixed digits 0 = 0 := by simp [ofFixed]

/-! ## Errors -/

def Near (digits : ℕ) (ε : ℚ) (x : ℚ) (n : ℤ) : Prop := |x - n / 10 ^ digits| ≤ ε / 10 ^ digits

section Near
variable {digits : ℕ} {n m : ℤ} {x y ε δ : ℚ}

theorem near_ofFixed (digits : ℕ) (n : ℤ) : Near digits (|(n : ℚ)| / 2 ^ 53) (ofFixed digits n) n := by
  have h := abs_nearest_sub_le (n / 10 ^ digits)
  rwa [abs_div, abs_of_pos (by positivity : (0 : ℚ) < 10 ^ digits), div_right_comm] at h

theorem near_zero : Near digits 0 0 0 := by simp [Near]

namespace Near

theorem mono (h : Near digits ε x n) (hle : ε ≤ δ) : Near digits δ x n :=
  h.trans (div_le_div_of_nonneg_right hle (by positivity))

/-- Rounding adds an error in proportion to what is rounded. -/
theorem nearest (h : Near digits ε x n) : Near digits (ε + (|(n : ℚ)| + ε) / 2 ^ 53) (nearest x) n := by
  refine (abs_nearest_sub_le_of h).trans (le_of_eq ?_)
  rw [abs_div, abs_of_pos (by positivity : (0 : ℚ) < 10 ^ digits)]
  ring

theorem neg (h : Near digits ε x n) : Near digits ε (-x) (-n) := by
  have hsplit : -x - ((-n : ℤ) : ℚ) / 10 ^ digits = -(x - n / 10 ^ digits) := by
    push_cast
    ring
  rw [Near, hsplit, abs_neg]
  exact h

theorem add (hx : Near digits ε x n) (hy : Near digits δ y m) : Near digits (ε + δ) (x + y) (n + m) := by
  have hsplit : x + y - ((n + m : ℤ) : ℚ) / 10 ^ digits = (x - n / 10 ^ digits) + (y - m / 10 ^ digits) := by
    push_cast
    ring
  calc |x + y - ((n + m : ℤ) : ℚ) / 10 ^ digits| ≤ ε / 10 ^ digits + δ / 10 ^ digits := by
        rw [hsplit]
        exact (abs_add_le _ _).trans (add_le_add hx hy)
    _ = (ε + δ) / 10 ^ digits := by ring

theorem sub (hx : Near digits ε x n) (hy : Near digits δ y m) : Near digits (ε + δ) (x - y) (n - m) := by
  rw [sub_eq_add_neg, sub_eq_add_neg]
  exact hx.add hy.neg

/-- What has been clamped at zero is no farther off. -/
theorem clamp (h : Near digits ε x n) (hn : 0 ≤ n) : Near digits ε (max 0 x) n := by
  have hdecimal : (0 : ℚ) ≤ n / 10 ^ digits := div_nonneg (mod_cast hn) (by positivity)
  rcases le_total 0 x with hx | hx
  · rwa [max_eq_right hx]
  · rw [max_eq_left hx]
    refine le_trans ?_ h
    rw [abs_of_nonpos (by linarith), abs_of_nonpos (by linarith)]
    linarith

/-- Less than half a unit does not hide the sign. -/
theorem nonneg (h : Near digits ε x n) (hε : ε < 1 / 2) (hx : 0 ≤ x) : 0 ≤ n := by
  have hu : (0 : ℚ) < 10 ^ digits := by positivity
  have hle := (abs_le.1 h).2
  have hbound : -ε / 10 ^ digits ≤ (n : ℚ) / 10 ^ digits := by
    rw [neg_div]
    linarith
  have hsmall : (-1 : ℚ) < n := by linarith [(div_le_div_iff_of_pos_right hu).1 hbound]
  have hint : (-1 : ℤ) < n := mod_cast hsmall
  omega

theorem pos (h : Near digits ε x n) (hε : ε < 1 / 2) (hn : 0 < n) : 0 < x := by
  by_contra hx
  have hneg := h.neg.nonneg hε (by linarith)
  omega

/-- An error of less than half a unit is not printed. -/
theorem toFixedInt_eq (h : Near digits ε x n) (hε : ε < 1 / 2) : toFixedInt digits x = n := by
  have hprint {x : ℚ} {n : ℤ} (h : Near digits ε x n) (hx : 0 ≤ x) : (toFixed digits x : ℤ) = n := by
    obtain ⟨k, rfl⟩ := Int.eq_ofNat_of_zero_le (h.nonneg hε hx)
    rw [toFixed_near (by simpa [Near] using h) hε]
  rw [toFixedInt]
  split
  · next hx => rw [hprint h.neg (by linarith), neg_neg]
  · next hx => exact hprint h (not_lt.1 hx)

end Near

end Near

/-- Adding up decimals, each rounding adds less than four parts in `2 ^ 53` of what the sum may come to. -/
theorem near_total (digits : ℕ) {ns : List ℤ} {M : ℕ} (hnonneg : ∀ n ∈ ns, 0 ≤ n) (hsum : ns.sum ≤ M)
    (hlength : ns.length ≤ 2 ^ 51) :
    Near digits (ns.length * (M / 2 ^ 51)) (total (ns.map (ofFixed digits))) ns.sum := by
  induction ns using List.reverseRecOn with
  | nil => simpa using near_zero
  | append_singleton ns n ih =>
    have hnonnegs : ∀ m ∈ ns, 0 ≤ m := fun m hm => hnonneg m (List.mem_append_left _ hm)
    have hn : 0 ≤ n := hnonneg n (by simp)
    have hns : 0 ≤ ns.sum := List.sum_nonneg hnonnegs
    rw [List.sum_append, List.sum_singleton] at hsum ⊢
    rw [List.length_append, List.length_singleton] at hlength ⊢
    rw [List.map_append, List.map_singleton, total_concat]
    have hstep := ((ih hnonnegs (by omega) (by omega)).add (near_ofFixed digits n)).nearest
    rw [abs_of_nonneg (mod_cast hn : (0 : ℚ) ≤ n),
      abs_of_nonneg (mod_cast add_nonneg hns hn : (0 : ℚ) ≤ ((ns.sum + n : ℤ) : ℚ))] at hstep
    have hM : ((ns.sum + n : ℤ) : ℚ) ≤ M := mod_cast hsum
    have hnM : (n : ℚ) ≤ M := by
      have hint : n ≤ M := by omega
      exact mod_cast hint
    have hMnonneg : (0 : ℚ) ≤ M := Nat.cast_nonneg M
    -- what has come together so far is at most the sum itself
    have herror : (ns.length : ℚ) * (M / 2 ^ 51) ≤ M := by
      have hcount : (ns.length : ℚ) ≤ 2 ^ 51 := by
        have hnat : ns.length ≤ 2 ^ 51 := by omega
        exact mod_cast hnat
      calc (ns.length : ℚ) * (M / 2 ^ 51) ≤ 2 ^ 51 * (M / 2 ^ 51) :=
            mul_le_mul_of_nonneg_right hcount (by positivity)
        _ = M := by ring
    refine hstep.mono ?_
    push_cast at hM ⊢
    linarith

theorem total_eq_zero {xs : List ℚ} (h : ∀ x ∈ xs, x = 0) : total xs = 0 := by
  induction xs using List.reverseRecOn with
  | nil => rfl
  | append_singleton xs x ih =>
    rw [total_concat, ih fun y hy => h y (List.mem_append_left _ hy), h x (by simp), add_zero, nearest_zero]

end Binary64
