import Mathlib.Algebra.BigOperators.Group.List.Basic
import Mathlib.Tactic.Linarith
import Mathlib.Tactic.Ring

/-!
# Spreading an amount over lines

`prorate share d` gives each line `share` of it, at most all of it, and the last line what is left of `d`, again at most
all of it. The parts add up to `d` iff what is left is neither less than nothing nor more than the last line
(`sum_prorate`), that is, iff the last line can bear what the others get beyond their exact shares, or lack
(`absorbed_iff_tolerable`). `halfUp` is the share in proportion to a line, rounded half up; `rounding` is how far the
rounding is off, in fractions of the total. `units` cuts what is left of a line into parts for its units.
-/

namespace Proration

/-- The parts of the lines, once `allocated` is given away. -/
def prorate (share : ℕ → ℕ) (d : ℕ) : ℕ → List ℕ → List ℕ
  | _, [] => []
  | allocated, [l] => [min l (d - allocated)]
  | allocated, l :: l' :: rest =>
    let part := min l (share l)
    part :: prorate share d (allocated + part) (l' :: rest)

/-- What the lines before the last get. -/
def before (share : ℕ → ℕ) (lines : List ℕ) : ℕ := (lines.dropLast.map fun l => min l (share l)).sum

section Prorate
variable {share : ℕ → ℕ} {d allocated l l' : ℕ} {lines rest : List ℕ}

theorem before_cons : before share (l :: l' :: rest) = min l (share l) + before share (l' :: rest) := by
  rw [before, List.dropLast_cons_cons, List.map_cons, List.sum_cons, before]

@[simp] theorem length_prorate : (prorate share d allocated lines).length = lines.length := by
  induction lines generalizing allocated with
  | nil => rfl
  | cons l rest ih =>
    cases rest with
    | nil => rfl
    | cons l' rest => exact congrArg (· + 1) ih

/-- No line gets more than it has. -/
theorem prorate_le : List.Forall₂ (· ≤ ·) (prorate share d allocated lines) lines := by
  induction lines generalizing allocated with
  | nil => exact .nil
  | cons l rest ih =>
    cases rest with
    | nil => exact .cons (Nat.min_le_left ..) .nil
    | cons l' rest => exact .cons (Nat.min_le_left ..) ih

theorem sum_prorate_of_ne_nil (h : lines ≠ []) : (prorate share d allocated lines).sum =
    before share lines + min (lines.getLast h) (d - (allocated + before share lines)) := by
  induction lines generalizing allocated with
  | nil => exact absurd rfl h
  | cons l rest ih =>
    cases rest with
    | nil => simp only [prorate, before, List.dropLast_singleton, List.map_nil, List.sum_nil, List.sum_singleton,
        List.getLast_singleton, Nat.zero_add, Nat.add_zero]
    | cons l' rest =>
      rw [prorate, List.sum_cons, ih (List.cons_ne_nil l' rest), List.getLast_cons (List.cons_ne_nil l' rest),
        before_cons, Nat.add_assoc, Nat.add_assoc]

/-- The lines before the last take no more than the amount, and leave no more of it than the last has. -/
def Absorbed (share : ℕ → ℕ) (d : ℕ) (lines : List ℕ) : Prop :=
  before share lines ≤ d ∧ d ≤ before share lines + lines.getLastD 0

instance : Decidable (Absorbed share d lines) := inferInstanceAs (Decidable (_ ∧ _))

/-- The parts add up to the amount iff the last line can absorb what rounding leaves. -/
theorem sum_prorate (h : d ≤ lines.sum) : (prorate share d 0 lines).sum = d ↔ Absorbed share d lines := by
  by_cases hlines : lines = []
  · subst hlines
    have hd : d = 0 := Nat.le_zero.1 h
    subst hd
    exact iff_of_true rfl ⟨Nat.le_refl _, Nat.zero_le _⟩
  · rw [sum_prorate_of_ne_nil hlines, Nat.zero_add, Absorbed, List.getLastD_eq_getLast?,
      List.getLast?_eq_some_getLast hlines,
      Option.getD_some]
    omega

end Prorate

/-! ## When the last line can absorb the rounding -/

section Absorbed
variable {share : ℕ → ℕ} {d : ℕ} {lines : List ℕ}

/-- What the lines before the last get beyond their exact shares, all together, in fractions of the total. -/
def excess (share : ℕ → ℕ) (d : ℕ) (lines : List ℕ) : ℤ :=
  (lines.dropLast.map fun l => (lines.sum * (min l (share l) : ℕ) - l * d : ℤ)).sum

/-- It is no more than the last line's exact share, and what they lack no more than this share leaves of the last
line. -/
def Tolerable (share : ℕ → ℕ) (d : ℕ) (lines : List ℕ) : Prop :=
  excess share d lines ≤ lines.getLastD 0 * d ∧ -excess share d lines ≤ lines.getLastD 0 * (lines.sum - d)

instance : Decidable (Tolerable share d lines) := inferInstanceAs (Decidable (_ ∧ _))

theorem sum_excess (s : ℕ) (init : List ℕ) :
    (init.map fun l => (s * (min l (share l) : ℕ) - l * d : ℤ)).sum =
      s * ((init.map fun l => min l (share l)).sum : ℕ) - init.sum * d := by
  induction init with
  | nil => simp only [List.map_nil, List.sum_nil, Nat.cast_zero, mul_zero, zero_mul, sub_zero]
  | cons l init ih =>
    simp only [List.map_cons, List.sum_cons]
    rw [ih]
    push_cast
    ring

theorem absorbed_iff_tolerable (hpos : 0 < lines.sum) : Absorbed share d lines ↔ Tolerable share d lines := by
  have hne : lines ≠ [] := by
    rintro rfl
    exact absurd hpos (Nat.lt_irrefl 0)
  have hlast : lines.getLastD 0 = lines.getLast hne := by
    rw [List.getLastD_eq_getLast?, List.getLast?_eq_some_getLast hne, Option.getD_some]
  have hsum : lines.sum = lines.dropLast.sum + lines.getLastD 0 := by
    conv_lhs => rw [← List.dropLast_append_getLast hne, List.sum_append, List.sum_singleton]
    rw [hlast]
  have hpos' : (0 : ℤ) < lines.sum := mod_cast hpos
  have hsum' : (lines.sum : ℤ) = lines.dropLast.sum + lines.getLastD 0 := mod_cast hsum
  have hwhole : (lines.sum * d : ℤ) = lines.dropLast.sum * d + lines.getLastD 0 * d := by
    rw [hsum']
    ring
  have hexcess : excess share d lines = lines.sum * before share lines - lines.dropLast.sum * d := sum_excess _ _
  have hupper : before share lines ≤ d ↔ excess share d lines ≤ lines.getLastD 0 * d := by
    rw [← Nat.cast_le (α := ℤ), ← mul_le_mul_iff_of_pos_left hpos', hexcess, hwhole]
    exact sub_le_iff_le_add'.symm
  have hlower : d ≤ before share lines + lines.getLastD 0 ↔
      -excess share d lines ≤ lines.getLastD 0 * (lines.sum - d) := by
    rw [← Nat.cast_le (α := ℤ), ← mul_le_mul_iff_of_pos_left hpos', Nat.cast_add, mul_add, hexcess, hwhole]
    constructor
    · intro h
      linarith
    · intro h
      linarith
  rw [Absorbed, Tolerable, hupper, hlower]

end Absorbed

/-! ## Shares in proportion -/

/-- `l / s` of `d`, rounded half up. -/
def halfUp (s d l : ℕ) : ℕ := (2 * (l * d) + s) / (2 * s)

/-- What rounding half up adds to the share, or takes from it, in fractions of `s`. -/
def rounding (s d l : ℕ) : ℤ := if s ≤ 2 * (l * d % s) then s - (l * d % s : ℕ) else -(l * d % s : ℕ)

section HalfUp
variable {s d l : ℕ}

theorem halfUp_eq (hs : 0 < s) : halfUp s d l = l * d / s + if s ≤ 2 * (l * d % s) then 1 else 0 := by
  have hdiv := Nat.div_add_mod (l * d) s
  have hmod := Nat.mod_lt (l * d) hs
  have hsplit : 2 * (l * d) + s = 2 * s * (l * d / s) + (2 * (l * d % s) + s) := by
    rw [Nat.mul_assoc]
    omega
  rw [halfUp, hsplit, Nat.mul_add_div (by omega)]
  congr 1
  split
  · next h => exact Nat.div_eq_of_lt_le (by omega) (by omega)
  · next h => exact Nat.div_eq_of_lt (by omega)

theorem mul_halfUp (hs : 0 < s) : (s * halfUp s d l : ℤ) = l * d + rounding s d l := by
  have hdiv : (s * (l * d / s : ℕ) + (l * d % s : ℕ) : ℤ) = (l * d : ℕ) := mod_cast Nat.div_add_mod (l * d) s
  rw [halfUp_eq hs, rounding]
  push_cast at hdiv ⊢
  split
  · linarith
  · linarith

theorem halfUp_le (hs : 0 < s) (hd : d ≤ s) : halfUp s d l ≤ l := by
  have hle : l * d ≤ l * s := Nat.mul_le_mul_left l hd
  have hlt : 2 * (l * d) + s < (l + 1) * (2 * s) := by
    have hexp : (l + 1) * (2 * s) = 2 * (l * s) + 2 * s := by ring
    omega
  exact Nat.lt_succ_iff.1 ((Nat.div_lt_iff_lt_mul (by omega)).2 hlt)

end HalfUp

/-- What rounding does to the shares before the last, all together. -/
def drift (d : ℕ) (lines : List ℕ) : ℤ := (lines.dropLast.map (rounding lines.sum d)).sum

/-- It adds no more than the last line's exact share, and takes no more than this share leaves of the last line. -/
def Bearable (d : ℕ) (lines : List ℕ) : Prop :=
  drift d lines ≤ lines.getLastD 0 * d ∧ -drift d lines ≤ lines.getLastD 0 * (lines.sum - d)

section Bearable
variable {d : ℕ} {lines : List ℕ}

instance : Decidable (Bearable d lines) := inferInstanceAs (Decidable (_ ∧ _))

theorem excess_halfUp (hd : d ≤ lines.sum) (hpos : 0 < lines.sum) :
    excess (halfUp lines.sum d) d lines = drift d lines := by
  refine congrArg List.sum (List.map_congr_left fun l _ => ?_)
  rw [Nat.min_eq_right (halfUp_le hpos hd), mul_halfUp hpos]
  exact add_sub_cancel_left _ _

theorem absorbed_iff (hd : d ≤ lines.sum) (hpos : 0 < lines.sum) :
    Absorbed (halfUp lines.sum d) d lines ↔ Bearable d lines := by
  rw [absorbed_iff_tolerable hpos, Tolerable, excess_halfUp hd hpos, Bearable]

end Bearable

/-! ## One part for each unit -/

/-- The total in `n` parts, the first of which are larger by one. -/
def units (total n : ℕ) : List ℕ :=
  (List.range n).map fun i => total / n + if i < total % n then 1 else 0

theorem sum_first (n r : ℕ) : ((List.range n).map fun i => if i < r then 1 else 0).sum = min n r := by
  induction n with
  | zero => exact (Nat.zero_min r).symm
  | succ n ih =>
    rw [List.range_succ, List.map_append, List.sum_append, ih, List.map_singleton, List.sum_singleton]
    split
    · next h => omega
    · next h => omega

theorem sum_units {total n : ℕ} (hn : 0 < n) : (units total n).sum = total := by
  have hmod := Nat.mod_lt total hn
  rw [units, List.sum_map_add, List.map_const', List.sum_replicate_nat, List.length_range, sum_first,
    Nat.min_eq_right (Nat.le_of_lt hmod)]
  exact Nat.div_add_mod total n

end Proration
