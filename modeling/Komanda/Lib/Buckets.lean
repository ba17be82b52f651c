import Mathlib.Algebra.BigOperators.Group.List.Lemmas
import Mathlib.Algebra.GroupWithZero.Nat
import Mathlib.Data.List.Nodup

/-!
# Sums by key

What is added up for each key adds up to the sum of all, once every key stands in the list of keys, and once only.
-/

namespace Buckets
variable {α κ M : Type} [DecidableEq κ] [AddCommMonoid M] {key : α → κ} {keys : List κ} {w : α → M}

/-- An element counts under its own key. -/
theorem sum_indicator (x : M) {k : κ} (hkeys : keys.Nodup) (hk : k ∈ keys) :
    (keys.map fun j => if k = j then x else 0).sum = x := by
  induction keys with
  | nil => cases hk
  | cons j keys ih =>
    obtain ⟨hj, hkeys⟩ := List.nodup_cons.1 hkeys
    rw [List.map_cons, List.sum_cons]
    by_cases heq : k = j
    · have hrest : ∀ i ∈ keys, (if k = i then x else 0) = 0 := by
        intro i hi
        refine if_neg fun h => hj ?_
        rw [← heq, h]
        exact hi
      rw [if_pos heq, List.map_congr_left hrest, List.map_const', List.sum_replicate, nsmul_zero, add_zero]
    · have hmem : k ∈ keys := (List.mem_cons.1 hk).resolve_left heq
      rw [if_neg heq, zero_add, ih hkeys hmem]

theorem sum_filter_cons (a : α) (l : List α) (k : κ) :
    (((a :: l).filter (key · = k)).map w).sum = (if key a = k then w a else 0) + ((l.filter (key · = k)).map w).sum := by
  by_cases h : key a = k
  · simp [h]
  · simp [h]

/-- The sums for the keys add up. -/
theorem sum_keys (hkeys : keys.Nodup) {l : List α} (h : ∀ a ∈ l, key a ∈ keys) :
    (keys.map fun k => ((l.filter (key · = k)).map w).sum).sum = (l.map w).sum := by
  induction l with
  | nil => simp
  | cons a l ih =>
    rw [List.forall_mem_cons] at h
    simp only [sum_filter_cons, List.sum_map_add, sum_indicator (w a) hkeys h.1, ih h.2, List.map_cons, List.sum_cons]

/-- Each element is counted once. -/
theorem length_keys (hkeys : keys.Nodup) {l : List α} (h : ∀ a ∈ l, key a ∈ keys) :
    (keys.map fun k => (l.filter (key · = k)).length).sum = l.length := by
  have hsum := sum_keys (w := fun _ => 1) hkeys h
  simpa using hsum

end Buckets
