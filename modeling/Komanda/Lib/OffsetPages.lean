import Komanda.Lib.Keyset
import Mathlib.Data.List.Nodup
import Mathlib.Data.List.Perm.Basic

/-!
# Pages by offset

A client asks for `size` rows after the first `n * size`, for one `n` after the other, of a listing that is ordered by
decreasing keys. Rows that share a key may come in another order with every answer. The pages hold every row once,
whatever the answers, exactly if no page ends inside a group of rows that share a key (`visits_once_iff`).
-/

namespace OffsetPages
open Keyset

variable {α κ : Type}

/-- The page after the first `n * size` rows of an answer. -/
def page (size n : Nat) (answer : List α) : List α := (answer.drop (n * size)).take size

/-- What has been seen on the first `count` pages. -/
def seen (size count : Nat) (answers : Nat → List α) : List α :=
  (List.range count).flatMap fun n => page size n (answers n)

/-- An order of the rows that the sort allows. -/
structure Arranged [LE κ] (key : α → κ) (rows l : List α) : Prop where
  perm : l.Perm rows
  sorted : l.Pairwise fun a b => key b ≤ key a

section Pages
variable {size count n : Nat} {l : List α}

theorem seen_succ (answers : Nat → List α) :
    seen size (count + 1) answers = seen size count answers ++ page size count (answers count) := by
  rw [seen, List.range_succ, List.flatMap_append, ← seen, List.flatMap_singleton]

/-- One answer, page by page. -/
theorem seen_const (size count : Nat) (l : List α) : seen size count (fun _ => l) = l.take (count * size) := by
  induction count with
  | zero => rw [Nat.zero_mul]; rfl
  | succ count ih => rw [seen_succ, ih, page, Nat.succ_mul, List.take_add]

theorem seen_const_all (h : l.length ≤ count * size) : seen size count (fun _ => l) = l := by
  rw [seen_const, List.take_of_length_le h]

end Pages

section Order
variable [LinearOrder κ] {key : α → κ} {size count n : Nat} {rows l l' : List α}

theorem exists_arranged (key : α → κ) (rows : List α) : ∃ l, Arranged key rows l := by
  let le (a b : α) : Bool := decide (key b ≤ key a)
  have htrans (a b c : α) (hab : le a b = true) (hbc : le b c = true) : le a c = true :=
    decide_eq_true (le_trans (of_decide_eq_true hbc) (of_decide_eq_true hab))
  have htotal (a b : α) : (le a b || le b a) = true := by simpa [le] using le_total (key b) (key a)
  exact ⟨rows.mergeSort le, List.mergeSort_perm _ _,
    (List.pairwise_mergeSort htrans htotal rows).imp fun h => of_decide_eq_true h⟩

/-- The keys stand in one order only. -/
theorem Arranged.keys_eq (h : Arranged key rows l) (h' : Arranged key rows l') : l.map key = l'.map key := by
  have hperm : (l.map key).Perm (l'.map key) := (h.perm.trans h'.perm.symm).map key
  have hl : (l.map key).Pairwise fun a b => b ≤ a := List.pairwise_map.2 h.sorted
  have hl' : (l'.map key).Pairwise fun a b => b ≤ a := List.pairwise_map.2 h'.sorted
  exact hperm.eq_of_pairwise (fun a b _ _ hab hba => le_antisymm hba hab) hl hl'

theorem Arranged.exists_key (h : Arranged key rows l) (h' : Arranged key rows l') {i : Nat} {a : α}
    (ha : l[i]? = some a) : ∃ a', l'[i]? = some a' ∧ key a' = key a := by
  have hkey : (l'[i]?).map key = (l[i]?).map key := by
    rw [← List.getElem?_map, ← List.getElem?_map, h.keys_eq h']
  rwa [ha, Option.map_some, Option.map_eq_some_iff] at hkey

/-- What stands before a fall of the keys are the rows with the larger ones. -/
theorem Arranged.take_eq_filter (h : Arranged key rows l) {k : Nat} {a b : α} (ha : l[k]? = some a)
    (hb : l[k + 1]? = some b) (hlt : key b < key a) : l.take (k + 1) = l.filter (key a ≤ key ·) := by
  obtain ⟨hk, rfl⟩ := List.getElem?_eq_some_iff.1 ha
  obtain ⟨hk', rfl⟩ := List.getElem?_eq_some_iff.1 hb
  have hsorted := List.pairwise_iff_getElem.1 h.sorted
  have hbefore : (l.take (k + 1)).filter (key l[k] ≤ key ·) = l.take (k + 1) := by
    refine List.filter_eq_self.2 fun x hx => ?_
    obtain ⟨i, hi, rfl⟩ := List.mem_take_iff_getElem.1 hx
    rcases Nat.lt_or_ge i k with hlt | hge
    · exact decide_eq_true (hsorted i k _ _ hlt)
    · obtain rfl : i = k := by omega
      exact decide_eq_true le_rfl
  have hbehind : (l.drop (k + 1)).filter (key l[k] ≤ key ·) = [] := by
    refine List.filter_eq_nil_iff.2 fun x hx => ?_
    obtain ⟨i, hi, rfl⟩ := List.mem_drop_iff_getElem.1 hx
    rw [decide_eq_true_iff, not_le]
    rcases Nat.eq_zero_or_pos i with rfl | hpos
    · exact hlt
    · exact lt_of_le_of_lt (hsorted (k + 1) (k + 1 + i) _ _ (by omega)) hlt
  have hsplit := List.filter_append (p := (key l[k] ≤ key ·)) (l.take (k + 1)) (l.drop (k + 1))
  rw [List.take_append_drop, hbefore, hbehind, List.append_nil] at hsplit
  exact hsplit.symm

/-- Where the keys fall every answer has the same rows before. -/
theorem Arranged.take_perm (h : Arranged key rows l) (h' : Arranged key rows l') (hu : Unsplit key size l) (n : Nat) :
    (l.take (n * size)).Perm (l'.take (n * size)) := by
  have hperm : l.Perm l' := h.perm.trans h'.perm.symm
  rcases Nat.eq_zero_or_pos (n * size) with hzero | hpos
  · rw [hzero]
    exact .refl _
  have hn : 0 < n := Nat.pos_of_mul_pos_right hpos
  cases hb : l[n * size]? with
  | none =>
    have hle : l.length ≤ n * size := List.getElem?_eq_none_iff.1 hb
    rw [List.take_of_length_le hle, List.take_of_length_le (hperm.length_eq ▸ hle)]
    exact hperm
  | some b =>
    obtain ⟨a, ha, hlt⟩ := hu n hn b hb
    have hlast := h.take_eq_filter ha (by rw [Nat.sub_add_cancel hpos]; exact hb) hlt
    obtain ⟨a', ha', hakey⟩ := h.exists_key h' ha
    obtain ⟨b', hb', hbkey⟩ := h.exists_key h' hb
    have hlast' := h'.take_eq_filter ha' (by rw [Nat.sub_add_cancel hpos]; exact hb')
      (by rw [hakey, hbkey]; exact hlt)
    rw [Nat.sub_add_cancel hpos] at hlast hlast'
    rw [hlast, hlast', hakey]
    exact hperm.filter _

theorem Arranged.page_perm (h : Arranged key rows l) (h' : Arranged key rows l') (hu : Unsplit key size l) (n : Nat) :
    (page size n l).Perm (page size n l') := by
  have hnext := h.take_perm h' hu (n + 1)
  rw [Nat.succ_mul, List.take_add, List.take_add] at hnext
  exact (List.perm_append_left_iff _).1 (hnext.trans ((h.take_perm h' hu n).symm.append_right _))

/-- Every row is on one page, once the pages reach the end. -/
theorem Arranged.seen_perm {answers : Nat → List α} (h : Arranged key rows l) (hu : Unsplit key size l)
    (hanswers : ∀ n, Arranged key rows (answers n)) (hcount : rows.length ≤ count * size) :
    (seen size count answers).Perm rows := by
  have hpages : (seen size count answers).Perm (seen size count fun _ => l) :=
    List.Perm.flatMap_left _ fun n _ => (h.page_perm (hanswers n) hu n).symm
  rw [seen_const_all (h.perm.length_eq ▸ hcount)] at hpages
  exact hpages.trans h.perm

/-- Rows with one key may change places. -/
theorem Arranged.swap {xs ys : List α} {a b : α} (h : Arranged key rows (xs ++ a :: b :: ys)) (heq : key a = key b) :
    Arranged key rows (xs ++ b :: a :: ys) := by
  have hperm : (xs ++ b :: a :: ys).Perm (xs ++ a :: b :: ys) := (List.Perm.swap a b ys).append_left xs
  have hkeys : (xs ++ b :: a :: ys).map key = (xs ++ a :: b :: ys).map key := by simp [heq]
  refine ⟨hperm.trans h.perm, ?_⟩
  have hsorted : ((xs ++ a :: b :: ys).map key).Pairwise fun x y => y ≤ x := List.pairwise_map.2 h.sorted
  rw [← hkeys] at hsorted
  exact List.pairwise_map.1 hsorted

/-- Where the keys do not fall, two neighbours share a key. -/
theorem Arranged.exists_tie (h : Arranged key rows l) (hsize : 0 < size) (hu : ¬ Unsplit key size l) :
    ∃ n xs a b ys, l = xs ++ a :: b :: ys ∧ xs.length + 1 = n * size ∧ 0 < n ∧ key a = key b := by
  simp only [Unsplit, not_forall, not_exists, not_and] at hu
  obtain ⟨n, hn, b, hb, hnot⟩ := hu
  have hpos : 0 < n * size := Nat.mul_pos hn hsize
  obtain ⟨hk, rfl⟩ := List.getElem?_eq_some_iff.1 hb
  have hle : ¬ key l[n * size] < key l[n * size - 1] := hnot _ (List.getElem?_eq_getElem (by omega))
  have hge := List.pairwise_iff_getElem.1 h.sorted (n * size - 1) (n * size) (by omega) hk (by omega)
  refine ⟨n, l.take (n * size - 1), l[n * size - 1], l[n * size], l.drop (n * size + 1), ?_, ?_, hn, ?_⟩
  · have hdrop : l.drop (n * size - 1) = l[n * size - 1] :: l[n * size] :: l.drop (n * size + 1) := by
      rw [List.drop_eq_getElem_cons (by omega), Nat.sub_add_cancel hpos, List.drop_eq_getElem_cons hk]
    rw [← hdrop, List.take_append_drop]
  · rw [List.length_take, Nat.min_eq_left (by omega), Nat.sub_add_cancel hpos]
  · exact le_antisymm (not_lt.1 hle) hge

/-- The last row before the page `n` is on the page before it. -/
theorem mem_page_before {xs ys : List α} {a : α} (hlength : xs.length + 1 = n * size) (hn : 0 < n) (hsize : 0 < size) :
    a ∈ page size (n - 1) (xs ++ a :: ys) := by
  obtain ⟨n, rfl⟩ := Nat.exists_eq_succ_of_ne_zero hn.ne'
  rw [Nat.succ_mul] at hlength
  rw [Nat.succ_sub_one, page, List.mem_take_iff_getElem]
  refine ⟨size - 1, by simp; omega, ?_⟩
  rw [List.getElem_drop, List.getElem_append_right (by omega)]
  simp [show n * size + (size - 1) - xs.length = 0 by omega]

theorem mem_page {xs ys : List α} {a b : α} (hlength : xs.length + 1 = n * size) (hsize : 0 < size) :
    a ∈ page size n (xs ++ b :: a :: ys) := by
  have hdrop : (xs ++ b :: a :: ys).drop (n * size) = a :: ys := by
    rw [← hlength, List.drop_append, List.drop_of_length_le (by omega)]
    simp
  rw [page, hdrop]
  exact List.mem_take_iff_getElem.2 ⟨0, by simp; omega, rfl⟩

/-- A row may be the last of a page, and the first of the next one. -/
theorem Arranged.split_twice (h : Arranged key rows l) (hnodup : rows.Nodup) (hu : ¬ Unsplit key size l)
    (hcount : rows.length ≤ count * size) :
    ∃ answers : Nat → List α, (∀ n, Arranged key rows (answers n)) ∧ ¬ (seen size count answers).Perm rows := by
  have hsize : 0 < size := by
    refine Nat.pos_of_ne_zero fun hzero => hu ?_
    subst hzero
    have hnil : l = [] := List.eq_nil_of_length_eq_zero (by have := h.perm.length_eq; omega)
    exact hnil ▸ unsplit_zero.2 rfl
  obtain ⟨n, xs, a, b, ys, rfl, hlength, hn, heq⟩ := h.exists_tie hsize hu
  have hlt : n < count := by
    have hrows := h.perm.length_eq
    simp only [List.length_append, List.length_cons] at hrows
    exact Nat.lt_of_mul_lt_mul_right (a := size) (by omega)
  refine ⟨fun m => if m = n then xs ++ b :: a :: ys else xs ++ a :: b :: ys, fun m => ?_, fun hperm => ?_⟩
  · dsimp only
    by_cases hm : m = n
    · rw [if_pos hm]
      exact h.swap heq
    · rw [if_neg hm]
      exact h
  · have hdisjoint := (List.nodup_flatMap.1 (hperm.nodup_iff.2 hnodup)).2
    have hpages := List.pairwise_iff_getElem.1 hdisjoint (n - 1) n (by simp; omega) (by simpa using hlt) (by omega)
    simp only [List.getElem_range, Function.onFun, if_neg (show n - 1 ≠ n by omega), if_true] at hpages
    exact hpages (mem_page_before hlength hn hsize) (mem_page hlength hsize)

theorem visits_once_iff (hnodup : rows.Nodup) (hcount : rows.length ≤ count * size) (h : Arranged key rows l) :
    (∀ answers : Nat → List α, (∀ n, Arranged key rows (answers n)) → (seen size count answers).Perm rows) ↔
      Unsplit key size l := by
  constructor
  · intro hall
    by_contra hu
    obtain ⟨answers, hanswers, hnot⟩ := h.split_twice hnodup hu hcount
    exact hnot (hall answers hanswers)
  · intro hu answers hanswers
    exact h.seen_perm hu hanswers hcount

end Order
end OffsetPages
