import Mathlib.Order.Lattice
import Mathlib.Data.List.Basic

/-!
# Pages of a listing behind a key

A listing answers with the rows that follow a cursor, at most `limit` of them, and with the key of the last one when
there are more. A client follows the cursors until there is none (`follow`). When the rows come with decreasing keys and
a cursor asks for the smaller ones, it sees every row once exactly if no page ends inside a group of rows that share a
key (`follow_decreasing`). When the rows come with increasing keys, the same cursor leads back (`follow_increasing`).
-/

namespace Keyset

structure Page (α κ : Type) where
  data : List α
  nextCursor : Option κ
deriving DecidableEq, Repr

variable {α κ : Type}

/-- The answer out of the rows that follow the cursor. -/
def page (key : α → κ) (limit : Nat) (rows : List α) : Page α κ where
  data := rows.take limit
  nextCursor := if limit < rows.length then (rows.take limit).getLast?.map key else none

/-- What a client has seen at the end that goes on from `cursor`, if the end comes within `fuel` requests. -/
def follow (fetch : Option κ → Page α κ) : Nat → Option κ → Option (List α)
  | 0, _ => none
  | fuel + 1, cursor =>
    match (fetch cursor).nextCursor with
    | none => some (fetch cursor).data
    | some next => (follow fetch fuel (some next)).map ((fetch cursor).data ++ ·)

/-- No page ends between two rows with one key. -/
def Unsplit [LT κ] (key : α → κ) (limit : Nat) (rows : List α) : Prop :=
  ∀ n, 0 < n → ∀ b ∈ rows[n * limit]?, ∃ a ∈ rows[n * limit - 1]?, key b < key a

section Follow
variable {fetch : Option κ → Page α κ} {fuel fuel' : Nat} {cursor : Option κ} {next : κ} {seen seen' : List α}

theorem follow_last (h : (fetch cursor).nextCursor = none) :
    follow fetch (fuel + 1) cursor = some (fetch cursor).data := by
  rw [follow, h]

theorem follow_next (h : (fetch cursor).nextCursor = some next) :
    follow fetch (fuel + 1) cursor = (follow fetch fuel (some next)).map ((fetch cursor).data ++ ·) := by
  rw [follow, h]

/-- What it has seen at the end does not depend on how many requests it is allowed. -/
theorem follow_unique (h : follow fetch fuel cursor = some seen) (h' : follow fetch fuel' cursor = some seen') :
    seen = seen' := by
  induction fuel generalizing fuel' cursor seen seen' with
  | zero => cases h
  | succ fuel ih =>
    cases fuel' with
    | zero => cases h'
    | succ fuel' =>
      cases hnext : (fetch cursor).nextCursor with
      | none =>
        rw [follow_last hnext] at h h'
        exact Option.some.inj (h.symm.trans h')
      | some next =>
        rw [follow_next hnext] at h h'
        obtain ⟨rest, hrest, rfl⟩ := Option.map_eq_some_iff.1 h
        obtain ⟨rest', hrest', rfl⟩ := Option.map_eq_some_iff.1 h'
        rw [ih hrest hrest']

end Follow

section Pages
variable {key : α → κ} {limit : Nat} {rows rest : List α}

theorem take_append_eq_iff : rows.take limit ++ rest = rows ↔ rest = rows.drop limit := by
  conv_lhs => rhs; rw [← List.take_append_drop limit rows]
  exact List.append_right_inj _

theorem page_last (h : rows.length ≤ limit) : page key limit rows = ⟨rows, none⟩ := by
  rw [page, if_neg (Nat.not_lt_of_le h), List.take_of_length_le h]

/-- A page of no rows is the last one. -/
theorem page_empty : page key 0 rows = ⟨[], none⟩ := by
  simp [page]

/-- The page ends with the row before the rest. -/
theorem page_next (hpos : 0 < limit) (h : limit < rows.length) :
    page key limit rows = ⟨rows.take limit, some (key rows[limit - 1])⟩ := by
  have hlast : (rows.take limit).getLast? = some rows[limit - 1] := by
    rw [List.getLast?_eq_getElem?, List.length_take, Nat.min_eq_left (Nat.le_of_lt h),
      List.getElem?_take_of_lt (by omega), List.getElem?_eq_getElem (by omega)]
  rw [page, if_pos h, hlast, Option.map_some]

theorem Unsplit.of_le [LT κ] (h : rows.length ≤ limit) : Unsplit key limit rows := by
  intro n hn b hb
  have hle : limit ≤ n * limit := Nat.le_mul_of_pos_left limit hn
  rw [List.getElem?_eq_none (by omega)] at hb
  cases hb

theorem unsplit_zero [Preorder κ] : Unsplit key 0 rows ↔ rows = [] := by
  constructor
  · intro h
    cases rows with
    | nil => rfl
    | cons r rows =>
      obtain ⟨a, ha, hlt⟩ := h 1 Nat.one_pos r rfl
      obtain rfl : r = a := Option.some.inj ha
      exact absurd hlt (lt_irrefl _)
  · rintro rfl n - b hb
    cases hb

/-- The end of the first page, and then those of the rest. -/
theorem unsplit_drop [LT κ] (h : limit < rows.length) :
    Unsplit key limit rows ↔ key rows[limit] < key rows[limit - 1] ∧ Unsplit key limit (rows.drop limit) := by
  constructor
  · intro hu
    refine ⟨?_, fun n hn b hb => ?_⟩
    · obtain ⟨a, ha, hlt⟩ := hu 1 Nat.one_pos rows[limit] (by rw [Nat.one_mul]; exact List.getElem?_eq_getElem h)
      rw [Nat.one_mul, List.getElem?_eq_getElem (by omega)] at ha
      obtain rfl := Option.some.inj ha
      exact hlt
    · have hle : limit ≤ n * limit := Nat.le_mul_of_pos_left limit hn
      rw [List.getElem?_drop] at hb
      obtain ⟨a, ha, hlt⟩ := hu (n + 1) (Nat.succ_pos n) b (by rw [Nat.succ_mul, Nat.add_comm]; exact hb)
      have hindex : limit + (n * limit - 1) = (n + 1) * limit - 1 := by
        rw [Nat.succ_mul]
        omega
      exact ⟨a, by rw [List.getElem?_drop, hindex]; exact ha, hlt⟩
  · rintro ⟨hlt, hu⟩ n hn b hb
    cases n with
    | zero => exact absurd hn (Nat.lt_irrefl 0)
    | succ n =>
      rw [Nat.succ_mul] at hb ⊢
      cases n with
      | zero =>
        rw [Nat.zero_mul, Nat.zero_add] at hb ⊢
        rw [List.getElem?_eq_getElem h] at hb
        obtain rfl := Option.some.inj hb
        exact ⟨rows[limit - 1], List.getElem?_eq_getElem (by omega), hlt⟩
      | succ n =>
        have hle : limit ≤ (n + 1) * limit := Nat.le_mul_of_pos_left limit (Nat.succ_pos n)
        obtain ⟨a, ha, hlt⟩ := hu (n + 1) (Nat.succ_pos n) b (by rw [List.getElem?_drop, Nat.add_comm]; exact hb)
        have hindex : limit + ((n + 1) * limit - 1) = (n + 1) * limit + limit - 1 := by omega
        rw [List.getElem?_drop, hindex] at ha
        exact ⟨a, ha, hlt⟩

end Pages

section Order
variable [LinearOrder κ] {key : α → κ} {limit : Nat} {rows all : List α} {fetch : Option κ → Page α κ}
  {cursor : Option κ}

/-- Behind the last row of the page there is nothing of the page. -/
theorem filter_below (hsorted : rows.Pairwise fun a b => key b ≤ key a) (h : limit < rows.length) :
    rows.filter (key · < key rows[limit - 1]) = (rows.drop limit).filter (key · < key rows[limit - 1]) := by
  have hpage : (rows.take limit).filter (key · < key rows[limit - 1]) = [] := by
    refine List.filter_eq_nil_iff.2 fun a ha => ?_
    obtain ⟨i, hi, rfl⟩ := List.mem_take_iff_getElem.1 ha
    rw [decide_eq_true_iff, not_lt]
    rcases Nat.lt_or_ge i (limit - 1) with hlt | hge
    · exact List.pairwise_iff_getElem.1 hsorted i (limit - 1) _ _ hlt
    · obtain rfl : i = limit - 1 := by omega
      exact le_refl _
  have hsplit := List.filter_append (p := (key · < key rows[limit - 1])) (rows.take limit) (rows.drop limit)
  rwa [List.take_append_drop, hpage, List.nil_append] at hsplit

/-- All the rest is there if it begins with a smaller key, and its first row is not otherwise. -/
theorem filter_below_eq (hsorted : rows.Pairwise fun a b => key b ≤ key a) (h : limit < rows.length) :
    rows.filter (key · < key rows[limit - 1]) = rows.drop limit ↔ key rows[limit] < key rows[limit - 1] := by
  rw [filter_below hsorted h, List.filter_eq_self]
  constructor
  · intro hall
    have hfirst := hall rows[limit] (List.mem_drop_iff_getElem.2 ⟨0, by omega, rfl⟩)
    exact of_decide_eq_true hfirst
  · intro hlt a ha
    obtain ⟨i, hi, rfl⟩ := List.mem_drop_iff_getElem.1 ha
    rw [decide_eq_true_iff]
    rcases Nat.eq_zero_or_pos i with rfl | hpos
    · exact hlt
    · exact lt_of_le_of_lt (List.pairwise_iff_getElem.1 hsorted limit (limit + i) _ _ (by omega)) hlt

/-- What is behind a row that is itself behind a cursor. -/
theorem filter_filter_below {c c' : κ} (h : c' < c) :
    (rows.filter (key · < c)).filter (key · < c') = rows.filter (key · < c') := by
  rw [List.filter_filter]
  refine List.filter_congr fun x _ => ?_
  by_cases hx : key x < c'
  · simp [hx, hx.trans h]
  · simp [hx]

/-- From a cursor on, where `rows` is what it leaves of the listing. -/
theorem follow_from (hsome : ∀ c, fetch (some c) = page key limit (all.filter (key · < c)))
    (hsorted : rows.Pairwise fun a b => key b ≤ key a) (hfetch : fetch cursor = page key limit rows)
    (hbelow : ∀ r ∈ rows, all.filter (key · < key r) = rows.filter (key · < key r)) :
    ∃ fuel seen, follow fetch fuel cursor = some seen ∧ seen.Sublist rows ∧
      (seen = rows ↔ Unsplit key limit rows) := by
  induction hm : rows.length using Nat.strongRecOn generalizing cursor rows with
  | _ m ih =>
    subst hm
    rcases Nat.eq_zero_or_pos limit with rfl | hpos
    · rw [page_empty] at hfetch
      have hlast : (fetch cursor).nextCursor = none := by rw [hfetch]
      refine ⟨1, [], ?_, List.nil_sublist _, ?_⟩
      · rw [follow_last hlast, hfetch]
      · rw [unsplit_zero, eq_comm]
    · rcases Nat.lt_or_ge limit rows.length with h | hle
      · rw [page_next hpos h] at hfetch
        have hnext : (fetch cursor).nextCursor = some (key rows[limit - 1]) := by rw [hfetch]
        let next := rows.filter (key · < key rows[limit - 1])
        have hlast : rows[limit - 1] ∈ rows := List.getElem_mem _
        have hsub : next.Sublist (rows.drop limit) := by
          rw [show next = _ from filter_below hsorted h]
          exact List.filter_sublist
        have hlength := hsub.length_le
        rw [List.length_drop] at hlength
        have hbelow' : ∀ r ∈ next, all.filter (key · < key r) = next.filter (key · < key r) := by
          intro r hr
          rw [List.mem_filter, decide_eq_true_iff] at hr
          rw [hbelow r hr.1, filter_filter_below hr.2]
        obtain ⟨fuel, seen, hseen, hseen_sub, hseen_iff⟩ := ih next.length (by omega) (hsorted.filter _)
          ((hsome _).trans (congrArg (page key limit) (hbelow _ hlast))) hbelow' rfl
        refine ⟨fuel + 1, rows.take limit ++ seen, ?_, ?_, ?_⟩
        · rw [follow_next hnext, hseen, hfetch]
          rfl
        · have happend := (List.Sublist.refl (rows.take limit)).append (hseen_sub.trans hsub)
          rwa [List.take_append_drop] at happend
        · rw [take_append_eq_iff, unsplit_drop h, ← filter_below_eq hsorted h]
          constructor
          · intro heq
            have hall : next = rows.drop limit := hsub.antisymm (heq ▸ hseen_sub)
            exact ⟨hall, hall ▸ hseen_iff.1 (heq.trans hall.symm)⟩
          · rintro ⟨hall, hu⟩
            rw [← hall] at hu
            exact (hseen_iff.2 hu).trans hall
      · rw [page_last hle] at hfetch
        have hlast : (fetch cursor).nextCursor = none := by rw [hfetch]
        refine ⟨1, rows, ?_, List.Sublist.refl _, ?_⟩
        · rw [follow_last hlast, hfetch]
        · exact iff_of_true rfl (.of_le hle)

/-- A client that follows the cursors comes to an end, and sees a listing with decreasing keys once and in order exactly
if no page ends between two rows with one key. -/
theorem follow_decreasing (hsorted : rows.Pairwise fun a b => key b ≤ key a)
    (hnone : fetch none = page key limit rows)
    (hsome : ∀ c, fetch (some c) = page key limit (rows.filter (key · < c))) :
    ∃ fuel seen, follow fetch fuel none = some seen ∧ (seen = rows ↔ Unsplit key limit rows) := by
  obtain ⟨fuel, seen, hseen, -, hiff⟩ := follow_from hsome hsorted hnone fun _ _ => rfl
  exact ⟨fuel, seen, hseen, hiff⟩

/-- It comes to an end on a listing with increasing keys too, where it sees all rows exactly if they fit on one page. -/
theorem follow_increasing (hsorted : rows.Pairwise fun a b => key a ≤ key b)
    (hnone : fetch none = page key limit rows)
    (hsome : ∀ c, fetch (some c) = page key limit (rows.filter (key · < c))) :
    ∃ fuel seen, follow fetch fuel none = some seen ∧ (seen = rows ↔ rows.length ≤ limit) := by
  rcases Nat.lt_or_ge limit rows.length with h | hle
  · rcases Nat.eq_zero_or_pos limit with rfl | hpos
    · rw [page_empty] at hnone
      have hlast : (fetch none).nextCursor = none := by rw [hnone]
      refine ⟨1, [], by rw [follow_last hlast, hnone], iff_of_false ?_ (Nat.not_le_of_lt h)⟩
      rintro rfl
      exact absurd h (Nat.lt_irrefl 0)
    · rw [page_next hpos h] at hnone
      have hnext : (fetch none).nextCursor = some (key rows[limit - 1]) := by rw [hnone]
      -- the second page holds rows of the first one
      let again := (rows.take (limit - 1)).filter (key · < key rows[limit - 1])
      have hback : rows.filter (key · < key rows[limit - 1]) = again := by
        have hafter : (rows.drop (limit - 1)).filter (key · < key rows[limit - 1]) = [] := by
          refine List.filter_eq_nil_iff.2 fun a ha => ?_
          obtain ⟨i, hi, rfl⟩ := List.mem_drop_iff_getElem.1 ha
          rw [decide_eq_true_iff, not_lt]
          rcases Nat.eq_zero_or_pos i with rfl | hi
          · exact le_refl _
          · exact List.pairwise_iff_getElem.1 hsorted (limit - 1) _ _ _ (by omega)
        have hsplit := List.filter_append (p := (key · < key rows[limit - 1])) (rows.take (limit - 1))
          (rows.drop (limit - 1))
        rwa [List.take_append_drop, hafter, List.append_nil] at hsplit
      have hlength : again.length ≤ limit := by
        have hfilter : again.length ≤ (rows.take (limit - 1)).length := List.length_filter_le _ _
        rw [List.length_take] at hfilter
        omega
      have hsecond : fetch (some (key rows[limit - 1])) = ⟨again, none⟩ := by
        rw [hsome, hback, page_last hlength]
      have hlast : (fetch (some (key rows[limit - 1]))).nextCursor = none := by rw [hsecond]
      refine ⟨2, rows.take limit ++ again, ?_, iff_of_false (fun heq => ?_) (Nat.not_le_of_lt h)⟩
      · rw [follow_next hnext, follow_last hlast, hsecond, hnone]
        rfl
      · rw [take_append_eq_iff] at heq
        have hfirst : rows[limit] ∈ again := heq ▸ List.mem_drop_iff_getElem.2 ⟨0, by omega, rfl⟩
        have hlt := of_decide_eq_true (List.mem_filter.1 hfirst).2
        exact absurd (List.pairwise_iff_getElem.1 hsorted (limit - 1) limit _ _ (by omega)) (not_le_of_gt hlt)
  · rw [page_last hle] at hnone
    have hlast : (fetch none).nextCursor = none := by rw [hnone]
    exact ⟨1, rows, by rw [follow_last hlast, hnone], iff_of_true rfl hle⟩

end Order

end Keyset
