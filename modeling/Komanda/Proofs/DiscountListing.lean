import Komanda.DiscountListing
import Komanda.Lib.OffsetPages
import Komanda.Lib.Table
import Mathlib.Data.List.Perm.Subperm

/-!
# Paging through the coupons

The listing takes a page out of all coupons and looks for the status on that page only; the total it then reports is
what it has found there. So the total is that of all coupons only when they are on one page, or when no status is asked
for, or none is found. Without a status the pages are those of the database (`OffsetPages`).
-/

namespace Komanda
open OffsetPages

/-- The coupon has the status that is asked for. -/
def hasStatus (status : Option String) (now : Instant) (r : DiscountRow) : Bool :=
  (statusFilter status).all fun s => (calculateDiscountStatus r.toDiscount now).text = s

def matchingDiscounts (status : Option String) (now : Instant) (rows : List DiscountRow) : List DiscountRow :=
  (liveDiscounts rows).filter (hasStatus status now)

/-- The offsets that lie before the end of the coupons, and the first one. -/
def pageCount (limit : Option Int) (rows : List DiscountRow) : Nat :=
  max 1 (((liveDiscounts rows).length + listLimit limit - 1) / listLimit limit)

/-- The page `n` of the listing, when the database has answered with `ordered`. -/
def discountPage (status : Option String) (limit : Option Int) (now : Instant) (ordered : List DiscountRow) (n : Nat) :
    DiscountList :=
  DiscountService.listDiscounts ordered { limit, offset := some (n * listLimit limit : Nat), status } now

/-- Page by page each coupon with the status is found once, and every page reports how many there are, in whatever
order the database answers with coupons that were created at one instant. -/
def PagesCorrectly (status : Option String) (limit : Option Int) (now : Instant) (rows : List DiscountRow) : Prop :=
  ∀ answers : Nat → List DiscountRow, (∀ n, Arranged (·.createdAt) (liveDiscounts rows) (answers n)) →
    ((List.range (pageCount limit rows)).flatMap fun n => (discountPage status limit now (answers n) n).items).Perm
      ((matchingDiscounts status now rows).map (formatDiscountOutput now)) ∧
    ∀ n < pageCount limit rows, (discountPage status limit now (answers n) n).total =
      (matchingDiscounts status now rows).length

/-! ## One page -/

section Page
variable {status : Option String} {limit : Option Int} {now : Instant} {rows ordered : List DiscountRow} {n : Nat}

theorem listLimit_pos (limit : Option Int) : 0 < listLimit limit := by
  rw [listLimit]
  omega

theorem listOffset_some (n : Nat) : listOffset (some (n : Int)) = n := by
  rw [listOffset, Option.getD_some]
  omega

theorem discountPage_filtered {s : String} (h : statusFilter status = some s) :
    discountPage status limit now ordered n =
      let found := (page (listLimit limit) n ordered).filter (hasStatus status now)
      { items := found.map (formatDiscountOutput now), total := found.length } := by
  have hstatus : hasStatus status now = fun r => decide ((formatDiscountOutput now r).status.text = s) := by
    funext r
    rw [hasStatus, h]
    rfl
  simp only [discountPage, DiscountService.listDiscounts, DiscountRepository.list, listOffset_some, page, h,
    List.filter_map, Function.comp_def, hstatus, List.length_map]

theorem discountPage_all (h : statusFilter status = none) : discountPage status limit now ordered n =
    { items := (page (listLimit limit) n ordered).map (formatDiscountOutput now), total := ordered.length } := by
  simp only [discountPage, DiscountService.listDiscounts, DiscountRepository.list, listOffset_some, page, h]

theorem hasStatus_all (h : statusFilter status = none) (r : DiscountRow) : hasStatus status now r = true := by
  rw [hasStatus, h]
  rfl

theorem matching_all (h : statusFilter status = none) : matchingDiscounts status now rows = liveDiscounts rows :=
  List.filter_eq_self.2 fun r _ => hasStatus_all h r

/-- All pages together are what the database has answered, without the coupons of another status. -/
theorem flatMap_items (answers : Nat → List DiscountRow) (count : Nat) :
    ((List.range count).flatMap fun n => (discountPage status limit now (answers n) n).items) =
      ((seen (listLimit limit) count answers).filter (hasStatus status now)).map (formatDiscountOutput now) := by
  rw [seen, List.filter_flatMap, List.map_flatMap]
  congr 1
  funext n
  cases h : statusFilter status with
  | some s => rw [discountPage_filtered h]
  | none => rw [discountPage_all h, List.filter_eq_self.2 fun r _ => hasStatus_all h r]

end Page

/-! ## All pages -/

section Pages
variable {status : Option String} {limit : Option Int} {now : Instant} {rows : List DiscountRow}

theorem pageCount_reaches : (liveDiscounts rows).length ≤ pageCount limit rows * listLimit limit := by
  have hpos := listLimit_pos limit
  have hceil := Nat.lt_div_mul_add hpos (a := (liveDiscounts rows).length + listLimit limit - 1)
  have hle : ((liveDiscounts rows).length + listLimit limit - 1) / listLimit limit * listLimit limit ≤
      pageCount limit rows * listLimit limit := Nat.mul_le_mul_right _ (Nat.le_max_right _ _)
  omega

theorem pageCount_eq_one (h : (liveDiscounts rows).length ≤ listLimit limit) : pageCount limit rows = 1 := by
  have hpos := listLimit_pos limit
  have hlt : ((liveDiscounts rows).length + listLimit limit - 1) / listLimit limit < 2 :=
    (Nat.div_lt_iff_lt_mul hpos).2 (by omega)
  rw [pageCount]
  omega

theorem two_le_pageCount (h : listLimit limit < (liveDiscounts rows).length) : 2 ≤ pageCount limit rows := by
  have hpos := listLimit_pos limit
  refine Nat.le_trans ?_ (Nat.le_max_right _ _)
  exact (Nat.le_div_iff_mul_le hpos).2 (by omega)

/-- What has been seen is among the rows. -/
theorem seen_subset {count : Nat} {answers : Nat → List DiscountRow}
    (h : ∀ n, Arranged (·.createdAt) rows (answers n)) : seen (listLimit limit) count answers ⊆ rows := by
  intro r hr
  obtain ⟨n, -, hr⟩ := List.mem_flatMap.1 hr
  exact (h n).perm.mem_iff.1 (List.mem_of_mem_drop (List.mem_of_mem_take hr))

/-- Rows that are told apart by what is shown of them. -/
theorem perm_of_map_perm {α β : Type} {f : α → β} {l l' : List α} (hsub : l ⊆ l') (hnodup : (l'.map f).Nodup)
    (h : (l.map f).Perm (l'.map f)) : l.Perm l' := by
  have hl : l.Nodup := List.Nodup.of_map f (h.nodup_iff.2 hnodup)
  have hlength := h.length_eq
  rw [List.length_map, List.length_map] at hlength
  exact (hl.subperm hsub).perm_of_length_le hlength.ge

theorem format_nodup (h : Table.UniqueOn (fun r : DiscountRow => r.id) rows) :
    ((liveDiscounts rows).map (formatDiscountOutput now)).Nodup := by
  have hids : ((liveDiscounts rows).map fun r => r.id).Nodup :=
    List.Nodup.sublist (List.filter_sublist.map _) h
  refine List.Nodup.of_map (fun o : DiscountOutput => o.id) ?_
  rw [List.map_map]
  exact hids

end Pages

/-! ## The condition -/

/-- All coupons are on one page, or none has the status, or no status is asked for and no page ends between two coupons
that were created at one instant. -/
def PagesSuffice (status : Option String) (limit : Option Int) (now : Instant) (rows : List DiscountRow) : Prop :=
  (liveDiscounts rows).length ≤ listLimit limit ∨ matchingDiscounts status now rows = [] ∨
    statusFilter status = none ∧ ∀ l, Arranged (·.createdAt) (liveDiscounts rows) l →
      Keyset.Unsplit (·.createdAt) (listLimit limit) l

section Condition
variable {status : Option String} {limit : Option Int} {now : Instant} {rows : List DiscountRow}

theorem pagesCorrectly_of_short (h : (liveDiscounts rows).length ≤ listLimit limit) :
    PagesCorrectly status limit now rows := by
  intro answers hanswers
  rw [flatMap_items, pageCount_eq_one h]
  have hpage : page (listLimit limit) 0 (answers 0) = answers 0 := by
    rw [page, Nat.zero_mul, List.drop_zero, List.take_of_length_le ((hanswers 0).perm.length_eq ▸ h)]
  have hseen : seen (listLimit limit) 1 answers = answers 0 := by
    rw [seen_succ, hpage]
    rfl
  refine ⟨?_, fun n hn => ?_⟩
  · rw [hseen]
    exact ((hanswers 0).perm.filter _).map _
  · obtain rfl : n = 0 := by omega
    cases hs : statusFilter status with
    | some s =>
      rw [discountPage_filtered hs, hpage]
      exact ((hanswers 0).perm.filter _).length_eq
    | none =>
      rw [discountPage_all hs, matching_all hs]
      exact (hanswers 0).perm.length_eq

theorem pagesCorrectly_of_none (h : matchingDiscounts status now rows = []) : PagesCorrectly status limit now rows := by
  intro answers hanswers
  have hnone : ∀ r ∈ liveDiscounts rows, ¬ hasStatus status now r = true := List.filter_eq_nil_iff.1 h
  rw [flatMap_items, h]
  refine ⟨?_, fun n _ => ?_⟩
  · rw [List.filter_eq_nil_iff.2 fun r hr => hnone r (seen_subset hanswers hr)]
  · cases hs : statusFilter status with
    | some s =>
      rw [discountPage_filtered hs]
      refine List.length_eq_zero_iff.2 (List.filter_eq_nil_iff.2 fun r hr => hnone r ?_)
      exact (hanswers n).perm.mem_iff.1 (List.mem_of_mem_drop (List.mem_of_mem_take hr))
    | none =>
      have hall : matchingDiscounts status now rows = liveDiscounts rows := matching_all hs
      rw [discountPage_all hs, (hanswers n).perm.length_eq, ← hall, h]

theorem pagesCorrectly_of_all (hs : statusFilter status = none)
    (hu : ∀ l, Arranged (·.createdAt) (liveDiscounts rows) l →
    Keyset.Unsplit (·.createdAt) (listLimit limit) l) : PagesCorrectly status limit now rows := by
  intro answers hanswers
  obtain ⟨l, hl⟩ := exists_arranged (·.createdAt) (liveDiscounts rows)
  rw [flatMap_items, matching_all hs, List.filter_eq_self.2 fun r _ => hasStatus_all hs r]
  refine ⟨(hl.seen_perm (hu l hl) hanswers pageCount_reaches).map _, fun n _ => ?_⟩
  rw [discountPage_all hs]
  exact (hanswers n).perm.length_eq

/-- Two pages cannot both have all the coupons of the status. -/
theorem none_of_two_pages {s : String} (hs : statusFilter status = some s) (h : PagesCorrectly status limit now rows)
    (htwo : 2 ≤ pageCount limit rows) : matchingDiscounts status now rows = [] := by
  obtain ⟨l, hl⟩ := exists_arranged (·.createdAt) (liveDiscounts rows)
  have htotal := (h (fun _ => l) fun _ => hl).2
  have hfirst := htotal 0 (by omega)
  have hsecond := htotal 1 (by omega)
  have hboth := (List.take_sublist (2 * listLimit limit) l).filter (hasStatus status now)
  rw [← seen_const, seen_succ, seen_succ, List.filter_append, List.filter_append] at hboth
  have hle := hboth.length_le
  rw [(hl.perm.filter _).length_eq, List.length_append, List.length_append] at hle
  rw [discountPage_filtered hs] at hfirst hsecond
  dsimp only at hfirst hsecond
  rw [matchingDiscounts] at hfirst hsecond ⊢
  exact List.length_eq_zero_iff.1 (by omega)

theorem unsplit_of_pagesCorrectly (hid : Table.UniqueOn (fun r : DiscountRow => r.id) rows)
    (hs : statusFilter status = none) (h : PagesCorrectly status limit now rows) {l : List DiscountRow}
    (hl : Arranged (·.createdAt) (liveDiscounts rows) l) : Keyset.Unsplit (·.createdAt) (listLimit limit) l := by
  have hformat : ((liveDiscounts rows).map (formatDiscountOutput now)).Nodup := format_nodup hid
  have hnodup : (liveDiscounts rows).Nodup := List.Nodup.of_map _ hformat
  refine (visits_once_iff hnodup pageCount_reaches hl).1 fun answers hanswers => ?_
  have hperm := (h answers hanswers).1
  rw [flatMap_items, matching_all hs, List.filter_eq_self.2 fun r _ => hasStatus_all hs r] at hperm
  exact perm_of_map_perm (seen_subset hanswers) hformat hperm

end Condition

theorem listDiscounts_pages_iff {rows : List DiscountRow} (hid : Table.UniqueOn (fun r : DiscountRow => r.id) rows)
    (status : Option String) (limit : Option Int) (now : Instant) :
    PagesCorrectly status limit now rows ↔ PagesSuffice status limit now rows := by
  constructor
  · intro h
    rcases Nat.lt_or_ge (listLimit limit) (liveDiscounts rows).length with hlong | hshort
    · cases hs : statusFilter status with
      | some s => exact .inr (.inl (none_of_two_pages hs h (two_le_pageCount hlong)))
      | none => exact .inr (.inr ⟨hs, fun l hl => unsplit_of_pagesCorrectly hid hs h hl⟩)
    · exact .inl hshort
  · rintro (hshort | hnone | ⟨hs, hu⟩)
    · exact pagesCorrectly_of_short hshort
    · exact pagesCorrectly_of_none hnone
    · exact pagesCorrectly_of_all hs hu

namespace Demo

/-- A coupon of ten percent. -/
def listed (id : Id) (isActive : Bool) (createdAt : Instant) : DiscountRow where
  id
  code := id
  name := id
  discountType := .percentage
  discountValue := 1000
  minOrderAmount := 0
  maxRedemptions := none
  redemptionsCount := 0
  startsAt := 0
  endsAt := none
  scope := .global
  applicableTender := .all
  targetCategoryIds := []
  targetItemIds := []
  isActive
  version := 1
  deletedAt := none
  createdAt

end Demo

open Demo in
/-- Two active coupons and a paused one are on one page of three. -/
theorem listDiscounts_pages_three :
    PagesCorrectly (some "active") (some 3) 10 [listed "A" true 1, listed "B" false 2, listed "C" true 3] :=
  (listDiscounts_pages_iff (by decide) (some "active") (some 3) 10).2 (.inl (by decide))

open Demo in
/-- The first page of one reports one active coupon, where there are two. -/
theorem listDiscounts_total_of_page :
    (discountPage (some "active") (some 1) 10 [listed "B" true 2, listed "A" true 1] 0).total = 1 ∧
      (matchingDiscounts (some "active") 10 [listed "B" true 2, listed "A" true 1]).length = 2 ∧
      ¬ PagesCorrectly (some "active") (some 1) 10 [listed "B" true 2, listed "A" true 1] := by
  have htotal : (discountPage (some "active") (some 1) 10 [listed "B" true 2, listed "A" true 1] 0).total = 1 := by
    decide +kernel
  have hmatching : (matchingDiscounts (some "active") 10 [listed "B" true 2, listed "A" true 1]).length = 2 := by
    decide +kernel
  refine ⟨htotal, hmatching, fun h => ?_⟩
  have harranged : Arranged (·.createdAt) (liveDiscounts [listed "B" true 2, listed "A" true 1])
      [listed "B" true 2, listed "A" true 1] := ⟨by decide, by decide⟩
  have hpage := (h (fun _ => _) fun _ => harranged).2 0 (by decide)
  rw [htotal, hmatching] at hpage
  exact absurd hpage (by decide)

end Komanda
