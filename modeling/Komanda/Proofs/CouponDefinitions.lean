import Komanda.Promotions
import Komanda.Proofs.VersionedEdits

/-!
# Coupon definitions

A coupon is written by one of three calls. A new one has passed every refinement of `CreateDiscountSchema`; a
changed one has passed those of `UpdateDiscountSchema` and the check constraints of its row, which leave out the
bound of a fixed amount and the targets of a scope. Its two lists of targets stay equal throughout.
-/

namespace Komanda
open Transaction DiscountRepository

/-- The cross-field rules of `CreateDiscountSchema`, of a stored row. -/
structure Discount.WellFormed (d : Discount) : Prop where
  value : 0 < d.discountValue ∧ d.discountValue ≤ maxDiscountValue d.discountType
  dates : ∀ ends ∈ d.endsAt, d.startsAt ≤ ends
  categories : d.scope = .category → d.targetCategoryIds ≠ []
  items : d.scope = .item → d.targetItemIds ≠ []

/-- The rows of a join table are the targets that the coupons list. -/
def TargetsListed (listed : Discount → List Id) (discounts : List Discount) (rows : List DiscountTarget) : Prop :=
  ∀ d ∈ discounts, ∀ targetId, targetId ∈ listed d ↔ ⟨d.id, targetId⟩ ∈ rows

structure CouponsWellFormed (s : Promotions) : Prop where
  rows : ∀ d ∈ s.db.discounts, d.WellFormed
  categories : TargetsListed (·.targetCategoryIds) s.db.discounts s.discountCategories
  items : TargetsListed (·.targetItemIds) s.db.discounts s.discountItems

/-- The keys of the tables: the primary key of the coupons, and the foreign keys to it. -/
structure Promotions.Keyed (s : Promotions) : Prop where
  discounts : Table.UniqueOn Discount.id s.db.discounts
  categories : ∀ r ∈ s.discountCategories, ∃ d ∈ s.db.discounts, d.id = r.discountId
  items : ∀ r ∈ s.discountItems, ∃ d ∈ s.db.discounts, d.id = r.discountId

/-- What the change has to respect by itself: the bound of a fixed amount, and targets for the scope that results. -/
structure DiscountRepository.UpdateInput.Respects (input : UpdateInput) (d : Discount) : Prop where
  value : ∀ v ∈ input.discountValue, v ≤ maxDiscountValue d.discountType
  categories : input.scope.getD d.scope = .category → input.targetCategoryIds.getD d.targetCategoryIds ≠ []
  items : input.scope.getD d.scope = .item → input.targetItemIds.getD d.targetItemIds ≠ []

def DiscountRequest.KeepsRules (q : DiscountRequest) (s : Promotions) : Prop :=
  match q with
  | updateDiscount id value _ => ∀ d ∈ Table.lookup Discount.id id s.db.discounts, value.toUpdateInput.Respects d
  | _ => True

/-! ## Targets -/

section Targets
variable {discountId : Id} {targetIds : List Id} {rows : List DiscountTarget} {r : DiscountTarget}

theorem mem_insertTargets :
    r ∈ insertTargets discountId targetIds rows ↔ r ∈ rows ∨ ∃ targetId ∈ targetIds, r = ⟨discountId, targetId⟩ := by
  induction targetIds generalizing rows with
  | nil => simp [insertTargets]
  | cons targetId targetIds ih =>
    rw [insertTargets, List.foldl_cons, ← insertTargets, ih]
    by_cases hmem : ⟨discountId, targetId⟩ ∈ rows
    · rw [if_pos (List.contains_iff_mem.2 hmem), List.exists_mem_cons_iff, ← or_assoc]
      refine or_congr_left ⟨.inl, ?_⟩
      rintro (hr | rfl)
      · exact hr
      · exact hmem
    · rw [if_neg (mt List.contains_iff_mem.1 hmem), List.mem_append, List.mem_singleton, or_assoc,
        List.exists_mem_cons_iff]

theorem mem_replaceTargets : r ∈ replaceTargets discountId targetIds rows ↔
    (r ∈ rows ∧ r.discountId ≠ discountId) ∨ ∃ targetId ∈ targetIds, r = ⟨discountId, targetId⟩ := by
  rw [replaceTargets, mem_insertTargets, List.mem_filter, decide_eq_true_eq]

variable {listed : Discount → List Id} {discounts : List Discount} {d : Discount}

/-- A new coupon with its targets, where no row had its id. -/
theorem TargetsListed.create (h : TargetsListed listed discounts rows)
    (hfk : ∀ r ∈ rows, ∃ e ∈ discounts, e.id = r.discountId) (hfresh : ∀ e ∈ discounts, e.id ≠ d.id) :
    TargetsListed listed (discounts ++ [d]) (insertTargets d.id (listed d) rows) := by
  intro e he targetId
  rw [mem_insertTargets]
  rcases List.mem_append.1 he with he | he
  · rw [h e he targetId]
    refine ⟨.inl, ?_⟩
    rintro (hr | ⟨_, -, heq⟩)
    · exact hr
    · exact absurd (congrArg DiscountTarget.discountId heq) (hfresh e he)
  · obtain rfl := List.mem_singleton.1 he
    constructor
    · intro hmem
      exact .inr ⟨targetId, hmem, rfl⟩
    · rintro (hr | ⟨_, hmem, heq⟩)
      · obtain ⟨f, hf, hid⟩ := hfk _ hr
        exact absurd hid (hfresh f hf)
      · obtain rfl := congrArg DiscountTarget.targetId heq
        exact hmem

/-- A coupon whose list is replaced along with its rows. -/
theorem TargetsListed.replace {f : Discount → Discount} (h : TargetsListed listed discounts rows)
    {p : Discount → Bool} (hp : ∀ e ∈ discounts, p e = true ↔ e.id = discountId) (hid : ∀ e, (f e).id = e.id)
    (hlist : ∀ e, listed (f e) = targetIds) :
    TargetsListed listed (Table.updateWhere p f discounts) (replaceTargets discountId targetIds rows) := by
  intro e he targetId
  rw [mem_replaceTargets]
  rcases Table.mem_updateWhere_cases he with ⟨he, hpe⟩ | ⟨q, hq, hpq, rfl⟩
  · have hne : e.id ≠ discountId := fun hk => by simp [(hp e he).2 hk] at hpe
    rw [h e he targetId]
    refine ⟨fun hr => .inl ⟨hr, hne⟩, ?_⟩
    rintro (⟨hr, -⟩ | ⟨_, -, heq⟩)
    · exact hr
    · exact absurd (congrArg DiscountTarget.discountId heq) hne
  · obtain rfl := (hp q hq).1 hpq
    rw [hlist, hid]
    constructor
    · intro hmem
      exact .inr ⟨targetId, hmem, rfl⟩
    · rintro (⟨-, hne⟩ | ⟨_, hmem, heq⟩)
      · exact absurd rfl hne
      · obtain rfl := congrArg DiscountTarget.targetId heq
        exact hmem

/-- A change that leaves the list alone leaves its rows alone. -/
theorem TargetsListed.leave {f : Discount → Discount} (h : TargetsListed listed discounts rows) {p : Discount → Bool}
    (hid : ∀ e, (f e).id = e.id) (hlist : ∀ e, listed (f e) = listed e) :
    TargetsListed listed (Table.updateWhere p f discounts) rows := by
  intro e he targetId
  rcases Table.mem_updateWhere_cases he with ⟨he, -⟩ | ⟨q, hq, -, rfl⟩
  · exact h e he targetId
  · rw [hlist, hid]
    exact h q hq targetId

end Targets

/-! ## Calls -/

section Calls
variable {view s s' : Promotions}

theorem issues_eq_nil {checks : List (String × Bool)} : issues checks = [] ↔ ∀ c ∈ checks, c.2 = true := by
  rw [issues, List.filterMap_eq_nil_iff]
  refine forall₂_congr fun c _ => ?_
  cases c.2 <;> simp

theorem refined_ok {α : Type} {checks refinements : List (String × Bool)} {value input : α}
    (h : refined checks refinements value = .ok input) : (∀ c ∈ refinements, c.2 = true) ∧ input = value := by
  unfold refined at h
  split at h
  · next hr =>
    cases h
    exact ⟨issues_eq_nil.1 hr, rfl⟩
  · cases h
  · cases h

theorem CreateDiscountInput.refinements_hold {input : CreateDiscountInput} (h : ∀ c ∈ input.refinements, c.2 = true) :
    (0 < input.discountValue ∧ input.discountValue ≤ maxDiscountValue input.discountType) ∧
      (input.scope = .category → input.targetCategoryIds ≠ []) ∧ (input.scope = .item → input.targetItemIds ≠ []) := by
  simp only [refinements, List.forall_mem_cons, Bool.and_eq_true, Bool.or_eq_true, decide_eq_true_eq] at h
  obtain ⟨hvalue, -, hcategories, hitems, -⟩ := h
  refine ⟨hvalue, fun hscope => ?_, fun hscope => ?_⟩
  · exact List.ne_nil_of_length_pos (hcategories.resolve_left (not_not_intro hscope))
  · exact List.ne_nil_of_length_pos (hitems.resolve_left (not_not_intro hscope))

theorem CreateDiscountSchema_refinements {value : DiscountInput} {input : CreateDiscountInput}
    (h : CreateDiscountSchema value = .ok input) : ∀ c ∈ input.refinements, c.2 = true := by
  unfold CreateDiscountSchema at h
  obtain ⟨hvalid, rfl⟩ := refined_ok h
  exact hvalid

theorem UpdateDiscountSchema_eq {value input : DiscountPatch} (h : UpdateDiscountSchema value = .ok input) :
    input = { value with name := value.name.map Text.trim } := by
  unfold UpdateDiscountSchema at h
  exact (refined_ok h).2

theorem rowChecks_eq {d : Discount} : rowChecks d = true ↔
    0 < d.discountValue ∧ (d.discountType = .percentage → d.discountValue ≤ 10000) ∧
      (∀ ends ∈ d.endsAt, d.startsAt ≤ ends) ∧ ∀ limit ∈ d.maxRedemptions, d.redemptionsCount ≤ limit := by
  simp only [rowChecks, Bool.and_eq_true, Bool.or_eq_true, decide_eq_true_eq, Option.all_eq_true, and_assoc, ne_eq,
    ← imp_iff_not_or, gt_iff_lt, Option.mem_def]

/-- What a call of `createDiscount` leaves: one coupon more, and its targets. -/
structure DiscountCreated (s : Promotions) (d : Discount) (s' : Promotions) : Prop where
  fresh : ∀ e ∈ s.db.discounts, e.id ≠ d.id
  wellFormed : d.WellFormed
  discounts : s'.db.discounts = s.db.discounts ++ [d]
  categories : s'.discountCategories = insertTargets d.id d.targetCategoryIds s.discountCategories
  items : s'.discountItems = insertTargets d.id d.targetItemIds s.discountItems

/-- What a call of `updateDiscount` leaves: one coupon changed, and the targets that the request names replaced. -/
structure DiscountUpdated (id : Id) (input : UpdateInput) (version : Option Nat) (s : Promotions) (d : Discount)
    (s' : Promotions) : Prop where
  mem : d ∈ s.db.discounts
  matched : updatable id version d = true
  checked : rowChecks (input.apply d) = true
  discounts : s'.db.discounts = Table.updateWhere (updatable id version) input.apply s.db.discounts
  categories : s'.discountCategories =
    (input.targetCategoryIds.map fun ids => replaceTargets id ids s.discountCategories).getD s.discountCategories
  items : s'.discountItems =
    (input.targetItemIds.map fun ids => replaceTargets id ids s.discountItems).getD s.discountItems

theorem commits_insertCategories {f : List DiscountTarget → List DiscountTarget} {ids : List Id} {u : Unit}
    (h : Commits (insertCategories f ids) view s u s') : s' =
      { s with discountCategories := f s.discountCategories } := by
  rw [insertCategories, commits_current_bind, commits_throwIf_bind, commits_write] at h
  exact h.2.symm

theorem commits_insertItems {f : List DiscountTarget → List DiscountTarget} {ids : List Id} {u : Unit}
    (h : Commits (insertItems f ids) view s u s') : s' = { s with discountItems := f s.discountItems } := by
  rw [insertItems, commits_current_bind, commits_throwIf_bind, commits_write] at h
  exact h.2.symm

/-- The statements on the targets that a request names. -/
theorem commits_named {ids : Option (List Id)} {f : List Id → List DiscountTarget → List DiscountTarget} {u u' : Unit}
    {s₁ : Promotions} {named : Option (List Id)} {f' : List Id → List DiscountTarget → List DiscountTarget}
    (h : Commits (forSome ids fun ids => insertCategories (f ids) ids) view s u s₁)
    (h' : Commits (forSome named fun ids => insertItems (f' ids) ids) view s₁ u' s') :
    s' = { s with discountCategories := (ids.map fun ids => f ids s.discountCategories).getD s.discountCategories
                  discountItems := (named.map fun ids => f' ids s.discountItems).getD s.discountItems } := by
  obtain rfl : s₁ = { s with discountCategories :=
      (ids.map fun ids => f ids s.discountCategories).getD s.discountCategories } := by
    cases ids with
    | none => exact (commits_pure.1 h).2.symm
    | some ids => exact commits_insertCategories (f := f ids) h
  cases named with
  | none => exact (commits_pure.1 h').2.symm
  | some ids' => exact commits_insertItems (f := f' ids') h'

theorem commits_create {v db db' : Db} {d : Discount} {u : Unit} (h : Commits (create d) v db u db') :
    ∃ code name, ∃ row : Discount,
      row = { d with code, name, redemptionsCount := 0, version := 1, deletedAt := none } ∧
        (∀ e ∈ db.discounts, e.id ≠ d.id) ∧ rowChecks row = true ∧
          db' = { db with discounts := db.discounts ++ [row] } := by
  rw [create, commits_throwIf_bind, commits_current_bind, commits_throwIf_bind, commits_throwIf_bind,
    commits_write] at h
  obtain ⟨-, hfree, hchecks, rfl⟩ := h
  refine ⟨Text.toUpperCase (Text.trim d.code), Text.trim d.name, _, rfl, fun e he hid => ?_,
    Decidable.not_not.1 hchecks, rfl⟩
  exact hfree (List.any_eq_true.2 ⟨e, he, by simp [hid]⟩)

theorem commits_update {v db db' : Db} {id : Id} {input : UpdateInput} {version : Option Nat} {u : Unit}
    (h : Commits (update id input version) v db u db') :
    (∀ d ∈ db.discounts, updatable id version d = true → rowChecks (input.apply d) = true) ∧
      db' = { db with discounts := Table.updateWhere (updatable id version) input.apply db.discounts } := by
  rw [update, commits_current_bind, commits_throwIf_bind, commits_write, Decidable.not_not, List.all_eq_true] at h
  obtain ⟨hchecks, rfl⟩ := h
  exact ⟨fun d hd hmatch => hchecks d (List.mem_filter.2 ⟨hd, hmatch⟩), rfl⟩

theorem DiscountService.createDiscount_cases {value : DiscountInput} {newId : Id} {now : Instant} {u : Unit}
    (h : Commits (createDiscount value newId now) view s u s') : ∃ d, DiscountCreated s d s' := by
  rw [createDiscount, commits_fromExcept_bind] at h
  obtain ⟨input, haccepted, h⟩ := h
  obtain ⟨hvalue, hcategories, hitems⟩ :=
    CreateDiscountInput.refinements_hold (CreateDiscountSchema_refinements haccepted)
  rw [commits_look_bind, commits_throwIf_bind, createWithTargets, commits_throwIf_bind] at h
  obtain ⟨-, -, h⟩ := h
  obtain ⟨_, s₁, hrow, h⟩ := commits_bind.1 h
  obtain ⟨_, s₂, h₂, h₃⟩ := commits_bind.1 h
  obtain ⟨db, hdb, rfl⟩ := commits_zoom.1 hrow
  obtain ⟨code, name, row, rfl, hfresh, hchecks, rfl⟩ := commits_create hdb
  obtain rfl := commits_insertCategories h₂
  obtain rfl := commits_insertItems h₃
  exact ⟨{ newDiscount input newId now with code, name, redemptionsCount := 0, version := 1, deletedAt := none }, hfresh,
    ⟨hvalue, (rowChecks_eq.1 hchecks).2.2.1, hcategories, hitems⟩, rfl, rfl, rfl⟩

theorem updateWithTargets_cases {id : Id} {input : UpdateInput} {version : Option Nat}
    (h : Commits (updateWithTargets id input version) view s true s') : ∃ d, DiscountUpdated id input version s d s' := by
  rw [updateWithTargets, commits_current_bind, commits_throwIf_bind] at h
  obtain ⟨-, h⟩ := h
  obtain ⟨_, s₁, hrow, h⟩ := commits_bind.1 h
  obtain ⟨_, s₂, h₂, h⟩ := commits_bind.1 h
  obtain ⟨_, s₃, h₃, h⟩ := commits_bind.1 h
  obtain ⟨hupdated, rfl⟩ := commits_pure.1 h
  obtain ⟨db, hdb, rfl⟩ := commits_zoom.1 hrow
  obtain ⟨hchecks, rfl⟩ := commits_update hdb
  rw [runIf, if_pos hupdated] at h₂ h₃
  obtain rfl := commits_named h₂ h₃
  obtain ⟨d, hd⟩ := List.exists_mem_of_ne_nil (s.db.discounts.filter (updatable id version)) fun hnil => by
    rw [hnil] at hupdated
    cases hupdated
  obtain ⟨hmem, hmatch⟩ := List.mem_filter.1 hd
  exact ⟨d, hmem, hmatch, hchecks d hmem hmatch, rfl, rfl, rfl⟩

theorem DiscountService.updateDiscount_cases {id : Id} {value : DiscountPatch} {versionHeader : Option Nat} {u : Unit}
    (h : Commits (updateDiscount id value versionHeader) view s u s') :
    ∃ input version d, UpdateDiscountSchema value = .ok input ∧
      DiscountUpdated id input.toUpdateInput version s d s' := by
  rw [updateDiscount, commits_fromExcept_bind] at h
  obtain ⟨input, haccepted, h⟩ := h
  rw [commits_look_bind, commits_orThrow_bind] at h
  obtain ⟨existing, -, h⟩ := h
  rw [commits_throwIf_bind] at h
  obtain ⟨-, h⟩ := h
  obtain ⟨updated, s₁, hwrite, h⟩ := commits_bind.1 h
  obtain ⟨hupdated, rfl⟩ := commits_throwIf.1 h
  obtain rfl : updated = true := Decidable.not_not.1 hupdated
  obtain ⟨d, hu⟩ := updateWithTargets_cases hwrite
  exact ⟨input, _, d, haccepted, hu⟩

theorem DiscountService.archiveDiscount_cases {id : Id} {now : Instant} {u : Unit}
    (h : Commits (archiveDiscount id now) view s u s') : s' = { s with db := { s.db with
      discounts := Table.updateWhere (fun d => d.id = id && d.deletedAt.isNone)
        (fun d => { d with deletedAt := some now, version := d.version + 1 }) s.db.discounts } } := by
  rw [archiveDiscount, commits_look_bind, commits_throwIf_bind, commits_current_bind] at h
  obtain ⟨_, s₁, hrow, h⟩ := commits_bind.1 h.2
  obtain ⟨-, rfl⟩ := commits_throwIf.1 h
  obtain ⟨db, hdb, rfl⟩ := commits_zoom.1 hrow
  rw [softDelete, commits_write] at hdb
  rw [← hdb]

/-- The row of a coupon alone is enough to tell what a change of it does to the rules. -/
theorem wellFormed_apply_iff {input : UpdateInput} {d : Discount} (h : d.WellFormed)
    (hchecks : rowChecks (input.apply d) = true) :
    (input.apply d).WellFormed ↔ input.Respects d := by
  obtain ⟨hpos, hpercentage, hdates, -⟩ := rowChecks_eq.1 hchecks
  constructor
  · intro hwf
    refine ⟨fun v hv => ?_, hwf.categories, hwf.items⟩
    have hvalue : input.discountValue.getD d.discountValue ≤ _ := hwf.value.2
    rwa [Option.mem_def.1 hv] at hvalue
  · intro hr
    refine ⟨⟨hpos, ?_⟩, hdates, hr.categories, hr.items⟩
    show input.discountValue.getD d.discountValue ≤ maxDiscountValue d.discountType
    cases hv : input.discountValue with
    | none => exact h.value.2
    | some v => exact hr.value v hv

theorem updatable_id {id : Id} {version : Option Nat} {d : Discount} (h : updatable id version d = true) : d.id = id := by
  simp only [updatable, Bool.and_eq_true, decide_eq_true_eq] at h
  exact h.1.1

namespace DiscountUpdated
variable {id : Id} {input : UpdateInput} {version : Option Nat} {d : Discount}

theorem matches_iff (h : DiscountUpdated id input version s d s') (hkeys : s.Keyed) :
    ∀ e ∈ s.db.discounts, updatable id version e = true ↔ e = d := by
  intro e he
  constructor
  · intro hmatch
    exact hkeys.discounts.eq he h.mem ((updatable_id hmatch).trans (updatable_id h.matched).symm)
  · rintro rfl
    exact h.matched

/-- A list of targets and its rows, after the request has named both or neither. -/
theorem listed {listed : Discount → List Id} {named : Option (List Id)} {rows : List DiscountTarget}
    (h : DiscountUpdated id input version s d s') (hkeys : s.Keyed) (hl : TargetsListed listed s.db.discounts rows)
    (hlist : ∀ e, listed (input.apply e) = named.getD (listed e)) : TargetsListed listed s'.db.discounts
      ((named.map fun ids => replaceTargets id ids rows).getD rows) := by
  rw [h.discounts]
  cases named with
  | none => exact hl.leave (fun _ => rfl) hlist
  | some ids =>
    refine hl.replace (fun e he => ?_) (fun _ => rfl) hlist
    rw [h.matches_iff hkeys e he, ← updatable_id h.matched]
    constructor
    · rintro rfl
      rfl
    · exact hkeys.discounts.eq he h.mem

theorem wellFormed_iff (h : DiscountUpdated id input version s d s') (hkeys : s.Keyed) (hw : CouponsWellFormed s) :
    CouponsWellFormed s' ↔ ∀ e ∈ Table.lookup Discount.id id s.db.discounts, input.Respects e := by
  have hrow := wellFormed_apply_iff (hw.rows d h.mem) h.checked
  have hrows := Table.forall_updateWhere (f := input.apply) h.mem (h.matches_iff hkeys) hw.rows
  have hlookup : Table.lookup Discount.id id s.db.discounts = some d := by
    rw [← updatable_id h.matched]
    exact hkeys.discounts.lookup h.mem
  simp only [hlookup, Option.mem_some_iff, forall_eq']
  rw [← hrow, ← hrows, ← h.discounts]
  constructor
  · exact fun hw' => hw'.rows
  · intro hall
    refine ⟨hall, ?_, ?_⟩
    · rw [h.categories]
      exact h.listed hkeys hw.categories fun _ => rfl
    · rw [h.items]
      exact h.listed hkeys hw.items fun _ => rfl

end DiscountUpdated

/-- A call keeps the rules exactly when it is no update, or one that respects the bound and the scope. -/
theorem DiscountRequest.run_wellFormed_iff {q : DiscountRequest} {u : Unit} (hkeys : s.Keyed) (hw : CouponsWellFormed s)
    (h : Commits q.run view s u s') : CouponsWellFormed s' ↔ q.KeepsRules s := by
  cases q with
  | createDiscount value newId now =>
    obtain ⟨d, hd⟩ := DiscountService.createDiscount_cases h
    refine iff_of_true ⟨fun e he => ?_, ?_, ?_⟩ trivial
    · rw [hd.discounts] at he
      rcases List.mem_append.1 he with he | he
      · exact hw.rows e he
      · exact List.mem_singleton.1 he ▸ hd.wellFormed
    · rw [hd.discounts, hd.categories]
      exact hw.categories.create hkeys.categories hd.fresh
    · rw [hd.discounts, hd.items]
      exact hw.items.create hkeys.items hd.fresh
  | updateDiscount id value versionHeader =>
    obtain ⟨input, version, d, haccepted, hd⟩ := DiscountService.updateDiscount_cases h
    obtain rfl := UpdateDiscountSchema_eq haccepted
    rw [hd.wellFormed_iff hkeys hw]
    refine forall₂_congr fun d _ => ?_
    constructor
    · rintro ⟨hvalue, hcategories, hitems⟩
      exact ⟨hvalue, hcategories, hitems⟩
    · rintro ⟨hvalue, hcategories, hitems⟩
      exact ⟨hvalue, hcategories, hitems⟩
  | archiveDiscount id now =>
    obtain rfl := DiscountService.archiveDiscount_cases h
    refine iff_of_true ⟨fun e he => ?_, hw.categories.leave (fun _ => rfl) fun _ => rfl,
      hw.items.leave (fun _ => rfl) fun _ => rfl⟩ trivial
    rcases Table.mem_updateWhere_cases he with ⟨he, -⟩ | ⟨d, hd, -, rfl⟩
    · exact hw.rows e he
    · obtain ⟨hvalue, hdates, hcategories, hitems⟩ := hw.rows d hd
      exact ⟨hvalue, hdates, hcategories, hitems⟩

theorem exists_updateWhere {discounts : List Discount} {p : Discount → Bool} {f : Discount → Discount}
    (hid : ∀ e, (f e).id = e.id) {id : Id} (h : ∃ d ∈ discounts, d.id = id) : ∃ d ∈ Table.updateWhere p f discounts, d.id = id := by
  obtain ⟨d, hd, rfl⟩ := h
  cases hp : p d with
  | false => exact ⟨d, Table.mem_updateWhere_of_not hd hp, rfl⟩
  | true => exact ⟨f d, Table.mem_updateWhere_of hd hp, hid d⟩

theorem DiscountUpdated.keyed {id : Id} {input : UpdateInput} {version : Option Nat} {d : Discount}
    (h : DiscountUpdated id input version s d s') (hkeys : s.Keyed) : s'.Keyed := by
  have hkept {rows : List DiscountTarget} (hrows : ∀ r ∈ rows, ∃ e ∈ s.db.discounts, e.id = r.discountId)
      (named : Option (List Id)) : ∀ r ∈ (named.map fun ids => replaceTargets id ids rows).getD rows,
        ∃ e ∈ s'.db.discounts, e.id = r.discountId := by
    intro r hr
    rw [h.discounts]
    refine exists_updateWhere (f := input.apply) (fun _ => rfl) ?_
    cases named with
    | none => exact hrows r hr
    | some ids =>
      rcases mem_replaceTargets.1 hr with ⟨hr, -⟩ | ⟨targetId, -, rfl⟩
      · exact hrows r hr
      · exact ⟨d, h.mem, updatable_id h.matched⟩
  refine ⟨?_, ?_, ?_⟩
  · rw [h.discounts]
    exact hkeys.discounts.updateWhere fun _ _ => rfl
  · rw [h.categories]
    exact hkept hkeys.categories input.targetCategoryIds
  · rw [h.items]
    exact hkept hkeys.items input.targetItemIds

theorem DiscountCreated.keyed {d : Discount} (h : DiscountCreated s d s') (hkeys : s.Keyed) : s'.Keyed := by
  have hkept {rows : List DiscountTarget} (hrows : ∀ r ∈ rows, ∃ e ∈ s.db.discounts, e.id = r.discountId)
      (ids : List Id) : ∀ r ∈ insertTargets d.id ids rows, ∃ e ∈ s'.db.discounts, e.id = r.discountId := by
    intro r hr
    rw [h.discounts]
    rcases mem_insertTargets.1 hr with hr | ⟨targetId, -, rfl⟩
    · obtain ⟨e, he, hid⟩ := hrows r hr
      exact ⟨e, List.mem_append_left _ he, hid⟩
    · exact ⟨d, List.mem_append_right _ List.mem_cons_self, rfl⟩
  refine ⟨?_, ?_, ?_⟩
  · rw [h.discounts]
    exact hkeys.discounts.append h.fresh
  · rw [h.categories]
    exact hkept hkeys.categories d.targetCategoryIds
  · rw [h.items]
    exact hkept hkeys.items d.targetItemIds

theorem DiscountRequest.run_keyed {q : DiscountRequest} {u : Unit} (hkeys : s.Keyed) (h : Commits q.run view s u s') :
    s'.Keyed := by
  cases q with
  | createDiscount value newId now =>
    obtain ⟨d, hd⟩ := DiscountService.createDiscount_cases h
    exact hd.keyed hkeys
  | updateDiscount id value versionHeader =>
    obtain ⟨input, version, d, -, hd⟩ := DiscountService.updateDiscount_cases h
    exact hd.keyed hkeys
  | archiveDiscount id now =>
    obtain rfl := DiscountService.archiveDiscount_cases h
    refine ⟨hkeys.discounts.updateWhere fun _ _ => rfl, fun r hr => ?_, fun r hr => ?_⟩
    · refine exists_updateWhere ?_ (hkeys.categories r hr)
      exact fun _ => rfl
    · refine exists_updateWhere ?_ (hkeys.items r hr)
      exact fun _ => rfl

end Calls

/-! ## Runs -/

/-- Along a run of overlapping calls, the coupons stay well formed exactly as long as every update that commits keeps a
fixed amount within its bound, and leaves targets to the scope that results. -/
theorem coupons_well_formed_iff {promotions : Promotions} {es : List PromotionEvent} {s : PromotionSession}
    (hkeys : promotions.Keyed) (hw : CouponsWellFormed promotions)
    (hr : Runs.exec promotionStep ⟨promotions, []⟩ es = some s) :
    Runs.Along promotionStep (fun s e => ∀ s' ∈ promotionStep s e, CouponsWellFormed s'.db) ⟨promotions, []⟩ es ↔
      Runs.Along promotionStep (ReadCommitted.AtCommit fun q _ s => q.KeepsRules s) ⟨promotions, []⟩ es := by
  refine ReadCommitted.along_law_iff (I := Promotions.Keyed) (L := CouponsWellFormed)
    (fun q v s a s' hi hx => ?_) (fun q v s a s' hi hl hx => ?_) hkeys hw hr
  · exact DiscountRequest.run_keyed hi (toOption_eq.1 hx)
  · exact DiscountRequest.run_wellFormed_iff hi hl (toOption_eq.1 hx)

namespace Demo

/-- Ten percent off everything, on the kitchen of one category. -/
def promoted : Promotions where
  db := { Db.fresh "tenant" settings with
    discounts := [{ id := "ten", code := "TEN", name := "Ten", discountType := .percentage, discountValue := 1000
                    minOrderAmount := 0, maxRedemptions := none, redemptionsCount := 0, startsAt := 0, endsAt := none
                    scope := .global, applicableTender := .all, targetCategoryIds := [], targetItemIds := []
                    isActive := true, version := 1, deletedAt := none }] }
  categoryIds := ["food"]
  discountCategories := []
  discountItems := []

theorem promoted_keyed : promoted.Keyed := ⟨by decide, by decide, by decide⟩

theorem promoted_wellFormed : CouponsWellFormed promoted := by
  refine ⟨?_, ?_, ?_⟩
  · intro d hd
    obtain rfl := List.mem_singleton.1 hd
    exact ⟨by decide, by decide, by decide, by decide⟩
  · intro d hd targetId
    obtain rfl := List.mem_singleton.1 hd
    simp [promoted]
  · intro d hd targetId
    obtain rfl := List.mem_singleton.1 hd
    simp [promoted]

def narrow (value : DiscountRepository.UpdateInput) : List PromotionEvent :=
  [.start (.updateDiscount "ten" { value with version := some 1 } none), .commit 0]

end Demo

open Demo

theorem coupons_well_formed_narrowed :
    ∃ s, Runs.exec promotionStep ⟨promoted, []⟩ (narrow { scope := some .category, targetCategoryIds := some ["food"] }) = some s ∧
    (Runs.Along promotionStep (fun s e => ∀ s' ∈ promotionStep s e, CouponsWellFormed s'.db) ⟨promoted, []⟩
        (narrow { scope := some .category, targetCategoryIds := some ["food"] }) ↔
      Runs.Along promotionStep (ReadCommitted.AtCommit fun q _ s => q.KeepsRules s) ⟨promoted, []⟩
        (narrow { scope := some .category, targetCategoryIds := some ["food"] })) := by
  have hruns : (Runs.exec promotionStep ⟨promoted, []⟩
      (narrow { scope := some .category, targetCategoryIds := some ["food"] })).isSome = true := by decide +kernel
  obtain ⟨s, hr⟩ := Option.isSome_iff_exists.1 hruns
  exact ⟨s, hr, coupons_well_formed_iff promoted_keyed promoted_wellFormed hr⟩

/-- A coupon for no category at all. -/
theorem scope_without_targets : ¬ ∀ (promotions : Promotions) (es : List PromotionEvent) (s : PromotionSession),
    promotions.Keyed → CouponsWellFormed promotions → Runs.exec promotionStep ⟨promotions, []⟩ es = some s →
    CouponsWellFormed s.db := by
  intro hlaw
  have hrows : ((Runs.exec promotionStep ⟨promoted, []⟩ (narrow { scope := some .category })).map fun s =>
      s.db.db.discounts.map fun d => (d.scope, d.targetCategoryIds)) = some [(.category, [])] := by decide +kernel
  obtain ⟨s, hr, hrows⟩ := Option.map_eq_some_iff.1 hrows
  have hend := hlaw promoted _ s promoted_keyed promoted_wellFormed hr
  obtain ⟨d, hd, hrow⟩ := List.mem_map.1 (hrows ▸ List.mem_singleton_self ((.category, []) : DiscountScope × List Id))
  rw [Prod.mk.injEq] at hrow
  exact (hend.rows d hd).categories hrow.1 hrow.2

end Komanda
