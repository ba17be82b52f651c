import Komanda.Catalog

/-!
# What the calls of `CatalogService` leave in the catalog

One lemma for each call that has committed: the checks it has passed on its view, and the catalog it leaves,
table by table. The mutations that it records lie in the tables of the trade.
-/

namespace Komanda
open Transaction

/-- What the public search reads of a catalog. -/
def CatalogTables.goods (t : CatalogTables) : Bool × List MediaRow × List CategoryRow × List ItemRow :=
  (t.entitled, t.media, t.categories, t.items)

/-- The primary keys of the catalog. -/
structure CatalogTables.Keyed (t : CatalogTables) : Prop where
  categories : Table.UniqueOn CategoryRow.id t.categories
  items : Table.UniqueOn ItemRow.id t.items
  addonGroups : Table.UniqueOn AddonGroupRow.id t.addonGroups
  combos : Table.UniqueOn ComboRow.id t.combos

section Repository
variable {v t t' : CatalogTables} {u : Unit}

theorem commits_enforce {cs : List (String × Bool)} :
    Commits (enforce cs) v t u t' ↔ (∀ c ∈ cs, c.2 = true) ∧ t = t' := by
  unfold enforce
  split
  · next c hc =>
    rw [commits_throw]
    refine iff_of_false id fun h => ?_
    have hfalse := List.find?_some hc
    rw [h.1 c (List.mem_of_find?_eq_some hc)] at hfalse
    exact absurd hfalse (by decide)
  · next hn =>
    rw [commits_pure]
    have hall : ∀ c ∈ cs, c.2 = true := fun c hc => by simpa using List.find?_eq_none.1 hn c hc
    constructor
    · rintro ⟨-, rfl⟩
      exact ⟨hall, rfl⟩
    · rintro ⟨-, rfl⟩
      exact ⟨rfl, rfl⟩

theorem commits_enforce_bind {α : Type} {cs : List (String × Bool)} {k : Unit → CatalogTx α} {a : α} :
    Commits (enforce cs >>= k) v t a t' ↔ (∀ c ∈ cs, c.2 = true) ∧ Commits (k ()) v t a t' := by
  rw [commits_bind]
  constructor
  · rintro ⟨_, _, h, hk⟩
    obtain ⟨hc, rfl⟩ := commits_enforce.1 h
    exact ⟨hc, hk⟩
  · rintro ⟨hc, hk⟩
    exact ⟨(), t, commits_enforce.2 ⟨hc, rfl⟩, hk⟩

namespace CatalogRepository

theorem createCategory_cases {row row' : CategoryRow} (h : Commits (createCategory row) v t row' t') :
    row' = row ∧ (∀ c ∈ categoryConstraints row t.categories, c.2 = true) ∧
      t' = { t with categories := t.categories ++ [row] } := by
  rw [createCategory, commits_current_bind, commits_enforce_bind, commits_write_bind, commits_pure] at h
  obtain ⟨hc, rfl, rfl⟩ := h
  exact ⟨rfl, hc, rfl⟩

theorem updateCategory_cases {id : Id} {version : Nat} {values : CategoryRow → CategoryRow} {row : CategoryRow}
    (h : Commits (updateCategory id version values) v t (some row) t') : ∃ r,
    t.categories.find? (fun r => r.id = id && r.version = version) = some r ∧
    row = { values r with version := r.version + 1 } ∧
    (∀ c ∈ categoryConstraints row (t.categories.filter (·.id ≠ id)), c.2 = true) ∧
    t' = { t with categories := Table.updateWhere (·.id = id) (fun _ => row) t.categories } := by
  rw [updateCategory, commits_current_bind] at h
  split at h
  · rw [commits_pure] at h
    exact nomatch h.1
  · next r hr =>
    dsimp only at h
    rw [commits_enforce_bind, commits_write_bind, commits_pure] at h
    obtain ⟨hc, hrow, rfl⟩ := h
    obtain rfl := Option.some.inj hrow
    exact ⟨r, hr, rfl, hc, rfl⟩

theorem createItem_cases {row row' : ItemRow} {groups : List Id} (h : Commits (createItem row groups) v t row' t') :
    row' = row ∧ (∀ c ∈ itemConstraints row t.items, c.2 = true) ∧
      t' = { t with items := t.items ++ [row], itemAddonGroups := t.itemAddonGroups ++ addonLinks row.id groups } := by
  rw [createItem, commits_current_bind, commits_enforce_bind, commits_write_bind, commits_pure] at h
  obtain ⟨hc, rfl, rfl⟩ := h
  exact ⟨rfl, hc, rfl⟩

/-- The row of an item that has been written: its id is its own, its stock is not negative. -/
theorem itemConstraints_hold {row : ItemRow} {others : List ItemRow}
    (h : ∀ c ∈ itemConstraints row others, c.2 = true) : (∀ r ∈ others, r.id ≠ row.id) ∧ 0 ≤ row.stockQuantity := by
  simp only [itemConstraints, List.forall_mem_cons, decide_eq_true_eq, List.all_eq_true] at h
  exact ⟨h.2.1, h.2.2.2.1⟩

theorem categoryConstraints_hold {row : CategoryRow} {others : List CategoryRow}
    (h : ∀ c ∈ categoryConstraints row others, c.2 = true) : ∀ r ∈ others, r.id ≠ row.id := by
  simp only [categoryConstraints, List.forall_mem_cons, decide_eq_true_eq, List.all_eq_true] at h
  exact h.2.1

theorem addonGroupConstraints_hold {row : AddonGroupRow} {others : List AddonGroupRow}
    (h : ∀ c ∈ addonGroupConstraints row others, c.2 = true) :
    (∀ r ∈ others, r.id ≠ row.id) ∧ row.minSelected ≤ row.maxSelected := by
  simp only [addonGroupConstraints, List.forall_mem_cons, decide_eq_true_eq, List.all_eq_true] at h
  exact ⟨h.2.1, h.2.2.1⟩

theorem comboConstraints_hold {row : ComboRow} {others : List ComboRow}
    (h : ∀ c ∈ comboConstraints row others, c.2 = true) : ∀ r ∈ others, r.id ≠ row.id := by
  simp only [comboConstraints, List.forall_mem_cons, decide_eq_true_eq, List.all_eq_true] at h
  exact h.1

theorem updateItem_cases {id : Id} {version : Nat} {values : ItemRow → ItemRow} {groups : Option (List Id)}
    {row : ItemRow} (h : Commits (updateItem id version values groups) v t (some row) t') : ∃ r,
    t.items.find? (fun r => r.id = id && r.version = version) = some r ∧
    row = { values r with version := r.version + 1 } ∧
    (∀ c ∈ itemConstraints row (t.items.filter (·.id ≠ id)), c.2 = true) ∧
    t' = { t with
      items := Table.updateWhere (·.id = id) (fun _ => row) t.items
      itemAddonGroups := (groups.map fun ids =>
        t.itemAddonGroups.filter (·.itemId ≠ id) ++ addonLinks id ids).getD t.itemAddonGroups } := by
  rw [updateItem, commits_current_bind] at h
  split at h
  · rw [commits_pure] at h
    exact nomatch h.1
  · next r hr =>
    dsimp only at h
    rw [commits_enforce_bind, commits_write_bind, commits_bind] at h
    obtain ⟨hc, _, _, hlinks, h⟩ := h
    obtain ⟨hrow, rfl⟩ := commits_pure.1 h
    obtain rfl := Option.some.inj hrow
    refine ⟨r, hr, rfl, hc, ?_⟩
    cases groups with
    | none => exact (commits_pure.1 hlinks).2.symm
    | some ids => exact (commits_write.1 hlinks).symm

theorem createAddonGroup_cases {row row' : AddonGroupRow} {options : List AddonOptionRow}
    (h : Commits (createAddonGroup row options) v t row' t') :
    row' = row ∧ (∀ c ∈ addonGroupConstraints row t.addonGroups, c.2 = true) ∧
      (∀ c ∈ addonOptionConstraints options t.addonOptions, c.2 = true) ∧
      t' = { t with addonGroups := t.addonGroups ++ [row], addonOptions := t.addonOptions ++ options } := by
  rw [createAddonGroup, commits_current_bind, commits_enforce_bind, commits_current_bind, commits_enforce_bind,
    commits_write_bind, commits_pure] at h
  obtain ⟨hc, hoptions, rfl, rfl⟩ := h
  exact ⟨rfl, hc, hoptions, rfl⟩

theorem updateAddonGroup_cases {id : Id} {version : Nat} {values : AddonGroupRow → AddonGroupRow}
    {options : Option (List AddonOptionRow)} {row : AddonGroupRow}
    (h : Commits (updateAddonGroup id version values options) v t (some row) t') : ∃ r,
    t.addonGroups.find? (fun r => r.id = id && r.version = version) = some r ∧
    row = { values r with version := r.version + 1 } ∧
    (∀ c ∈ addonGroupConstraints row (t.addonGroups.filter (·.id ≠ id)), c.2 = true) ∧
    (∀ new ∈ options, ∀ c ∈ addonOptionConstraints new t.addonOptions, c.2 = true) ∧
    t' = { t with
      addonGroups := Table.updateWhere (·.id = id) (fun _ => row) t.addonGroups
      addonOptions := (options.map fun options =>
        Table.updateWhere (·.groupId = id) (fun r => { r with status := .archived }) t.addonOptions ++ options).getD
          t.addonOptions } := by
  rw [updateAddonGroup, commits_current_bind] at h
  split at h
  · rw [commits_pure] at h
    cases h.1
  · next r hr =>
    dsimp only at h
    rw [commits_enforce_bind, commits_write_bind, commits_bind] at h
    obtain ⟨hc, _, _, hoptions, h⟩ := h
    obtain ⟨hrow, rfl⟩ := commits_pure.1 h
    obtain rfl := Option.some.inj hrow
    cases options with
    | none =>
      refine ⟨r, hr, rfl, hc, fun new hnew => ?_, (commits_pure.1 hoptions).2.symm⟩
      cases hnew
    | some options =>
      rw [forSome, commits_current_bind, commits_enforce_bind] at hoptions
      refine ⟨r, hr, rfl, hc, fun new hnew => ?_, (commits_write.1 hoptions.2).symm⟩
      obtain rfl := Option.some.inj hnew
      exact hoptions.1

theorem createCombo_cases {row row' : ComboRow} {items : List ComboItemInput}
    (h : Commits (createCombo row items) v t row' t') :
    row' = row ∧ (∀ c ∈ comboConstraints row t.combos, c.2 = true) ∧
      t' = { t with combos := t.combos ++ [row], comboItems := t.comboItems ++ comboItemRows row.id items } := by
  rw [createCombo, commits_current_bind, commits_enforce_bind, commits_enforce_bind, commits_write_bind,
    commits_pure] at h
  obtain ⟨hc, -, rfl, rfl⟩ := h
  exact ⟨rfl, hc, rfl⟩

theorem updateCombo_cases {id : Id} {version : Nat} {values : ComboRow → ComboRow}
    {items : Option (List ComboItemInput)} {row : ComboRow}
    (h : Commits (updateCombo id version values items) v t (some row) t') : ∃ r,
    t.combos.find? (fun r => r.id = id && r.version = version) = some r ∧
    row = { values r with version := r.version + 1 } ∧
    (∀ c ∈ comboConstraints row (t.combos.filter (·.id ≠ id)), c.2 = true) ∧
    t' = { t with
      combos := Table.updateWhere (·.id = id) (fun _ => row) t.combos
      comboItems := (items.map fun items =>
        t.comboItems.filter (·.comboId ≠ id) ++ comboItemRows id items).getD t.comboItems } := by
  rw [updateCombo, commits_current_bind] at h
  split at h
  · rw [commits_pure] at h
    cases h.1
  · next r hr =>
    dsimp only at h
    rw [commits_enforce_bind, commits_write_bind, commits_bind] at h
    obtain ⟨hc, _, _, hlines, h⟩ := h
    obtain ⟨hrow, rfl⟩ := commits_pure.1 h
    obtain rfl := Option.some.inj hrow
    refine ⟨r, hr, rfl, hc, ?_⟩
    cases items with
    | none => exact (commits_pure.1 hlines).2.symm
    | some items =>
      rw [forSome, commits_enforce_bind] at hlines
      exact (commits_write.1 hlines.2).symm

end CatalogRepository
end Repository

section Service
variable {v s s' : Shop} {locale : Locale} {u : Unit}

theorem commits_lookCatalog_bind {α β : Type} {f : CatalogTables → β} {k : β → ShopTx α} {a : α} :
    Commits (lookCatalog f >>= k) v s a s' ↔ Commits (k (f v.catalog)) v s a s' := Iff.rfl

theorem commits_onCatalog {α : Type} {x : CatalogTx α} {a : α} :
    Commits (onCatalog x) v s a s' ↔
      ∃ t, Commits x v.catalog s.catalog a t ∧ { s with catalog := t } = s' := commits_zoom

theorem commits_requireCatalogManagement_bind {α : Type} {k : Unit → ShopTx α} {a : α} :
    Commits (requireCatalogManagement >>= k) v s a s' ↔ v.catalog.entitled = true ∧ Commits (k ()) v s a s' := by
  rw [requireCatalogManagement, bind_assoc, commits_lookCatalog_bind, commits_throwIf_bind, not_not]

/-- A check that is made under a condition. -/
theorem commits_runIf_fromExcept {c : Prop} [Decidable c] {r : Except CatalogError Unit}
    (h : Commits (runIf c (fromExcept r)) v s u s') : (c → r = .ok ()) ∧ s = s' := by
  rcases commits_runIf.1 h with ⟨-, h⟩ | ⟨hc, rfl⟩
  · obtain ⟨hok, rfl⟩ := commits_fromExcept.1 h
    exact ⟨fun _ => hok, rfl⟩
  · exact ⟨fun hcond => absurd hcond hc, rfl⟩

/-- What a schema answers with. -/
theorem parsed_ok {α : Type} {checks : List (String × Bool)} {value input : α} (h : parsed checks value = .ok input) :
    input = value := by
  unfold parsed at h
  split at h
  · exact (Except.ok.inj h).symm
  · exact nomatch h

theorem parsed_checks {α : Type} {checks : List (String × Bool)} {value input : α}
    (h : parsed checks value = .ok input) : ∀ c ∈ checks, c.2 = true := by
  unfold parsed at h
  split at h
  · next hnone =>
    intro c hc
    have hvalid := List.filterMap_eq_nil_iff.1 hnone c hc
    simpa using hvalid
  · cases h

/-- A key that parses to a default has a certain other value when it is asked for. -/
theorem defaulted_eq {α : Type} {named : Option α} {default x : α} (other : α) (h : default ≠ x) :
    (some (named.getD default)).getD other = x ↔ named = some x := by
  cases named with
  | none => simpa using h
  | some y => simp

theorem except_bind_eq_ok {α β : Type} {x : Except CatalogError α} {f : α → Except CatalogError β} {b : β} :
    x >>= f = .ok b ↔ ∃ a, x = .ok a ∧ f a = .ok b := by
  cases x with
  | error e => simp [bind, Except.bind]
  | ok a => simp [bind, Except.bind]

/-- A group that is accepted when it is created: as it is stored, and its bounds. -/
theorem addonGroupInputSchema_eq {value input : AddonGroupInput} (h : addonGroupInputSchema value = .ok input) :
    input = { value with
      name := Text.trim value.name
      sortOrder := some (value.sortOrder.getD 0)
      status := some (value.status.getD .draft)
      options := value.options.map addonOptionInputSchema } ∧
    value.status ≠ some .archived ∧ addonOptionsValid value.options = true ∧
      value.minSelected ≤ value.maxSelected ∧ value.maxSelected ≤ value.options.length := by
  unfold addonGroupInputSchema at h
  obtain ⟨group, hgroup, h⟩ := except_bind_eq_ok.1 h
  have hkeys := parsed_checks hgroup
  have hbounds := parsed_checks h
  simp only [List.forall_mem_cons, decide_eq_true_eq] at hkeys hbounds
  rw [parsed_ok h, parsed_ok hgroup]
  exact ⟨rfl, hkeys.2.1, hkeys.2.2.1, hbounds.1, hbounds.2.1⟩

theorem versionedArchiveInput_eq {version version' : Nat} (h : versionedArchiveInput version = .ok version') :
    version' = version := parsed_ok h

/-- A recorded mutation leaves the catalog alone. -/
theorem recordMutation_catalog {action resourceType : String} {resourceId : Id}
    (h : Commits (recordMutation action resourceType resourceId) v s u s') : s'.catalog = s.catalog := by
  unfold recordMutation onDb at h
  obtain ⟨db, -, rfl⟩ := commits_zoom.1 h
  rfl

/-- The last statements of a call: the row is there, and the mutation is recorded. -/
theorem conflict_or_record {α : Type} {updated : Option α} {row : α} {e : CatalogError} {action resourceType : String}
    {resourceId : α → Id}
    (h : Commits (do
      let row ← orThrow updated e
      recordMutation action resourceType (resourceId row)
      return row) v s row s') : updated = some row ∧ s'.catalog = s.catalog := by
  rw [commits_orThrow_bind] at h
  obtain ⟨r, hr, h⟩ := h
  obtain ⟨_, s₁, hrecord, h⟩ := commits_bind.1 h
  obtain ⟨rfl, rfl⟩ := commits_pure.1 h
  exact ⟨hr, recordMutation_catalog hrecord⟩

namespace CatalogService
open CatalogRepository

/-- What `updateItem` has checked on its view, and the row that it leaves. -/
structure ItemUpdated (locale : Locale) (itemId : Id) (version : Nat) (value input : CatalogItemPatch) (v s : Shop)
    (before : ItemRow) (category : CategoryRow) (barcode : Option String) (r row : ItemRow) (s' : Shop) : Prop where
  accepted : catalogItemPatchSchema version value = .ok input
  entitled : v.catalog.entitled = true
  read : findItem itemId v.catalog = some before
  placed : findCategory (input.categoryId.getD before.categoryId) v.catalog = some category
  publishable : input.status.getD before.status = .active →
    assertPublishable category (findMedia (input.imageAssetId.getD before.imageAssetId) v.catalog)
      (findMedia (input.videoAssetId.getD before.videoAssetId) v.catalog) = .ok ()
  labelled : normalizeBarcode (input.itemType.getD before.itemType = .weighted)
    (input.barcode.getD before.barcode) = .ok barcode
  current : s.catalog.items.find? (fun r => r.id = itemId && r.version = version) = some r
  written : row = { setItem locale input (input.itemType.getD before.itemType = .weighted) barcode r with
    version := r.version + 1 }
  constraints : ∀ c ∈ itemConstraints row (s.catalog.items.filter (·.id ≠ itemId)), c.2 = true
  catalog : s'.catalog = { s.catalog with
    items := Table.updateWhere (·.id = itemId) (fun _ => row) s.catalog.items
    itemAddonGroups := (input.addonGroupIds.map fun ids =>
      s.catalog.itemAddonGroups.filter (·.itemId ≠ itemId) ++ addonLinks itemId ids.eraseDups).getD
        s.catalog.itemAddonGroups }

theorem updateItem_cases {itemId : Id} {version : Nat} {value : CatalogItemPatch} {row : ItemRow}
    (h : Commits (updateItem locale itemId version value) v s row s') : ∃ input before category barcode r,
    ItemUpdated locale itemId version value input v s before category barcode r row s' := by
  rw [updateItem, commits_fromExcept_bind] at h
  obtain ⟨input, hinput, h⟩ := h
  rw [commits_requireCatalogManagement_bind, commits_lookCatalog_bind, commits_orThrow_bind] at h
  obtain ⟨hentitled, before, hread, h⟩ := h
  dsimp only at h
  rw [commits_lookCatalog_bind, commits_lookCatalog_bind, commits_lookCatalog_bind, commits_throwIf_bind,
    commits_orThrow_bind] at h
  obtain ⟨-, category, hplaced, h⟩ := h
  rw [commits_throwIf_bind, commits_bind] at h
  obtain ⟨-, _, s₁, hgroups, h⟩ := h
  have hs₁ : s = s₁ := by
    rcases commits_forSome.1 hgroups with ⟨ids, -, hids⟩ | ⟨-, rfl⟩
    · rw [commits_lookCatalog_bind, commits_throwIf] at hids
      exact hids.2
    · rfl
  subst hs₁
  rw [commits_bind] at h
  obtain ⟨_, s₁, hpublishable, h⟩ := h
  obtain ⟨hpub, rfl⟩ := commits_runIf_fromExcept hpublishable
  rw [commits_fromExcept_bind] at h
  obtain ⟨barcode, hbarcode, h⟩ := h
  rw [commits_bind] at h
  obtain ⟨updated, s₂, hupdate, h⟩ := h
  obtain ⟨rfl, hcatalog⟩ := conflict_or_record h
  obtain ⟨t, hwrite, rfl⟩ := commits_onCatalog.1 hupdate
  obtain ⟨r, hcurrent, hrow, hconstraints, rfl⟩ := CatalogRepository.updateItem_cases hwrite
  refine ⟨input, before, category, barcode, r, hinput, hentitled, hread, hplaced, hpub, hbarcode, hcurrent, hrow,
    hconstraints, ?_⟩
  rw [hcatalog]
  cases input.addonGroupIds <;> rfl

theorem archiveItem_cases {itemId : Id} {version : Nat} {row : ItemRow}
    (h : Commits (archiveItem locale itemId version) v s row s') : ∃ input before category barcode r,
    ItemUpdated locale itemId version { status := some .archived } input v s before category barcode r row s' := by
  rw [archiveItem, commits_fromExcept_bind] at h
  obtain ⟨version', hversion, h⟩ := h
  rw [versionedArchiveInput_eq hversion] at h
  exact updateItem_cases h

theorem createItem_cases {value : CatalogItemInput} {newId : Id} {row : ItemRow}
    (h : Commits (createItem locale value newId) v s row s') : ∃ input category barcode,
    catalogItemInputSchema value = .ok input ∧
    findCategory input.categoryId v.catalog = some category ∧
    (input.status = some .active → assertPublishable category (findMedia input.imageAssetId.join v.catalog)
      (findMedia input.videoAssetId.join v.catalog) = .ok ()) ∧
    normalizeBarcode (input.itemType = some .weighted) input.barcode.join = .ok barcode ∧
    row = newItem locale input (input.itemType = some .weighted) barcode newId ∧
    (∀ c ∈ itemConstraints row s.catalog.items, c.2 = true) ∧
    s'.catalog = { s.catalog with
      items := s.catalog.items ++ [row]
      itemAddonGroups := s.catalog.itemAddonGroups ++ addonLinks row.id (input.addonGroupIds.getD []).eraseDups } := by
  rw [createItem, commits_fromExcept_bind] at h
  obtain ⟨input, hinput, h⟩ := h
  rw [commits_requireCatalogManagement_bind, commits_lookCatalog_bind, commits_lookCatalog_bind,
    commits_lookCatalog_bind] at h
  dsimp only at h
  rw [commits_lookCatalog_bind, commits_throwIf_bind, commits_orThrow_bind] at h
  obtain ⟨-, -, category, hplaced, h⟩ := h
  rw [commits_throwIf_bind, commits_throwIf_bind, commits_bind] at h
  obtain ⟨-, -, _, s₁, hpublishable, h⟩ := h
  obtain ⟨hpub, rfl⟩ := commits_runIf_fromExcept hpublishable
  rw [commits_fromExcept_bind] at h
  obtain ⟨barcode, hbarcode, h⟩ := h
  rw [commits_bind] at h
  obtain ⟨item, s₂, hcreate, h⟩ := h
  obtain ⟨_, s₃, hrecord, h⟩ := commits_bind.1 h
  obtain ⟨rfl, rfl⟩ := commits_pure.1 h
  obtain ⟨t, hwrite, rfl⟩ := commits_onCatalog.1 hcreate
  obtain ⟨rfl, hconstraints, rfl⟩ := CatalogRepository.createItem_cases hwrite
  exact ⟨input, category, barcode, hinput, hplaced, hpub, hbarcode, rfl, hconstraints, recordMutation_catalog hrecord⟩

theorem createCategory_cases {value : CategoryInput} {newId : Id} {row : CategoryRow}
    (h : Commits (createCategory locale value newId) v s row s') : ∃ input,
    categoryInputSchema value = .ok input ∧ row = newCategory locale input newId ∧
    (∀ c ∈ categoryConstraints row s.catalog.categories, c.2 = true) ∧
    s'.catalog = { s.catalog with categories := s.catalog.categories ++ [row] } := by
  rw [createCategory, commits_fromExcept_bind] at h
  obtain ⟨input, hinput, h⟩ := h
  rw [commits_requireCatalogManagement_bind, commits_bind] at h
  obtain ⟨-, category, s₁, hcreate, h⟩ := h
  obtain ⟨_, s₂, hrecord, h⟩ := commits_bind.1 h
  obtain ⟨rfl, rfl⟩ := commits_pure.1 h
  obtain ⟨t, hwrite, rfl⟩ := commits_onCatalog.1 hcreate
  obtain ⟨rfl, hconstraints, rfl⟩ := CatalogRepository.createCategory_cases hwrite
  exact ⟨input, hinput, rfl, hconstraints, recordMutation_catalog hrecord⟩

/-- A category that has been written under its version. -/
theorem updatedCategory {categoryId : Id} {version : Nat} {values : CategoryRow → CategoryRow} {row : CategoryRow}
    {action resourceType : String} {e : CatalogError}
    (h : Commits (do
      let updated ← onCatalog (CatalogRepository.updateCategory categoryId version values)
      let category ← orThrow updated e
      recordMutation action resourceType category.id
      return category) v s row s') : ∃ r,
    s.catalog.categories.find? (fun r => r.id = categoryId && r.version = version) = some r ∧
    row = { values r with version := r.version + 1 } ∧
    (∀ c ∈ categoryConstraints row (s.catalog.categories.filter (·.id ≠ categoryId)), c.2 = true) ∧
    s'.catalog = { s.catalog with
      categories := Table.updateWhere (·.id = categoryId) (fun _ => row) s.catalog.categories } := by
  rw [commits_bind] at h
  obtain ⟨updated, s₁, hupdate, h⟩ := h
  obtain ⟨rfl, hcatalog⟩ := conflict_or_record h
  obtain ⟨t, hwrite, rfl⟩ := commits_onCatalog.1 hupdate
  obtain ⟨r, hr, hrow, hconstraints, rfl⟩ := CatalogRepository.updateCategory_cases hwrite
  exact ⟨r, hr, hrow, hconstraints, hcatalog⟩

theorem updateCategory_cases {categoryId : Id} {version : Nat} {value : CategoryPatch} {row : CategoryRow}
    (h : Commits (updateCategory locale categoryId version value) v s row s') : ∃ input r,
    categoryPatchSchema version value = .ok input ∧
    s.catalog.categories.find? (fun r => r.id = categoryId && r.version = version) = some r ∧
    row = { setCategory locale input r with version := r.version + 1 } ∧
    (∀ c ∈ categoryConstraints row (s.catalog.categories.filter (·.id ≠ categoryId)), c.2 = true) ∧
    s'.catalog = { s.catalog with
      categories := Table.updateWhere (·.id = categoryId) (fun _ => row) s.catalog.categories } := by
  rw [updateCategory, commits_fromExcept_bind] at h
  obtain ⟨input, hinput, h⟩ := h
  rw [commits_requireCatalogManagement_bind, commits_lookCatalog_bind, commits_throwIf_bind] at h
  obtain ⟨-, -, h⟩ := h
  obtain ⟨r, hr, hrow, hconstraints, hcatalog⟩ := updatedCategory h
  exact ⟨input, r, hinput, hr, hrow, hconstraints, hcatalog⟩

theorem archiveCategory_cases {categoryId : Id} {version : Nat} {now : Instant} {row : CategoryRow}
    (h : Commits (archiveCategory categoryId version now) v s row s') : ∃ r,
    countCategoryChildren categoryId v.catalog = 0 ∧
    s.catalog.categories.find? (fun r => r.id = categoryId && r.version = version) = some r ∧
    row = { r with status := .archived, archivedAt := some now, version := r.version + 1 } ∧
    s'.catalog = { s.catalog with
      categories := Table.updateWhere (·.id = categoryId) (fun _ => row) s.catalog.categories } := by
  rw [archiveCategory, commits_fromExcept_bind] at h
  obtain ⟨version', hversion, h⟩ := h
  rw [versionedArchiveInput_eq hversion, commits_requireCatalogManagement_bind, commits_lookCatalog_bind,
    commits_throwIf_bind,
    commits_lookCatalog_bind, commits_fromExcept_bind] at h
  obtain ⟨-, -, _, hchildren, h⟩ := h
  have hnone : countCategoryChildren categoryId v.catalog = 0 := by
    unfold assertArchivableCategory at hchildren
    split at hchildren
    · exact nomatch hchildren
    · omega
  obtain ⟨r, hr, hrow, -, hcatalog⟩ := updatedCategory h
  exact ⟨r, hnone, hr, hrow, hcatalog⟩

theorem createAddonGroup_cases {value : AddonGroupInput} {newId : Id} {optionIds : List Id} {row : AddonGroupRow}
    (h : Commits (createAddonGroup value newId optionIds) v s row s') : ∃ input,
    addonGroupInputSchema value = .ok input ∧ row = newAddonGroup input newId ∧
    (∀ c ∈ addonGroupConstraints row s.catalog.addonGroups, c.2 = true) ∧
    (∀ c ∈ addonOptionConstraints (addonOptionRows newId input.options optionIds) s.catalog.addonOptions, c.2 = true) ∧
    s'.catalog = { s.catalog with
      addonGroups := s.catalog.addonGroups ++ [row]
      addonOptions := s.catalog.addonOptions ++ addonOptionRows newId input.options optionIds } := by
  rw [createAddonGroup, commits_fromExcept_bind] at h
  obtain ⟨input, hinput, h⟩ := h
  rw [commits_requireCatalogManagement_bind, commits_bind] at h
  obtain ⟨-, group, s₁, hcreate, h⟩ := h
  obtain ⟨_, s₂, hrecord, h⟩ := commits_bind.1 h
  obtain ⟨rfl, rfl⟩ := commits_pure.1 h
  obtain ⟨t, hwrite, rfl⟩ := commits_onCatalog.1 hcreate
  obtain ⟨rfl, hconstraints, hoptions, rfl⟩ := CatalogRepository.createAddonGroup_cases hwrite
  exact ⟨input, hinput, rfl, hconstraints, hoptions, recordMutation_catalog hrecord⟩

/-- The row that `updateAddonGroup` leaves, and its options. -/
structure AddonGroupUpdated (groupId : Id) (version : Nat) (value input : AddonGroupPatch) (optionIds : List Id)
    (s : Shop)
    (r row : AddonGroupRow) (s' : Shop) : Prop where
  accepted : addonGroupPatchSchema version value = .ok input
  current : s.catalog.addonGroups.find? (fun r => r.id = groupId && r.version = version) = some r
  written : row = { setAddonGroup input r with version := r.version + 1 }
  constraints : ∀ c ∈ addonGroupConstraints row (s.catalog.addonGroups.filter (·.id ≠ groupId)), c.2 = true
  optionConstraints : ∀ options ∈ input.options,
    ∀ c ∈ addonOptionConstraints (addonOptionRows groupId options optionIds) s.catalog.addonOptions, c.2 = true
  catalog : s'.catalog = { s.catalog with
    addonGroups := Table.updateWhere (·.id = groupId) (fun _ => row) s.catalog.addonGroups
    addonOptions := (input.options.map fun options =>
      Table.updateWhere (·.groupId = groupId) (fun r => { r with status := .archived }) s.catalog.addonOptions ++
        addonOptionRows groupId options optionIds).getD s.catalog.addonOptions }

theorem updateAddonGroup_cases {groupId : Id} {version : Nat} {value : AddonGroupPatch} {optionIds : List Id}
    {row : AddonGroupRow} (h : Commits (updateAddonGroup groupId version value optionIds) v s row s') :
    ∃ input r, AddonGroupUpdated groupId version value input optionIds s r row s' := by
  rw [updateAddonGroup, commits_fromExcept_bind] at h
  obtain ⟨input, hinput, h⟩ := h
  rw [commits_requireCatalogManagement_bind, commits_lookCatalog_bind, commits_throwIf_bind, commits_bind] at h
  obtain ⟨-, -, updated, s₁, hupdate, h⟩ := h
  obtain ⟨rfl, hcatalog⟩ := conflict_or_record h
  obtain ⟨t, hwrite, rfl⟩ := commits_onCatalog.1 hupdate
  obtain ⟨r, hr, hrow, hconstraints, hoptions, rfl⟩ := CatalogRepository.updateAddonGroup_cases hwrite
  refine ⟨input, r, hinput, hr, hrow, hconstraints, fun options hgiven => hoptions _ ?_, ?_⟩
  · rw [hgiven]
    rfl
  · rw [hcatalog]
    cases input.options <;> rfl

theorem archiveAddonGroup_cases {groupId : Id} {version : Nat} {row : AddonGroupRow}
    (h : Commits (archiveAddonGroup groupId version) v s row s') :
    ∃ input r, AddonGroupUpdated groupId version { status := some .archived } input [] s r row s' := by
  rw [archiveAddonGroup, commits_fromExcept_bind] at h
  obtain ⟨version', hversion, h⟩ := h
  rw [versionedArchiveInput_eq hversion] at h
  exact updateAddonGroup_cases h

theorem createCombo_cases {value : ComboInput} {newId : Id} {row : ComboRow}
    (h : Commits (createCombo locale value newId) v s row s') : ∃ input category,
    comboInputSchema value = .ok input ∧
    findCategory input.categoryId v.catalog = some category ∧
    (input.status = some .active → assertPublishableCombo category.status
      ((findMedia input.imageAssetId.join v.catalog).map (·.status)) (input.items.map fun line =>
        (statusOf (findItems (input.items.map (·.itemId)) v.catalog) line.itemId, line.quantity)) = .ok ()) ∧
    row = newCombo locale input newId ∧
    (∀ c ∈ comboConstraints row s.catalog.combos, c.2 = true) ∧
    s'.catalog = { s.catalog with
      combos := s.catalog.combos ++ [row]
      comboItems := s.catalog.comboItems ++ comboItemRows newId input.items } := by
  rw [createCombo, commits_fromExcept_bind] at h
  obtain ⟨input, hinput, h⟩ := h
  rw [commits_requireCatalogManagement_bind, commits_lookCatalog_bind, commits_lookCatalog_bind] at h
  dsimp only at h
  rw [commits_lookCatalog_bind, commits_throwIf_bind, commits_orThrow_bind] at h
  obtain ⟨-, -, category, hplaced, h⟩ := h
  rw [commits_bind] at h
  obtain ⟨_, s₁, hpublishable, h⟩ := h
  obtain ⟨hpub, rfl⟩ := commits_runIf_fromExcept hpublishable
  rw [commits_bind] at h
  obtain ⟨combo, s₂, hcreate, h⟩ := h
  obtain ⟨_, s₃, hrecord, h⟩ := commits_bind.1 h
  obtain ⟨rfl, rfl⟩ := commits_pure.1 h
  obtain ⟨t, hwrite, rfl⟩ := commits_onCatalog.1 hcreate
  obtain ⟨rfl, hconstraints, rfl⟩ := CatalogRepository.createCombo_cases hwrite
  exact ⟨input, category, hinput, hplaced, hpub, rfl, hconstraints, recordMutation_catalog hrecord⟩

/-- What `updateCombo` has checked on its view, and the row that it leaves. -/
structure ComboUpdated (locale : Locale) (comboId : Id) (version : Nat) (value input : ComboPatch) (v s : Shop)
    (before : ComboRow) (category : CategoryRow) (r row : ComboRow) (s' : Shop) : Prop where
  accepted : comboPatchSchema version value = .ok input
  read : findCombo comboId v.catalog = some before
  placed : findCategory (input.categoryId.getD before.categoryId) v.catalog = some category
  publishable : input.status.getD before.status = .active → assertPublishableCombo category.status
    ((findMedia (input.imageAssetId.getD before.imageAssetId) v.catalog).map (·.status))
    (effectiveLines comboId input.items v.catalog) = .ok ()
  current : s.catalog.combos.find? (fun r => r.id = comboId && r.version = version) = some r
  written : row = { setCombo locale input r with version := r.version + 1 }
  constraints : ∀ c ∈ comboConstraints row (s.catalog.combos.filter (·.id ≠ comboId)), c.2 = true
  catalog : s'.catalog = { s.catalog with
    combos := Table.updateWhere (·.id = comboId) (fun _ => row) s.catalog.combos
    comboItems := (input.items.map fun items =>
      s.catalog.comboItems.filter (·.comboId ≠ comboId) ++ comboItemRows comboId items).getD s.catalog.comboItems }

theorem updateCombo_cases {comboId : Id} {version : Nat} {value : ComboPatch} {row : ComboRow}
    (h : Commits (updateCombo locale comboId version value) v s row s') : ∃ input before category r,
    ComboUpdated locale comboId version value input v s before category r row s' := by
  rw [updateCombo, commits_fromExcept_bind] at h
  obtain ⟨input, hinput, h⟩ := h
  rw [commits_requireCatalogManagement_bind, commits_lookCatalog_bind, commits_orThrow_bind] at h
  obtain ⟨-, before, hread, h⟩ := h
  dsimp only at h
  rw [commits_lookCatalog_bind, commits_lookCatalog_bind, commits_throwIf_bind, commits_orThrow_bind] at h
  obtain ⟨-, category, hplaced, h⟩ := h
  rw [commits_bind] at h
  obtain ⟨_, s₁, hlines, h⟩ := h
  have hs₁ : s = s₁ := by
    rcases commits_forSome.1 hlines with ⟨items, -, hitems⟩ | ⟨-, rfl⟩
    · rw [commits_lookCatalog_bind, commits_throwIf] at hitems
      exact hitems.2
    · rfl
  subst hs₁
  rw [commits_bind] at h
  obtain ⟨_, s₁, hpublishable, h⟩ := h
  have hpub : (input.status.getD before.status = .active → assertPublishableCombo category.status
      ((findMedia (input.imageAssetId.getD before.imageAssetId) v.catalog).map (·.status))
      (effectiveLines comboId input.items v.catalog) = .ok ()) ∧ s = s₁ := by
    rcases commits_runIf.1 hpublishable with ⟨-, hchecked⟩ | ⟨hinactive, rfl⟩
    · rw [commits_lookCatalog_bind, commits_fromExcept] at hchecked
      exact ⟨fun _ => hchecked.1, hchecked.2⟩
    · exact ⟨fun hactive => absurd hactive hinactive, rfl⟩
  obtain ⟨hpub, rfl⟩ := hpub
  rw [commits_bind] at h
  obtain ⟨updated, s₂, hupdate, h⟩ := h
  obtain ⟨rfl, hcatalog⟩ := conflict_or_record h
  obtain ⟨t, hwrite, rfl⟩ := commits_onCatalog.1 hupdate
  obtain ⟨r, hcurrent, hrow, hconstraints, rfl⟩ := CatalogRepository.updateCombo_cases hwrite
  exact ⟨input, before, category, r, hinput, hread, hplaced, hpub, hcurrent, hrow, hconstraints, hcatalog⟩

theorem archiveCombo_cases {comboId : Id} {version : Nat} {row : ComboRow}
    (h : Commits (archiveCombo locale comboId version) v s row s') : ∃ input before category r,
    ComboUpdated locale comboId version { status := some .archived } input v s before category r row s' := by
  rw [archiveCombo, commits_fromExcept_bind] at h
  obtain ⟨version', hversion, h⟩ := h
  rw [versionedArchiveInput_eq hversion] at h
  exact updateCombo_cases h

end CatalogService

/-! ## Runs -/

/-- What a call is about. -/
inductive CatalogKind
  | category
  | item
  | addonGroup
  | combo
deriving DecidableEq, Repr

def CatalogRequest.kind : CatalogRequest → CatalogKind
  | createCategory _ _ => .category
  | updateCategory _ _ _ => .category
  | archiveCategory _ _ _ => .category
  | createItem _ _ => .item
  | updateItem _ _ _ => .item
  | archiveItem _ _ => .item
  | createAddonGroup _ _ _ => .addonGroup
  | updateAddonGroup _ _ _ _ => .addonGroup
  | archiveAddonGroup _ _ => .addonGroup
  | createCombo _ _ => .combo
  | updateCombo _ _ _ => .combo
  | archiveCombo _ _ => .combo

/-- The tables that a call of each kind writes. -/
inductive CatalogTables.Written (t : CatalogTables) : CatalogKind → CatalogTables → Prop
  | categories (rows : List CategoryRow) : Written t .category { t with categories := rows }
  | items (rows : List ItemRow) (links : List ItemAddonGroupRow) :
    Written t .item { t with items := rows, itemAddonGroups := links }
  | addonGroups (rows : List AddonGroupRow) (options : List AddonOptionRow) :
    Written t .addonGroup { t with addonGroups := rows, addonOptions := options }
  | combos (rows : List ComboRow) (lines : List ComboItemRow) :
    Written t .combo { t with combos := rows, comboItems := lines }

namespace CatalogTables.Written
variable {t t' : CatalogTables} {kind : CatalogKind}

theorem items_eq (h : t.Written kind t') (hkind : kind ≠ .item) : t'.items = t.items := by
  cases h with
  | items rows links => exact absurd rfl hkind
  | _ => rfl

/-- Add-on groups and combos are not goods. -/
theorem goods_eq (h : t.Written kind t') (hkind : kind = .addonGroup ∨ kind = .combo) : t'.goods = t.goods := by
  cases h with
  | categories rows => exact absurd hkind (by decide)
  | items rows links => exact absurd hkind (by decide)
  | _ => rfl

end CatalogTables.Written

theorem CatalogRequest.run_written {q : CatalogRequest} {a : CatalogAnswer} (h : Commits (q.run locale) v s a s') :
    s.catalog.Written q.kind s'.catalog := by
  cases q with
  | createCategory value newId =>
    obtain ⟨row, h, -⟩ := commits_map.1 h
    obtain ⟨input, -, -, -, hcatalog⟩ := CatalogService.createCategory_cases h
    rw [hcatalog]
    exact .categories _
  | updateCategory categoryId version value =>
    obtain ⟨row, h, -⟩ := commits_map.1 h
    obtain ⟨input, r, -, -, -, -, hcatalog⟩ := CatalogService.updateCategory_cases h
    rw [hcatalog]
    exact .categories _
  | archiveCategory categoryId version now =>
    obtain ⟨row, h, -⟩ := commits_map.1 h
    obtain ⟨r, -, -, -, hcatalog⟩ := CatalogService.archiveCategory_cases h
    rw [hcatalog]
    exact .categories _
  | createItem value newId =>
    obtain ⟨row, h, -⟩ := commits_map.1 h
    obtain ⟨input, category, barcode, -, -, -, -, -, -, hcatalog⟩ := CatalogService.createItem_cases h
    rw [hcatalog]
    exact .items _ _
  | updateItem itemId version value =>
    obtain ⟨row, h, -⟩ := commits_map.1 h
    obtain ⟨input, before, category, barcode, r, hu⟩ := CatalogService.updateItem_cases h
    rw [hu.catalog]
    exact .items _ _
  | archiveItem itemId version =>
    obtain ⟨row, h, -⟩ := commits_map.1 h
    obtain ⟨input, before, category, barcode, r, hu⟩ := CatalogService.archiveItem_cases h
    rw [hu.catalog]
    exact .items _ _
  | createAddonGroup value newId optionIds =>
    obtain ⟨row, h, -⟩ := commits_map.1 h
    obtain ⟨input, -, -, -, -, hcatalog⟩ := CatalogService.createAddonGroup_cases h
    rw [hcatalog]
    exact .addonGroups _ _
  | updateAddonGroup groupId version value optionIds =>
    obtain ⟨row, h, -⟩ := commits_map.1 h
    obtain ⟨input, r, hu⟩ := CatalogService.updateAddonGroup_cases h
    rw [hu.catalog]
    exact .addonGroups _ _
  | archiveAddonGroup groupId version =>
    obtain ⟨row, h, -⟩ := commits_map.1 h
    obtain ⟨input, r, hu⟩ := CatalogService.archiveAddonGroup_cases h
    rw [hu.catalog]
    exact .addonGroups _ _
  | createCombo value newId =>
    obtain ⟨row, h, -⟩ := commits_map.1 h
    obtain ⟨input, category, -, -, -, -, -, hcatalog⟩ := CatalogService.createCombo_cases h
    rw [hcatalog]
    exact .combos _ _
  | updateCombo comboId version value =>
    obtain ⟨row, h, -⟩ := commits_map.1 h
    obtain ⟨input, before, category, r, hu⟩ := CatalogService.updateCombo_cases h
    rw [hu.catalog]
    exact .combos _ _
  | archiveCombo comboId version =>
    obtain ⟨row, h, -⟩ := commits_map.1 h
    obtain ⟨input, before, category, r, hu⟩ := CatalogService.archiveCombo_cases h
    rw [hu.catalog]
    exact .combos _ _

/-- Every call keeps the primary keys. -/
theorem CatalogRequest.run_keyed {q : CatalogRequest} {a : CatalogAnswer} (hkeys : s.catalog.Keyed)
    (h : Commits (q.run locale) v s a s') : s'.catalog.Keyed := by
  obtain ⟨hcategories, hitems, hgroups, hcombos⟩ := hkeys
  cases q with
  | createCategory value newId =>
    obtain ⟨row, h, -⟩ := commits_map.1 h
    obtain ⟨input, -, -, hconstraints, hcatalog⟩ := CatalogService.createCategory_cases h
    rw [hcatalog]
    exact ⟨hcategories.append (CatalogRepository.categoryConstraints_hold hconstraints), hitems, hgroups, hcombos⟩
  | updateCategory categoryId version value =>
    obtain ⟨row, h, -⟩ := commits_map.1 h
    obtain ⟨input, r, -, hcurrent, hrow, -, hcatalog⟩ := CatalogService.updateCategory_cases h
    obtain ⟨-, rfl, -⟩ := Table.find?_versioned hcurrent
    rw [hcatalog]
    exact ⟨hcategories.overwrite (by rw [hrow]; rfl), hitems, hgroups, hcombos⟩
  | archiveCategory categoryId version now =>
    obtain ⟨row, h, -⟩ := commits_map.1 h
    obtain ⟨r, -, hcurrent, hrow, hcatalog⟩ := CatalogService.archiveCategory_cases h
    obtain ⟨-, rfl, -⟩ := Table.find?_versioned hcurrent
    rw [hcatalog]
    exact ⟨hcategories.overwrite (by rw [hrow]), hitems, hgroups, hcombos⟩
  | createItem value newId =>
    obtain ⟨row, h, -⟩ := commits_map.1 h
    obtain ⟨input, category, barcode, -, -, -, -, -, hconstraints, hcatalog⟩ := CatalogService.createItem_cases h
    rw [hcatalog]
    exact ⟨hcategories, hitems.append (CatalogRepository.itemConstraints_hold hconstraints).1, hgroups, hcombos⟩
  | updateItem itemId version value =>
    obtain ⟨row, h, -⟩ := commits_map.1 h
    obtain ⟨input, before, category, barcode, r, hu⟩ := CatalogService.updateItem_cases h
    obtain ⟨-, rfl, -⟩ := Table.find?_versioned hu.current
    rw [hu.catalog]
    exact ⟨hcategories, hitems.overwrite (by rw [hu.written]; rfl), hgroups, hcombos⟩
  | archiveItem itemId version =>
    obtain ⟨row, h, -⟩ := commits_map.1 h
    obtain ⟨input, before, category, barcode, r, hu⟩ := CatalogService.archiveItem_cases h
    obtain ⟨-, rfl, -⟩ := Table.find?_versioned hu.current
    rw [hu.catalog]
    exact ⟨hcategories, hitems.overwrite (by rw [hu.written]; rfl), hgroups, hcombos⟩
  | createAddonGroup value newId optionIds =>
    obtain ⟨row, h, -⟩ := commits_map.1 h
    obtain ⟨input, -, -, hconstraints, -, hcatalog⟩ := CatalogService.createAddonGroup_cases h
    rw [hcatalog]
    exact ⟨hcategories, hitems, hgroups.append (CatalogRepository.addonGroupConstraints_hold hconstraints).1, hcombos⟩
  | updateAddonGroup groupId version value optionIds =>
    obtain ⟨row, h, -⟩ := commits_map.1 h
    obtain ⟨input, r, hu⟩ := CatalogService.updateAddonGroup_cases h
    obtain ⟨-, rfl, -⟩ := Table.find?_versioned hu.current
    rw [hu.catalog]
    exact ⟨hcategories, hitems, hgroups.overwrite (by rw [hu.written]; rfl), hcombos⟩
  | archiveAddonGroup groupId version =>
    obtain ⟨row, h, -⟩ := commits_map.1 h
    obtain ⟨input, r, hu⟩ := CatalogService.archiveAddonGroup_cases h
    obtain ⟨-, rfl, -⟩ := Table.find?_versioned hu.current
    rw [hu.catalog]
    exact ⟨hcategories, hitems, hgroups.overwrite (by rw [hu.written]; rfl), hcombos⟩
  | createCombo value newId =>
    obtain ⟨row, h, -⟩ := commits_map.1 h
    obtain ⟨input, category, -, -, -, -, hconstraints, hcatalog⟩ := CatalogService.createCombo_cases h
    rw [hcatalog]
    exact ⟨hcategories, hitems, hgroups, hcombos.append (CatalogRepository.comboConstraints_hold hconstraints)⟩
  | updateCombo comboId version value =>
    obtain ⟨row, h, -⟩ := commits_map.1 h
    obtain ⟨input, before, category, r, hu⟩ := CatalogService.updateCombo_cases h
    obtain ⟨-, rfl, -⟩ := Table.find?_versioned hu.current
    rw [hu.catalog]
    exact ⟨hcategories, hitems, hgroups, hcombos.overwrite (by rw [hu.written]; rfl)⟩
  | archiveCombo comboId version =>
    obtain ⟨row, h, -⟩ := commits_map.1 h
    obtain ⟨input, before, category, r, hu⟩ := CatalogService.archiveCombo_cases h
    obtain ⟨-, rfl, -⟩ := Table.find?_versioned hu.current
    rw [hu.catalog]
    exact ⟨hcategories, hitems, hgroups, hcombos.overwrite (by rw [hu.written]; rfl)⟩

/-! ### The payment accounts -/

/-- The payment accounts of the tenant stay as they are. -/
def SameAccounts (s s' : Shop) : Prop := s'.db.accounts = s.db.accounts

instance : Std.Refl SameAccounts := ⟨fun _ => rfl⟩

instance : Trans SameAccounts SameAccounts SameAccounts := ⟨fun h h' => Eq.trans h' h⟩

theorem sameAccounts_onCatalog {α : Type} (x : CatalogTx α) : Within SameAccounts (onCatalog x) :=
  Within.zoom (Q := fun _ _ => True) (fun _ _ _ _ _ => trivial) fun _ _ _ => rfl

theorem sameAccounts_lookCatalog {α : Type} (f : CatalogTables → α) : Within SameAccounts (lookCatalog f) :=
  Within.look _

theorem sameAccounts_required : Within SameAccounts requireCatalogManagement :=
  Within.bind (Within.look _) fun _ => Within.throwIf _ _

theorem sameAccounts_record (action resourceType : String) (resourceId : Id) :
    Within SameAccounts (recordMutation action resourceType resourceId) := by
  unfold recordMutation onDb
  have haccounts : Keeps Db.accounts (do
      appendAuditEvent action resourceType resourceId []
      appendOutboxEvent resourceType resourceId action []) :=
    Within.bind (Within.write fun _ => rfl) fun _ => Within.write fun _ => rfl
  exact Within.zoom haccounts fun _ _ h => h

theorem CatalogRequest.run_sameAccounts (q : CatalogRequest) : Within SameAccounts (q.run locale) := by
  cases q <;> simp only [run, map_eq_pure_bind, CatalogService.createCategory, CatalogService.updateCategory,
    CatalogService.archiveCategory, CatalogService.createItem, CatalogService.updateItem, CatalogService.archiveItem,
    CatalogService.createAddonGroup, CatalogService.updateAddonGroup, CatalogService.archiveAddonGroup,
    CatalogService.createCombo, CatalogService.updateCombo, CatalogService.archiveCombo]
  all_goals
    repeat' first
      | with_reducible refine Within.bind ?_ fun _ => ?_
      | with_reducible exact sameAccounts_onCatalog _
      | with_reducible exact sameAccounts_record _ _ _
      | with_reducible exact sameAccounts_required
      | with_reducible exact sameAccounts_lookCatalog _
      | with_reducible exact Within.fromExcept _
      | with_reducible exact Within.throwIf _ _
      | with_reducible exact Within.orThrow _ _
      | with_reducible exact Within.pure _
      | with_reducible refine Within.forSome fun _ => ?_
      | with_reducible refine Within.runIf ?_

end Service

end Komanda
