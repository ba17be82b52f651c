import Komanda.Proofs.VersionedEdits

/-!
# What a patch of the catalog leaves alone

A request names some columns of a row. `Keeps` says that the others are the same afterwards. The patches of
categories and items parse an absent key that has a default to that default, so they keep a row only when it holds
the defaults already (`Spares`). The patch of a combo has no defaults.
-/

namespace Komanda
open Transaction

/-! ## Rows -/

/-- The columns of a category that a patch does not name. -/
structure CategoryPatch.Keeps (value : CategoryPatch) (row row' : CategoryRow) : Prop where
  id : row'.id = row.id
  name : value.name = none → row'.name = row.name
  normalizedName : value.name = none → row'.normalizedName = row.normalizedName
  description : value.description = none → row'.description = row.description
  sortOrder : value.sortOrder = none → row'.sortOrder = row.sortOrder
  status : value.status = none → row'.status = row.status
  archivedAt : row'.archivedAt = row.archivedAt

/-- The row has the defaults of the keys that are absent. -/
structure CategoryPatch.Spares (value : CategoryPatch) (row : CategoryRow) : Prop where
  sortOrder : value.sortOrder = none → row.sortOrder = 0
  status : value.status = none → row.status = .draft

/-- The columns of an item that a patch does not name. An item that is weighted afterwards has no stock, and is
not generic. -/
structure CatalogItemPatch.Keeps (value : CatalogItemPatch) (row row' : ItemRow) : Prop where
  id : row'.id = row.id
  categoryId : value.categoryId = none → row'.categoryId = row.categoryId
  name : value.name = none → row'.name = row.name
  normalizedName : value.name = none → row'.normalizedName = row.normalizedName
  description : value.description = none → row'.description = row.description
  price : value.price = none → row'.price = row.price
  currency : value.currency = none → row'.currency = row.currency
  itemType : value.itemType = none → row'.itemType = row.itemType
  imageAssetId : value.imageAssetId = none → row'.imageAssetId = row.imageAssetId
  videoAssetId : value.videoAssetId = none → row'.videoAssetId = row.videoAssetId
  barcode : value.barcode = none → row'.barcode = row.barcode
  isGeneric : value.isGeneric = none → row'.itemType ≠ .weighted → row'.isGeneric = row.isGeneric
  genericIcon : value.genericIcon = none → row'.itemType ≠ .weighted → row'.genericIcon = row.genericIcon
  trackStock : value.trackStock = none → row'.itemType ≠ .weighted → row'.trackStock = row.trackStock
  stockQuantity : value.stockQuantity = none → row'.itemType ≠ .weighted → row'.stockQuantity = row.stockQuantity
  status : value.status = none → row'.status = row.status
  sortOrder : value.sortOrder = none → row'.sortOrder = row.sortOrder
  archivedAt : row'.archivedAt = row.archivedAt

/-- The row has the defaults of the keys that are absent, and the barcode of a weighted item is a PLU code as it
stands. -/
structure CatalogItemPatch.Spares (value : CatalogItemPatch) (row : ItemRow) : Prop where
  itemType : value.itemType = none → row.itemType = .unit
  barcode : value.barcode = none → value.itemType = some .weighted →
    row.barcode = some (normalizePluCode (row.barcode.getD ""))
  isGeneric : value.isGeneric = none → value.itemType ≠ some .weighted → row.isGeneric = false
  trackStock : value.trackStock = none → value.itemType ≠ some .weighted → row.trackStock = false
  stockQuantity : value.stockQuantity = none → value.itemType ≠ some .weighted → row.stockQuantity = 0
  sortOrder : value.sortOrder = none → row.sortOrder = 0

structure ComboPatch.Keeps (value : ComboPatch) (row row' : ComboRow) : Prop where
  id : row'.id = row.id
  categoryId : value.categoryId = none → row'.categoryId = row.categoryId
  name : value.name = none → row'.name = row.name
  normalizedName : value.name = none → row'.normalizedName = row.normalizedName
  description : value.description = none → row'.description = row.description
  price : value.price = none → row'.price = row.price
  currency : value.currency = none → row'.currency = row.currency
  imageAssetId : value.imageAssetId = none → row'.imageAssetId = row.imageAssetId
  status : value.status = none → row'.status = row.status
  archivedAt : row'.archivedAt = row.archivedAt

/-! ## Requests -/

/-- The links of an item stay when its patch does not name them, those of the others in any case. -/
structure KeepsLinks (itemId : Id) (addonGroupIds : Option (List Id)) (links links' : List ItemAddonGroupRow) :
    Prop where
  own : addonGroupIds = none → links'.filter (·.itemId = itemId) = links.filter (·.itemId = itemId)
  others : links'.filter (·.itemId ≠ itemId) = links.filter (·.itemId ≠ itemId)

structure KeepsLines (comboId : Id) (items : Option (List ComboItemInput)) (lines lines' : List ComboItemRow) :
    Prop where
  own : items = none → lines'.filter (·.comboId = comboId) = lines.filter (·.comboId = comboId)
  others : lines'.filter (·.comboId ≠ comboId) = lines.filter (·.comboId ≠ comboId)

/-- Of the items, a patch changes the one row and its links only, and only what it names. -/
structure KeepsItem (itemId : Id) (value : CatalogItemPatch) (t t' : CatalogTables) : Prop where
  items : Table.ChangesAt ItemRow.id itemId value.Keeps t.items t'.items
  links : KeepsLinks itemId value.addonGroupIds t.itemAddonGroups t'.itemAddonGroups
  rest : { t' with items := t.items, itemAddonGroups := t.itemAddonGroups } = t

structure KeepsCombo (comboId : Id) (value : ComboPatch) (t t' : CatalogTables) : Prop where
  combos : Table.ChangesAt ComboRow.id comboId value.Keeps t.combos t'.combos
  lines : KeepsLines comboId value.items t.comboItems t'.comboItems
  rest : { t' with combos := t.combos, comboItems := t.comboItems } = t

structure KeepsCategory (categoryId : Id) (value : CategoryPatch) (t t' : CatalogTables) : Prop where
  categories : Table.ChangesAt CategoryRow.id categoryId value.Keeps t.categories t'.categories
  rest : { t' with categories := t.categories } = t

/-- The item has the defaults of the keys that are absent, and no links when these are absent. -/
structure SparesItem (itemId : Id) (value : CatalogItemPatch) (t : CatalogTables) : Prop where
  row : ∀ row ∈ CatalogRepository.findItem itemId t, value.Spares row
  links : value.addonGroupIds = none → ∀ link ∈ t.itemAddonGroups, link.itemId ≠ itemId

namespace CatalogRequest

/-- A patch, or an archiving that is one, changes only what it names. -/
def Keeps (q : CatalogRequest) (t t' : CatalogTables) : Prop :=
  match q with
  | updateCategory categoryId _ value => KeepsCategory categoryId value t t'
  | updateItem itemId _ value => KeepsItem itemId value t t'
  | archiveItem itemId _ => KeepsItem itemId { status := some .archived } t t'
  | updateCombo comboId _ value => KeepsCombo comboId value t t'
  | archiveCombo comboId _ => KeepsCombo comboId { status := some .archived } t t'
  | _ => True

/-- What the request overwrites without naming it is as it will be written. -/
def Spares (q : CatalogRequest) (t : CatalogTables) : Prop :=
  match q with
  | updateCategory categoryId _ value => ∀ row ∈ CatalogRepository.findCategory categoryId t, value.Spares row
  | updateItem itemId _ value => SparesItem itemId value t
  | archiveItem itemId _ => SparesItem itemId { status := some .archived } t
  | _ => True

end CatalogRequest

/-! ## What is written -/

section Rows
variable {locale : Locale} {version : Nat}

theorem CategoryPatch.keeps_iff (locale : Locale) {value input : CategoryPatch} {r : CategoryRow}
    (h : categoryPatchSchema version value = .ok input) :
    value.Keeps r { CatalogService.setCategory locale input r with version := r.version + 1 } ↔ value.Spares r := by
  obtain rfl := parsed_ok h
  constructor
  · intro hkeeps
    refine ⟨fun hnone => ?_, fun hnone => ?_⟩
    · have hsort := hkeeps.sortOrder hnone
      simp only [CatalogService.setCategory, hnone, Option.getD_none, Option.getD_some] at hsort
      exact hsort.symm
    · have hstatus := hkeeps.status hnone
      simp only [CatalogService.setCategory, hnone, Option.getD_none, Option.getD_some] at hstatus
      exact hstatus.symm
  · intro hspares
    refine ⟨rfl, ?_, ?_, ?_, fun hnone => ?_, fun hnone => ?_, rfl⟩
    · intro hnone
      simp [CatalogService.setCategory, hnone]
    · intro hnone
      simp [CatalogService.setCategory, hnone]
    · intro hnone
      simp [CatalogService.setCategory, hnone]
    · simp [CatalogService.setCategory, hnone, hspares.sortOrder hnone]
    · simp [CatalogService.setCategory, hnone, hspares.status hnone]

theorem ComboPatch.keeps {value input : ComboPatch} {r : ComboRow} (h : comboPatchSchema version value = .ok input) :
    value.Keeps r { CatalogService.setCombo locale input r with version := r.version + 1 } := by
  obtain rfl := parsed_ok h
  refine ⟨rfl, ?_, ?_, ?_, ?_, ?_, ?_, ?_, ?_, rfl⟩
  all_goals
    intro hnone
    simp [CatalogService.setCombo, hnone]

/-- The barcode that is written. -/
theorem normalizeBarcode_eq {isWeighted : Bool} {raw barcode : Option String}
    (h : CatalogService.normalizeBarcode isWeighted raw = .ok barcode) :
    barcode = if isWeighted then some (normalizePluCode (raw.getD "")) else raw := by
  unfold CatalogService.normalizeBarcode at h
  cases isWeighted with
  | false => exact (Except.ok.inj h).symm
  | true =>
    rw [ite_eq_iff] at h
    rcases h with ⟨-, h⟩ | ⟨-, h⟩
    · cases h
    · exact (Except.ok.inj h).symm

/-- The type that is written: `unit`, when none is named. -/
theorem CatalogItemPatch.weighted_iff {value : CatalogItemPatch} :
    value.itemType.getD .unit = .weighted ↔ value.itemType = some .weighted := by
  cases value.itemType with
  | none => simp
  | some itemType => simp

theorem CatalogItemPatch.keeps_iff (locale : Locale) {value input : CatalogItemPatch} {r : ItemRow}
    {barcode : Option String}
    (h : catalogItemPatchSchema version value = .ok input)
    (hlabel : CatalogService.normalizeBarcode (input.itemType.getD r.itemType = .weighted)
      (input.barcode.getD r.barcode) = .ok barcode) :
    value.Keeps r { CatalogService.setItem locale input (input.itemType.getD r.itemType = .weighted) barcode r with
      version := r.version + 1 } ↔ value.Spares r := by
  have hbarcode := normalizeBarcode_eq hlabel
  obtain rfl := parsed_ok h
  simp only [Option.getD_some, weighted_iff, decide_eq_true_eq] at hbarcode ⊢
  constructor
  · intro hkeeps
    refine ⟨fun hnone => ?_, fun hnone hw => ?_, fun hnone hw => ?_, fun hnone hw => ?_, fun hnone hw => ?_,
      fun hnone => ?_⟩
    · simpa [CatalogService.setItem, hnone, eq_comm] using hkeeps.itemType hnone
    · simpa [CatalogService.setItem, hbarcode, hnone, hw, eq_comm] using hkeeps.barcode hnone
    · simpa [CatalogService.setItem, hnone, hw] using hkeeps.isGeneric hnone (mt weighted_iff.1 hw)
    · simpa [CatalogService.setItem, hnone, hw] using hkeeps.trackStock hnone (mt weighted_iff.1 hw)
    · simpa [CatalogService.setItem, hnone, hw, eq_comm] using hkeeps.stockQuantity hnone (mt weighted_iff.1 hw)
    · simpa [CatalogService.setItem, hnone, eq_comm] using hkeeps.sortOrder hnone
  · intro hspares
    refine ⟨rfl, ?_, ?_, ?_, ?_, ?_, ?_, ?itemType, ?_, ?_, ?barcode, ?isGeneric, ?genericIcon, ?trackStock,
      ?stockQuantity, ?_, ?sortOrder, rfl⟩
    case itemType =>
      intro hnone
      simp [CatalogService.setItem, hnone, hspares.itemType hnone]
    case barcode =>
      intro hnone
      by_cases hw : value.itemType = some .weighted
      · rw [hspares.barcode hnone hw]
        simp [CatalogService.setItem, hbarcode, hnone, hw]
      · simp [CatalogService.setItem, hbarcode, hnone, hw]
    case isGeneric =>
      intro hnone hw
      have hw := mt weighted_iff.2 hw
      simp [CatalogService.setItem, hnone, hw, hspares.isGeneric hnone hw]
    case genericIcon =>
      intro hnone hw
      have hw := mt weighted_iff.2 hw
      simp [CatalogService.setItem, hnone, hw]
    case trackStock =>
      intro hnone hw
      have hw := mt weighted_iff.2 hw
      simp [CatalogService.setItem, hnone, hw, hspares.trackStock hnone hw]
    case stockQuantity =>
      intro hnone hw
      have hw := mt weighted_iff.2 hw
      simp [CatalogService.setItem, hnone, hw, hspares.stockQuantity hnone hw]
    case sortOrder =>
      intro hnone
      simp [CatalogService.setItem, hnone, hspares.sortOrder hnone]
    -- the columns whose keys have no default
    all_goals
      intro hnone
      simp [CatalogService.setItem, hnone]

end Rows

section Tables

theorem keepsLinks_iff (itemId : Id) (links : List ItemAddonGroupRow) {version : Nat} {value input : CatalogItemPatch}
    (h : catalogItemPatchSchema version value = .ok input) :
    KeepsLinks itemId value.addonGroupIds links ((input.addonGroupIds.map fun ids =>
      links.filter (·.itemId ≠ itemId) ++ CatalogRepository.addonLinks itemId ids.eraseDups).getD links) ↔
    (value.addonGroupIds = none → ∀ link ∈ links, link.itemId ≠ itemId) := by
  obtain rfl := parsed_ok h
  have hown : ∀ {ids : List Id}, ∀ link ∈ CatalogRepository.addonLinks itemId ids, link.itemId = itemId := by
    intro ids link hlink
    obtain ⟨i, hi, rfl⟩ := List.mem_mapIdx.1 hlink
    rfl
  have hnew : (CatalogRepository.addonLinks itemId (value.addonGroupIds.getD []).eraseDups).filter (·.itemId ≠ itemId)
      = [] := List.filter_eq_nil_iff.2 fun link hlink => by simp [hown link hlink]
  simp only [Option.map_some, Option.getD_some]
  constructor
  · intro hkeeps hnone link hlink heq
    have hgone := hkeeps.own hnone
    rw [hnone, Option.getD_none, List.filter_append, List.filter_filter] at hgone
    have hmem : link ∈ links.filter (·.itemId = itemId) := List.mem_filter.2 ⟨hlink, by simpa using heq⟩
    rw [← hgone] at hmem
    simp [CatalogRepository.addonLinks] at hmem
  · intro hnolinks
    refine ⟨fun hnone => ?_, ?_⟩
    · have hnil : links.filter (·.itemId = itemId) = [] :=
        List.filter_eq_nil_iff.2 fun link hlink => by simpa using hnolinks hnone link hlink
      rw [hnone, hnil, List.filter_append, List.filter_filter]
      simp [CatalogRepository.addonLinks]
    · rw [List.filter_append, List.filter_filter, hnew, List.append_nil]
      simp

theorem keepsLines {comboId : Id} {version : Nat} {value input : ComboPatch} {lines : List ComboItemRow}
    (h : comboPatchSchema version value = .ok input) :
    KeepsLines comboId value.items lines ((input.items.map fun items =>
      lines.filter (·.comboId ≠ comboId) ++ CatalogRepository.comboItemRows comboId items).getD lines) := by
  obtain rfl := parsed_ok h
  refine ⟨fun hnone => by simp [hnone], ?_⟩
  cases hitems : value.items with
  | none => simp
  | some items =>
    have hnew : (CatalogRepository.comboItemRows comboId (items.map comboItemInputSchema)).filter (·.comboId ≠ comboId)
        = [] := by
      refine List.filter_eq_nil_iff.2 fun line hline => ?_
      obtain ⟨i, -, rfl⟩ := List.mem_map.1 hline
      simp
    simp only [Option.map_some, Option.getD_some]
    rw [List.filter_append, List.filter_filter, hnew, List.append_nil]
    simp

end Tables

/-! ## Calls -/

section Calls
variable {locale : Locale} {s s' : Shop}

open CatalogService in
theorem ItemUpdated.keeps_iff {itemId : Id} {version : Nat} {value input : CatalogItemPatch} {before r row : ItemRow}
    {category : CategoryRow} {barcode : Option String} (hkeys : s.catalog.Keyed)
    (h : ItemUpdated locale itemId version value input s s before category barcode r row s') :
    KeepsItem itemId value s.catalog s'.catalog ↔ SparesItem itemId value s.catalog := by
  obtain ⟨hmem, rfl, -⟩ := Table.find?_versioned h.current
  have hread : CatalogRepository.findItem r.id s.catalog = some r := hkeys.items.lookup hmem
  obtain rfl : r = before := Option.some.inj (hread.symm.trans h.read)
  have hrow := CatalogItemPatch.keeps_iff locale h.accepted h.labelled
  rw [← h.written] at hrow
  have hitems : Table.ChangesAt ItemRow.id r.id value.Keeps s.catalog.items s'.catalog.items ↔ value.Keeps r row := by
    rw [h.catalog]
    exact hkeys.items.changesAt_overwrite hmem
  have hlinks := keepsLinks_iff r.id s.catalog.itemAddonGroups h.accepted
  constructor
  · intro hkeeps
    refine ⟨fun x hx => ?_, hlinks.1 (by simpa only [h.catalog] using hkeeps.links)⟩
    rw [hread] at hx
    obtain rfl := Option.some.inj hx
    exact hrow.1 (hitems.1 hkeeps.items)
  · intro hspares
    refine ⟨hitems.2 (hrow.2 (hspares.row r hread)), ?_, by rw [h.catalog]⟩
    rw [h.catalog]
    exact hlinks.2 hspares.links

open CatalogService in
theorem ComboUpdated.keeps {comboId : Id} {version : Nat} {value input : ComboPatch} {before r row : ComboRow}
    {category : CategoryRow} (hkeys : s.catalog.Keyed)
    (h : ComboUpdated locale comboId version value input s s before category r row s') :
    KeepsCombo comboId value s.catalog s'.catalog := by
  obtain ⟨hmem, rfl, -⟩ := Table.find?_versioned h.current
  have hrow : value.Keeps r row := by
    rw [h.written]
    exact ComboPatch.keeps h.accepted
  rw [h.catalog]
  exact ⟨(hkeys.combos.changesAt_overwrite hmem).2 hrow, keepsLines h.accepted, rfl⟩

/-- An accepted patch changes only what it names exactly when the row has the values that the absent keys parse
to. -/
theorem patches_keep_iff {q : CatalogRequest} {a : CatalogAnswer} (hkeys : s.catalog.Keyed)
    (h : CommitsAlone (q.run locale) s a s') : q.Keeps s.catalog s'.catalog ↔ q.Spares s.catalog := by
  cases q with
  | updateCategory categoryId version value =>
    obtain ⟨row, h, -⟩ := commits_map.1 h
    obtain ⟨input, r, haccepted, hcurrent, hrow, -, hcatalog⟩ := CatalogService.updateCategory_cases h
    obtain ⟨hmem, rfl, -⟩ := Table.find?_versioned hcurrent
    have hread : CatalogRepository.findCategory r.id s.catalog = some r := hkeys.categories.lookup hmem
    have hkeeps := CategoryPatch.keeps_iff locale (r := r) haccepted
    rw [← hrow] at hkeeps
    show KeepsCategory _ _ _ _ ↔ ∀ row ∈ _, _
    rw [hread, hcatalog]
    constructor
    · rintro ⟨hcategories, -⟩ x hx
      obtain rfl := Option.some.inj hx
      exact hkeeps.1 ((hkeys.categories.changesAt_overwrite hmem).1 hcategories)
    · intro hspares
      exact ⟨(hkeys.categories.changesAt_overwrite hmem).2 (hkeeps.2 (hspares r rfl)), rfl⟩
  | updateItem itemId version value =>
    obtain ⟨row, h, -⟩ := commits_map.1 h
    obtain ⟨input, before, category, barcode, r, hu⟩ := CatalogService.updateItem_cases h
    exact ItemUpdated.keeps_iff hkeys hu
  | archiveItem itemId version =>
    obtain ⟨row, h, -⟩ := commits_map.1 h
    obtain ⟨input, before, category, barcode, r, hu⟩ := CatalogService.archiveItem_cases h
    exact ItemUpdated.keeps_iff hkeys hu
  | updateCombo comboId version value =>
    obtain ⟨row, h, -⟩ := commits_map.1 h
    obtain ⟨input, before, category, r, hu⟩ := CatalogService.updateCombo_cases h
    exact iff_of_true (ComboUpdated.keeps hkeys hu) trivial
  | archiveCombo comboId version =>
    obtain ⟨row, h, -⟩ := commits_map.1 h
    obtain ⟨input, before, category, r, hu⟩ := CatalogService.archiveCombo_cases h
    exact iff_of_true (ComboUpdated.keeps hkeys hu) trivial
  | createCategory value newId => exact Iff.rfl
  | archiveCategory categoryId version now => exact Iff.rfl
  | createItem value newId => exact Iff.rfl
  | createAddonGroup value newId optionIds => exact Iff.rfl
  | updateAddonGroup groupId version value optionIds => exact Iff.rfl
  | archiveAddonGroup groupId version => exact Iff.rfl
  | createCombo value newId => exact Iff.rfl

end Calls

namespace Demo

/-- The name of the burger is corrected. -/
def renameBurger : CatalogRequest := .updateItem "burger" 1 { name := some "Hamburger" }

/-- The same, with every column named that has a default. -/
def renameOnly : CatalogRequest := .updateItem "burger" 1
  { name := some "Hamburger", itemType := some .unit, isGeneric := some false, trackStock := some true,
    stockQuantity := some 5, sortOrder := some 0, addonGroupIds := some [] }

theorem kitchen_keyed : kitchen.catalog.Keyed := ⟨by decide, by decide, by decide, by decide⟩

end Demo

open Demo

theorem patches_keep_all_named : ∃ a s', CommitsAlone (renameOnly.run plain) kitchen a s' ∧
    (renameOnly.Keeps kitchen.catalog s'.catalog ↔ renameOnly.Spares kitchen.catalog) := by
  have hruns : (renameOnly.run plain kitchen kitchen).toOption.isSome = true := by decide +kernel
  obtain ⟨⟨a, s'⟩, hrun⟩ := Option.isSome_iff_exists.1 hruns
  have hc : CommitsAlone (renameOnly.run plain) kitchen a s' := toOption_eq.1 hrun
  exact ⟨a, s', hc, patches_keep_iff kitchen_keyed hc⟩

/-- Correcting the name of the burger empties its stock. -/
theorem rename_empties_stock : ¬ ∀ (locale : Locale) (q : CatalogRequest) (s : Shop) (a : CatalogAnswer) (s' : Shop),
    s.catalog.Keyed → CommitsAlone (q.run locale) s a s' → q.Keeps s.catalog s'.catalog := by
  intro hlaw
  have hitems : ((renameBurger.run plain kitchen kitchen).toOption.map fun p =>
      p.2.catalog.items.map fun r => (r.itemType, r.stockQuantity)) = some [(.unit, 0)] := by decide +kernel
  obtain ⟨⟨a, s'⟩, hrun, hrows⟩ := Option.map_eq_some_iff.1 hitems
  have hkeeps : KeepsItem _ _ _ _ := hlaw plain renameBurger kitchen a s' kitchen_keyed (toOption_eq.1 hrun)
  obtain ⟨row, rest, ⟨hburger, -⟩, -, hrest⟩ := List.forall₂_cons_left_iff.1 hkeeps.items
  simp only [hrest, List.map_cons, List.cons.injEq, Prod.mk.injEq] at hrows
  obtain ⟨⟨hunit, hstock⟩, -⟩ := hrows
  have hkept := (hburger rfl).stockQuantity rfl (by rw [hunit]; decide)
  rw [hstock] at hkept
  exact absurd hkept (by decide)

end Komanda
