import Komanda.Proofs.CatalogPatches

/-!
# What is published

An item or combo that is active needs an active category, media that are ready and, a combo, active items. A call
checks this of the row that it writes, on its view. It does not look at the rows that need the one it writes, except
when a category is archived.
-/

namespace Komanda
open Transaction CatalogRepository

/-! ## The law -/

namespace CatalogTables

def CategoryActive (t : CatalogTables) (categoryId : Id) : Prop := ∃ r ∈ findCategory categoryId t, r.status = .active

def ItemActive (t : CatalogTables) (itemId : Id) : Prop := ∃ r ∈ findItem itemId t, r.status = .active

/-- What `assertPublishableItem` asks of a category and of the media assets. -/
def Publishable (t : CatalogTables) (categoryId : Id) (assetIds : List (Option Id)) : Prop :=
  t.CategoryActive categoryId ∧ ∀ assetId ∈ assetIds, ∀ r ∈ findMedia assetId t, r.status = .ready

/-- The items of a combo. -/
def componentIds (comboId : Id) (lines : List ComboItemRow) : List Id :=
  (lines.filter (·.comboId = comboId)).map (·.itemId)

/-- What is active belongs to an active category, has no media that are not ready, and consists of active items. -/
structure Published (t : CatalogTables) : Prop where
  items : ∀ r ∈ t.items, r.status = .active → t.Publishable r.categoryId [r.imageAssetId, r.videoAssetId]
  combos : ∀ r ∈ t.combos, r.status = .active → t.Publishable r.categoryId [r.imageAssetId] ∧
    ∀ itemId ∈ componentIds r.id t.comboItems, t.ItemActive itemId

/-- Nothing active belongs to the category. -/
def Vacant (t : CatalogTables) (categoryId : Id) : Prop :=
  (∀ r ∈ t.items, r.categoryId = categoryId → r.status ≠ .active) ∧
    ∀ r ∈ t.combos, r.categoryId = categoryId → r.status ≠ .active

/-- The item is in no active combo. -/
def Unused (t : CatalogTables) (itemId : Id) : Prop :=
  ∀ r ∈ t.combos, itemId ∈ componentIds r.id t.comboItems → r.status ≠ .active

/-- `combo_items_combo_fk`. -/
def Owned (t : CatalogTables) : Prop := ∀ line ∈ t.comboItems, line.comboId ∈ t.combos.map (·.id)

end CatalogTables

namespace CatalogRequest

/-- What the call leaves active may be, as the tables stand when it commits. -/
def Publishes (q : CatalogRequest) (t : CatalogTables) : Prop :=
  match q with
  | createItem value _ => value.status = some .active →
    t.Publishable value.categoryId [value.imageAssetId.join, value.videoAssetId.join]
  | updateItem itemId _ value => ∀ r ∈ findItem itemId t, value.status.getD r.status = .active →
    t.Publishable (value.categoryId.getD r.categoryId)
      [value.imageAssetId.getD r.imageAssetId, value.videoAssetId.getD r.videoAssetId]
  | createCombo value _ => value.status = some .active →
    t.Publishable value.categoryId [value.imageAssetId.join] ∧ ∀ line ∈ value.items, t.ItemActive line.itemId
  | updateCombo comboId _ value => ∀ r ∈ findCombo comboId t, value.status.getD r.status = .active →
    t.Publishable (value.categoryId.getD r.categoryId) [value.imageAssetId.getD r.imageAssetId] ∧
      ∀ itemId ∈ (value.items.map fun items => items.map (·.itemId)).getD (CatalogTables.componentIds comboId t.comboItems),
        t.ItemActive itemId
  | _ => True

/-- Nothing active needs what the call leaves inactive. An absent status of a category is `draft`. -/
def Releases (q : CatalogRequest) (t : CatalogTables) : Prop :=
  match q with
  | updateCategory categoryId _ value => value.status ≠ some .active → t.Vacant categoryId
  | archiveCategory categoryId _ _ => t.Vacant categoryId
  | updateItem itemId _ value => ∀ r ∈ findItem itemId t, value.status.getD r.status ≠ .active → t.Unused itemId
  | archiveItem itemId _ => t.Unused itemId
  | _ => True

end CatalogRequest

/-! ## Tables -/

section Tables
variable {t : CatalogTables}

namespace CatalogTables

theorem categoryActive_overwrite {r row : CategoryRow} (hr : r ∈ t.categories) (hk : row.id = r.id) {id : Id} :
    ({ t with categories := Table.updateWhere (·.id = r.id) (fun _ => row) t.categories } : CatalogTables).CategoryActive id ↔
      if id = r.id then row.status = .active else t.CategoryActive id := by
  unfold CategoryActive findCategory
  rw [Table.lookup_overwrite hr hk]
  split
  · simp
  · exact Iff.rfl

theorem itemActive_overwrite {r row : ItemRow} {links : List ItemAddonGroupRow} (hr : r ∈ t.items) (hk : row.id = r.id)
    {id : Id} : ({ t with
        items := Table.updateWhere (·.id = r.id) (fun _ => row) t.items
        itemAddonGroups := links } : CatalogTables).ItemActive id ↔
      if id = r.id then row.status = .active else t.ItemActive id := by
  unfold ItemActive findItem
  rw [Table.lookup_overwrite hr hk]
  split
  · simp
  · exact Iff.rfl

/-- A category that is written stays publishable to what belongs to it if it is active, or nothing active does. -/
theorem Published.category_iff {r row : CategoryRow} (hp : t.Published) (hr : r ∈ t.categories) (hk : row.id = r.id) :
    ({ t with categories := Table.updateWhere (·.id = r.id) (fun _ => row) t.categories } : CatalogTables).Published ↔
      (row.status ≠ .active → t.Vacant r.id) := by
  constructor
  · intro hp' hinactive
    refine ⟨fun x hx hid hactive => ?_, fun x hx hid hactive => ?_⟩
    · have hcategory := (hp'.items x hx hactive).1
      rw [categoryActive_overwrite hr hk, if_pos hid] at hcategory
      exact hinactive hcategory
    · have hcategory := (hp'.combos x hx hactive).1.1
      rw [categoryActive_overwrite hr hk, if_pos hid] at hcategory
      exact hinactive hcategory
  · intro hvacant
    refine ⟨fun x hx hactive => ?_, fun x hx hactive => ?_⟩
    · obtain ⟨hcategory, hmedia⟩ := hp.items x hx hactive
      refine ⟨(categoryActive_overwrite hr hk).2 ?_, hmedia⟩
      split
      · next hid =>
        by_contra hinactive
        exact (hvacant hinactive).1 x hx hid hactive
      · exact hcategory
    · obtain ⟨⟨hcategory, hmedia⟩, hitems⟩ := hp.combos x hx hactive
      refine ⟨⟨(categoryActive_overwrite hr hk).2 ?_, hmedia⟩, hitems⟩
      split
      · next hid =>
        by_contra hinactive
        exact (hvacant hinactive).2 x hx hid hactive
      · exact hcategory

theorem Published.addCategory {row : CategoryRow} (hp : t.Published) :
    ({ t with categories := t.categories ++ [row] } : CatalogTables).Published := by
  have hkept {id : Id} : t.CategoryActive id →
      ({ t with categories := t.categories ++ [row] } : CatalogTables).CategoryActive id := by
    rintro ⟨r, hr, hactive⟩
    exact ⟨r, Table.lookup_append_of_some hr row, hactive⟩
  refine ⟨fun x hx hactive => ?_, fun x hx hactive => ?_⟩
  · obtain ⟨hcategory, hmedia⟩ := hp.items x hx hactive
    exact ⟨hkept hcategory, hmedia⟩
  · obtain ⟨⟨hcategory, hmedia⟩, hitems⟩ := hp.combos x hx hactive
    exact ⟨⟨hkept hcategory, hmedia⟩, hitems⟩

/-- An item that is written needs what it needs, and is active if an active combo needs it. -/
theorem Published.item_iff {r row : ItemRow} {links : List ItemAddonGroupRow} (hp : t.Published) (hr : r ∈ t.items)
    (hk : row.id = r.id) : ({ t with
        items := Table.updateWhere (·.id = r.id) (fun _ => row) t.items
        itemAddonGroups := links } : CatalogTables).Published ↔
      (row.status = .active → t.Publishable row.categoryId [row.imageAssetId, row.videoAssetId]) ∧
        (row.status ≠ .active → t.Unused r.id) := by
  have hitems : (∀ x ∈ Table.updateWhere (·.id = r.id) (fun _ => row) t.items, x.status = .active →
      t.Publishable x.categoryId [x.imageAssetId, x.videoAssetId]) ↔ _ :=
    Table.forall_overwrite hr (by simp) hp.items
  constructor
  · intro hp'
    refine ⟨hitems.1 hp'.items, fun hinactive x hx hused hactive => ?_⟩
    have hitem := (hp'.combos x hx hactive).2 r.id hused
    rw [itemActive_overwrite hr hk, if_pos rfl] at hitem
    exact hinactive hitem
  · rintro ⟨hrow, hunused⟩
    refine ⟨hitems.2 hrow, fun x hx hactive => ?_⟩
    obtain ⟨hpublishable, hcomponents⟩ := hp.combos x hx hactive
    refine ⟨hpublishable, fun id hid => (itemActive_overwrite hr hk).2 ?_⟩
    split
    · next heq =>
      by_contra hinactive
      exact hunused hinactive x hx (heq ▸ hid) hactive
    · exact hcomponents id hid

theorem Published.addItem_iff {row : ItemRow} {links : List ItemAddonGroupRow} (hp : t.Published) :
    ({ t with items := t.items ++ [row], itemAddonGroups := links } : CatalogTables).Published ↔
      (row.status = .active → t.Publishable row.categoryId [row.imageAssetId, row.videoAssetId]) := by
  constructor
  · intro hp'
    exact hp'.items row (by simp)
  · intro hrow
    refine ⟨fun x hx => ?_, fun x hx hactive => ?_⟩
    · rcases List.mem_append.1 hx with hx | hx
      · exact hp.items x hx
      · rw [List.mem_singleton.1 hx]
        exact hrow
    · obtain ⟨hpublishable, hcomponents⟩ := hp.combos x hx hactive
      refine ⟨hpublishable, fun id hid => ?_⟩
      obtain ⟨i, hi, hiactive⟩ := hcomponents id hid
      exact ⟨i, Table.lookup_append_of_some hi row, hiactive⟩

/-- A combo that is written needs what it needs. Nothing needs a combo. -/
theorem Published.combo_iff {r row : ComboRow} {lines : List ComboItemRow} (hp : t.Published) (hr : r ∈ t.combos)
    (hk : row.id = r.id) (hlines : ∀ id ≠ r.id, componentIds id lines = componentIds id t.comboItems) :
    ({ t with
        combos := Table.updateWhere (·.id = r.id) (fun _ => row) t.combos
        comboItems := lines } : CatalogTables).Published ↔
      (row.status = .active → t.Publishable row.categoryId [row.imageAssetId] ∧
        ∀ itemId ∈ componentIds r.id lines, t.ItemActive itemId) := by
  constructor
  · intro hp'
    rw [← hk]
    exact hp'.combos row (Table.mem_updateWhere_of (f := fun _ => row) hr (by simp))
  · intro hrow
    refine ⟨hp.items, fun x hx hactive => ?_⟩
    rcases Table.mem_updateWhere_cases hx with ⟨hx, hne⟩ | ⟨_, -, -, rfl⟩
    · obtain ⟨hpublishable, hcomponents⟩ := hp.combos x hx hactive
      rw [← hlines x.id (of_decide_eq_false hne)] at hcomponents
      exact ⟨hpublishable, hcomponents⟩
    · rw [← hk] at hrow
      exact hrow hactive

theorem Published.addCombo_iff {row : ComboRow} {lines : List ComboItemRow} (hp : t.Published)
    (hfresh : ∀ r ∈ t.combos, r.id ≠ row.id)
    (hlines : ∀ id ≠ row.id, componentIds id lines = componentIds id t.comboItems) :
    ({ t with combos := t.combos ++ [row], comboItems := lines } : CatalogTables).Published ↔
      (row.status = .active → t.Publishable row.categoryId [row.imageAssetId] ∧
        ∀ itemId ∈ componentIds row.id lines, t.ItemActive itemId) := by
  constructor
  · intro hp'
    exact hp'.combos row (by simp)
  · intro hrow
    refine ⟨hp.items, fun x hx hactive => ?_⟩
    rcases List.mem_append.1 hx with hx | hx
    · obtain ⟨hpublishable, hcomponents⟩ := hp.combos x hx hactive
      rw [← hlines x.id (hfresh x hx)] at hcomponents
      exact ⟨hpublishable, hcomponents⟩
    · obtain rfl := List.mem_singleton.1 hx
      exact hrow hactive

/-! The lines that a call leaves of each combo. -/

theorem componentIds_append (id : Id) (lines lines' : List ComboItemRow) :
    componentIds id (lines ++ lines') = componentIds id lines ++ componentIds id lines' := by
  simp [componentIds]

theorem componentIds_comboItemRows (id comboId : Id) (items : List ComboItemInput) :
    componentIds id (comboItemRows comboId items) = if id = comboId then items.map (·.itemId) else [] := by
  unfold componentIds comboItemRows
  rw [List.filter_map, List.map_map]
  split
  · next heq =>
    subst heq
    simp [Function.comp_def]
  · next hne => simp [Function.comp_def, Ne.symm hne]

theorem componentIds_filter_ne (id comboId : Id) (lines : List ComboItemRow) :
    componentIds id (lines.filter (·.comboId ≠ comboId)) = if id = comboId then [] else componentIds id lines := by
  unfold componentIds
  rw [List.filter_filter]
  split
  · next heq =>
    subst heq
    simp
  · next hne =>
    congr 1
    refine List.filter_congr fun line _ => ?_
    by_cases hline : line.comboId = id
    · simp [hline, hne]
    · simp [hline]

/-- The lines of a combo are replaced, or stay; those of the others stay. -/
theorem componentIds_replaced (id comboId : Id) (items : Option (List ComboItemInput)) (lines : List ComboItemRow) :
    componentIds id ((items.map fun items =>
        lines.filter (·.comboId ≠ comboId) ++ comboItemRows comboId items).getD lines) =
      if id = comboId then (items.map fun items => items.map (·.itemId)).getD (componentIds comboId lines)
      else componentIds id lines := by
  cases items with
  | none =>
    split
    · next heq => rw [heq]; rfl
    · rfl
  | some items =>
    rw [Option.map_some, Option.getD_some, componentIds_append, componentIds_filter_ne, componentIds_comboItemRows]
    split
    · simp
    · simp

end CatalogTables
end Tables

/-! ## Calls -/

section Calls
variable {locale : Locale} {v s s' : Shop}

theorem ComboUpdated.owned {comboId : Id} {version : Nat} {value input : ComboPatch} {before r row : ComboRow}
    {category : CategoryRow} (ho : s.catalog.Owned)
    (h : CatalogService.ComboUpdated locale comboId version value input v s before category r row s') :
    s'.catalog.Owned := by
  obtain ⟨hmem, rfl, -⟩ := Table.find?_versioned h.current
  have hids : (Table.updateWhere (·.id = r.id) (fun _ => row) s.catalog.combos).map (·.id) =
    s.catalog.combos.map (·.id) :=
    Table.map_updateWhere fun x hx => by
      rw [of_decide_eq_true hx, h.written]
      rfl
  rw [h.catalog]
  intro line hline
  show line.comboId ∈ (Table.updateWhere _ _ _).map _
  rw [hids]
  cases hitems : input.items with
  | none =>
    rw [hitems] at hline
    exact ho line hline
  | some items =>
    rw [hitems] at hline
    rcases List.mem_append.1 hline with hline | hline
    · exact ho line (List.mem_filter.1 hline).1
    · obtain ⟨item, -, rfl⟩ := List.mem_map.1 hline
      exact List.mem_map_of_mem hmem

theorem CatalogTables.Written.owned {t t' : CatalogTables} {kind : CatalogKind} (h : t.Written kind t')
    (hkind : kind ≠ .combo) (ho : t.Owned) : t'.Owned := by
  cases h with
  | combos rows lines => exact absurd rfl hkind
  | _ => exact ho

theorem CatalogTables.Written.published {t t' : CatalogTables} {kind : CatalogKind} (h : t.Written kind t')
    (hkind : kind = .addonGroup) (hp : t.Published) : t'.Published := by
  cases h with
  | addonGroups rows options => exact ⟨hp.items, hp.combos⟩
  | _ => cases hkind

/-- Lines belong to combos, whatever the call. -/
theorem run_owned {q : CatalogRequest} {a : CatalogAnswer} (ho : s.catalog.Owned)
    (h : Commits (q.run locale) v s a s') :
    s'.catalog.Owned := by
  cases q with
  | createCombo value newId =>
    obtain ⟨row, h, -⟩ := commits_map.1 h
    obtain ⟨input, category, -, -, -, hrow, -, hcatalog⟩ := CatalogService.createCombo_cases h
    rw [hcatalog]
    intro line hline
    show line.comboId ∈ (s.catalog.combos ++ [row]).map _
    rw [List.map_append]
    rcases List.mem_append.1 hline with hline | hline
    · exact List.mem_append_left _ (ho line hline)
    · obtain ⟨item, -, rfl⟩ := List.mem_map.1 hline
      rw [hrow]
      exact List.mem_append_right _ List.mem_cons_self
  | updateCombo comboId version value =>
    obtain ⟨row, h, -⟩ := commits_map.1 h
    obtain ⟨input, before, category, r, hu⟩ := CatalogService.updateCombo_cases h
    exact ComboUpdated.owned ho hu
  | archiveCombo comboId version =>
    obtain ⟨row, h, -⟩ := commits_map.1 h
    obtain ⟨input, before, category, r, hu⟩ := CatalogService.archiveCombo_cases h
    exact ComboUpdated.owned ho hu
  | _ => exact (CatalogRequest.run_written h).owned (by simp [CatalogRequest.kind]) ho

theorem ItemUpdated.published_iff {itemId : Id} {version : Nat} {value input : CatalogItemPatch}
    {before r row : ItemRow}
    {category : CategoryRow} {barcode : Option String} (hp : s.catalog.Published)
    (h : CatalogService.ItemUpdated locale itemId version value input v s before category barcode r row s') :
    s'.catalog.Published ↔
      (value.status.getD r.status = .active → s.catalog.Publishable (value.categoryId.getD r.categoryId)
        [value.imageAssetId.getD r.imageAssetId, value.videoAssetId.getD r.videoAssetId]) ∧
      (value.status.getD r.status ≠ .active → s.catalog.Unused itemId) := by
  obtain ⟨hmem, rfl, -⟩ := Table.find?_versioned h.current
  obtain rfl := parsed_ok h.accepted
  rw [h.catalog, hp.item_iff hmem (by rw [h.written]; rfl), h.written]
  exact Iff.rfl

/-- The schema leaves the items of the lines as they are. -/
theorem comboItemIds_parsed (items : Option (List ComboItemInput)) :
    ((items.map (·.map comboItemInputSchema)).map fun items => items.map (·.itemId)) =
      items.map fun items => items.map (·.itemId) := by
  rw [Option.map_map]
  congr 1
  funext items
  simp [Function.comp_def, comboItemInputSchema]

theorem ComboUpdated.published_iff {comboId : Id} {version : Nat} {value input : ComboPatch} {before r row : ComboRow}
    {category : CategoryRow} (hp : s.catalog.Published)
    (h : CatalogService.ComboUpdated locale comboId version value input v s before category r row s') :
    s'.catalog.Published ↔ (value.status.getD r.status = .active →
      s.catalog.Publishable (value.categoryId.getD r.categoryId) [value.imageAssetId.getD r.imageAssetId] ∧
      ∀ itemId ∈ (value.items.map fun items => items.map (·.itemId)).getD
        (CatalogTables.componentIds comboId s.catalog.comboItems), s.catalog.ItemActive itemId) := by
  obtain ⟨hmem, rfl, -⟩ := Table.find?_versioned h.current
  obtain rfl := parsed_ok h.accepted
  rw [h.catalog, hp.combo_iff hmem (by rw [h.written]; rfl), h.written, CatalogTables.componentIds_replaced, if_pos rfl,
    comboItemIds_parsed]
  · exact Iff.rfl
  · intro id hne
    rw [CatalogTables.componentIds_replaced, if_neg hne]

/-- What is published stays so exactly when what a call leaves active may be, and nothing active needs what it leaves
inactive. -/
theorem run_published_iff {q : CatalogRequest} {a : CatalogAnswer} (hkeys : s.catalog.Keyed) (ho : s.catalog.Owned)
    (hp : s.catalog.Published) (h : Commits (q.run locale) v s a s') :
    s'.catalog.Published ↔ q.Publishes s.catalog ∧ q.Releases s.catalog := by
  cases q with
  | createCategory value newId =>
    obtain ⟨row, h, -⟩ := commits_map.1 h
    obtain ⟨input, -, -, -, hcatalog⟩ := CatalogService.createCategory_cases h
    rw [hcatalog]
    exact iff_of_true hp.addCategory ⟨trivial, trivial⟩
  | updateCategory categoryId version value =>
    obtain ⟨row, h, -⟩ := commits_map.1 h
    obtain ⟨input, r, haccepted, hcurrent, hrow, -, hcatalog⟩ := CatalogService.updateCategory_cases h
    obtain ⟨hmem, rfl, -⟩ := Table.find?_versioned hcurrent
    obtain rfl := parsed_ok haccepted
    have hactive : row.status = .active ↔ value.status = some .active := by
      rw [hrow]
      exact defaulted_eq r.status (by decide)
    rw [hcatalog, hp.category_iff hmem (by rw [hrow]; rfl), ne_eq, hactive]
    exact ⟨fun hvacant => ⟨trivial, hvacant⟩, And.right⟩
  | archiveCategory categoryId version now =>
    obtain ⟨row, h, -⟩ := commits_map.1 h
    obtain ⟨r, -, hcurrent, hrow, hcatalog⟩ := CatalogService.archiveCategory_cases h
    obtain ⟨hmem, rfl, -⟩ := Table.find?_versioned hcurrent
    have hinactive : row.status ≠ .active := by
      simp [hrow]
    rw [hcatalog, hp.category_iff hmem (by rw [hrow])]
    exact ⟨fun hvacant => ⟨trivial, hvacant hinactive⟩, fun hreleases _ => hreleases.2⟩
  | createItem value newId =>
    obtain ⟨row, h, -⟩ := commits_map.1 h
    obtain ⟨input, category, barcode, haccepted, -, -, -, hrow, -, hcatalog⟩ := CatalogService.createItem_cases h
    obtain rfl := parsed_ok haccepted
    have hactive : row.status = .active ↔ value.status = some .active := by
      rw [hrow]
      exact defaulted_eq .draft (by decide)
    rw [hcatalog, hp.addItem_iff, hactive, hrow]
    exact ⟨fun hpublishable => ⟨hpublishable, trivial⟩, And.left⟩
  | updateItem itemId version value =>
    obtain ⟨row, h, -⟩ := commits_map.1 h
    obtain ⟨input, before, category, barcode, r, hu⟩ := CatalogService.updateItem_cases h
    obtain ⟨hmem, hid, -⟩ := Table.find?_versioned hu.current
    have hread : findItem itemId s.catalog = some r := hid ▸ hkeys.items.lookup hmem
    rw [ItemUpdated.published_iff hp hu]
    simp [CatalogRequest.Publishes, CatalogRequest.Releases, hread]
  | archiveItem itemId version =>
    obtain ⟨row, h, -⟩ := commits_map.1 h
    obtain ⟨input, before, category, barcode, r, hu⟩ := CatalogService.archiveItem_cases h
    rw [ItemUpdated.published_iff hp hu]
    simp [CatalogRequest.Publishes, CatalogRequest.Releases]
  | createAddonGroup value newId optionIds =>
    exact iff_of_true ((CatalogRequest.run_written h).published rfl hp) ⟨trivial, trivial⟩
  | updateAddonGroup groupId version value optionIds =>
    exact iff_of_true ((CatalogRequest.run_written h).published rfl hp) ⟨trivial, trivial⟩
  | archiveAddonGroup groupId version =>
    exact iff_of_true ((CatalogRequest.run_written h).published rfl hp) ⟨trivial, trivial⟩
  | createCombo value newId =>
    obtain ⟨row, h, -⟩ := commits_map.1 h
    obtain ⟨input, category, haccepted, -, -, hrow, hconstraints, hcatalog⟩ := CatalogService.createCombo_cases h
    obtain rfl := parsed_ok haccepted
    have hfresh := comboConstraints_hold hconstraints
    have hid : row.id = newId := by rw [hrow]; rfl
    have hactive : row.status = .active ↔ value.status = some .active := by
      rw [hrow]
      exact defaulted_eq .draft (by decide)
    -- no line has been left under the id that is drawn
    have hnone : CatalogTables.componentIds newId s.catalog.comboItems = [] := by
      refine List.map_eq_nil_iff.2 (List.filter_eq_nil_iff.2 fun line hline => ?_)
      obtain ⟨r, hr, hline⟩ := List.mem_map.1 (ho line hline)
      rw [← hline, ← hid]
      simpa using hfresh r hr
    rw [hcatalog, hp.addCombo_iff hfresh, hactive, hid, CatalogTables.componentIds_append, hnone,
      CatalogTables.componentIds_comboItemRows, if_pos rfl, hrow]
    · simp [CatalogRequest.Publishes, CatalogRequest.Releases, CatalogService.newCombo, comboItemInputSchema]
    · intro id hne
      rw [CatalogTables.componentIds_append, CatalogTables.componentIds_comboItemRows, if_neg (hid ▸ hne),
        List.append_nil]
  | updateCombo comboId version value =>
    obtain ⟨row, h, -⟩ := commits_map.1 h
    obtain ⟨input, before, category, r, hu⟩ := CatalogService.updateCombo_cases h
    obtain ⟨hmem, hid, -⟩ := Table.find?_versioned hu.current
    have hread : findCombo comboId s.catalog = some r := hid ▸ hkeys.combos.lookup hmem
    rw [ComboUpdated.published_iff hp hu]
    simp [CatalogRequest.Publishes, CatalogRequest.Releases, hread]
  | archiveCombo comboId version =>
    obtain ⟨row, h, -⟩ := commits_map.1 h
    obtain ⟨input, before, category, r, hu⟩ := CatalogService.archiveCombo_cases h
    rw [ComboUpdated.published_iff hp hu]
    simp [CatalogRequest.Publishes, CatalogRequest.Releases]

/-! A call that runs alone has checked what it publishes on the tables that it writes. -/

theorem assertPublishableItem_ok {category : CategoryStatus} {media : Option MediaStatus}
    (h : assertPublishableItem category media = .ok ()) : category = .active ∧ ∀ status ∈ media, status = .ready := by
  unfold assertPublishableItem at h
  split at h
  · cases h
  · next hactive =>
    split at h
    · cases h
    · next hready =>
      refine ⟨not_not.1 hactive, fun status hstatus => ?_⟩
      rw [hstatus] at hready
      simpa using hready

theorem publishable_of_checked {t : CatalogTables} {categoryId : Id} {assetId : Option Id} {category : CategoryRow}
    (hplaced : findCategory categoryId t = some category)
    (h : assertPublishableItem category.status ((findMedia assetId t).map (·.status)) = .ok ()) :
    t.Publishable categoryId [assetId] := by
  obtain ⟨hactive, hready⟩ := assertPublishableItem_ok h
  refine ⟨⟨category, hplaced, hactive⟩, fun id hid r hr => ?_⟩
  rw [List.mem_singleton.1 hid] at hr
  exact hready r.status (by rw [hr]; rfl)

theorem publishable_of_both {t : CatalogTables} {categoryId : Id} {imageId videoId : Option Id} {category : CategoryRow}
    (hplaced : findCategory categoryId t = some category)
    (h : CatalogService.assertPublishable category (findMedia imageId t) (findMedia videoId t) = .ok ()) :
    t.Publishable categoryId [imageId, videoId] := by
  obtain ⟨_, himage, hvideo⟩ := except_bind_eq_ok.1 h
  obtain ⟨hactive, hready⟩ := publishable_of_checked hplaced himage
  refine ⟨hactive, fun id hid r hr => ?_⟩
  rcases List.mem_cons.1 hid with rfl | hid
  · exact hready _ (List.mem_singleton_self _) r hr
  · obtain rfl := List.mem_singleton.1 hid
    rw [hr] at hvideo
    exact (assertPublishableItem_ok hvideo).2 r.status rfl

theorem itemActive_of_statusOf {t : CatalogTables} {ids : List Id} {itemId : Id} (hkeys : t.Keyed)
    (h : CatalogService.statusOf (findItems ids t) itemId = .active) : t.ItemActive itemId := by
  unfold CatalogService.statusOf at h
  cases hr : Table.lookup ItemRow.id itemId (findItems ids t) with
  | none =>
    rw [hr] at h
    cases h
  | some r =>
    rw [hr] at h
    have hmem : r ∈ t.items := (List.mem_filter.1 (Table.lookup_mem hr)).1
    have hread := hkeys.items.lookup hmem
    rw [Table.lookup_key hr] at hread
    exact ⟨r, hread, h⟩

theorem assertPublishableCombo_ok {category : CategoryStatus} {media : Option MediaStatus}
    {lines : List (CatalogStatus × Nat)} (h : assertPublishableCombo category media lines = .ok ()) :
    assertPublishableItem category media = .ok () ∧ ∀ line ∈ lines, line.1 = .active := by
  obtain ⟨_, hitem, hlines⟩ := except_bind_eq_ok.1 h
  refine ⟨hitem, fun line hline => ?_⟩
  split at hlines
  · cases hlines
  · next hall =>
    simp only [Bool.or_eq_true, List.any_eq_true, not_or, not_exists, not_and, decide_eq_true_eq, ne_eq,
      not_not] at hall
    exact (hall.2 line hline).1

theorem itemActive_of_effectiveLines {t : CatalogTables} {comboId itemId : Id} {items : Option (List ComboItemInput)}
    (hkeys : t.Keyed) (h : ∀ line ∈ CatalogService.effectiveLines comboId items t, line.1 = .active)
    (hid : itemId ∈ (items.map fun items => items.map (·.itemId)).getD (CatalogTables.componentIds comboId t.comboItems)) :
    t.ItemActive itemId := by
  unfold CatalogService.effectiveLines at h
  cases items with
  | none =>
    obtain ⟨line, hline, rfl⟩ := List.mem_map.1 hid
    have hfound : line ∈ findComboItems comboId t := (List.mem_insertionSort _).2 hline
    exact itemActive_of_statusOf hkeys (h _ (List.mem_map.2 ⟨_, List.mem_map.2 ⟨line, hfound, rfl⟩, rfl⟩))
  | some items =>
    obtain ⟨line, hline, rfl⟩ := List.mem_map.1 hid
    exact itemActive_of_statusOf hkeys (h _ (List.mem_map.2 ⟨_, List.mem_map.2 ⟨line, hline, rfl⟩, rfl⟩))

theorem CatalogRequest.publishes_alone {q : CatalogRequest} {a : CatalogAnswer} (hkeys : s.catalog.Keyed)
    (h : CommitsAlone (q.run locale) s a s') : q.Publishes s.catalog := by
  cases q with
  | createItem value newId =>
    obtain ⟨row, h, -⟩ := commits_map.1 h
    obtain ⟨input, category, barcode, haccepted, hplaced, hpublishable, -⟩ := CatalogService.createItem_cases h
    obtain rfl := parsed_ok haccepted
    intro hactive
    exact publishable_of_both hplaced (hpublishable (by simp [hactive]))
  | updateItem itemId version value =>
    obtain ⟨row, h, -⟩ := commits_map.1 h
    obtain ⟨input, before, category, barcode, r, hu⟩ := CatalogService.updateItem_cases h
    obtain rfl := parsed_ok hu.accepted
    intro x hx hactive
    obtain rfl := Option.some.inj (hx.symm.trans hu.read)
    exact publishable_of_both hu.placed (hu.publishable hactive)
  | createCombo value newId =>
    obtain ⟨row, h, -⟩ := commits_map.1 h
    obtain ⟨input, category, haccepted, hplaced, hpublishable, -⟩ := CatalogService.createCombo_cases h
    obtain rfl := parsed_ok haccepted
    intro hactive
    obtain ⟨hitem, hlines⟩ := assertPublishableCombo_ok (hpublishable (by simp [hactive]))
    refine ⟨publishable_of_checked hplaced hitem, fun line hline => ?_⟩
    exact itemActive_of_statusOf hkeys
      (hlines _ (List.mem_map.2 ⟨_, List.mem_map.2 ⟨line, hline, rfl⟩, rfl⟩))
  | updateCombo comboId version value =>
    obtain ⟨row, h, -⟩ := commits_map.1 h
    obtain ⟨input, before, category, r, hu⟩ := CatalogService.updateCombo_cases h
    obtain rfl := parsed_ok hu.accepted
    intro x hx hactive
    obtain rfl := Option.some.inj (hx.symm.trans hu.read)
    obtain ⟨hitem, hlines⟩ := assertPublishableCombo_ok (hu.publishable hactive)
    refine ⟨publishable_of_checked hu.placed hitem, fun itemId hid => itemActive_of_effectiveLines hkeys hlines ?_⟩
    rw [comboItemIds_parsed]
    exact hid
  | createCategory value newId => trivial
  | updateCategory categoryId version value => trivial
  | archiveCategory categoryId version now => trivial
  | archiveItem itemId version => trivial
  | createAddonGroup value newId optionIds => trivial
  | updateAddonGroup groupId version value optionIds => trivial
  | archiveAddonGroup groupId version => trivial
  | archiveCombo comboId version => trivial

/-- A call that runs alone keeps what is published so exactly when nothing active needs what it leaves inactive. -/
theorem published_alone_iff {q : CatalogRequest} {a : CatalogAnswer} (hkeys : s.catalog.Keyed) (ho : s.catalog.Owned)
    (hp : s.catalog.Published) (h : CommitsAlone (q.run locale) s a s') :
    s'.catalog.Published ↔ q.Releases s.catalog := by
  rw [run_published_iff hkeys ho hp h]
  exact ⟨And.right, fun hreleases => ⟨CatalogRequest.publishes_alone hkeys h, hreleases⟩⟩

end Calls

/-! ## Runs -/

theorem stays_published_iff {locale : Locale} {shop : Shop} {es : List CatalogEvent} {s : CatalogSession}
    (hkeys : shop.catalog.Keyed) (howned : shop.catalog.Owned) (hstart : shop.catalog.Published)
    (hr : Runs.exec (catalogStep locale) ⟨shop, []⟩ es = some s) :
    Runs.Along (catalogStep locale) (fun s e => ∀ s' ∈ catalogStep locale s e, s'.db.catalog.Published) ⟨shop, []⟩ es ↔
    Runs.Along (catalogStep locale)
      (ReadCommitted.AtCommit fun q _ s => q.Publishes s.catalog ∧ q.Releases s.catalog) ⟨shop, []⟩ es := by
  refine ReadCommitted.along_law_iff (I := fun s : Shop => s.catalog.Keyed ∧ s.catalog.Owned)
    (L := fun s => s.catalog.Published) ?_ ?_ ⟨hkeys, howned⟩ hstart hr
  · rintro q v s a s' ⟨hk, ho⟩ hx
    exact ⟨CatalogRequest.run_keyed hk (toOption_eq.1 hx), run_owned ho (toOption_eq.1 hx)⟩
  · rintro q v s a s' ⟨hk, ho⟩ hl hx
    exact run_published_iff hk ho hl (toOption_eq.1 hx)

namespace Demo

theorem kitchen_published : kitchen.catalog.Published := by
  refine ⟨fun r hr _ => ?_, fun r hr => absurd hr List.not_mem_nil⟩
  obtain rfl := List.mem_singleton.1 hr
  refine ⟨⟨_, rfl, rfl⟩, fun id hid m hm => ?_⟩
  cases id with
  | none => cases hm
  | some id => cases hm

end Demo

open Demo

theorem stays_published_renaming : ∃ s, Runs.exec (catalogStep plain) ⟨kitchen, []⟩
      [.start renameOnly, .commit 0] = some s ∧
    (Runs.Along (catalogStep plain) (fun s e => ∀ s' ∈ catalogStep plain s e, s'.db.catalog.Published) ⟨kitchen, []⟩
        [.start renameOnly, .commit 0] ↔
      Runs.Along (catalogStep plain)
        (ReadCommitted.AtCommit fun q _ s => q.Publishes s.catalog ∧ q.Releases s.catalog) ⟨kitchen, []⟩
        [.start renameOnly, .commit 0]) := by
  have hruns : (Runs.exec (catalogStep plain) ⟨kitchen, []⟩ [.start renameOnly, .commit 0]).isSome = true := by
    decide +kernel
  obtain ⟨s, hr⟩ := Option.isSome_iff_exists.1 hruns
  exact ⟨s, hr, stays_published_iff kitchen_keyed (fun line hline => absurd hline List.not_mem_nil) kitchen_published hr⟩

/-- The category of an active burger goes back to being a draft. -/
theorem drafted_category_keeps_burger : ¬ ∀ (locale : Locale) (shop : Shop) (es : List CatalogEvent)
    (s : CatalogSession),
    shop.catalog.Keyed → shop.catalog.Owned → shop.catalog.Published →
    Runs.exec (catalogStep locale) ⟨shop, []⟩ es = some s → s.db.catalog.Published := by
  intro hlaw
  have hrows : ((Runs.exec (catalogStep plain) ⟨kitchen, []⟩
      [.start (.updateCategory "food" 1 { status := some .draft }), .commit 0]).map fun s =>
        (s.db.catalog.items, s.db.catalog.categories.map fun r => (r.id, r.status))) =
      some (kitchen.catalog.items, [("food", .draft)]) := by decide +kernel
  obtain ⟨s, hr, hend⟩ := Option.map_eq_some_iff.1 hrows
  rw [Prod.mk.injEq] at hend
  obtain ⟨hitems, hcategories⟩ := hend
  have hp := hlaw plain kitchen _ s kitchen_keyed (fun line hline => absurd hline List.not_mem_nil) kitchen_published hr
  have hburger := hp.items
  rw [hitems] at hburger
  obtain ⟨⟨category, hcategory, hactive⟩, -⟩ := hburger _ List.mem_cons_self rfl
  have hrow : (category.id, category.status) ∈ [(("food" : Id), CategoryStatus.draft)] :=
    hcategories ▸ List.mem_map.2 ⟨category, Table.lookup_mem hcategory, rfl⟩
  rw [List.mem_singleton, Prod.mk.injEq, hactive] at hrow
  exact absurd hrow.2 (by decide)

end Komanda
