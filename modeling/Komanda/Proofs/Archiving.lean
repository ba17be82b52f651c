import Komanda.Proofs.CatalogPatches

/-!
# Archived rows

A row is archived by its status, and the unique indexes and the lookups by code go by `archivedAt`. No call on items,
combos or add-on groups ever sets that, so the two agree along a run exactly as long as no row is archived or
unarchived.
-/

namespace Komanda
open Transaction CatalogRepository

/-- The status says `archived` where `archivedAt` is set, and nowhere else. -/
structure CatalogTables.Marked (t : CatalogTables) : Prop where
  items : ∀ r ∈ t.items, r.status = .archived ↔ r.archivedAt.isSome
  addonGroups : ∀ r ∈ t.addonGroups, r.status = .archived ↔ r.archivedAt.isSome
  combos : ∀ r ∈ t.combos, r.status = .archived ↔ r.archivedAt.isSome

/-- What follows of archived items: they are not found, and their names and codes are free. -/
structure ArchivesCompletely (t : CatalogTables) : Prop where
  marked : t.Marked
  unlisted : ∀ r ∈ t.items.filter (·.archivedAt.isNone), r.status ≠ .archived
  unscanned : ∀ barcode, ∀ r ∈ findItemByBarcode barcode t, r.status ≠ .archived
  unweighed : ∀ pluCode, ∀ r ∈ findWeightedItemByPlu pluCode t, r.status ≠ .archived
  nameFree : ∀ row : ItemRow, (∀ r ∈ t.items, r.normalizedName = row.normalizedName → r.status = .archived) →
    ("catalog_items_tenant_name_active_uidx", true) ∈ itemConstraints row t.items
  barcodeFree : ∀ row : ItemRow, (∀ r ∈ t.items, r.barcode = row.barcode → r.status = .archived) →
    ("catalog_items_tenant_barcode_uidx", true) ∈ itemConstraints row t.items

/-- A status that is written is `archived` when the one that is stored is. -/
def CatalogRequest.KeepsArchived (q : CatalogRequest) (t : CatalogTables) : Prop :=
  match q with
  | updateItem itemId _ value =>
    ∀ r ∈ findItem itemId t, ∀ status ∈ value.status, status = .archived ↔ r.status = .archived
  | archiveItem itemId _ => ∀ r ∈ findItem itemId t, r.status = .archived
  | updateAddonGroup groupId _ value _ =>
    ∀ r ∈ findAddonGroup groupId t, ∀ status ∈ value.status, status = .archived ↔ r.status = .archived
  | archiveAddonGroup groupId _ => ∀ r ∈ findAddonGroup groupId t, r.status = .archived
  | updateCombo comboId _ value =>
    ∀ r ∈ findCombo comboId t, ∀ status ∈ value.status, status = .archived ↔ r.status = .archived
  | archiveCombo comboId _ => ∀ r ∈ findCombo comboId t, r.status = .archived
  | _ => True

theorem CatalogTables.Marked.complete {t : CatalogTables} (h : t.Marked) : ArchivesCompletely t := by
  have hnone {r : ItemRow} (hr : r ∈ t.items) (ha : r.archivedAt.isNone = true) : r.status ≠ .archived := by
    rw [ne_eq, h.items r hr, Option.not_isSome_iff_eq_none]
    exact Option.isNone_iff_eq_none.1 ha
  refine ⟨h, fun r hr => ?_, fun barcode r hr => ?_, fun pluCode r hr => ?_, fun row hrow => ?_, fun row hrow => ?_⟩
  · exact hnone (List.mem_filter.1 hr).1 (List.mem_filter.1 hr).2
  · have hmatch := List.find?_some hr
    simp only [Bool.and_eq_true] at hmatch
    exact hnone (List.mem_of_find?_eq_some hr) hmatch.2
  · have hmatch := List.find?_some hr
    simp only [Bool.and_eq_true] at hmatch
    exact hnone (List.mem_of_find?_eq_some hr) hmatch.2
  · have hfree : (row.archivedAt.isSome ||
        t.items.all fun r => r.archivedAt.isSome || r.normalizedName ≠ row.normalizedName) = true := by
      rw [Bool.or_eq_true, List.all_eq_true]
      refine .inr fun r hr => ?_
      by_cases hname : r.normalizedName = row.normalizedName
      · simp [(h.items r hr).1 (hrow r hr hname)]
      · simp [hname]
    simp [itemConstraints, ← hfree]
  · have hfree : (row.archivedAt.isSome || row.barcode.isNone ||
        t.items.all fun r => r.archivedAt.isSome || r.barcode ≠ row.barcode) = true := by
      rw [Bool.or_eq_true, List.all_eq_true]
      refine .inr fun r hr => ?_
      by_cases hcode : r.barcode = row.barcode
      · simp [(h.items r hr).1 (hrow r hr hcode)]
      · simp [hcode]
    simp [itemConstraints, ← hfree]

/-! ## Calls -/

section Calls
variable {locale : Locale} {v s s' : Shop}

/-- The status that is written, under an `archivedAt` that stays. -/
theorem marked_getD {α : Type} [DecidableEq α] {named : Option α} {archived status : α} {archivedAt : Option Instant}
    (h : status = archived ↔ archivedAt.isSome) : (named.getD status = archived ↔ archivedAt.isSome) ↔
      ∀ written ∈ named, (written = archived ↔ status = archived) := by
  rw [← h]
  cases named with
  | none => simp
  | some written => simp

theorem ItemUpdated.marked_iff {itemId : Id} {version : Nat} {value input : CatalogItemPatch} {before r row : ItemRow}
    {category : CategoryRow} {barcode : Option String} (hkeys : s.catalog.Keyed) (hm : s.catalog.Marked)
    (h : CatalogService.ItemUpdated locale itemId version value input v s before category barcode r row s') :
    s'.catalog.Marked ↔
      ∀ r ∈ findItem itemId s.catalog, ∀ status ∈ value.status, status = .archived ↔ r.status = .archived := by
  obtain ⟨hmem, rfl, -⟩ := Table.find?_versioned h.current
  have hrow : (row.status = .archived ↔ row.archivedAt.isSome) ↔
      ∀ status ∈ value.status, (status = .archived ↔ r.status = .archived) := by
    obtain rfl := parsed_ok h.accepted
    rw [h.written]
    exact marked_getD (hm.items r hmem)
  have hitems := hkeys.items.forall_overwrite_iff
    (C := fun r => ∀ status ∈ value.status, (status = .archived ↔ r.status = .archived)) hmem hm.items hrow
  rw [h.catalog]
  exact ⟨fun hmarked => hitems.1 hmarked.items, fun hkeeps => ⟨hitems.2 hkeeps, hm.addonGroups, hm.combos⟩⟩

theorem AddonGroupUpdated.marked_iff {groupId : Id} {version : Nat} {value input : AddonGroupPatch}
    {optionIds : List Id}
    {r row : AddonGroupRow} (hkeys : s.catalog.Keyed) (hm : s.catalog.Marked)
    (h : CatalogService.AddonGroupUpdated groupId version value input optionIds s r row s') :
    s'.catalog.Marked ↔
      ∀ r ∈ findAddonGroup groupId s.catalog, ∀ status ∈ value.status, status = .archived ↔ r.status = .archived := by
  obtain ⟨hmem, rfl, -⟩ := Table.find?_versioned h.current
  have hrow : (row.status = .archived ↔ row.archivedAt.isSome) ↔
      ∀ status ∈ value.status, (status = .archived ↔ r.status = .archived) := by
    obtain rfl := parsed_ok h.accepted
    rw [h.written]
    exact marked_getD (hm.addonGroups r hmem)
  have hgroups := hkeys.addonGroups.forall_overwrite_iff
    (C := fun r => ∀ status ∈ value.status, (status = .archived ↔ r.status = .archived)) hmem hm.addonGroups hrow
  rw [h.catalog]
  exact ⟨fun hmarked => hgroups.1 hmarked.addonGroups, fun hkeeps => ⟨hm.items, hgroups.2 hkeeps, hm.combos⟩⟩

theorem ComboUpdated.marked_iff {comboId : Id} {version : Nat} {value input : ComboPatch} {before r row : ComboRow}
    {category : CategoryRow} (hkeys : s.catalog.Keyed) (hm : s.catalog.Marked)
    (h : CatalogService.ComboUpdated locale comboId version value input v s before category r row s') :
    s'.catalog.Marked ↔
      ∀ r ∈ findCombo comboId s.catalog, ∀ status ∈ value.status, status = .archived ↔ r.status = .archived := by
  obtain ⟨hmem, rfl, -⟩ := Table.find?_versioned h.current
  have hrow : (row.status = .archived ↔ row.archivedAt.isSome) ↔
      ∀ status ∈ value.status, (status = .archived ↔ r.status = .archived) := by
    obtain rfl := parsed_ok h.accepted
    rw [h.written]
    exact marked_getD (hm.combos r hmem)
  have hcombos := hkeys.combos.forall_overwrite_iff
    (C := fun r => ∀ status ∈ value.status, (status = .archived ↔ r.status = .archived)) hmem hm.combos hrow
  rw [h.catalog]
  exact ⟨fun hmarked => hcombos.1 hmarked.combos, fun hkeeps => ⟨hm.items, hm.addonGroups, hcombos.2 hkeeps⟩⟩

theorem CatalogTables.Written.marked {t t' : CatalogTables} {kind : CatalogKind} (h : t.Written kind t')
    (hkind : kind = .category) (hm : t.Marked) : t'.Marked := by
  cases h with
  | categories rows => exact ⟨hm.items, hm.addonGroups, hm.combos⟩
  | _ => cases hkind

/-- A call keeps the two marks in step exactly when it archives nothing, and brings nothing back. -/
theorem run_marked_iff {q : CatalogRequest} {a : CatalogAnswer} (hkeys : s.catalog.Keyed) (hm : s.catalog.Marked)
    (h : Commits (q.run locale) v s a s') : s'.catalog.Marked ↔ q.KeepsArchived s.catalog := by
  cases q with
  | createCategory value newId =>
    exact iff_of_true ((CatalogRequest.run_written h).marked rfl hm) trivial
  | updateCategory categoryId version value =>
    exact iff_of_true ((CatalogRequest.run_written h).marked rfl hm) trivial
  | archiveCategory categoryId version now =>
    exact iff_of_true ((CatalogRequest.run_written h).marked rfl hm) trivial
  | createItem value newId =>
    obtain ⟨row, h, -⟩ := commits_map.1 h
    obtain ⟨input, category, barcode, haccepted, -, -, -, hrow, -, hcatalog⟩ := CatalogService.createItem_cases h
    have hstatus : row.status ≠ .archived := by
      have hvalid := parsed_checks haccepted ("status", decide (value.status ≠ some .archived)) (by simp)
      obtain rfl := parsed_ok haccepted
      rw [hrow]
      exact mt (defaulted_eq .draft (by decide)).1 (of_decide_eq_true hvalid)
    rw [hcatalog]
    refine iff_of_true ⟨fun r hr => ?_, hm.addonGroups, hm.combos⟩ trivial
    rcases List.mem_append.1 hr with hr | hr
    · exact hm.items r hr
    · rw [List.mem_singleton.1 hr]
      exact iff_of_false hstatus (by rw [hrow]; simp [CatalogService.newItem])
  | updateItem itemId version value =>
    obtain ⟨row, h, -⟩ := commits_map.1 h
    obtain ⟨input, before, category, barcode, r, hu⟩ := CatalogService.updateItem_cases h
    exact ItemUpdated.marked_iff hkeys hm hu
  | archiveItem itemId version =>
    obtain ⟨row, h, -⟩ := commits_map.1 h
    obtain ⟨input, before, category, barcode, r, hu⟩ := CatalogService.archiveItem_cases h
    rw [ItemUpdated.marked_iff hkeys hm hu]
    simp [CatalogRequest.KeepsArchived]
  | createAddonGroup value newId optionIds =>
    obtain ⟨row, h, -⟩ := commits_map.1 h
    obtain ⟨input, haccepted, hrow, -, -, hcatalog⟩ := CatalogService.createAddonGroup_cases h
    have hstatus : row.status ≠ .archived := by
      obtain ⟨rfl, hvalid, -⟩ := addonGroupInputSchema_eq haccepted
      rw [hrow]
      exact mt (defaulted_eq .draft (by decide)).1 hvalid
    rw [hcatalog]
    refine iff_of_true ⟨hm.items, fun r hr => ?_, hm.combos⟩ trivial
    rcases List.mem_append.1 hr with hr | hr
    · exact hm.addonGroups r hr
    · rw [List.mem_singleton.1 hr]
      exact iff_of_false hstatus (by rw [hrow]; simp [CatalogService.newAddonGroup])
  | updateAddonGroup groupId version value optionIds =>
    obtain ⟨row, h, -⟩ := commits_map.1 h
    obtain ⟨input, r, hu⟩ := CatalogService.updateAddonGroup_cases h
    exact AddonGroupUpdated.marked_iff hkeys hm hu
  | archiveAddonGroup groupId version =>
    obtain ⟨row, h, -⟩ := commits_map.1 h
    obtain ⟨input, r, hu⟩ := CatalogService.archiveAddonGroup_cases h
    rw [AddonGroupUpdated.marked_iff hkeys hm hu]
    simp [CatalogRequest.KeepsArchived]
  | createCombo value newId =>
    obtain ⟨row, h, -⟩ := commits_map.1 h
    obtain ⟨input, category, haccepted, -, -, hrow, -, hcatalog⟩ := CatalogService.createCombo_cases h
    have hstatus : row.status ≠ .archived := by
      have hvalid := parsed_checks haccepted ("status", decide (value.status ≠ some .archived)) (by simp)
      obtain rfl := parsed_ok haccepted
      rw [hrow]
      exact mt (defaulted_eq .draft (by decide)).1 (of_decide_eq_true hvalid)
    rw [hcatalog]
    refine iff_of_true ⟨hm.items, hm.addonGroups, fun r hr => ?_⟩ trivial
    rcases List.mem_append.1 hr with hr | hr
    · exact hm.combos r hr
    · rw [List.mem_singleton.1 hr]
      exact iff_of_false hstatus (by rw [hrow]; simp [CatalogService.newCombo])
  | updateCombo comboId version value =>
    obtain ⟨row, h, -⟩ := commits_map.1 h
    obtain ⟨input, before, category, r, hu⟩ := CatalogService.updateCombo_cases h
    exact ComboUpdated.marked_iff hkeys hm hu
  | archiveCombo comboId version =>
    obtain ⟨row, h, -⟩ := commits_map.1 h
    obtain ⟨input, before, category, r, hu⟩ := CatalogService.archiveCombo_cases h
    rw [ComboUpdated.marked_iff hkeys hm hu]
    simp [CatalogRequest.KeepsArchived]

end Calls

/-! ## Runs -/

/-- Along a run, archived rows are marked as such in both columns exactly when no call archives a row or brings one
back. -/
theorem archives_completely_iff {locale : Locale} {shop : Shop} {es : List CatalogEvent} {s : CatalogSession}
    (hkeys : shop.catalog.Keyed) (hstart : ArchivesCompletely shop.catalog)
    (hr : Runs.exec (catalogStep locale) ⟨shop, []⟩ es = some s) :
    Runs.Along (catalogStep locale) (fun s e => ∀ s' ∈ catalogStep locale s e, ArchivesCompletely s'.db.catalog)
      ⟨shop, []⟩ es ↔
    Runs.Along (catalogStep locale) (ReadCommitted.AtCommit fun q _ s => q.KeepsArchived s.catalog) ⟨shop, []⟩ es := by
  refine ReadCommitted.along_law_iff (I := fun s : Shop => s.catalog.Keyed) (L := fun s => ArchivesCompletely s.catalog)
    (fun q v s a s' hi hx => ?_) (fun q v s a s' hi hl hx => ?_) hkeys hstart hr
  · exact CatalogRequest.run_keyed hi (toOption_eq.1 hx)
  · rw [← run_marked_iff hi hl.marked (toOption_eq.1 hx)]
    exact ⟨fun h => h.marked, fun h => h.complete⟩

open Demo

theorem archives_completely_renaming : ∃ s, Runs.exec (catalogStep plain) ⟨kitchen, []⟩
      [.start renameBurger, .commit 0] = some s ∧
    (Runs.Along (catalogStep plain) (fun s e => ∀ s' ∈ catalogStep plain s e, ArchivesCompletely s'.db.catalog)
        ⟨kitchen, []⟩ [.start renameBurger, .commit 0] ↔
      Runs.Along (catalogStep plain) (ReadCommitted.AtCommit fun q _ s => q.KeepsArchived s.catalog) ⟨kitchen, []⟩
        [.start renameBurger, .commit 0]) := by
  have hruns : (Runs.exec (catalogStep plain) ⟨kitchen, []⟩ [.start renameBurger, .commit 0]).isSome = true := by
    decide +kernel
  obtain ⟨s, hr⟩ := Option.isSome_iff_exists.1 hruns
  have hmarked : kitchen.catalog.Marked := ⟨by decide, by decide, by decide⟩
  exact ⟨s, hr, archives_completely_iff kitchen_keyed hmarked.complete hr⟩

/-- An archived burger is not marked, and can still be found. -/
theorem archived_burger_unmarked : ¬ ∀ (locale : Locale) (shop : Shop) (es : List CatalogEvent) (s : CatalogSession),
    shop.catalog.Keyed → ArchivesCompletely shop.catalog →
    Runs.exec (catalogStep locale) ⟨shop, []⟩ es = some s → ArchivesCompletely s.db.catalog := by
  intro hlaw
  have hitems : ((Runs.exec (catalogStep plain) ⟨kitchen, []⟩ [.start (.archiveItem "burger" 1), .commit 0]).map fun s =>
      s.db.catalog.items.map fun r => (r.status, r.archivedAt)) = some [(.archived, none)] := by decide +kernel
  obtain ⟨s, hr, hrows⟩ := Option.map_eq_some_iff.1 hitems
  have hmarked : kitchen.catalog.Marked := ⟨by decide, by decide, by decide⟩
  have hend := (hlaw plain kitchen _ s kitchen_keyed hmarked.complete hr).marked
  obtain ⟨row, hrow, hat⟩ := List.mem_map.1 (hrows ▸ List.mem_singleton_self (CatalogStatus.archived, (none : Option Instant)))
  rw [Prod.mk.injEq] at hat
  have hset := (hend.items row hrow).1 hat.1
  rw [hat.2] at hset
  exact absurd hset (by decide)

end Komanda
