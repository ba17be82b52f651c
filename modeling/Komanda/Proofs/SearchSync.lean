import Komanda.TenantSettings

/-!
# What a synchronization leaves in the tables of the search

In a transaction of a tenant, or of a service that has taken the tenant's place, the queries of the synchronization
answer from the tenant's own rows. `Tenancy.publiclyEligible` and `Tenancy.entry` say what they come to; `showTenant`
and `recordItem` are the synchronizations as functions.
-/

namespace Komanda
open Transaction

/-! ## A tenant as the search shows it -/

namespace Tenancy

def primaryLocation (t : Tenancy) : Option LocationRow := t.locations.find? fun l => l.isPrimary && l.active

def published (t : Tenancy) : Bool := t.shop.catalog.items.any fun i => i.status = .active

def connected (t : Tenancy) : Bool := t.shop.db.accounts.any fun a => a.status = .active

/-- All that ordering takes but an item that is on sale. -/
def opened (t : Tenancy) : Bool :=
  t.row.status = .active && (t.settings.map (·.salesEnabled)).getD false && t.row.normalizedSlug ≠ "" &&
    (parseConfirmedLocation (t.primaryLocation.bind (·.address))).isSome && t.connected

def publiclyEligible (t : Tenancy) : Bool := t.opened && t.published

def searchTenant (t : Tenancy) : SearchTenantRow :=
  SearchProjectionSync.searchTenantRow
    (tenantEligibility t.row t.primaryLocation t.published t.connected t.settings)
    ((t.shop.catalog.categories.filter fun c => c.status = .active).map fun c => (t.row.id, c))

def activeCategory (t : Tenancy) (id : Id) : Option CategoryRow :=
  (CatalogRepository.findCategory id t.shop.catalog).filter fun c => c.status = .active

def imageUrl (t : Tenancy) (item : ItemRow) : Option String :=
  item.imageAssetId.bind fun id => (t.shop.catalog.media.find? fun m => m.id = id).bind (·.publicUrl)

/-- The entry of an item: it is active and not archived, and its category is active. -/
def entry (t : Tenancy) (item : ItemRow) : Option SearchEntryRow :=
  if SearchReconciliation.isActive item then
    (t.activeCategory item.categoryId).map fun c =>
      SearchProjectionSync.searchEntryRow t.row c (t.imageUrl item) item
  else none

/-- The entries of a tenant. -/
def listing (t : Tenancy) : List SearchEntryRow := t.shop.catalog.items.filterMap t.entry

end Tenancy

namespace Tenancy
variable {t : Tenancy} {item : ItemRow} {e : SearchEntryRow}

theorem mem_listing : e ∈ t.listing ↔ ∃ i ∈ t.shop.catalog.items, t.entry i = some e := List.mem_filterMap

theorem entry_eq_some : t.entry item = some e ↔ SearchReconciliation.isActive item = true ∧
    ∃ c, t.activeCategory item.categoryId = some c ∧
      SearchProjectionSync.searchEntryRow t.row c (t.imageUrl item) item = e := by
  unfold entry
  split
  · next h => simp only [h, Option.map_eq_some_iff, true_and]
  · next h => simp [h]

theorem entry_itemId (h : t.entry item = some e) : e.itemId = item.id := by
  obtain ⟨-, c, -, rfl⟩ := entry_eq_some.1 h
  rfl

theorem searchTenant_isPubliclyEligible : t.searchTenant.isPubliclyEligible = t.publiclyEligible := by
  simp only [searchTenant, SearchProjectionSync.searchTenantRow, tenantEligibility, readinessChecks, publiclyEligible,
    opened, List.filter_cons_of_pos, List.filter_nil, List.all_cons, List.all_nil, Bool.and_true]
  cases t.primaryLocation with
  | none => simp [parseConfirmedLocation]
  | some l => simp only [Option.isSome_some, Bool.true_and, Option.bind_some]; grind

end Tenancy

/-! ## Queries -/

section Queries
variable {α : Type} {ts : List Tenancy} {t : Tenancy} {p : Platform} {f : Tenancy → List α} {q : α → Bool}
  {table : RlsTable} {settings : TxSettings}

theorem filter_flatMap_tenant (hu : Table.UniqueOn (fun t : Tenancy => t.row.id) ts) (ht : t ∈ ts) :
    (ts.flatMap fun t => (f t).map fun r => (t.row.id, r)).filter (fun r => r.1 = t.row.id && q r.2) =
      ((f t).filter q).map fun r => (t.row.id, r) := by
  have hother : ∀ us : List Tenancy, (∀ u ∈ us, u.row.id ≠ t.row.id) →
      (us.flatMap fun u => (f u).map fun r => (u.row.id, r)).filter (fun r => r.1 = t.row.id && q r.2) = [] := by
    intro us hus
    refine List.filter_eq_nil_iff.2 fun r hr => ?_
    obtain ⟨u, hu, hr⟩ := List.mem_flatMap.1 hr
    obtain ⟨a, -, rfl⟩ := List.mem_map.1 hr
    simp [hus u hu]
  induction ts with
  | nil => cases ht
  | cons u us ih =>
    obtain ⟨hfresh, hus⟩ := List.nodup_cons.1 hu
    rw [List.flatMap_cons, List.filter_append]
    rcases List.mem_cons.1 ht with rfl | hmem
    · rw [hother us fun u hu hid => hfresh (List.mem_map.2 ⟨u, hu, hid⟩), List.append_nil, List.filter_map]
      simp [Function.comp_def]
    · have hne : u.row.id ≠ t.row.id := fun hid => hfresh (List.mem_map.2 ⟨t, hmem, hid.symm⟩)
      rw [ih hus hmem, ← List.flatMap_singleton (f := fun u : Tenancy => (f u).map fun r => (u.row.id, r)) u,
        hother [u] (by simpa using hne), List.nil_append]

/-- A transaction with the place of a tenant sees the tenant's rows. -/
theorem select_own (hu : Table.UniqueOn (fun t : Tenancy => t.row.id) p.tenants) (ht : t ∈ p.tenants)
    (hs : settings.tenantId = some t.row.id) :
    select table settings (fun r => r.1 = t.row.id && q r.2) (p.table f) =
      ((f t).filter q).map fun r => (t.row.id, r) := by
  rw [← filter_flatMap_tenant hu ht, Platform.table, select, RowSecurity.visible, List.filter_filter]
  refine List.filter_congr fun r _ => ?_
  by_cases hr : r.1 = t.row.id
  · simp [RlsTable.policy, hs, hr]
  · simp [hr]

theorem findIn_own (hu : Table.UniqueOn (fun t : Tenancy => t.row.id) p.tenants) (ht : t ∈ p.tenants)
    (hs : settings.tenantId = some t.row.id) :
    findIn table settings t.row.id q (p.table f) = (f t).find? q := by
  rw [findIn, select_own hu ht hs, List.head?_map, Option.map_map, List.head?_filter]
  exact Option.map_id'

theorem findTenant_own (hu : Table.UniqueOn (fun t : Tenancy => t.row.id) p.tenants) (ht : t ∈ p.tenants) :
    p.findTenant t.row.id = some t.row := by
  rw [Platform.findTenant, hu.lookup ht, Option.map_some]

theorem fetchTenantReadiness_own (hu : Table.UniqueOn (fun t : Tenancy => t.row.id) p.tenants) (ht : t ∈ p.tenants)
    (hs : settings.tenantId = some t.row.id) : fetchTenantReadiness settings t.row.id p =
      .ok (tenantEligibility t.row t.primaryLocation t.published t.connected t.settings) := by
  have hsettings : findSettings settings t.row.id p = t.settings := by
    rw [findSettings, Platform.tenantSettings, findIn_own hu ht hs]
    cases t.settings <;> rfl
  rw [fetchTenantReadiness, findTenant_own hu ht, hsettings, findPrimaryLocation, Platform.tenantLocations,
    findIn_own hu ht hs, findPublishedItem, Platform.catalogItems, findIn_own hu ht hs, findPaymentIntegration,
    Platform.integrationAccounts, findIn_own hu ht hs, List.isSome_find?, List.isSome_find?]
  rfl

end Queries

/-! ## Synchronizations -/

namespace Directory

def isPubliclyEligible (tenantId : Id) (d : Directory) : Bool :=
  ((Table.lookup Prod.fst tenantId d.publicSearchTenants).map fun r => r.2.isPubliclyEligible).getD false

def entriesOf (tenantId : Id) (d : Directory) : List SearchEntryRow :=
  (d.catalogSearchEntries.filter fun r => r.1 = tenantId).map Prod.snd

def showTenant (t : Tenancy) (d : Directory) : Directory :=
  { d with
    publicSearchTenants := Table.upsert Prod.fst (t.row.id, t.searchTenant) (fun r => (r.1, t.searchTenant))
      d.publicSearchTenants }

def unlist (itemId : Id) (d : Directory) : Directory :=
  { d with catalogSearchEntries := d.catalogSearchEntries.filter fun r => !decide (r.2.itemId = itemId) }

def enlist (tenantId : Id) (e : SearchEntryRow) (d : Directory) : Directory :=
  { d with
    catalogSearchEntries := Table.upsert (fun r => r.2.itemId) (tenantId, e)
      (fun r => (r.1, { e with itemId := r.2.itemId })) d.catalogSearchEntries }

def recordItem (t : Tenancy) (item : ItemRow) (d : Directory) : Directory :=
  match t.entry item with
  | none => d.unlist item.id
  | some e => (d.showTenant t).enlist t.row.id e

end Directory

/-- A transaction in the place of a tenant, whose items have no entry of another tenant. -/
structure Seated (settings : TxSettings) (t : Tenancy) (d : Directory) : Prop where
  unique : Table.UniqueOn (fun t : Tenancy => t.row.id) d.platform.tenants
  mem : t ∈ d.platform.tenants
  place : settings.tenantId = some t.row.id
  owned : ∀ r ∈ d.catalogSearchEntries, ∀ i ∈ t.shop.catalog.items, r.2.itemId = i.id → r.1 = t.row.id

section Synchronizations
open Directory SearchProjectionSync
variable {settings : TxSettings} {t : Tenancy} {v d d' : Directory} {item : ItemRow} {tenantId : Id}
  {e : SearchEntryRow}
  {r : Id × SearchEntryRow}

/-- The policies of the tables of the search admit the rows of the place. -/
theorem Seated.admits {α : Type} (h : Seated settings t d) (table : RlsTable) {r : Id × α} (hr : r.1 = t.row.id) :
    table.policy settings r = true := by
  rw [RlsTable.policy, h.place, hr, decide_eq_true rfl, Bool.true_or]

theorem syncTenantEligibility_own (h : Seated settings t d) :
    Commits (syncTenantEligibility settings t.row.id) v d () (d.showTenant t) := by
  have hupsert : RowSecurity.upsert RlsTable.publicSearchTenants.policy settings Prod.fst (t.row.id, t.searchTenant)
      (fun r => (r.1, t.searchTenant)) d.publicSearchTenants =
        some (Table.upsert Prod.fst (t.row.id, t.searchTenant) (fun r => (r.1, t.searchTenant)) d.publicSearchTenants) :=
    RowSecurity.upsert_of_visible (h.admits _ rfl) fun r _ hr => ⟨h.admits _ hr, h.admits _ hr⟩
  rw [syncTenantEligibility, commits_current_bind, fetchTenantReadiness_own h.unique h.mem h.place,
    commits_fromExcept_bind]
  refine ⟨_, rfl, ?_⟩
  rw [commits_current_bind, Platform.catalogCategories,
    select_own (q := fun c : CategoryRow => decide (c.status = .active)) h.unique h.mem h.place]
  show Commits (SearchRepository.upsertSearchTenant settings t.row.id t.searchTenant) v d () _
  rw [SearchRepository.upsertSearchTenant, commits_current_bind, commits_orThrow_bind]
  exact ⟨_, hupsert, commits_write.2 rfl⟩

theorem deleteSearchEntry_own (h : Seated settings t d) (hi : item ∈ t.shop.catalog.items) :
    Commits (SearchRepository.deleteSearchEntry settings item.id) v d () (d.unlist item.id) := by
  rw [SearchRepository.deleteSearchEntry, commits_write, unlist, RowSecurity.delete_of_visible_of]
  intro r hr hid
  exact h.admits _ (h.owned r hr item hi (of_decide_eq_true hid))

theorem upsertSearchEntry_own (h : Seated settings t d) (hi : item ∈ t.shop.catalog.items) (he : e.itemId = item.id) :
    Commits (SearchRepository.upsertSearchEntry settings t.row.id e) v d () (d.enlist t.row.id e) := by
  rw [SearchRepository.upsertSearchEntry, commits_current_bind, commits_orThrow_bind]
  refine ⟨_, RowSecurity.upsert_of_visible (h.admits _ rfl) fun r hr hid => ?_, commits_write.2 rfl⟩
  have hown := h.owned r hr item hi (hid.trans he)
  exact ⟨h.admits _ hown, h.admits _ hown⟩

theorem Seated.showTenant (h : Seated settings t d) : Seated settings t (d.showTenant t) :=
  ⟨h.unique, h.mem, h.place, h.owned⟩

theorem findCategory_own (h : Seated settings t d) (id : Id) :
    findIn .catalogCategories settings t.row.id (fun c => c.id = id) d.platform.catalogCategories =
      CatalogRepository.findCategory id t.shop.catalog := by
  rw [Platform.catalogCategories, findIn_own h.unique h.mem h.place]
  rfl

theorem syncActiveItem_none (h : Seated settings t d) (hi : item ∈ t.shop.catalog.items)
    (hcategory : t.activeCategory item.categoryId = none) :
    Commits (syncActiveItem settings t.row.id item t.row) v d () (d.unlist item.id) := by
  rw [syncActiveItem, commits_current_bind, findCategory_own h]
  rw [Tenancy.activeCategory] at hcategory
  rw [hcategory]
  exact deleteSearchEntry_own h hi

theorem syncActiveItem_some {c : CategoryRow} (h : Seated settings t d) (hi : item ∈ t.shop.catalog.items)
    (hcategory : t.activeCategory item.categoryId = some c) :
    Commits (syncActiveItem settings t.row.id item t.row) v d ()
      ((d.showTenant t).enlist t.row.id (searchEntryRow t.row c (t.imageUrl item) item)) := by
  have himage : findImageUrl settings t.row.id item.imageAssetId d.platform = t.imageUrl item := by
    unfold findImageUrl Tenancy.imageUrl
    simp only [Platform.mediaAssets, findIn_own h.unique h.mem h.place]
  have hcatch : Commits (catchThrown (syncTenantEligibility settings t.row.id)) v d () (d.showTenant t) := by
    have hsync := syncTenantEligibility_own (v := v) h
    rw [Commits] at hsync
    rw [Commits, catchThrown, hsync]
  rw [syncActiveItem, commits_current_bind, findCategory_own h]
  rw [Tenancy.activeCategory] at hcategory
  rw [hcategory]
  dsimp only
  rw [commits_current_bind, himage, commits_bind_of hcatch]
  exact upsertSearchEntry_own h.showTenant hi rfl

theorem syncItem_own (h : Seated settings t d) (hi : item ∈ t.shop.catalog.items) :
    Commits (syncItem settings t.row.id item) v d () (d.recordItem t item) := by
  have hstatus : ¬ (item.status ≠ .active ∨ item.archivedAt.isSome) ↔ SearchReconciliation.isActive item = true := by
    simp [SearchReconciliation.isActive]
  unfold syncItem recordItem Tenancy.entry
  by_cases hactive : SearchReconciliation.isActive item = true
  · rw [if_neg (hstatus.2 hactive), if_pos hactive, commits_current_bind, findTenant_own h.unique h.mem]
    show Commits (syncActiveItem settings t.row.id item t.row) v d () _
    cases hcategory : t.activeCategory item.categoryId with
    | none => exact syncActiveItem_none h hi hcategory
    | some c => exact syncActiveItem_some h hi hcategory
  · rw [if_pos (not_not.1 (mt hstatus.1 hactive)), if_neg hactive]
    exact deleteSearchEntry_own h hi

/-! ### What they change -/

theorem mem_unlist {itemId : Id} : r ∈ (d.unlist itemId).catalogSearchEntries ↔
    r ∈ d.catalogSearchEntries ∧ r.2.itemId ≠ itemId := by
  simp [unlist]

theorem mem_enlist (hown : ∀ q ∈ d.catalogSearchEntries, q.2.itemId = e.itemId → q.1 = tenantId) :
    r ∈ (d.enlist tenantId e).catalogSearchEntries ↔
      r = (tenantId, e) ∨ (r ∈ d.catalogSearchEntries ∧ r.2.itemId ≠ e.itemId) := by
  unfold enlist
  refine Table.mem_upsert fun q hq hid => ?_
  rw [hown q hq hid, hid]

theorem mem_recordItem (h : Seated settings t d) (hi : item ∈ t.shop.catalog.items) :
    r ∈ (d.recordItem t item).catalogSearchEntries ↔
      (r ∈ d.catalogSearchEntries ∧ r.2.itemId ≠ item.id) ∨ ∃ e, t.entry item = some e ∧ r = (t.row.id, e) := by
  unfold recordItem
  cases hentry : t.entry item with
  | none => simp only [mem_unlist, reduceCtorEq, false_and, exists_false, or_false]
  | some e =>
    have hid := Tenancy.entry_itemId hentry
    have hown : ∀ q ∈ (d.showTenant t).catalogSearchEntries, q.2.itemId = e.itemId → q.1 = t.row.id :=
      fun q hq hqe => h.owned q hq item hi (hqe.trans hid)
    rw [mem_enlist hown, or_comm, hid]
    simp only [Option.some.injEq, exists_eq_left']
    rfl

theorem recordItem_entryKey (hkey : Table.UniqueOn (fun r => r.2.itemId) d.catalogSearchEntries) :
    Table.UniqueOn (fun r => r.2.itemId) (d.recordItem t item).catalogSearchEntries := by
  unfold recordItem
  cases t.entry item with
  | none => exact hkey.sublist (List.filter_sublist.map _)
  | some e => exact Table.UniqueOn.upsert hkey fun _ _ _ => rfl

@[simp] theorem recordItem_platform : (d.recordItem t item).platform = d.platform := by
  unfold recordItem
  split <;> rfl

theorem isPubliclyEligible_showTenant : (d.showTenant t).isPubliclyEligible tenantId =
    if tenantId = t.row.id then t.publiclyEligible else d.isPubliclyEligible tenantId := by
  have hlookup : Table.lookup Prod.fst tenantId (Table.upsert Prod.fst (t.row.id, t.searchTenant)
      (fun r => (r.1, t.searchTenant)) d.publicSearchTenants) =
      if tenantId = t.row.id then some (t.row.id, t.searchTenant)
      else Table.lookup Prod.fst tenantId d.publicSearchTenants :=
    Table.lookup_upsert fun q hq => Prod.ext hq rfl
  unfold isPubliclyEligible Directory.showTenant
  dsimp only
  rw [hlookup]
  split
  · exact Tenancy.searchTenant_isPubliclyEligible
  · rfl

theorem isPubliclyEligible_recordItem : (d.recordItem t item).isPubliclyEligible tenantId =
    if tenantId = t.row.id ∧ (t.entry item).isSome then t.publiclyEligible
    else d.isPubliclyEligible tenantId := by
  unfold recordItem
  cases t.entry item with
  | none => rw [if_neg (by simp)]; rfl
  | some e =>
    simp only [Option.isSome_some, and_true]
    exact isPubliclyEligible_showTenant

theorem Seated.recordItem (h : Seated settings t d) (hi : item ∈ t.shop.catalog.items) :
    Seated settings t (d.recordItem t item) := by
  refine ⟨by simpa using h.unique, by simpa using h.mem, h.place, fun r hr i hi' hid => ?_⟩
  rcases (mem_recordItem h hi).1 hr with ⟨hr, -⟩ | ⟨e, -, rfl⟩
  · exact h.owned r hr i hi' hid
  · rfl

/-! ### The turn of a tenant -/

def recordItems (t : Tenancy) (items : List ItemRow) (d : Directory) : Directory :=
  items.foldl (fun d i => d.recordItem t i) d

def reconciled (t : Tenancy) (d : Directory) : Directory :=
  recordItems t (t.shop.catalog.items.filter SearchReconciliation.isActive) (d.showTenant t)

theorem each_syncItem {items : List ItemRow} (h : Seated settings t d)
    (hitems : ∀ i ∈ items, i ∈ t.shop.catalog.items) :
    Commits (each (fun r => syncItem settings t.row.id r.2) (items.map fun i => (t.row.id, i))) v d ()
      (recordItems t items d) := by
  induction items generalizing d with
  | nil => exact commits_pure.2 ⟨rfl, rfl⟩
  | cons i items ih =>
    have hi := hitems i List.mem_cons_self
    rw [List.map_cons, each, commits_bind_of (syncItem_own h hi)]
    exact ih (h.recordItem hi) fun j hj => hitems j (List.mem_cons_of_mem _ hj)

theorem reconcileTenant_own (h : Seated settings t d) : ∃ n,
    Commits (SearchReconciliation.reconcileTenant settings t.row.id) v d n (reconciled t d) := by
  refine ⟨((t.shop.catalog.items.filter SearchReconciliation.isActive).map fun i => (t.row.id, i)).length, ?_⟩
  rw [SearchReconciliation.reconcileTenant, commits_bind_of (syncTenantEligibility_own h), commits_current_bind,
    Platform.catalogItems, select_own (q := SearchReconciliation.isActive) h.showTenant.unique h.showTenant.mem h.place,
    commits_bind_of (each_syncItem h.showTenant fun i hi => (List.mem_filter.1 hi).1)]
  exact commits_pure.2 ⟨rfl, rfl⟩

@[simp] theorem recordItems_platform {items : List ItemRow} : (recordItems t items d).platform = d.platform := by
  induction items generalizing d with
  | nil => rfl
  | cons i items ih => exact ih.trans recordItem_platform

theorem recordItems_entryKey {items : List ItemRow} (hkey : Table.UniqueOn (fun r => r.2.itemId) d.catalogSearchEntries) :
    Table.UniqueOn (fun r => r.2.itemId) (recordItems t items d).catalogSearchEntries := by
  induction items generalizing d with
  | nil => exact hkey
  | cons i items ih => exact ih (recordItem_entryKey hkey)

theorem isPubliclyEligible_recordItems {items : List ItemRow} (h : d.isPubliclyEligible t.row.id = t.publiclyEligible) :
    (recordItems t items d).isPubliclyEligible tenantId = d.isPubliclyEligible tenantId := by
  induction items generalizing d with
  | nil => rfl
  | cons i items ih =>
    have hsame : ∀ id, (d.recordItem t i).isPubliclyEligible id = d.isPubliclyEligible id := by
      intro id
      rw [isPubliclyEligible_recordItem]
      split
      · next hid => rw [hid.1, h]
      · rfl
    exact (ih ((hsame _).trans h)).trans (hsame tenantId)

/-- Items of different ids do not touch each other's entries. -/
theorem mem_recordItems {items : List ItemRow} (h : Seated settings t d)
    (hitems : ∀ i ∈ items, i ∈ t.shop.catalog.items)
    (hkey : Table.UniqueOn ItemRow.id items) : r ∈ (recordItems t items d).catalogSearchEntries ↔
      (r ∈ d.catalogSearchEntries ∧ ∀ i ∈ items, r.2.itemId ≠ i.id) ∨
      ∃ i ∈ items, ∃ e, t.entry i = some e ∧ r = (t.row.id, e) := by
  induction items generalizing d with
  | nil => simp [recordItems]
  | cons i items ih =>
    obtain ⟨hfresh, hkey⟩ := List.nodup_cons.1 hkey
    have hi := hitems i List.mem_cons_self
    rw [recordItems, List.foldl_cons, ← recordItems, ih (h.recordItem hi)
      (fun j hj => hitems j (List.mem_cons_of_mem _ hj)) hkey, mem_recordItem h hi]
    simp only [List.forall_mem_cons, List.exists_mem_cons_iff]
    constructor
    · rintro (⟨⟨hr, hri⟩ | ⟨e, he, hr⟩, hall⟩ | hlater)
      · exact .inl ⟨hr, hri, hall⟩
      · exact .inr (.inl ⟨e, he, hr⟩)
      · exact .inr (.inr hlater)
    · rintro (⟨hr, hri, hall⟩ | ⟨e, he, rfl⟩ | hlater)
      · exact .inl ⟨.inl ⟨hr, hri⟩, hall⟩
      · refine .inl ⟨.inr ⟨e, he, rfl⟩, fun j hj hid => hfresh (List.mem_map.2 ⟨j, hj, ?_⟩)⟩
        exact hid.symm.trans (Tenancy.entry_itemId he)
      · exact .inr hlater

@[simp] theorem reconciled_platform : (reconciled t d).platform = d.platform := recordItems_platform

theorem isPubliclyEligible_reconciled : (reconciled t d).isPubliclyEligible tenantId =
    if tenantId = t.row.id then t.publiclyEligible else d.isPubliclyEligible tenantId := by
  rw [reconciled, isPubliclyEligible_recordItems (isPubliclyEligible_showTenant.trans (if_pos rfl)),
    isPubliclyEligible_showTenant]

/-- After its turn, the entries of a tenant's active items are those of its listing. -/
theorem mem_reconciled (h : Seated settings t d) (hkey : Table.UniqueOn ItemRow.id t.shop.catalog.items) :
    r ∈ (reconciled t d).catalogSearchEntries ↔
      (r ∈ d.catalogSearchEntries ∧ ∀ i ∈ t.shop.catalog.items, SearchReconciliation.isActive i = true → r.2.itemId ≠ i.id) ∨
      ∃ e ∈ t.listing, r = (t.row.id, e) := by
  have hlisted : (∃ i ∈ t.shop.catalog.items.filter SearchReconciliation.isActive, ∃ e, t.entry i = some e ∧ r = (t.row.id, e)) ↔
      ∃ e ∈ t.listing, r = (t.row.id, e) := by
    constructor
    · rintro ⟨i, hi, e, he, rfl⟩
      exact ⟨e, Tenancy.mem_listing.2 ⟨i, (List.mem_filter.1 hi).1, he⟩, rfl⟩
    · rintro ⟨e, he, rfl⟩
      obtain ⟨i, hi, he⟩ := Tenancy.mem_listing.1 he
      exact ⟨i, List.mem_filter.2 ⟨hi, (Tenancy.entry_eq_some.1 he).1⟩, e, he, rfl⟩
  rw [reconciled, mem_recordItems h.showTenant (fun i hi => (List.mem_filter.1 hi).1)
    (hkey.sublist (List.filter_sublist.map _)), hlisted]
  simp only [List.mem_filter, and_imp]
  rfl

end Synchronizations

end Komanda
