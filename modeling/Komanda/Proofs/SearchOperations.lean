import Komanda.Proofs.CatalogRows
import Komanda.Proofs.SearchSync

/-!
# What one operation leaves of the search

`Shows` says that the search shows a tenant as its catalog and its settings are; a rebuild for the tenant would give the
same (`fresh_iff`). An operation of one tenant leaves the others apart (`Outcome`), and shows the tenant unless it is
one of the exceptions in `KeepsProjection`: a category that goes in or out of sale with items on sale, or the last item
that goes off sale.
-/

namespace Komanda
open Transaction

/-! ## Rebuilding -/

namespace Directory

def without (tenantId : Id) (d : Directory) : Directory :=
  { d with
    publicSearchTenants := d.publicSearchTenants.filter fun r => !decide (r.1 = tenantId)
    catalogSearchEntries := d.catalogSearchEntries.filter fun r => !decide (r.1 = tenantId) }

/-- The turn of a tenant in `reconcileAll`, on tables without its rows. -/
def rebuild (tenantId : Id) (d : Directory) : Directory :=
  (d.without tenantId).logged
    (SearchReconciliation.reconcileTenant (SearchReconciliation.settings.setTenant tenantId) tenantId)

/-- The entries and the flag of a tenant are those of a fresh rebuild. -/
def Fresh (tenantId : Id) (d : Directory) : Prop :=
  (d.entriesOf tenantId).Perm ((d.rebuild tenantId).entriesOf tenantId) ∧
    d.isPubliclyEligible tenantId = (d.rebuild tenantId).isPubliclyEligible tenantId

instance (tenantId : Id) (d : Directory) : Decidable (d.Fresh tenantId) := inferInstanceAs (Decidable (_ ∧ _))

/-- The keys and foreign keys of the tables. -/
structure Sound (d : Directory) : Prop where
  tenantKey : Table.UniqueOn (fun t : Tenancy => t.row.id) d.platform.tenants
  tenantIds : ∀ t ∈ d.platform.tenants, t.row.id ≠ ""
  keyed : d.platform.keyed = true
  entryKey : Table.UniqueOn (fun r => r.2.itemId) d.catalogSearchEntries
  entryItem : ∀ r ∈ d.catalogSearchEntries, ∃ t ∈ d.platform.tenants, t.row.id = r.1 ∧
    ∃ i ∈ t.shop.catalog.items, i.id = r.2.itemId

/-- The search shows the tenant as it is. -/
structure Shows (t : Tenancy) (d : Directory) : Prop where
  entries : ∀ e, (t.row.id, e) ∈ d.catalogSearchEntries ↔ e ∈ t.listing
  eligible : d.isPubliclyEligible t.row.id = t.publiclyEligible

end Directory

section Rebuilding
open Directory
variable {d : Directory} {t u : Tenancy} {tenantId : Id} {settings : TxSettings} {e : SearchEntryRow}

theorem mem_entriesOf : e ∈ d.entriesOf tenantId ↔ (tenantId, e) ∈ d.catalogSearchEntries := by
  simp [entriesOf]

theorem entriesOf_nodup (h : Table.UniqueOn (fun r => r.2.itemId) d.catalogSearchEntries) :
    (d.entriesOf tenantId).Nodup := by
  refine List.Nodup.of_map (fun e => e.itemId) ?_
  rw [entriesOf, List.map_map]
  exact h.sublist (List.filter_sublist.map _)

theorem mem_table {α : Type} {f : Tenancy → List α} {p : Platform} {r : Id × α} :
    r ∈ p.table f ↔ ∃ t ∈ p.tenants, t.row.id = r.1 ∧ r.2 ∈ f t := by
  simp only [Platform.table, List.mem_flatMap, List.mem_map, Prod.ext_iff]
  constructor
  · rintro ⟨t, ht, a, ha, hid, rfl⟩
    exact ⟨t, ht, hid, ha⟩
  · rintro ⟨t, ht, hid, ha⟩
    exact ⟨t, ht, r.2, ha, hid, rfl⟩

/-- An item belongs to one tenant. -/
theorem Directory.Sound.item_tenant (h : d.Sound) (ht : t ∈ d.platform.tenants) (hu : u ∈ d.platform.tenants)
    {i j : ItemRow} (hi : i ∈ t.shop.catalog.items) (hj : j ∈ u.shop.catalog.items) (hid : i.id = j.id) :
    t.row.id = u.row.id ∧ i = j := by
  have hkeyed := h.keyed
  simp only [Platform.keyed, Bool.and_eq_true, decide_eq_true_eq] at hkeyed
  have heq := List.inj_on_of_nodup_map hkeyed.1.1 (mem_table.2 ⟨t, ht, rfl, hi⟩ : (t.row.id, i) ∈ d.platform.catalogItems)
    (mem_table.2 ⟨u, hu, rfl, hj⟩ : (u.row.id, j) ∈ d.platform.catalogItems) hid
  exact Prod.ext_iff.1 heq

theorem Directory.Sound.itemKey (h : d.Sound) (ht : t ∈ d.platform.tenants) :
    Table.UniqueOn ItemRow.id t.shop.catalog.items := by
  have hkeyed := h.keyed
  simp only [Platform.keyed, Bool.and_eq_true, decide_eq_true_eq] at hkeyed
  have hnodup := hkeyed.1.1
  rw [Platform.catalogItems, Platform.table, List.map_flatMap, List.nodup_flatMap] at hnodup
  have hown := hnodup.1 t ht
  rw [List.map_map] at hown
  exact hown

theorem Directory.Sound.categoryKey (h : d.Sound) (ht : t ∈ d.platform.tenants) :
    Table.UniqueOn CategoryRow.id t.shop.catalog.categories := by
  have hkeyed := h.keyed
  simp only [Platform.keyed, Bool.and_eq_true, decide_eq_true_eq] at hkeyed
  have hnodup := hkeyed.1.2
  rw [Platform.catalogCategories, Platform.table, List.map_flatMap, List.nodup_flatMap] at hnodup
  have hown := hnodup.1 t ht
  rw [List.map_map] at hown
  exact hown

theorem Directory.Sound.hasCategory (h : d.Sound) (ht : t ∈ d.platform.tenants) {i : ItemRow}
    (hi : i ∈ t.shop.catalog.items) : ∃ c ∈ t.shop.catalog.categories, c.id = i.categoryId := by
  have hkeyed := h.keyed
  simp only [Platform.keyed, Bool.and_eq_true, List.all_eq_true, List.any_eq_true, decide_eq_true_eq] at hkeyed
  exact hkeyed.2 t ht i hi

theorem Directory.Sound.owned (h : d.Sound) (ht : t ∈ d.platform.tenants) {r : Id × SearchEntryRow}
    (hr : r ∈ d.catalogSearchEntries) {i : ItemRow} (hi : i ∈ t.shop.catalog.items) (hid : r.2.itemId = i.id) :
    r.1 = t.row.id := by
  obtain ⟨u, hu, hur, j, hj, hjr⟩ := h.entryItem r hr
  exact hur.symm.trans (h.item_tenant hu ht hj hi (hjr.trans hid)).1

theorem Directory.Sound.seated (h : d.Sound) (ht : t ∈ d.platform.tenants) (hs : settings.tenantId = some t.row.id) :
    Seated settings t d := ⟨h.tenantKey, ht, hs, fun _ hr _ hi hid => h.owned ht hr hi hid⟩

/-- A rebuild gives the listing of the tenant, and its flag. -/
theorem shows_rebuild (h : d.Sound) (ht : t ∈ d.platform.tenants) : Shows t (d.rebuild t.row.id) ∧
    Table.UniqueOn (fun r => r.2.itemId) (d.rebuild t.row.id).catalogSearchEntries := by
  have hplace : (SearchReconciliation.settings.setTenant t.row.id).tenantId = some t.row.id := by
    rw [TxSettings.setTenant, nullif, if_neg (h.tenantIds t ht)]
  have hseated : Seated (SearchReconciliation.settings.setTenant t.row.id) t (d.without t.row.id) :=
    ⟨h.tenantKey, ht, hplace, fun r hr i hi hid => h.owned ht (List.mem_filter.1 hr).1 hi hid⟩
  obtain ⟨n, hturn⟩ := reconcileTenant_own (v := d.without t.row.id) hseated
  have hrebuild : d.rebuild t.row.id = reconciled t (d.without t.row.id) := by
    rw [Commits] at hturn
    rw [rebuild, logged, hturn]
  rw [hrebuild]
  refine ⟨⟨fun e => ?_, isPubliclyEligible_reconciled.trans (if_pos rfl)⟩, recordItems_entryKey ?_⟩
  · rw [mem_reconciled hseated (h.itemKey ht)]
    simp [without]
  · exact h.entryKey.sublist (List.filter_sublist.map _)

theorem fresh_iff (h : d.Sound) (ht : t ∈ d.platform.tenants) : d.Fresh t.row.id ↔ Shows t d := by
  obtain ⟨hrebuild, hkey⟩ := shows_rebuild h ht
  unfold Fresh
  rw [List.perm_ext_iff_of_nodup (entriesOf_nodup h.entryKey) (entriesOf_nodup hkey), hrebuild.eligible]
  simp only [mem_entriesOf, hrebuild.entries]
  exact ⟨fun hd => ⟨hd.1, hd.2⟩, fun hd => ⟨hd.entries, hd.eligible⟩⟩

end Rebuilding

/-! ## What an operation of a tenant touches -/

/-- Nothing that the search knows of another tenant changes. -/
structure Directory.Apart (tenantId : Id) (d d' : Directory) : Prop where
  tenants : ∀ u ∈ d'.platform.tenants, u.row.id ≠ tenantId → u ∈ d.platform.tenants
  entries : ∀ r : Id × SearchEntryRow, r.1 ≠ tenantId → (r ∈ d'.catalogSearchEntries ↔ r ∈ d.catalogSearchEntries)
  flags : ∀ id, id ≠ tenantId → d'.isPubliclyEligible id = d.isPubliclyEligible id

/-- One tenant has been edited, and the tables of the search have not. -/
structure Directory.Edited (t t' : Tenancy) (d d' : Directory) : Prop where
  sound : d'.Sound
  mem : t' ∈ d'.platform.tenants
  id : t'.row.id = t.row.id
  apart : Directory.Apart t.row.id d d'
  entries : d'.catalogSearchEntries = d.catalogSearchEntries
  searchTenants : d'.publicSearchTenants = d.publicSearchTenants

section Touching
open Directory
variable {d d₁ d' : Directory} {t t₁ t' u : Tenancy} {tenantId : Id} {settings : TxSettings} {item : ItemRow}
  {f : Tenancy → Tenancy}

theorem Directory.Apart.refl : Apart tenantId d d := ⟨fun _ h _ => h, fun _ _ => Iff.rfl, fun _ _ => rfl⟩

theorem Directory.Apart.trans (h : Apart tenantId d d₁) (h' : Apart tenantId d₁ d') : Apart tenantId d d' where
  tenants u hu hne := h.tenants u (h'.tenants u hu hne) hne
  entries r hr := (h'.entries r hr).trans (h.entries r hr)
  flags id hid := (h'.flags id hid).trans (h.flags id hid)

theorem Directory.Apart.shows (h : Apart tenantId d d') (hu : u.row.id ≠ tenantId) (hs : Shows u d) : Shows u d' where
  entries e := (h.entries (u.row.id, e) hu).trans (hs.entries e)
  eligible := (h.flags u.row.id hu).trans hs.eligible

theorem mem_modify {p : Platform} (hu : Table.UniqueOn (fun t : Tenancy => t.row.id) p.tenants) (ht : t ∈ p.tenants) :
    u ∈ (p.modify t.row.id f).tenants ↔ (u ∈ p.tenants ∧ u.row.id ≠ t.row.id) ∨ u = f t := by
  rw [Platform.modify, Table.mem_updateWhere]
  constructor
  · rintro ⟨q, hq, rfl⟩
    by_cases hid : q.row.id = t.row.id
    · rw [hu.eq hq ht hid]
      simp
    · simpa [hid] using Or.inl hq
  · rintro (⟨hmem, hne⟩ | rfl)
    · exact ⟨u, hmem, by simp [hne]⟩
    · exact ⟨t, ht, by simp⟩

/-- A tenant is edited: its items stay, and the keys of the catalogs hold. -/
theorem Directory.Sound.edited (h : d.Sound) (ht : t ∈ d.platform.tenants) (hrow : ∀ u, (f u).row.id = u.row.id)
    (hitems : ∀ i ∈ t.shop.catalog.items, ∃ j ∈ (f t).shop.catalog.items, j.id = i.id)
    (hkeyed : (d.platform.modify t.row.id f).keyed = true) :
    Edited t (f t) d { d with platform := d.platform.modify t.row.id f } where
  sound := by
    refine ⟨h.tenantKey.updateWhere fun u _ => hrow u, fun u hu => ?_, hkeyed, h.entryKey, fun r hr => ?_⟩
    · rcases (mem_modify h.tenantKey ht).1 hu with ⟨hu, -⟩ | rfl
      · exact h.tenantIds u hu
      · rw [hrow]; exact h.tenantIds t ht
    · obtain ⟨u, hu, hur, i, hi, hir⟩ := h.entryItem r hr
      by_cases hid : u.row.id = t.row.id
      · obtain rfl := h.tenantKey.eq hu ht hid
        obtain ⟨j, hj, hji⟩ := hitems i hi
        exact ⟨f u, (mem_modify h.tenantKey ht).2 (.inr rfl), (hrow u).trans hur, j, hj, hji.trans hir⟩
      · exact ⟨u, (mem_modify h.tenantKey ht).2 (.inl ⟨hu, hid⟩), hur, i, hi, hir⟩
  mem := (mem_modify h.tenantKey ht).2 (.inr rfl)
  id := hrow t
  apart := by
    refine ⟨fun u hu hne => ?_, fun _ _ => Iff.rfl, fun _ _ => rfl⟩
    rcases (mem_modify h.tenantKey ht).1 hu with ⟨hu, -⟩ | rfl
    · exact hu
    · exact absurd (hrow t) hne
  entries := rfl
  searchTenants := rfl

theorem Directory.Edited.trans (h : Edited t t₁ d d₁) (h' : Edited t₁ t' d₁ d') : Edited t t' d d' where
  sound := h'.sound
  mem := h'.mem
  id := h'.id.trans h.id
  apart := h.apart.trans (h.id ▸ h'.apart)
  entries := h'.entries.trans h.entries
  searchTenants := h'.searchTenants.trans h.searchTenants

theorem Directory.Edited.flag (h : Edited t t' d d') : d'.isPubliclyEligible tenantId = d.isPubliclyEligible tenantId := by
  rw [isPubliclyEligible, isPubliclyEligible, h.searchTenants]

/-- The search shows the edited tenant if its listing is the old one, and its flag. -/
theorem Directory.Edited.shows_iff (h : Edited t t' d d') (hs : Shows t d)
    (hlisting : ∀ e, e ∈ t'.listing ↔ e ∈ t.listing) :
    Shows t' d' ↔ t'.publiclyEligible = t.publiclyEligible := by
  have hflag : d'.isPubliclyEligible t'.row.id = t.publiclyEligible := by rw [h.flag, h.id, hs.eligible]
  constructor
  · intro hs'
    rw [← hs'.eligible, hflag]
  · intro helig
    refine ⟨fun e => ?_, hflag.trans helig.symm⟩
    rw [h.entries, h.id, hs.entries, hlisting]

theorem Directory.Sound.showTenant (h : d.Sound) : (d.showTenant t).Sound :=
  ⟨h.tenantKey, h.tenantIds, h.keyed, h.entryKey, h.entryItem⟩

theorem apart_showTenant : Apart t.row.id d (d.showTenant t) :=
  ⟨fun _ hu _ => hu, fun _ _ => Iff.rfl, fun _ hid => isPubliclyEligible_showTenant.trans (if_neg hid)⟩

theorem Directory.Sound.recordItem (h : d.Sound) (ht : t ∈ d.platform.tenants) (hs : settings.tenantId = some t.row.id)
    (hi : item ∈ t.shop.catalog.items) : (d.recordItem t item).Sound := by
  refine ⟨?_, ?_, ?_, recordItem_entryKey h.entryKey, fun r hr => ?_⟩
  · simpa using h.tenantKey
  · simpa using h.tenantIds
  · simpa using h.keyed
  · rw [recordItem_platform]
    rcases (mem_recordItem (h.seated ht hs) hi).1 hr with ⟨hr, -⟩ | ⟨e, he, rfl⟩
    · exact h.entryItem r hr
    · exact ⟨t, ht, rfl, item, hi, (Tenancy.entry_itemId he).symm⟩

theorem Directory.Sound.apart_recordItem (h : d.Sound) (ht : t ∈ d.platform.tenants)
    (hs : settings.tenantId = some t.row.id) (hi : item ∈ t.shop.catalog.items) :
    Apart t.row.id d (d.recordItem t item) := by
  refine ⟨fun u hu _ => by simpa using hu, fun r hr => ?_, fun id hid => ?_⟩
  · rw [mem_recordItem (h.seated ht hs) hi]
    constructor
    · rintro (⟨hr', -⟩ | ⟨e, -, rfl⟩)
      · exact hr'
      · exact absurd rfl hr
    · exact fun hr' => .inl ⟨hr', fun hid => hr (h.owned ht hr' hi hid)⟩
  · rw [isPubliclyEligible_recordItem, if_neg fun hcond => hid hcond.1]

end Touching

/-! ## Calls that edit items -/

section Items
open Directory
variable {d d₁ : Directory} {t t' : Tenancy} {settings : TxSettings} {item row : ItemRow} {itemId : Id}
  {e : SearchEntryRow} {shop : Shop}

/-- The entry of an item comes from the names of the tenant, its media and its category. -/
theorem Tenancy.entry_congr (hname : t'.row.name = t.row.name) (hslug : t'.row.slug = t.row.slug)
    (hmedia : t'.shop.catalog.media = t.shop.catalog.media)
    (hcategory : t'.activeCategory item.categoryId = t.activeCategory item.categoryId) :
    t'.entry item = t.entry item := by
  simp only [Tenancy.entry, Tenancy.imageUrl, SearchProjectionSync.searchEntryRow, hname, hslug, hmedia, hcategory]

/-- The listing after one item has been written. -/
theorem mem_listing_updateWhere (hentry : ∀ i, t'.entry i = t.entry i) (hr : item ∈ t.shop.catalog.items)
    (hid : item.id = itemId)
    (hrow : row.id = itemId)
    (hitems : t'.shop.catalog.items = Table.updateWhere (·.id = itemId) (fun _ => row) t.shop.catalog.items) :
    e ∈ t'.listing ↔ (e ∈ t.listing ∧ e.itemId ≠ row.id) ∨ t'.entry row = some e := by
  simp only [Tenancy.mem_listing, hitems, Table.mem_updateWhere, hentry]
  constructor
  · rintro ⟨_, ⟨i, hi, rfl⟩, he⟩
    by_cases hii : i.id = itemId
    · simp only [hii, decide_true, if_true] at he
      exact .inr he
    · simp only [hii, decide_false, Bool.false_eq_true, if_false] at he
      refine .inl ⟨⟨i, hi, he⟩, ?_⟩
      rw [Tenancy.entry_itemId he, hrow]
      exact hii
  · rintro (⟨⟨i, hi, he⟩, hne⟩ | he)
    · have hii : i.id ≠ itemId := by rw [← Tenancy.entry_itemId he, ← hrow]; exact hne
      exact ⟨i, ⟨i, hi, by simp [hii]⟩, he⟩
    · exact ⟨row, ⟨item, hr, by simp [hid]⟩, he⟩

/-- Recording the item that has been written brings the entries up to date, and the flag when the item is listed. -/
theorem shows_recordItem_iff (hedit : Edited t t' d d₁) (hs : Shows t d) (hplace : settings.tenantId = some t'.row.id)
    (hi : row ∈ t'.shop.catalog.items)
    (hlisting : ∀ e, e ∈ t'.listing ↔ (e ∈ t.listing ∧ e.itemId ≠ row.id) ∨ t'.entry row = some e) :
    Shows t' (d₁.recordItem t' row) ↔ (t'.entry row).isSome ∨ t'.publiclyEligible = t.publiclyEligible := by
  have hentries : ∀ e, (t'.row.id, e) ∈ (d₁.recordItem t' row).catalogSearchEntries ↔ e ∈ t'.listing := by
    intro e
    rw [mem_recordItem (hedit.sound.seated hedit.mem hplace) hi, hlisting, hedit.entries, hedit.id, hs.entries]
    simp only [Prod.mk.injEq, true_and]
    exact or_congr Iff.rfl ⟨fun ⟨e', he', heq⟩ => heq ▸ he', fun he => ⟨e, he, rfl⟩⟩
  have hflag : (d₁.recordItem t' row).isPubliclyEligible t'.row.id =
      if (t'.entry row).isSome then t'.publiclyEligible else t.publiclyEligible := by
    rw [isPubliclyEligible_recordItem, hedit.flag, hedit.id, hs.eligible]
    simp only [true_and]
  constructor
  · intro hs'
    rw [hs'.eligible] at hflag
    split at hflag
    · next hsome => exact .inl hsome
    · exact .inr hflag
  · intro hcond
    refine ⟨hentries, hflag.trans ?_⟩
    split
    · rfl
    · next hnone => exact (hcond.resolve_left hnone).symm

/-- What `updateItem` leaves of an item when nothing runs beside it. -/
structure Rewritten (t : Tenancy) (status : Option CatalogStatus) (r row : ItemRow) : Prop where
  mem : r ∈ t.shop.catalog.items
  id : row.id = r.id
  status : row.status = status.getD r.status
  archivedAt : row.archivedAt = r.archivedAt
  published : row.status = .active → (t.activeCategory row.categoryId).isSome

theorem assertPublishable_active {category : CategoryRow} {media video : Option MediaRow}
    (h : CatalogService.assertPublishable category media video = .ok ()) : category.status = .active := by
  by_contra hinactive
  unfold CatalogService.assertPublishable assertPublishableItem at h
  rw [if_pos hinactive] at h
  exact nomatch h

theorem rewritten_of_updated {locale : Locale} {version : Nat} {value input : CatalogItemPatch} {before r : ItemRow}
    {category : CategoryRow} {barcode : Option String} (hkey : Table.UniqueOn ItemRow.id t.shop.catalog.items)
    (h : CatalogService.ItemUpdated locale itemId version value input t.shop t.shop before category barcode r row shop) :
    r.id = itemId ∧ Rewritten t value.status r row := by
  have hmem := List.mem_of_find?_eq_some h.current
  have hfound := List.find?_some h.current
  simp only [Bool.and_eq_true, decide_eq_true_eq] at hfound
  have hbefore : before = r :=
    hkey.eq (Table.lookup_mem h.read) hmem ((Table.lookup_key h.read).trans hfound.1.symm)
  have hstatus : input.status = value.status := by rw [parsed_ok h.accepted]
  refine ⟨hfound.1, hmem, by rw [h.written]; rfl, ?_, by rw [h.written]; rfl, fun hactive => ?_⟩
  · rw [h.written, ← hstatus]
    rfl
  · have hrow : row.categoryId = input.categoryId.getD before.categoryId := by rw [h.written, hbefore]; rfl
    have hpublish : input.status.getD before.status = .active := by
      rw [← hactive, h.written, hbefore]
      rfl
    rw [Tenancy.activeCategory, hrow, h.placed, Option.filter_some, assertPublishable_active (h.publishable hpublish)]
    rfl

end Items

/-! ## The law -/

/-- What an operation owes to the search. -/
def DirectoryRequest.Projects (q : DirectoryRequest) (d : Directory) : Prop :=
  match q.tenantId with
  | some tenantId => d.Fresh tenantId
  | none => d.catalogSearchEntries.Perm (d.platform.table Tenancy.listing)

instance (q : DirectoryRequest) (d : Directory) : Decidable (q.Projects d) := by
  unfold DirectoryRequest.Projects
  split <;> infer_instance

/-- An item that gets a status is on sale then, or the tenant has something on sale afterwards if and only if it had
before, or it is not open anyway. -/
def Tenancy.KeepsFlag (t : Tenancy) (item : ItemRow) (status : CatalogStatus) : Prop :=
  (status = .active ∧ item.archivedAt = none) ∨
    (t.opened = true → ((∃ i ∈ t.shop.catalog.items, i.status = .active) ↔
      status = .active ∨ ∃ i ∈ t.shop.catalog.items, i.id ≠ item.id ∧ i.status = .active))

/-- A category with an item on sale stays active, or stays what else it is. -/
def Tenancy.KeepsCategory (t : Tenancy) (categoryId : Id) (status : CategoryStatus) : Prop :=
  (∃ i ∈ t.shop.catalog.items, i.categoryId = categoryId ∧ SearchReconciliation.isActive i = true) →
    ((t.activeCategory categoryId).isSome ↔ status = .active)

def KeepsProjection (d : Directory) : DirectoryRequest → Prop
  | .catalog tenantId _ (.updateItem itemId _ value) => ∀ t ∈ d.platform.tenants, t.row.id = tenantId →
    ∀ i ∈ t.shop.catalog.items, i.id = itemId → t.KeepsFlag i (value.status.getD i.status)
  | .catalog tenantId _ (.archiveItem itemId _) => ∀ t ∈ d.platform.tenants, t.row.id = tenantId →
    ∀ i ∈ t.shop.catalog.items, i.id = itemId → t.KeepsFlag i .archived
  | .catalog tenantId _ (.updateCategory categoryId _ value) => ∀ t ∈ d.platform.tenants, t.row.id = tenantId →
    t.KeepsCategory categoryId (value.status.getD .draft)
  | .reconcileAll => ∀ t ∈ d.platform.tenants, ∀ i ∈ t.shop.catalog.items,
    SearchReconciliation.isActive i = true → t.activeCategory i.categoryId = none
  | _ => True

instance (t : Tenancy) (item : ItemRow) (status : CatalogStatus) : Decidable (t.KeepsFlag item status) :=
  inferInstanceAs (Decidable (_ ∨ _))

instance (t : Tenancy) (categoryId : Id) (status : CategoryStatus) : Decidable (t.KeepsCategory categoryId status) :=
  inferInstanceAs (Decidable (_ → _))

instance (d : Directory) (q : DirectoryRequest) : Decidable (KeepsProjection d q) := by
  unfold KeepsProjection
  split <;> infer_instance

/-! ## Calls -/

/-- An operation of a tenant has left the other tenants apart, and the search shows the tenant if `C`. -/
structure Directory.Outcome (tenantId : Id) (d d' : Directory) (C : Prop) : Prop where
  sound : d'.Sound
  apart : Directory.Apart tenantId d d'
  shows : ∃ t ∈ d'.platform.tenants, t.row.id = tenantId ∧ (Directory.Shows t d' ↔ C)

section Calls
open Directory
variable {locale : Locale} {actor : Actor} {d d₁ d' : Directory} {t t' : Tenancy} {tenantId : Id} {q : CatalogRequest}
  {answer : CatalogAnswer} {shop : Shop} {r row : ItemRow} {status : Option CatalogStatus}

theorem tenantSettings_place (h : tenantId ≠ "") : (tenantSettings tenantId actor).tenantId = some tenantId := by
  cases actor <;> exact if_neg h

theorem logged_of_commits {α : Type} {x : SearchTx α} {a : α} (h : Commits x d d a d') : d.logged x = d' := by
  rw [Commits] at h
  rw [logged, h]

theorem logged_runIf {c : Prop} [Decidable c] {x : SearchTx Unit} :
    d.logged (runIf c x) = if c then d.logged x else d := by
  unfold runIf
  split <;> rfl

theorem forall_tenant (h : d.Sound) (ht : t ∈ d.platform.tenants) {P : Tenancy → Prop} :
    (∀ u ∈ d.platform.tenants, u.row.id = t.row.id → P u) ↔ P t :=
  ⟨fun hall => hall t ht rfl, fun hP _ hu hid => h.tenantKey.eq hu ht hid ▸ hP⟩

theorem call_cases (h : d.Sound) (hcall : d.call locale tenantId q = some (answer, d₁)) :
    ∃ t ∈ d.platform.tenants, t.row.id = tenantId ∧ ∃ shop, Commits (q.run locale) t.shop t.shop answer shop ∧
      ((∀ i ∈ t.shop.catalog.items, ∃ j ∈ shop.catalog.items, j.id = i.id) →
        Edited t { t with shop } d d₁) := by
  obtain ⟨t, ht, hcall⟩ := Option.bind_eq_some_iff.1 hcall
  have hmem := Table.lookup_mem ht
  obtain rfl := Table.lookup_key ht
  split at hcall
  · next a shop hrun =>
    dsimp only at hcall
    split at hcall
    · next hkeyed =>
      obtain ⟨rfl, rfl⟩ := Prod.mk.inj (Option.some.inj hcall)
      exact ⟨t, hmem, rfl, shop, hrun, fun hitems =>
        h.edited (f := fun t => { t with shop }) hmem (fun _ => rfl) hitems hkeyed⟩
    · exact nomatch hcall
  · exact nomatch hcall

theorem published_iff : t.published = true ↔ ∃ i ∈ t.shop.catalog.items, i.status = .active := by
  simp only [Tenancy.published, List.any_eq_true, decide_eq_true_eq]

theorem publiclyEligible_eq_iff (hopened : t'.opened = t.opened) : t'.publiclyEligible = t.publiclyEligible ↔
    (t.opened = true → (t.published = true ↔ t'.published = true)) := by
  rw [Tenancy.publiclyEligible, Tenancy.publiclyEligible, hopened, Bool.eq_iff_iff]
  cases t.opened with
  | false => simp
  | true => simp [iff_comm]

/-- A call leaves the tenant as open as it was. -/
theorem opened_of_run (hrun : Commits (q.run locale) t.shop t.shop answer shop) :
    ({ t with shop } : Tenancy).opened = t.opened := by
  have haccounts : shop.db.accounts = t.shop.db.accounts := CatalogRequest.run_sameAccounts q _ _ _ _ hrun
  simp only [Tenancy.opened, Tenancy.connected, Tenancy.primaryLocation, haccounts]

theorem keepsFlag_iff (h : Rewritten t status r row) (hopened : t'.opened = t.opened)
    (hentry : ∀ i, t'.entry i = t.entry i)
    (hitems : t'.shop.catalog.items = Table.updateWhere (·.id = r.id) (fun _ => row) t.shop.catalog.items) :
    (t'.entry row).isSome ∨ t'.publiclyEligible = t.publiclyEligible ↔ t.KeepsFlag r (status.getD r.status) := by
  have hlisted : (t'.entry row).isSome ↔ row.status = .active ∧ row.archivedAt = none := by
    simp only [hentry, Option.isSome_iff_exists, Tenancy.entry_eq_some, SearchReconciliation.isActive,
      Bool.and_eq_true, decide_eq_true_eq, Option.isNone_iff_eq_none]
    constructor
    · rintro ⟨_, hactive, -⟩
      exact hactive
    · rintro ⟨hactive, harchived⟩
      obtain ⟨c, hc⟩ := Option.isSome_iff_exists.1 (h.published hactive)
      exact ⟨_, ⟨hactive, harchived⟩, c, hc, rfl⟩
  have hpublished : t'.published = true ↔
      row.status = .active ∨ ∃ i ∈ t.shop.catalog.items, i.id ≠ r.id ∧ i.status = .active := by
    simp only [published_iff, hitems, Table.mem_updateWhere]
    constructor
    · rintro ⟨_, ⟨i, hi, rfl⟩, hactive⟩
      by_cases hid : i.id = r.id
      · exact .inl (by simpa [hid] using hactive)
      · exact .inr ⟨i, hi, hid, by simpa [hid] using hactive⟩
    · rintro (hactive | ⟨i, hi, hid, hactive⟩)
      · exact ⟨row, ⟨r, h.mem, by simp⟩, hactive⟩
      · exact ⟨i, ⟨i, hi, by simp [hid]⟩, hactive⟩
  rw [Tenancy.KeepsFlag, hlisted, publiclyEligible_eq_iff hopened, hpublished, published_iff, h.status, h.archivedAt]

/-- `updateItem` and `archiveItem`, and their synchronization. -/
theorem outcome_rewritten {version : Nat} {value input : CatalogItemPatch} {before : ItemRow} {itemId : Id}
    {category : CategoryRow} {barcode : Option String} (h : d.Sound) (ht : t ∈ d.platform.tenants) (hs : Shows t d)
    (hrun : Commits (q.run locale) t.shop t.shop answer shop)
    (hedit : (∀ i ∈ t.shop.catalog.items, ∃ j ∈ shop.catalog.items, j.id = i.id) → Edited t { t with shop } d d₁)
    (hrow : CatalogService.ItemUpdated locale itemId version value input t.shop t.shop before category barcode r row shop) :
    Outcome t.row.id d (d₁.logged (SearchProjectionSync.syncItem (tenantSettings t.row.id actor) t.row.id row))
      (∀ i ∈ t.shop.catalog.items, i.id = itemId → t.KeepsFlag i (value.status.getD i.status)) := by
  obtain ⟨rfl, hrewritten⟩ := rewritten_of_updated (h.itemKey ht) hrow
  have hcatalog := hrow.catalog
  have hitems : shop.catalog.items = Table.updateWhere (·.id = r.id) (fun _ => row) t.shop.catalog.items := by
    rw [hcatalog]
  have hedit := hedit fun i hi => by
    rw [hitems]
    by_cases hid : i.id = r.id
    · exact ⟨row, Table.mem_updateWhere_of hi (decide_eq_true hid), hrewritten.id.trans hid.symm⟩
    · exact ⟨i, Table.mem_updateWhere_of_not hi (decide_eq_false hid), rfl⟩
  have hplace : (tenantSettings t.row.id actor).tenantId = some t.row.id := tenantSettings_place (h.tenantIds t ht)
  have hentry : ∀ i, ({ t with shop } : Tenancy).entry i = t.entry i := fun i =>
    Tenancy.entry_congr rfl rfl (by simp only [hcatalog])
      (by simp only [Tenancy.activeCategory, CatalogRepository.findCategory, hcatalog])
  have hi : row ∈ shop.catalog.items := by
    rw [hitems]
    exact Table.mem_updateWhere_of hrewritten.mem (decide_eq_true rfl)
  have hsync := syncItem_own (v := d₁) (t := { t with shop }) (hedit.sound.seated hedit.mem hplace) hi
  rw [logged_of_commits hsync]
  refine ⟨hedit.sound.recordItem hedit.mem hplace hi,
    hedit.apart.trans (hedit.sound.apart_recordItem hedit.mem hplace hi), { t with shop }, ?_, rfl, ?_⟩
  · rw [recordItem_platform]
    exact hedit.mem
  · rw [shows_recordItem_iff hedit hs hplace hi fun e =>
      mem_listing_updateWhere hentry hrewritten.mem rfl hrewritten.id hitems,
      keepsFlag_iff hrewritten (opened_of_run hrun) hentry hitems]
    constructor
    · intro hkeeps i hi hid
      rw [(h.itemKey ht).eq hi hrewritten.mem hid]
      exact hkeeps
    · exact fun hall => hall r hrewritten.mem rfl

theorem outcome_createItem {value : CatalogItemInput} {newId : Id} (h : d.Sound) (ht : t ∈ d.platform.tenants)
    (hs : Shows t d) (hrun : Commits (q.run locale) t.shop t.shop answer shop)
    (hedit : (∀ i ∈ t.shop.catalog.items, ∃ j ∈ shop.catalog.items, j.id = i.id) → Edited t { t with shop } d d₁)
    (hrow : Commits (CatalogService.createItem locale value newId) t.shop t.shop row shop) :
    Outcome t.row.id d (d₁.logged (runIf (row.status = .active)
      (SearchProjectionSync.syncItem (tenantSettings t.row.id actor) t.row.id row))) True := by
  obtain ⟨input, category, barcode, -, hplaced, hpublish, -, hnew, hconstraints, hcatalog⟩ :=
    CatalogService.createItem_cases hrow
  have hfresh := (CatalogRepository.itemConstraints_hold hconstraints).1
  have hitems : shop.catalog.items = t.shop.catalog.items ++ [row] := by rw [hcatalog]
  have hedit := hedit fun i hi => ⟨i, hitems ▸ List.mem_append_left _ hi, rfl⟩
  have hentry : ∀ i, ({ t with shop } : Tenancy).entry i = t.entry i := fun i =>
    Tenancy.entry_congr rfl rfl (by simp only [hcatalog])
      (by simp only [Tenancy.activeCategory, CatalogRepository.findCategory, hcatalog])
  have hlisting : ∀ e, e ∈ ({ t with shop } : Tenancy).listing ↔ e ∈ t.listing ∨ t.entry row = some e := by
    intro e
    simp only [Tenancy.mem_listing, hitems, hentry, List.mem_append, List.mem_singleton, or_and_right, exists_or,
      exists_eq_left]
  rw [logged_runIf]
  split
  · next hactive =>
    have hi : row ∈ shop.catalog.items := hitems ▸ List.mem_append_right _ (List.mem_singleton_self row)
    have hplace : (tenantSettings t.row.id actor).tenantId = some t.row.id := tenantSettings_place (h.tenantIds t ht)
    have hsync := syncItem_own (v := d₁) (t := { t with shop }) (hedit.sound.seated hedit.mem hplace) hi
    rw [logged_of_commits hsync]
    refine ⟨hedit.sound.recordItem hedit.mem hplace hi,
      hedit.apart.trans (hedit.sound.apart_recordItem hedit.mem hplace hi), { t with shop }, ?_, rfl, ?_⟩
    · rw [recordItem_platform]
      exact hedit.mem
    · refine (shows_recordItem_iff hedit hs hplace hi fun e => ?_).trans (iff_true_intro (.inl ?_))
      · rw [hlisting, hentry]
        refine or_congr ⟨fun he => ⟨he, fun hid => ?_⟩, And.left⟩ Iff.rfl
        obtain ⟨i, hi, hie⟩ := Tenancy.mem_listing.1 he
        exact hfresh i hi ((Tenancy.entry_itemId hie).symm.trans hid)
      · have hstatus : input.status = some .active := by
          rw [hnew] at hactive
          revert hactive
          show input.status.getD .draft = .active → _
          cases input.status with
          | none =>
            intro hdraft
            cases hdraft
          | some s => exact fun hs => congrArg some hs
        have hcategory : t.activeCategory row.categoryId = some category := by
          rw [hnew]
          show t.activeCategory input.categoryId = _
          rw [Tenancy.activeCategory, hplaced, Option.filter_some, assertPublishable_active (hpublish hstatus)]
          rfl
        have harchived : row.archivedAt = none := by rw [hnew]; rfl
        rw [hentry, Option.isSome_iff_exists]
        refine ⟨_, Tenancy.entry_eq_some.2 ⟨?_, category, hcategory, rfl⟩⟩
        rw [SearchReconciliation.isActive, hactive, harchived]
        rfl
  · next hinactive =>
    have hnone : t.entry row = none := by
      rw [Tenancy.entry, if_neg]
      simp [SearchReconciliation.isActive, hinactive]
    refine ⟨hedit.sound, hedit.apart, { t with shop }, hedit.mem, rfl, ?_⟩
    rw [hedit.shows_iff hs fun e => by rw [hlisting, hnone]; simp, publiclyEligible_eq_iff (opened_of_run hrun)]
    refine iff_true_intro fun _ => ?_
    simp only [published_iff, hitems, List.mem_append, List.mem_singleton, or_and_right, exists_or, exists_eq_left,
      hinactive, or_false]

/-- Calls that are not followed by a synchronization, and need none. -/
theorem outcome_unsynced (hs : Shows t d) (hrun : Commits (q.run locale) t.shop t.shop answer shop)
    (hedit : (∀ i ∈ t.shop.catalog.items, ∃ j ∈ shop.catalog.items, j.id = i.id) → Edited t { t with shop } d d₁)
    (hitems : shop.catalog.items = t.shop.catalog.items)
    (hentry : ∀ i ∈ t.shop.catalog.items, ({ t with shop } : Tenancy).entry i = t.entry i) :
    Outcome t.row.id d d₁ True := by
  have hedit := hedit fun i hi => ⟨i, hitems ▸ hi, rfl⟩
  refine ⟨hedit.sound, hedit.apart, { t with shop }, hedit.mem, rfl, ?_⟩
  have hlisting : ∀ e, e ∈ ({ t with shop } : Tenancy).listing ↔ e ∈ t.listing := by
    intro e
    simp only [Tenancy.mem_listing, hitems]
    exact exists_congr fun i => and_congr_right fun hi => by rw [hentry i hi]
  rw [hedit.shows_iff hs hlisting, publiclyEligible_eq_iff (opened_of_run hrun)]
  exact iff_true_intro fun _ => by rw [published_iff, published_iff, hitems]

end Calls

/-! ### Categories -/

section Categories
open Directory
variable {locale : Locale} {actor : Actor} {d d₁ d' : Directory} {t t' : Tenancy} {tenantId categoryId : Id}
  {q : CatalogRequest} {answer : CatalogAnswer} {shop : Shop} {r row : CategoryRow} {item : ItemRow}

theorem outcome_createCategory {value : CategoryInput} {newId : Id} (h : d.Sound) (ht : t ∈ d.platform.tenants)
    (hs : Shows t d) (hrun : Commits (q.run locale) t.shop t.shop answer shop)
    (hedit : (∀ i ∈ t.shop.catalog.items, ∃ j ∈ shop.catalog.items, j.id = i.id) → Edited t { t with shop } d d₁)
    (hrow : Commits (CatalogService.createCategory locale value newId) t.shop t.shop row shop) :
    Outcome t.row.id d d₁ True := by
  obtain ⟨input, -, -, hconstraints, hcatalog⟩ := CatalogService.createCategory_cases hrow
  simp only [CatalogRepository.categoryConstraints, List.forall_mem_cons, decide_eq_true_eq,
    List.all_eq_true] at hconstraints
  refine outcome_unsynced hs hrun hedit (by rw [hcatalog]) fun i hi => ?_
  refine Tenancy.entry_congr rfl rfl (by simp only [hcatalog]) ?_
  obtain ⟨c, hc, hid⟩ := h.hasCategory ht hi
  have hne : row.id ≠ i.categoryId := fun heq => hconstraints.2.1 c hc (hid.trans heq.symm)
  simp only [Tenancy.activeCategory, CatalogRepository.findCategory, hcatalog, Table.lookup_append_of_ne hne]

/-- One category of a tenant has been written. -/
structure Recategorised (t t' : Tenancy) (categoryId : Id) (r row : CategoryRow) : Prop where
  mem : r ∈ t.shop.catalog.categories
  key : Table.UniqueOn CategoryRow.id t.shop.catalog.categories
  id : r.id = categoryId
  rowId : row.id = categoryId
  categories : t'.shop.catalog.categories =
    Table.updateWhere (·.id = categoryId) (fun _ => row) t.shop.catalog.categories
  tenant : t'.row = t.row
  media : t'.shop.catalog.media = t.shop.catalog.media
  items : t'.shop.catalog.items = t.shop.catalog.items

theorem Recategorised.of_updated {version : Nat} (h : d.Sound) (ht : t ∈ d.platform.tenants)
    (hr : t.shop.catalog.categories.find? (fun r => r.id = categoryId && r.version = version) = some r)
    (hid : row.id = r.id)
    (hcatalog : shop.catalog = { t.shop.catalog with
      categories := Table.updateWhere (·.id = categoryId) (fun _ => row) t.shop.catalog.categories }) :
    Recategorised t { t with shop } categoryId r row := by
  have hfound := List.find?_some hr
  simp only [Bool.and_eq_true, decide_eq_true_eq] at hfound
  exact ⟨List.mem_of_find?_eq_some hr, h.categoryKey ht, hfound.1, hid.trans hfound.1, by rw [hcatalog], rfl,
    by rw [hcatalog],
    by rw [hcatalog]⟩

/-- The category that has been written is found in its place. -/
theorem Recategorised.activeCategory (h : Recategorised t t' categoryId r row) (id : Id) : t'.activeCategory id =
    if id = categoryId then (some row).filter (fun c => c.status = .active) else t.activeCategory id := by
  have hsame : ∀ c : CategoryRow, decide (c.id = categoryId) = true → row.id = c.id := fun c hc => by
    rw [h.rowId, of_decide_eq_true hc]
  rw [Tenancy.activeCategory, CatalogRepository.findCategory, h.categories, Table.lookup_updateWhere hsame]
  by_cases hid : id = categoryId
  · rw [if_pos hid, hid, ← h.id, h.key.lookup h.mem]
    simp
  · rw [if_neg hid, Tenancy.activeCategory, CatalogRepository.findCategory]
    cases hl : Table.lookup CategoryRow.id id t.shop.catalog.categories with
    | none => rfl
    | some c =>
      have hc : c.id ≠ categoryId := by rw [Table.lookup_key hl]; exact hid
      rw [Option.map_some, if_neg (by simpa using hc)]

theorem Recategorised.before (h : Recategorised t t' categoryId r row) :
    t.activeCategory categoryId = (some r).filter (fun c => c.status = .active) := by
  rw [Tenancy.activeCategory, CatalogRepository.findCategory, ← h.id, h.key.lookup h.mem]

theorem Recategorised.entry_of_ne (h : Recategorised t t' categoryId r row) (hne : item.categoryId ≠ categoryId) :
    t'.entry item = t.entry item :=
  Tenancy.entry_congr (by rw [h.tenant]) (by rw [h.tenant]) h.media (by rw [h.activeCategory, if_neg hne])

theorem entry_of_inactive (h : SearchReconciliation.isActive item = false) : t.entry item = none := by
  rw [Tenancy.entry, h]
  rfl

theorem outcome_archiveCategory {version : Nat} {now : Instant} (h : d.Sound) (ht : t ∈ d.platform.tenants)
    (hs : Shows t d) (hrun : Commits (q.run locale) t.shop t.shop answer shop)
    (hedit : (∀ i ∈ t.shop.catalog.items, ∃ j ∈ shop.catalog.items, j.id = i.id) → Edited t { t with shop } d d₁)
    (hrow : Commits (CatalogService.archiveCategory categoryId version now) t.shop t.shop row shop) :
    Outcome t.row.id d d₁ True := by
  obtain ⟨r, hchildren, hr, hwritten, hcatalog⟩ := CatalogService.archiveCategory_cases hrow
  have hnone : ∀ i ∈ t.shop.catalog.items, i.categoryId = categoryId → i.status = .archived := by
    have hcount := (Nat.add_eq_zero_iff.1 hchildren).1
    intro i hi hid
    by_contra hstatus
    exact List.countP_eq_zero.1 hcount i hi (by simp [hid, hstatus])
  have hcategory : Recategorised t { t with shop } categoryId r row :=
    .of_updated h ht hr (by rw [hwritten]) hcatalog
  refine outcome_unsynced hs hrun hedit hcategory.items fun i hi => ?_
  by_cases hid : i.categoryId = categoryId
  · have hinactive : SearchReconciliation.isActive i = false := by
      simp [SearchReconciliation.isActive, hnone i hi hid]
    rw [entry_of_inactive hinactive, entry_of_inactive hinactive]
  · exact hcategory.entry_of_ne hid

/-- Two projections of the items that keep their ids show the same if and only if they agree on every item. -/
theorem projections_eq_iff {items : List ItemRow} {f g : ItemRow → Option SearchEntryRow}
    (hkey : Table.UniqueOn ItemRow.id items) (hf : ∀ i e, f i = some e → e.itemId = i.id)
    (hg : ∀ i e, g i = some e → e.itemId = i.id) :
    (∀ e, (∃ i ∈ items, f i = some e) ↔ ∃ i ∈ items, g i = some e) ↔ ∀ i ∈ items, f i = g i := by
  constructor
  · intro hall i hi
    refine Option.ext fun e => ⟨fun he => ?_, fun he => ?_⟩
    · obtain ⟨j, hj, hje⟩ := (hall e).1 ⟨i, hi, he⟩
      rw [hkey.eq hi hj ((hf i e he).symm.trans (hg j e hje))]
      exact hje
    · obtain ⟨j, hj, hje⟩ := (hall e).2 ⟨i, hi, he⟩
      rw [hkey.eq hi hj ((hg i e he).symm.trans (hf j e hje))]
      exact hje
  · intro hall e
    exact exists_congr fun i => and_congr_right fun hi => by rw [hall i hi]

/-- `updateCategoryNameForEntries` on the entries of a tenant. -/
def renameEntry (categoryId : Id) (name : String) (e : SearchEntryRow) : SearchEntryRow :=
  if e.categoryId = categoryId then { e with categoryName := name } else e

def Directory.renamed (tenantId categoryId : Id) (name : String) (d : Directory) : Directory :=
  { d with
    catalogSearchEntries := Table.updateWhere (fun r => r.1 = tenantId && r.2.categoryId = categoryId)
      (fun r => (r.1, { r.2 with categoryName := name })) d.catalogSearchEntries }

theorem syncCategoryRename_own {settings : TxSettings} {name : String} (hplace : settings.tenantId = some tenantId) :
    Commits (SearchProjectionSync.syncCategoryRename settings tenantId categoryId name) d d ()
      (d.renamed tenantId categoryId name) := by
  rw [SearchProjectionSync.syncCategoryRename, SearchRepository.updateCategoryNameForEntries, commits_write, renamed,
    RowSecurity.update, Table.updateWhere, Table.updateWhere]
  congr 1
  refine List.map_congr_left fun r _ => ?_
  by_cases hr : r.1 = tenantId
  · simp [RlsTable.policy, hplace, hr]
  · simp [hr]

theorem mem_renamed {name : String} {r : Id × SearchEntryRow} :
    r ∈ (d.renamed tenantId categoryId name).catalogSearchEntries ↔
    ∃ r₀ ∈ d.catalogSearchEntries,
      (if r₀.1 = tenantId then (r₀.1, renameEntry categoryId name r₀.2) else r₀) = r := by
  rw [renamed, Table.mem_updateWhere]
  refine exists_congr fun r₀ => and_congr_right fun _ => Eq.congr_left ?_
  unfold renameEntry
  by_cases hr : r₀.1 = tenantId <;> by_cases hc : r₀.2.categoryId = categoryId <;> simp [hr, hc, Prod.ext_iff]

theorem renameEntry_itemId {name : String} {e : SearchEntryRow} : (renameEntry categoryId name e).itemId = e.itemId := by
  unfold renameEntry
  split <;> rfl

theorem Directory.Sound.renamed {name : String} (h : d.Sound) : (d.renamed tenantId categoryId name).Sound := by
  refine ⟨h.tenantKey, h.tenantIds, h.keyed, h.entryKey.updateWhere fun _ _ => rfl, fun r hr => ?_⟩
  obtain ⟨r₀, hr₀, rfl⟩ := mem_renamed.1 hr
  obtain ⟨t, ht, htr, i, hi, hir⟩ := h.entryItem r₀ hr₀
  refine ⟨t, ht, ?_, i, hi, ?_⟩
  · rw [htr]; split <;> rfl
  · rw [hir]; split
    · exact renameEntry_itemId.symm
    · rfl

theorem apart_renamed {name : String} : Apart tenantId d (d.renamed tenantId categoryId name) := by
  refine ⟨fun _ hu _ => hu, fun r hr => ?_, fun _ _ => rfl⟩
  rw [mem_renamed]
  constructor
  · rintro ⟨r₀, hr₀, rfl⟩
    by_cases hid : r₀.1 = tenantId
    · rw [if_pos hid] at hr
      exact absurd hid hr
    · rwa [if_neg hid]
  · exact fun hr' => ⟨r, hr', if_neg hr⟩

/-- An item of the category is shown as it is, under the category's new name, if and only if the category goes neither
in nor out of sale. -/
theorem Recategorised.entry_iff (h : Recategorised t t' categoryId r row) :
    (t.entry item).map (renameEntry categoryId row.name) = t'.entry item ↔
      (item.categoryId = categoryId → SearchReconciliation.isActive item = true →
        ((t.activeCategory categoryId).isSome ↔ row.status = .active)) := by
  have himage : t'.imageUrl item = t.imageUrl item := by rw [Tenancy.imageUrl, Tenancy.imageUrl, h.media]
  by_cases hcategory : item.categoryId = categoryId
  · cases hactive : SearchReconciliation.isActive item with
    | false => simp [entry_of_inactive hactive]
    | true =>
      rw [Tenancy.entry, Tenancy.entry, hactive, if_pos rfl, if_pos rfl, hcategory, h.activeCategory, if_pos rfl,
        h.before, h.tenant, himage]
      by_cases h₀ : r.status = .active <;> by_cases h₁ : row.status = .active <;>
        simp [Option.filter_some, h₀, h₁, SearchProjectionSync.searchEntryRow, renameEntry, hcategory]
  · refine iff_of_true ?_ fun hid => absurd hid hcategory
    rw [h.entry_of_ne hcategory]
    cases hentry : t.entry item with
    | none => rfl
    | some e =>
      obtain ⟨-, c, -, rfl⟩ := Tenancy.entry_eq_some.1 hentry
      exact congrArg some (if_neg hcategory)

/-- Under its old name a category is renamed to itself. -/
theorem Recategorised.renameEntry_eq (h : Recategorised t t' categoryId r row) (hname : row.name = r.name)
    {e : SearchEntryRow} (he : e ∈ t.listing) : renameEntry categoryId row.name e = e := by
  obtain ⟨i, -, hie⟩ := Tenancy.mem_listing.1 he
  obtain ⟨-, c, hc, rfl⟩ := Tenancy.entry_eq_some.1 hie
  unfold renameEntry
  split
  · next hid =>
    have hcategory : i.categoryId = categoryId := hid
    rw [hcategory, h.before, Option.filter_eq_some_iff] at hc
    rw [hname, Option.some.inj hc.1]
    rfl
  · rfl

/-- The entries of a tenant under the new name of a category. -/
theorem mem_renamed_listing {name : String} {e : SearchEntryRow}
    (hs : ∀ e, (t.row.id, e) ∈ d.catalogSearchEntries ↔ e ∈ t.listing) :
    (t.row.id, e) ∈ (d.renamed t.row.id categoryId name).catalogSearchEntries ↔
      ∃ e₀ ∈ t.listing, renameEntry categoryId name e₀ = e := by
  rw [mem_renamed]
  constructor
  · rintro ⟨r₀, hr₀, heq⟩
    split at heq
    · next hid =>
      obtain ⟨-, rfl⟩ := Prod.mk.inj heq
      exact ⟨r₀.2, (hs r₀.2).1 (hid ▸ hr₀), rfl⟩
    · next hid => exact absurd (congrArg Prod.fst heq) hid
  · rintro ⟨e₀, he₀, rfl⟩
    exact ⟨(t.row.id, e₀), (hs e₀).2 he₀, if_pos rfl⟩

/-- With the entries renamed and the flag as it was, the search shows the tenant under the condition. -/
theorem Recategorised.shows_iff (h : Recategorised t t' categoryId r row)
    (hitems : Table.UniqueOn ItemRow.id t.shop.catalog.items) (hflag : d'.isPubliclyEligible t.row.id = t'.publiclyEligible)
    (hentries : ∀ e, (t.row.id, e) ∈ d'.catalogSearchEntries ↔ ∃ e₀ ∈ t.listing, renameEntry categoryId row.name e₀ = e) :
    Shows t' d' ↔ t.KeepsCategory categoryId row.status := by
  have hold : ∀ e, (∃ e₀ ∈ t.listing, renameEntry categoryId row.name e₀ = e) ↔
      ∃ i ∈ t.shop.catalog.items, (t.entry i).map (renameEntry categoryId row.name) = some e := by
    intro e
    simp only [Tenancy.mem_listing, Option.map_eq_some_iff]
    constructor
    · rintro ⟨e₀, ⟨i, hi, he₀⟩, he⟩
      exact ⟨i, hi, e₀, he₀, he⟩
    · rintro ⟨i, hi, e₀, he₀, he⟩
      exact ⟨e₀, ⟨i, hi, he₀⟩, he⟩
  have hnew : ∀ e, e ∈ t'.listing ↔ ∃ i ∈ t.shop.catalog.items, t'.entry i = some e := by
    intro e
    rw [Tenancy.mem_listing, h.items]
  have hid : t'.row.id = t.row.id := by rw [h.tenant]
  have hshows : Shows t' d' ↔ ∀ e, (∃ i ∈ t.shop.catalog.items,
      (t.entry i).map (renameEntry categoryId row.name) =
        some e) ↔ ∃ i ∈ t.shop.catalog.items, t'.entry i = some e := by
    simp only [← hold, ← hnew]
    constructor
    · exact fun hs e => (hentries e).symm.trans (hid ▸ hs.entries e)
    · exact fun hall => ⟨fun e => hid ▸ (hentries e).trans (hall e), hid ▸ hflag⟩
  rw [hshows, projections_eq_iff hitems _ fun i e he => Tenancy.entry_itemId he]
  · simp only [h.entry_iff]
    constructor
    · rintro hall ⟨i, hi, hcategory, hactive⟩
      exact hall i hi hcategory hactive
    · exact fun hkeeps i hi hcategory hactive => hkeeps ⟨i, hi, hcategory, hactive⟩
  · intro i e he
    obtain ⟨e₀, he₀, rfl⟩ := Option.map_eq_some_iff.1 he
    exact renameEntry_itemId.trans (Tenancy.entry_itemId he₀)

theorem outcome_updateCategory {version : Nat} {value : CategoryPatch} (h : d.Sound) (ht : t ∈ d.platform.tenants)
    (hs : Shows t d) (hrun : Commits (q.run locale) t.shop t.shop answer shop)
    (hedit : (∀ i ∈ t.shop.catalog.items, ∃ j ∈ shop.catalog.items, j.id = i.id) → Edited t { t with shop } d d₁)
    (hrow : Commits (CatalogService.updateCategory locale categoryId version value) t.shop t.shop row shop) :
    Outcome t.row.id d (d₁.logged (runIf value.name.isSome
      (SearchProjectionSync.syncCategoryRename (tenantSettings t.row.id actor) t.row.id categoryId row.name)))
      (t.KeepsCategory categoryId (value.status.getD .draft)) := by
  obtain ⟨input, r, hinput, hr, hwritten, -, hcatalog⟩ := CatalogService.updateCategory_cases hrow
  have hinput := parsed_ok hinput
  have hcategory : Recategorised t { t with shop } categoryId r row :=
    .of_updated h ht hr (by rw [hwritten]; rfl) hcatalog
  have hedit := hedit fun i hi => ⟨i, hcategory.items ▸ hi, rfl⟩
  have hstatus : row.status = value.status.getD .draft := by rw [hwritten, hinput]; rfl
  have hflag : d₁.isPubliclyEligible t.row.id = ({ t with shop } : Tenancy).publiclyEligible := by
    rw [hedit.flag, hs.eligible]
    refine ((publiclyEligible_eq_iff (opened_of_run hrun)).2 fun _ => ?_).symm
    rw [published_iff, published_iff, hcategory.items]
  have hentries : ∀ e, (t.row.id, e) ∈ d₁.catalogSearchEntries ↔ e ∈ t.listing := hedit.entries ▸ hs.entries
  rw [logged_runIf, ← hstatus]
  split
  · rw [logged_of_commits (syncCategoryRename_own (tenantSettings_place (h.tenantIds t ht)))]
    exact ⟨hedit.sound.renamed, hedit.apart.trans apart_renamed, { t with shop }, hedit.mem, rfl,
      hcategory.shows_iff (h.itemKey ht) hflag fun e => mem_renamed_listing hentries⟩
  · next hunnamed =>
    have hname : row.name = r.name := by
      rw [hwritten, hinput, CatalogService.setCategory, Option.not_isSome_iff_eq_none.1 hunnamed]
      rfl
    refine ⟨hedit.sound, hedit.apart, { t with shop }, hedit.mem, rfl,
      hcategory.shows_iff (h.itemKey ht) hflag fun e => ?_⟩
    rw [hentries]
    constructor
    · exact fun he => ⟨e, he, hcategory.renameEntry_eq hname he⟩
    · rintro ⟨e₀, he₀, rfl⟩
      rw [hcategory.renameEntry_eq hname he₀]
      exact he₀

end Categories

/-! ### Every call -/

section EveryCall
open Directory
variable {locale : Locale} {actor : Actor} {d d' : Directory} {t : Tenancy} {tenantId : Id} {q : CatalogRequest}
  {answer : CatalogAnswer} {shop : Shop}

/-- Add-on groups and combos. -/
theorem outcome_goods (hs : Shows t d) (hrun : Commits (q.run locale) t.shop t.shop answer shop)
    (hedit : (∀ i ∈ t.shop.catalog.items, ∃ j ∈ shop.catalog.items, j.id = i.id) → Edited t { t with shop } d d')
    (hgoods : shop.catalog.goods = t.shop.catalog.goods) : Outcome t.row.id d d' True := by
  simp only [CatalogTables.goods, Prod.mk.injEq] at hgoods
  obtain ⟨-, hmedia, hcategories, hitems⟩ := hgoods
  exact outcome_unsynced hs hrun hedit hitems fun i _ => Tenancy.entry_congr rfl rfl hmedia
    (by simp only [Tenancy.activeCategory, CatalogRepository.findCategory, hcategories])

theorem outcome_call (h : d.Sound) (hs : ∀ t ∈ d.platform.tenants, Shows t d)
    (hstep : (DirectoryRequest.catalog tenantId actor q).exec locale d = some d') :
    Outcome tenantId d d' (KeepsProjection d (.catalog tenantId actor q)) := by
  obtain ⟨⟨answer, d₁⟩, hcall, rfl⟩ := Option.map_eq_some_iff.1 hstep
  obtain ⟨t, ht, rfl, shop, hrun, hedit⟩ := call_cases h hcall
  have hshows := hs t ht
  cases q with
  | createCategory value newId =>
    obtain ⟨row, hrow, rfl⟩ := commits_map.1 hrun
    exact outcome_createCategory h ht hshows hrun hedit hrow
  | updateCategory categoryId version value =>
    obtain ⟨row, hrow, rfl⟩ := commits_map.1 hrun
    rw [KeepsProjection, forall_tenant h ht]
    exact outcome_updateCategory h ht hshows hrun hedit hrow
  | archiveCategory categoryId version now =>
    obtain ⟨row, hrow, rfl⟩ := commits_map.1 hrun
    exact outcome_archiveCategory h ht hshows hrun hedit hrow
  | createItem value newId =>
    obtain ⟨row, hrow, rfl⟩ := commits_map.1 hrun
    exact outcome_createItem h ht hshows hrun hedit hrow
  | updateItem itemId version value =>
    obtain ⟨row, hrow, rfl⟩ := commits_map.1 hrun
    obtain ⟨input, before, category, barcode, r, hrow⟩ := CatalogService.updateItem_cases hrow
    rw [KeepsProjection, forall_tenant h ht]
    exact outcome_rewritten h ht hshows hrun hedit hrow
  | archiveItem itemId version =>
    obtain ⟨row, hrow, rfl⟩ := commits_map.1 hrun
    obtain ⟨input, before, category, barcode, r, hrow⟩ := CatalogService.archiveItem_cases hrow
    rw [KeepsProjection, forall_tenant h ht]
    exact outcome_rewritten h ht hshows hrun hedit hrow
  | createAddonGroup value newId optionIds =>
    exact outcome_goods hshows hrun hedit ((CatalogRequest.run_written hrun).goods_eq (.inl rfl))
  | updateAddonGroup groupId version value optionIds =>
    exact outcome_goods hshows hrun hedit ((CatalogRequest.run_written hrun).goods_eq (.inl rfl))
  | archiveAddonGroup groupId version =>
    exact outcome_goods hshows hrun hedit ((CatalogRequest.run_written hrun).goods_eq (.inl rfl))
  | createCombo value newId =>
    exact outcome_goods hshows hrun hedit ((CatalogRequest.run_written hrun).goods_eq (.inr rfl))
  | updateCombo comboId version value =>
    exact outcome_goods hshows hrun hedit ((CatalogRequest.run_written hrun).goods_eq (.inr rfl))
  | archiveCombo comboId version =>
    exact outcome_goods hshows hrun hedit ((CatalogRequest.run_written hrun).goods_eq (.inr rfl))

end EveryCall

/-! ## Settings -/

/-- A tenant has been edited that keeps its catalog and its names. -/
structure Directory.Reconfigured (t t' : Tenancy) (d d' : Directory) : Prop extends Directory.Edited t t' d d' where
  shop : t'.shop = t.shop
  name : t'.row.name = t.row.name
  slug : t'.row.slug = t.row.slug

section Settings
open Directory TenantSettingsService
variable {d d₁ d₂ d' v : Directory} {t t₁ t' : Tenancy} {tenantId : Id} {actor : Actor} {f : Tenancy → Tenancy}
  {u : Unit}
  {locale : Locale}

theorem Directory.Reconfigured.trans (h : Reconfigured t t₁ d d₁) (h' : Reconfigured t₁ t' d₁ d') :
    Reconfigured t t' d d' :=
  ⟨h.toEdited.trans h'.toEdited, h'.shop.trans h.shop, h'.name.trans h.name, h'.slug.trans h.slug⟩

theorem Directory.Sound.refl (h : d.Sound) (ht : t ∈ d.platform.tenants) : Reconfigured t t d d :=
  ⟨⟨h, ht, rfl, Apart.refl, rfl, rfl⟩, rfl, rfl, rfl⟩

/-- The records of activations are apart from all this. -/
theorem Directory.Sound.activations (h : d.Sound) (ht : t ∈ d.platform.tenants)
    (rows : List (Idempotency.Record Id ActivationResponse)) : Reconfigured t t d { d with activations := rows } :=
  ⟨⟨⟨h.tenantKey, h.tenantIds, h.keyed, h.entryKey, h.entryItem⟩, ht, rfl,
    ⟨fun _ hu _ => hu, fun _ _ => Iff.rfl, fun _ _ => rfl⟩, rfl, rfl⟩, rfl, rfl, rfl⟩

theorem keyed_modify {p : Platform} (hrow : ∀ u, (f u).row.id = u.row.id) (hshop : ∀ u, (f u).shop = u.shop) :
    (p.modify tenantId f).keyed = p.keyed := by
  have hitems : (p.modify tenantId f).catalogItems = p.catalogItems := Platform.table_modify hrow fun u => by rw [hshop]
  have hcategories : (p.modify tenantId f).catalogCategories = p.catalogCategories :=
    Platform.table_modify hrow fun u => by rw [hshop]
  rw [Platform.keyed, Platform.keyed, hitems, hcategories]
  congr 1
  rw [Platform.modify, Table.updateWhere, List.all_map]
  refine List.all_congr rfl fun u => ?_
  rw [Function.comp_apply]
  split
  · rw [hshop]
  · rfl

theorem Directory.Sound.reconfigured (h : d.Sound) (ht : t ∈ d.platform.tenants) (hrow : ∀ u, (f u).row.id = u.row.id)
    (hshop : ∀ u, (f u).shop = u.shop) (hname : (f t).row.name = t.row.name) (hslug : (f t).row.slug = t.row.slug) :
    Reconfigured t (f t) d { d with platform := d.platform.modify t.row.id f } :=
  ⟨h.edited ht hrow (fun i hi => ⟨i, by rw [hshop]; exact hi, rfl⟩) ((keyed_modify hrow hshop).trans h.keyed),
    hshop t, hname, hslug⟩

theorem Directory.Reconfigured.mem_listing (h : Reconfigured t t' d d') (e : SearchEntryRow) :
    e ∈ t'.listing ↔ e ∈ t.listing := by
  have hentry : ∀ i, t'.entry i = t.entry i := fun i => Tenancy.entry_congr h.name h.slug (by rw [h.shop])
    (by rw [Tenancy.activeCategory, Tenancy.activeCategory, h.shop])
  simp only [Tenancy.mem_listing, h.shop, hentry]

/-- An edit that does not touch what ordering takes. -/
theorem outcome_unshown (h : Reconfigured t t' d d') (hs : Shows t d) (hopened : t'.opened = t.opened) :
    Outcome t.row.id d d' True := by
  refine ⟨h.sound, h.apart, t', h.mem, h.id, ?_⟩
  rw [h.shows_iff hs h.mem_listing, publiclyEligible_eq_iff hopened]
  exact iff_true_intro fun _ => by rw [published_iff, published_iff, h.shop]

/-- An edit that is followed by the synchronization of the tenant. -/
theorem outcome_shown (h : Reconfigured t t' d d₁) (hs : Shows t d) : Outcome t.row.id d (d₁.showTenant t') True := by
  refine ⟨h.sound.showTenant, h.apart.trans (h.id ▸ apart_showTenant), t', h.mem, h.id,
    iff_true_intro ⟨fun e => ?_, ?_⟩⟩
  · rw [h.mem_listing, ← hs.entries, ← h.id, ← h.entries]
    rfl
  · exact isPubliclyEligible_showTenant.trans (if_pos rfl)

/-- An update under a condition. -/
theorem runIf_reconfigured {c : Prop} [Decidable c] (h : d.Sound) (ht : t ∈ d.platform.tenants)
    (hrow : ∀ u, (f u).row.id = u.row.id) (hshop : ∀ u, (f u).shop = u.shop) (hname : (f t).row.name = t.row.name)
    (hslug : (f t).row.slug = t.row.slug) (hc : Commits (runIf c (updateTenancy t.row.id f)) v d u d₁) :
    ∃ t₁, Reconfigured t t₁ d d₁ ∧ (t₁ = t ∨ t₁ = f t) := by
  rcases commits_runIf.1 hc with ⟨-, hc⟩ | ⟨-, rfl⟩
  · obtain rfl := commits_write.1 hc
    exact ⟨f t, h.reconfigured ht hrow hshop hname hslug, .inr rfl⟩
  · exact ⟨t, h.refl ht, .inl rfl⟩

theorem commits_updateTenancy_bind {α : Type} {k : Unit → SettingsTx α} {a : α} :
    Commits (updateTenancy tenantId f >>= k) v d a d' ↔
      Commits (k ()) v { d with platform := d.platform.modify tenantId f } a d' := Iff.rfl

theorem commits_onSearch {α : Type} {x : SearchTx α} {a : α} : Commits (onSearch x) v d a d' ↔ Commits x v d a d' := by
  rw [onSearch, commits_zoom]
  exact ⟨fun ⟨_, hx, rfl⟩ => hx, fun hx => ⟨d', hx, rfl⟩⟩

theorem setLocation_of_none {patch : SettingsPatch} (h : patch.location = none) : setLocation patch = id := by
  funext l
  rw [setLocation, h]
  rfl

/-- The location and the opening hours of a patch. -/
theorem setLocations_reconfigured {settings : TxSettings} {patch : SettingsPatch} (h : d.Sound)
    (ht : t ∈ d.platform.tenants)
    (hc : Commits (runIf (patch.location.isSome ∨ patch.openingHours) (do
      let location ← current fun d => findPrimaryLocation settings t.row.id d.platform
      throwIf location.isNone (.notFound "Primary location not found.")
      updateTenancy t.row.id fun t =>
        { t with locations := Table.updateWhere (fun l => l.isPrimary && l.active) (setLocation patch) t.locations } :
          SettingsTx Unit)) v d u d₁) :
    ∃ t₁, Reconfigured t t₁ d d₁ ∧
      t₁ = { t with locations := Table.updateWhere (fun l => l.isPrimary && l.active) (setLocation patch) t.locations } := by
  rcases commits_runIf.1 hc with ⟨-, hc⟩ | ⟨hno, rfl⟩
  · rw [commits_current_bind, commits_throwIf_bind] at hc
    obtain rfl := commits_write.1 hc.2
    exact ⟨_, h.reconfigured ht (fun _ => rfl) (fun _ => rfl) rfl rfl, rfl⟩
  · rw [not_or, Option.not_isSome_iff_eq_none] at hno
    refine ⟨t, h.refl ht, ?_⟩
    rw [setLocation_of_none hno.1]
    simp [Table.updateWhere]

/-- What an update that commits has met, and what it leaves: the tenant, and the tables before the synchronization. -/
structure Directory.Updated (patch : SettingsPatch) (actor : Actor) (t t' : Tenancy) (d d₁ d' : Directory) : Prop
    extends Directory.Reconfigured t t' d d₁ where
  ready : patch.salesEnabled = some true → activationReady (tenantSettings t.row.id actor) t.row.id actor d = true
  status : t'.row.status = t.row.status
  normalizedSlug : t'.row.normalizedSlug = t.row.normalizedSlug
  settings : ∃ row, t.settings = some row ∧ t'.settings = some (settingsUpdate patch row)
  locations : t'.locations = Table.updateWhere (fun l => l.isPrimary && l.active) (setLocation patch) t.locations
  synchronized : d' = if patch.salesEnabled.isSome ∨ patch.location.isSome then d₁.showTenant t' else d₁

theorem update_cases {version : Nat} {value : SettingsPatch} {answer : SettingsRow × TenantRow × Option LocationRow}
    (h : d.Sound) (ht : t ∈ d.platform.tenants) (hc : Commits (update t.row.id actor version value) d d answer d') :
    ∃ patch t' d₁, settingsPatchSchema value = .ok patch ∧ Updated patch actor t t' d d₁ d' := by
  have hplace : (tenantSettings t.row.id actor).tenantId = some t.row.id := tenantSettings_place (h.tenantIds t ht)
  rw [update, commits_fromExcept_bind] at hc
  obtain ⟨patch, hpatch, hc⟩ := hc
  dsimp only at hc
  rw [commits_current_bind, commits_throwIf_bind, commits_current_bind, commits_throwIf_bind, commits_bind] at hc
  obtain ⟨-, hready, _, d₁, htimezone, hc⟩ := hc
  obtain ⟨t₁, ht₁, hsame⟩ := runIf_reconfigured
    (f := fun t => { t with row := { t.row with version := t.row.version + 1 } }) h ht (fun _ => rfl) (fun _ => rfl)
    rfl rfl htimezone
  have hkept : t₁.settings = t.settings ∧ t₁.locations = t.locations ∧ t₁.row.status = t.row.status ∧
      t₁.row.normalizedSlug = t.row.normalizedSlug := by
    rcases hsame with rfl | rfl
    · exact ⟨rfl, rfl, rfl, rfl⟩
    · exact ⟨rfl, rfl, rfl, rfl⟩
  rw [commits_current_bind, ← ht₁.id, Platform.tenantSettings,
    findIn_own (q := fun s : SettingsRow => decide (s.version = version)) ht₁.sound.tenantKey ht₁.mem
      (by rw [ht₁.id]; exact hplace), commits_orThrow_bind] at hc
  obtain ⟨row, hrow, hc⟩ := hc
  have hrow : t₁.settings = some row := Option.mem_toList.1 (List.mem_of_find?_eq_some hrow)
  rw [commits_updateTenancy_bind, commits_bind] at hc
  obtain ⟨_, d₃, hlocation, hc⟩ := hc
  have ht₂ := ht₁.sound.reconfigured (f := fun t => { t with settings := some (settingsUpdate patch row) }) ht₁.mem
    (fun _ => rfl) (fun _ => rfl) rfl rfl
  obtain ⟨t₃, ht₃, hlocations⟩ := setLocations_reconfigured ht₂.sound ht₂.mem hlocation
  have hall : Reconfigured t t₃ d d₃ := (ht₁.trans ht₂).trans ht₃
  rw [commits_current_bind, commits_orThrow_bind] at hc
  obtain ⟨_, -, hc⟩ := hc
  rw [commits_current_bind, commits_bind] at hc
  obtain ⟨_, d₄, hsync, hc⟩ := hc
  obtain ⟨-, rfl⟩ := commits_pure.1 hc
  have hseat : Seated (tenantSettings t₃.row.id actor) t₃ d₃ :=
    hall.sound.seated hall.mem (tenantSettings_place (hall.sound.tenantIds t₃ hall.mem))
  have hsynced : d₄ = if patch.salesEnabled.isSome ∨ patch.location.isSome then d₃.showTenant t₃ else d₃ := by
    rcases commits_runIf.1 hsync with ⟨hyes, hsync⟩ | ⟨hno, rfl⟩
    · have hown := syncTenantEligibility_own (v := d) hseat
      rw [commits_onSearch, ht₁.id, ← hall.id, Commits, hown] at hsync
      obtain ⟨-, rfl⟩ := Prod.mk.inj (Except.ok.inj hsync)
      rw [if_pos hyes]
    · rw [if_neg hno]
  refine ⟨patch, t₃, d₃, hpatch, hall, fun hsales => ?_, ?_, ?_, ⟨row, hkept.1 ▸ hrow, ?_⟩, ?_, hsynced⟩
  · exact not_not.1 fun hnot => hready ⟨hsales, hnot⟩
  all_goals rw [hlocations]
  · exact hkept.2.2.1
  · exact hkept.2.2.2
  · rw [hkept.2.1]

theorem outcome_update {version : Nat} {value : SettingsPatch} {answer : SettingsRow × TenantRow × Option LocationRow}
    (h : d.Sound) (ht : t ∈ d.platform.tenants) (hs : Shows t d)
    (hc : Commits (update t.row.id actor version value) d d answer d') : Outcome t.row.id d d' True := by
  obtain ⟨patch, t', d₁, -, hupdated⟩ := update_cases h ht hc
  rw [hupdated.synchronized]
  split
  · exact outcome_shown hupdated.toReconfigured hs
  · next hno =>
    rw [not_or, Option.not_isSome_iff_eq_none, Option.not_isSome_iff_eq_none] at hno
    obtain ⟨row, hrow, hrow'⟩ := hupdated.settings
    have hsales : (settingsUpdate patch row).salesEnabled = row.salesEnabled := by rw [settingsUpdate, hno.1]; rfl
    have hlocations : t'.locations = t.locations := by
      rw [hupdated.locations, setLocation_of_none hno.2]
      simp [Table.updateWhere]
    refine outcome_unshown hupdated.toReconfigured hs ?_
    simp only [Tenancy.opened, Tenancy.primaryLocation, Tenancy.connected, hrow, hrow', Option.map_some, hsales,
      hlocations, hupdated.shop, hupdated.status, hupdated.normalizedSlug]

/-- The tenant that `activate` leaves. -/
def Tenancy.activated (t : Tenancy) : Tenancy :=
  { t with
    row := { t.row with status := .active, version := t.row.version + 1 }
    settings := t.settings.map fun s => { s with salesEnabled := true, version := s.version + 1 } }

theorem activateClaimed_cases {recordId : Id} {answer : ActivationResponse} (h : d.Sound) (ht : t ∈ d.platform.tenants)
    (hc : Commits (activateClaimed t.row.id actor recordId) v d answer d') :
    activationReady (tenantSettings t.row.id actor) t.row.id actor d = true ∧
      ∃ d₁ rows, Reconfigured t t.activated d d₁ ∧ d' = { d₁.showTenant t.activated with activations := rows } := by
  rw [activateClaimed] at hc
  dsimp only at hc
  rw [commits_current_bind, commits_throwIf_bind, commits_updateTenancy_bind, commits_current_bind,
    commits_orThrow_bind] at hc
  obtain ⟨hready, tenant, -, hc⟩ := hc
  rw [commits_updateTenancy_bind, commits_bind] at hc
  obtain ⟨_, d₄, hsync, hc⟩ := hc
  have ht₂ := h.reconfigured (f := fun t =>
    { t with row := { t.row with status := .active, version := t.row.version + 1 } }) ht (fun _ => rfl)
    (fun _ => rfl) rfl rfl
  have ht₃ := ht₂.sound.reconfigured (f := fun t =>
    { t with settings := t.settings.map fun s => { s with salesEnabled := true, version := s.version + 1 } }) ht₂.mem
    (fun _ => rfl) (fun _ => rfl) rfl rfl
  have hall := ht₂.trans ht₃
  have hseat : Seated (tenantSettings t.row.id actor) _ _ :=
    hall.sound.seated hall.mem (tenantSettings_place (h.tenantIds t ht))
  have hown := syncTenantEligibility_own (v := v) hseat
  rw [commits_onSearch] at hsync
  rw [Commits] at hown hsync
  obtain ⟨-, rfl⟩ := Prod.mk.inj (Except.ok.inj (hown.symm.trans hsync))
  obtain ⟨_, d₅, hcomplete, hc⟩ := commits_bind.1 hc
  obtain ⟨-, rfl⟩ := commits_pure.1 hc
  obtain ⟨rows, -, rfl⟩ := commits_zoom.1 hcomplete
  exact ⟨not_not.1 hready, _, rows, hall, rfl⟩

theorem outcome_activate {idempotencyKey : String} {newId : Id} {now : Instant} {answer : Option ActivationResponse}
    (h : d.Sound) (ht : t ∈ d.platform.tenants) (hs : Shows t d)
    (hc : Commits (activate t.row.id actor idempotencyKey newId now) d d answer d') : Outcome t.row.id d d' True := by
  rw [activate, commits_bind] at hc
  obtain ⟨claim, d₁, hclaim, hc⟩ := hc
  obtain ⟨rows, -, rfl⟩ := commits_zoom.1 hclaim
  have ht₁ := h.activations ht rows
  cases claim with
  | replay status body =>
    obtain ⟨-, rfl⟩ := commits_pure.1 hc
    exact outcome_unshown ht₁ hs rfl
  | claimed recordId hash =>
    obtain ⟨response, hc, -⟩ := commits_map.1 hc
    obtain ⟨-, d₂, rows', ht₂, rfl⟩ := activateClaimed_cases ht₁.sound ht₁.mem hc
    obtain ⟨hsound, hapart, u, hu, hid, hshows⟩ := outcome_shown (ht₁.trans ht₂) hs
    have hrecords := hsound.activations hu rows'
    refine ⟨hrecords.sound, hapart.trans (hid ▸ hrecords.apart), u, hrecords.mem, hid, ?_⟩
    rw [hrecords.shows_iff (hshows.2 trivial) fun _ => Iff.rfl]
    exact iff_true_intro rfl

end Settings

end Komanda
