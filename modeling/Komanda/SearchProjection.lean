import Komanda.Platform

/-!
# The tables of the public search

`Directory` is the platform with `public_search_tenants` and `catalog_search_entries`, which
`SearchProjectionSyncService` keeps beside the catalogs and `SearchReconciliationService` repairs. Both read and write
under the policies of `Platform`. The statements of one transaction see what it has written, so their reads are
`current`.
-/

namespace Komanda
open Transaction

/-! ## Tables (`db/schema/search.ts`) -/

structure SearchTenantRow where
  name : String
  slug : String
  locationName : Option String
  locationAddress : Option String
  lat : Option Int
  lng : Option Int
  categoriesCount : Nat
  isPubliclyEligible : Bool
deriving DecidableEq, Repr

structure SearchEntryRow where
  tenantSlug : String
  tenantName : String
  itemId : Id
  itemName : String
  categoryId : Id
  categoryName : String
  description : Option String
  price : Cents
  currency : String
  imageUrl : Option String
  isAvailable : Bool
deriving DecidableEq, Repr

structure UserRow where
  id : Id
  active : Bool
deriving DecidableEq, Repr

/-- What `activate` answers; the role is `owner` always. -/
structure ActivationResponse where
  id : Id
  name : String
  slug : String
  status : TenantStatus
deriving DecidableEq, Repr

structure Directory where
  platform : Platform
  users : List UserRow
  publicSearchTenants : List (Id × SearchTenantRow)
  catalogSearchEntries : List (Id × SearchEntryRow)
  /-- The rows of `idempotency_records` with the scope `tenant-activation`. -/
  activations : List (Idempotency.Record Id ActivationResponse)

namespace Platform

def catalogItems (p : Platform) : List (Id × ItemRow) := p.table fun t => t.shop.catalog.items

def catalogCategories (p : Platform) : List (Id × CategoryRow) := p.table fun t => t.shop.catalog.categories

def mediaAssets (p : Platform) : List (Id × MediaRow) := p.table fun t => t.shop.catalog.media

def integrationAccounts (p : Platform) : List (Id × IntegrationAccount) := p.table fun t => t.shop.db.accounts

def tenantSettings (p : Platform) : List (Id × SettingsRow) := p.table fun t => t.settings.toList

/-- `tenants` admits the tenant itself, and any service. -/
def findTenant (tenantId : Id) (p : Platform) : Option TenantRow :=
  (Table.lookup (fun t => t.row.id) tenantId p.tenants).map Tenancy.row

end Platform

/-- `SELECT … FROM table WHERE tenant_id AND q LIMIT 1` -/
def findIn {α : Type} (table : RlsTable) (settings : TxSettings) (tenantId : Id) (q : α → Bool)
    (rows : List (Id × α)) : Option α :=
  ((select table settings (fun r => r.1 = tenantId && q r.2) rows).head?).map Prod.snd

/-! ## `tenant-readiness.service.ts` -/

inductive SearchError
  | internal (message : String)
  /-- An error of the database, after which its transaction is lost. -/
  | database (message : String)
deriving DecidableEq, Repr

structure ConfirmedLocation where
  lat : Int
  lng : Int
  formattedAddress : Option String
deriving DecidableEq, Repr

/-- `directory-maps.ts` -/
def parseConfirmedLocation (address : Option Address) : Option ConfirmedLocation := do
  let address ← address
  let lat ← address.lat
  let lng ← address.lng
  if lat.natAbs ≤ 90 * 10 ^ 6 ∧ lng.natAbs ≤ 180 * 10 ^ 6 then
    some { lat, lng, formattedAddress := (address.formattedAddress.map Text.trim).filter (· ≠ "") }
  else none

structure TenantReadinessCheck where
  code : String
  complete : Bool
  requiredForActivation : Bool
deriving DecidableEq, Repr

structure TenantEligibilityResult where
  ready : Bool
  orderingAvailable : Bool
  checks : List TenantReadinessCheck
  tenant : TenantRow
  primaryLocation : Option LocationRow
  salesEnabled : Bool
  contactPhone : Option String
deriving DecidableEq, Repr

def readinessChecks (tenant : TenantRow) (location : Option LocationRow) (publishedItem paymentIntegration : Bool) :
    List TenantReadinessCheck :=
  [{ code := "public_slug", complete := tenant.normalizedSlug ≠ "", requiredForActivation := true },
   { code := "primary_location", requiredForActivation := true,
     complete := location.isSome && (parseConfirmedLocation (location.bind (·.address))).isSome },
   { code := "published_item", complete := publishedItem, requiredForActivation := true },
   { code := "payment_connected", complete := paymentIntegration, requiredForActivation := true }]

/-- The result, of what the five queries have found. -/
def tenantEligibility (tenant : TenantRow) (location : Option LocationRow) (publishedItem paymentIntegration : Bool)
    (settings : Option SettingsRow) : TenantEligibilityResult :=
  let checks := readinessChecks tenant location publishedItem paymentIntegration
  let ready := (checks.filter (·.requiredForActivation)).all (·.complete)
  let salesEnabled := (settings.map (·.salesEnabled)).getD false
  { ready, checks, tenant, salesEnabled, primaryLocation := location
    orderingAvailable := tenant.status = .active && salesEnabled && ready
    contactPhone := settings.bind (·.contactPhone) }

section Readiness
variable (settings : TxSettings) (tenantId : Id) (p : Platform)

def findPrimaryLocation : Option LocationRow :=
  findIn .tenantLocations settings tenantId (fun l => l.isPrimary && l.active) p.tenantLocations

def findPublishedItem : Option ItemRow :=
  findIn .catalogItems settings tenantId (fun i => i.status = .active) p.catalogItems

def findPaymentIntegration : Option IntegrationAccount :=
  findIn .integrationAccounts settings tenantId (fun a => a.status = .active) p.integrationAccounts

def findSettings : Option SettingsRow := findIn .tenantSettings settings tenantId (fun _ => true) p.tenantSettings

def fetchTenantReadiness : Except SearchError TenantEligibilityResult :=
  match p.findTenant tenantId with
  | none => .error (.internal "Tenant readiness is unavailable.")
  | some tenant =>
    .ok (tenantEligibility tenant (findPrimaryLocation settings tenantId p)
      (findPublishedItem settings tenantId p).isSome (findPaymentIntegration settings tenantId p).isSome
      (findSettings settings tenantId p))

end Readiness

/-! ## `SearchRepository` -/

abbrev SearchTx (α : Type) := Tx Directory SearchError α

namespace SearchRepository
variable (settings : TxSettings)

def upsertSearchTenant (tenantId : Id) (row : SearchTenantRow) : SearchTx Unit := do
  let rows ← current fun d => RowSecurity.upsert RlsTable.publicSearchTenants.policy settings Prod.fst (tenantId, row)
    (fun r => (r.1, row)) d.publicSearchTenants
  let rows ← orThrow rows (.database "row-level security")
  write fun d => { d with publicSearchTenants := rows }

/-- The update leaves `tenant_id` and `item_id` alone. -/
def upsertSearchEntry (tenantId : Id) (entry : SearchEntryRow) : SearchTx Unit := do
  let rows ← current fun d => RowSecurity.upsert RlsTable.catalogSearchEntries.policy settings (fun r => r.2.itemId)
    (tenantId, entry) (fun r => (r.1, { entry with itemId := r.2.itemId })) d.catalogSearchEntries
  let rows ← orThrow rows (.database "row-level security")
  write fun d => { d with catalogSearchEntries := rows }

def deleteSearchEntry (itemId : Id) : SearchTx Unit :=
  write fun d => { d with
    catalogSearchEntries := RowSecurity.delete RlsTable.catalogSearchEntries.policy settings
      (fun r => r.2.itemId = itemId) d.catalogSearchEntries }

def updateCategoryNameForEntries (tenantId categoryId : Id) (newCategoryName : String) : SearchTx Unit :=
  write fun d => { d with
    catalogSearchEntries := RowSecurity.update RlsTable.catalogSearchEntries.policy settings
      (fun r => r.1 = tenantId && r.2.categoryId = categoryId)
      (fun r => (r.1, { r.2 with categoryName := newCategoryName })) d.catalogSearchEntries }

end SearchRepository

/-! ## `SearchProjectionSyncService` -/

/-- `catch`: what the code has thrown is dropped, an error of the database is not. -/
def catchThrown (x : SearchTx Unit) : SearchTx Unit := fun v d =>
  match x v d with
  | .error (.internal _) => .ok ((), d)
  | result => result

namespace SearchProjectionSync
open SearchRepository
variable (settings : TxSettings) (tenantId : Id)

def searchTenantRow (eligibility : TenantEligibilityResult) (categories : List (Id × CategoryRow)) : SearchTenantRow :=
  let confirmedLocation := parseConfirmedLocation (eligibility.primaryLocation.bind (·.address))
  { name := eligibility.tenant.name
    slug := eligibility.tenant.slug
    locationName := eligibility.primaryLocation.map (·.name)
    locationAddress := confirmedLocation.bind (·.formattedAddress)
    lat := confirmedLocation.map (·.lat)
    lng := confirmedLocation.map (·.lng)
    categoriesCount := categories.length
    isPubliclyEligible := eligibility.orderingAvailable && confirmedLocation.isSome }

def syncTenantEligibility : SearchTx Unit := do
  let eligibility ← current fun d => fetchTenantReadiness settings tenantId d.platform
  let eligibility ← fromExcept eligibility
  let categories ← current fun d =>
    select .catalogCategories settings (fun r => r.1 = tenantId && r.2.status = .active) d.platform.catalogCategories
  upsertSearchTenant settings tenantId (searchTenantRow eligibility categories)

def searchEntryRow (tenant : TenantRow) (category : CategoryRow) (imageUrl : Option String) (item : ItemRow) :
    SearchEntryRow :=
  { tenantSlug := tenant.slug, tenantName := tenant.name, itemId := item.id, itemName := item.name,
    categoryId := item.categoryId, categoryName := category.name, description := item.description,
    price := item.price, currency := item.currency, imageUrl, isAvailable := true }

def findImageUrl (imageAssetId : Option Id) (p : Platform) : Option String :=
  imageAssetId.bind fun id =>
    (findIn .mediaAssets settings tenantId (fun m => m.id = id) p.mediaAssets).bind (·.publicUrl)

/-- What is left of `syncItem` for an active item of a tenant that has been found. -/
def syncActiveItem (item : ItemRow) (tenant : TenantRow) : SearchTx Unit := do
  let category ← current fun d =>
    findIn .catalogCategories settings tenantId (fun c => c.id = item.categoryId) d.platform.catalogCategories
  match category.filter fun c => c.status = .active with
  | none => deleteSearchEntry settings item.id
  | some category => do
    let imageUrl ← current fun d => findImageUrl settings tenantId item.imageAssetId d.platform
    catchThrown (syncTenantEligibility settings tenantId)
    upsertSearchEntry settings tenantId (searchEntryRow tenant category imageUrl item)

def syncItem (item : ItemRow) : SearchTx Unit :=
  if item.status ≠ .active ∨ item.archivedAt.isSome then deleteSearchEntry settings item.id
  else do
    let tenant ← current fun d => d.platform.findTenant tenantId
    forSome tenant (syncActiveItem settings tenantId item)

def syncCategoryRename (categoryId : Id) (newCategoryName : String) : SearchTx Unit :=
  updateCategoryNameForEntries settings tenantId categoryId newCategoryName

end SearchProjectionSync

/-! ## `SearchReconciliationService` -/

structure ReconciliationReport where
  tenantsSynced : Nat := 0
  itemsSynced : Nat := 0
  errors : List String := []
deriving DecidableEq, Repr

namespace SearchReconciliation
open SearchProjectionSync

def settings : TxSettings := platformServiceSettings "search-reconciliation-job"

/-- The condition on an item in the queries of the job. -/
def isActive (item : ItemRow) : Bool := item.status = .active && item.archivedAt.isNone

/-- The turn of one tenant: the number of its items. -/
def reconcileTenant (settings : TxSettings) (tenantId : Id) : SearchTx Nat := do
  syncTenantEligibility settings tenantId
  let activeItems ← current fun d =>
    select .catalogItems settings (fun r => r.1 = tenantId && isActive r.2) d.platform.catalogItems
  each (fun r => syncItem settings tenantId r.2) activeItems
  return activeItems.length

/-- A turn with its `catch`. -/
def tryTenant (tenantId : Id) (report : ReconciliationReport) : SearchTx ReconciliationReport := fun v d =>
  match reconcileTenant (settings.setTenant tenantId) tenantId v d with
  | .ok (n, d') =>
    .ok ({ report with tenantsSynced := report.tenantsSynced + 1, itemsSynced := report.itemsSynced + n }, d')
  | .error (.internal message) =>
    .ok ({ report with errors := report.errors ++ [s!"Tenant {tenantId} reconciliation failed: {message}"] }, d)
  | .error e => .error e

def tryTenants : List Id → ReconciliationReport → SearchTx ReconciliationReport
  | [], report => return report
  | tenantId :: tenantIds, report => do
    let report ← tryTenant tenantId report
    tryTenants tenantIds report

/-- The last statement: entries of items that are not among those it finds go. -/
def deleteOrphans (settings : TxSettings) : SearchTx Unit := do
  let items ← current fun d => select .catalogItems settings (fun r => isActive r.2) d.platform.catalogItems
  write fun d => { d with
    catalogSearchEntries := RowSecurity.delete RlsTable.catalogSearchEntries.policy settings
      (fun r => items.all fun item => item.2.id ≠ r.2.itemId) d.catalogSearchEntries }

def reconcileAll : SearchTx ReconciliationReport := do
  let allTenants ← current fun d => d.platform.tenants.map fun t => t.row.id
  let report ← tryTenants allTenants {}
  deleteOrphans (settings.setTenant "")
  return report

end SearchReconciliation

end Komanda
