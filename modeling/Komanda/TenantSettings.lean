import Komanda.SearchProjection

/-!
# Tenant settings, and the runs that the search follows

`TenantSettingsService` keeps `public_search_tenants` in its own transactions. `CatalogService` calls
`SearchProjectionSyncService` in a transaction of its own after the one that changes the catalog, and swallows its
errors. `directoryStep` runs one operation after the other.
-/

namespace Komanda
open Transaction

/-! ## `TenantSettingsService` -/

inductive SettingsError
  | zod (paths : List String)
  | notFound (message : String)
  | conflict (message : String)
  | activationConflict (message : String)
  | entitlementDenied (message : String)
  | idempotency (e : Idempotency.IdempotencyError)
  | search (e : SearchError)
deriving DecidableEq, Repr

/-- `locationSchema`: a coordinate is a number of millionths. -/
structure LocationInput where
  lat : Int
  lng : Int
  formattedAddress : Option String
deriving DecidableEq, Repr

/-- The keys of a patch that are modelled. Of the opening hours only whether they are there. -/
structure SettingsPatch where
  contactPhone : Option (Option String) := none
  salesEnabled : Option Bool := none
  printingEnabled : Option Bool := none
  timezone : Option String := none
  location : Option LocationInput := none
  openingHours : Bool := false
deriving DecidableEq, Repr

def isValidLocation (value : LocationInput) : Bool :=
  value.lat.natAbs ≤ 90 * 10 ^ 6 && value.lng.natAbs ≤ 180 * 10 ^ 6 &&
    value.formattedAddress.all fun a => Text.length (Text.trim a) ≤ 500

/-- `nullableTrimmedString`: white space is null. -/
def nullableTrimmed (value : Option String) : Option String := (value.map Text.trim).filter (· ≠ "")

def settingsPatchSchema (value : SettingsPatch) : Except SettingsError SettingsPatch :=
  let checks := [("timezone", value.timezone.all fun z => Text.trim z ≠ ""),
    ("location", value.location.all isValidLocation)]
  match issues checks with
  | [] => .ok { value with
      contactPhone := value.contactPhone.map nullableTrimmed
      timezone := value.timezone.map Text.trim
      location := value.location.map fun l => { l with formattedAddress := l.formattedAddress.map Text.trim } }
  | paths => .error (.zod paths)

abbrev SettingsTx (α : Type) := Tx Directory SettingsError α

def onSearch {α : Type} (x : SearchTx α) : SettingsTx α := zoom id (fun d _ => d) .search x

def onActivations {α : Type} (x : Tx (List (Idempotency.Record Id ActivationResponse)) Idempotency.IdempotencyError α) :
    SettingsTx α := zoom Directory.activations (fun rows d => { d with activations := rows }) .idempotency x

/-- An update of rows of the tenant: it names the tenant, which its policies admit. -/
def updateTenancy (tenantId : Id) (f : Tenancy → Tenancy) : SettingsTx Unit :=
  write fun d => { d with platform := d.platform.modify tenantId f }

namespace TenantSettingsService

section Reads
variable (settings : TxSettings) (tenantId : Id)

/-- `hasEntitlement(…, "printing")` -/
def hasPrinting (p : Platform) : Bool :=
  (findIn .tenantEntitlementSnapshots settings tenantId (fun e => !e.superseded) p.tenantEntitlementSnapshots).any (·.printing)

/-- A user sees its own row of `users`. -/
def findActor (actor : Actor) (d : Directory) : Option UserRow :=
  match actor with
  | .user userId _ => Table.lookup UserRow.id userId d.users
  | _ => none

def activationReady (actor : Actor) (d : Directory) : Bool :=
  (d.platform.findTenant tenantId).any (fun t => t.normalizedSlug ≠ "" && Text.length t.defaultCurrency = 3) &&
    (findPrimaryLocation settings tenantId d.platform).isSome &&
    (findPublishedItem settings tenantId d.platform).isSome &&
    (findPaymentIntegration settings tenantId d.platform).isSome &&
    (findActor actor d).any (·.active)

end Reads

/-- `settingsUpdate` -/
def settingsUpdate (patch : SettingsPatch) (row : SettingsRow) : SettingsRow :=
  { row with
    contactPhone := patch.contactPhone.getD row.contactPhone
    salesEnabled := patch.salesEnabled.getD row.salesEnabled
    printingEnabled := patch.printingEnabled.getD row.printingEnabled
    version := row.version + 1 }

def setLocation (patch : SettingsPatch) (row : LocationRow) : LocationRow :=
  { row with
    address := (patch.location.map fun l =>
      some { lat := some l.lat, lng := some l.lng, formattedAddress := l.formattedAddress }).getD row.address }

def update (tenantId : Id) (actor : Actor) (version : Nat) (value : SettingsPatch) :
    SettingsTx (SettingsRow × TenantRow × Option LocationRow) := do
  let patch ← fromExcept (settingsPatchSchema value)
  let settings := tenantSettings tenantId actor
  let canPrint ← current fun d => hasPrinting settings tenantId d.platform
  throwIf (patch.printingEnabled = some true ∧ ¬ canPrint)
    (.entitlementDenied "Printing is not available for this tenant.")
  let ready ← current (activationReady settings tenantId actor)
  throwIf (patch.salesEnabled = some true ∧ ¬ ready) (.activationConflict "Tenant is not ready for activation.")
  runIf patch.timezone.isSome (updateTenancy tenantId fun t =>
    { t with row := { t.row with version := t.row.version + 1 } })
  let found ← current fun d => findIn .tenantSettings settings tenantId (·.version = version) d.platform.tenantSettings
  let row ← orThrow found (.conflict "Tenant settings version conflict.")
  let updated := settingsUpdate patch row
  updateTenancy tenantId fun t => { t with settings := some updated }
  runIf (patch.location.isSome ∨ patch.openingHours) do
    let location ← current fun d => findPrimaryLocation settings tenantId d.platform
    throwIf location.isNone (.notFound "Primary location not found.")
    updateTenancy tenantId fun t =>
      { t with locations := Table.updateWhere (fun l => l.isPrimary && l.active) (setLocation patch) t.locations }
  let tenant ← current fun d => d.platform.findTenant tenantId
  let tenant ← orThrow tenant (.notFound "Tenant not found.")
  let location ← current fun d => findPrimaryLocation settings tenantId d.platform
  runIf (patch.salesEnabled.isSome ∨ patch.location.isSome)
    (onSearch (SearchProjectionSync.syncTenantEligibility settings tenantId))
  return (updated, tenant, location)

def activation (tenantId : Id) (idempotencyKey : String) : Idempotency.ClaimInput Id :=
  { tenantId := some tenantId, scope := "tenant-activation", key := idempotencyKey, request := tenantId }

/-- The activation that a claim has let through. -/
def activateClaimed (tenantId : Id) (actor : Actor) (recordId : Id) : SettingsTx ActivationResponse := do
  let settings := tenantSettings tenantId actor
  let ready ← current (activationReady settings tenantId actor)
  throwIf (¬ ready) (.activationConflict "Tenant is not ready for activation.")
  updateTenancy tenantId fun t => { t with row := { t.row with status := .active, version := t.row.version + 1 } }
  let tenant ← current fun d => d.platform.findTenant tenantId
  let tenant ← orThrow tenant (.notFound "Tenant not found.")
  updateTenancy tenantId fun t =>
    { t with settings := t.settings.map fun s => { s with salesEnabled := true, version := s.version + 1 } }
  onSearch (SearchProjectionSync.syncTenantEligibility settings tenantId)
  let response : ActivationResponse :=
    { id := tenant.id, name := tenant.name, slug := tenant.slug, status := tenant.status }
  onActivations (Idempotency.complete recordId 200 response)
  return response

def activate (tenantId : Id) (actor : Actor) (idempotencyKey : String) (newId : Id) (now : Instant) :
    SettingsTx (Option ActivationResponse) := do
  let claim ← onActivations (Idempotency.claim id (activation tenantId idempotencyKey) newId now)
  match claim with
  | .replay _ body => return body
  | .claimed recordId _ => some <$> activateClaimed tenantId actor recordId

end TenantSettingsService

/-! ## Operations -/

/-- The keys of the catalogs over all tenants, and the category of every item. -/
def Platform.keyed (p : Platform) : Bool :=
  (p.catalogItems.map fun r => r.2.id).Nodup && (p.catalogCategories.map fun r => r.2.id).Nodup &&
    p.tenants.all fun t => t.shop.catalog.items.all fun i => t.shop.catalog.categories.any fun c => c.id = i.categoryId

/-- What `CatalogService` asks of the search projection after a call has committed. -/
def CatalogRequest.projection (settings : TxSettings) (tenantId : Id) :
    CatalogRequest → CatalogAnswer → SearchTx Unit
  | createItem _ _, .item item =>
    runIf (item.status = .active) (SearchProjectionSync.syncItem settings tenantId item)
  | updateItem _ _ _, .item item => SearchProjectionSync.syncItem settings tenantId item
  | archiveItem _ _, .item item => SearchProjectionSync.syncItem settings tenantId item
  | updateCategory categoryId _ value, .category category =>
    runIf value.name.isSome (SearchProjectionSync.syncCategoryRename settings tenantId categoryId category.name)
  | _, _ => pure ()

namespace Directory

/-- The transaction of a call, alone, with the keys of the tables held against all tenants. -/
def call (locale : Locale) (tenantId : Id) (q : CatalogRequest) (d : Directory) : Option (CatalogAnswer × Directory) :=
  (Table.lookup (fun t => t.row.id) tenantId d.platform.tenants).bind fun t =>
    match q.run locale t.shop t.shop with
    | .ok (answer, shop) =>
      let platform := d.platform.modify tenantId fun t => { t with shop }
      if platform.keyed then some (answer, { d with platform }) else none
    | .error _ => none

/-- A transaction whose errors are logged. -/
def logged {α : Type} (x : SearchTx α) (d : Directory) : Directory :=
  match x d d with
  | .ok (_, d') => d'
  | .error _ => d

/-- A transaction alone, if it commits. -/
def alone {ε α : Type} (x : Tx Directory ε α) (d : Directory) : Option Directory :=
  match x d d with
  | .ok (_, d') => some d'
  | .error _ => none

end Directory

inductive DirectoryRequest
  | catalog (tenantId : Id) (actor : Actor) (q : CatalogRequest)
  | updateSettings (tenantId : Id) (actor : Actor) (version : Nat) (value : SettingsPatch)
  | activate (tenantId : Id) (actor : Actor) (idempotencyKey : String) (newId : Id) (now : Instant)
  | reconcileAll

namespace DirectoryRequest

def tenantId : DirectoryRequest → Option Id
  | catalog tenantId _ _ => some tenantId
  | updateSettings tenantId _ _ _ => some tenantId
  | activate tenantId _ _ _ _ => some tenantId
  | reconcileAll => none

/-- The context of a request has been verified: its tenant is there. -/
def verified (q : DirectoryRequest) (d : Directory) : Bool :=
  q.tenantId.all fun id => (d.platform.findTenant id).isSome

/-- The request alone, if it succeeds. -/
def exec (locale : Locale) (d : Directory) : DirectoryRequest → Option Directory
  | catalog tenantId actor q => (d.call locale tenantId q).map fun r =>
    r.2.logged (q.projection (tenantSettings tenantId actor) tenantId r.1)
  | updateSettings tenantId actor version value => d.alone (TenantSettingsService.update tenantId actor version value)
  | activate tenantId actor idempotencyKey newId now =>
    d.alone (TenantSettingsService.activate tenantId actor idempotencyKey newId now)
  | reconcileAll => d.alone SearchReconciliation.reconcileAll

end DirectoryRequest

def directoryStep (locale : Locale) (d : Directory) (q : DirectoryRequest) : Option Directory :=
  if q.verified d then q.exec locale d else none

end Komanda
