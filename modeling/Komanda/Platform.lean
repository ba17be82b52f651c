import Komanda.Lib.RowSecurity
import Komanda.Catalog
import Komanda.System

/-!
# The platform under row level security

`Platform` is the database of all tenants. A transaction knows whom it runs for from its settings
(`tenant-transaction.ts`), and the policies of the migrations decide by them which rows it sees: a statement of
the role `komanda_runtime` reads a table by `select`. Every policy is forced, and an unset setting is the empty
string, which `nullif` turns into a null that equals nothing.
-/

namespace Komanda
open Transaction

/-! ## Settings and policies -/

/-- `app.tenant_id`, `app.user_id` and `app.service_id` behind their `nullif`. -/
structure TxSettings where
  tenantId : Option Id
  userId : Option Id
  serviceId : Option String
deriving DecidableEq, Repr

def nullif (setting : String) : Option String := if setting = "" then none else some setting

/-- `withPlatformServiceTransaction` -/
def platformServiceSettings (serviceId : String) : TxSettings :=
  { tenantId := nullif "", userId := nullif "", serviceId := nullif serviceId }

/-- `withTenantTransaction`, with the actors that the modelled services have. -/
def tenantSettings (tenantId : Id) (actor : Actor) : TxSettings :=
  match actor with
  | .user userId _ => { tenantId := nullif tenantId, userId := nullif userId, serviceId := nullif "" }
  | .service serviceId => { tenantId := nullif tenantId, userId := nullif "", serviceId := nullif serviceId }
  | .anonymous => { tenantId := nullif tenantId, userId := nullif "", serviceId := nullif "" }

/-- `set_config('app.tenant_id', …, true)` inside a transaction. -/
def TxSettings.setTenant (settings : TxSettings) (tenantId : String) : TxSettings :=
  { settings with tenantId := nullif tenantId }

inductive RlsTable
  | orders
  | paymentAttempts
  | providerResourceRoutes
  | integrationAccounts
  | tenantEntitlementSnapshots
  | tenantSettings
  | tenantLocations
  | printAgentPairings
  | printAgents
  | catalogCategories
  | catalogItems
  | mediaAssets
  | publicSearchTenants
  | catalogSearchEntries
deriving DecidableEq, Repr

/-- What the `USING` clauses compare with `app.service_id`. -/
inductive AdmittedServices
  | none
  | named (serviceIds : List String)
  /-- `app.service_id` is not null. -/
  | any
deriving DecidableEq, Repr

/-- The services that the runtime policy of a table admits beside the row's own tenant. -/
def RlsTable.services : RlsTable → AdmittedServices
  | orders => .none
  | paymentAttempts => .none
  | providerResourceRoutes => .named ["mercadopago:webhook-router"]
  | integrationAccounts => .named ["mercadopago:webhook-router"]
  | tenantEntitlementSnapshots => .none
  | tenantSettings => .none
  | tenantLocations => .named ["print-pairing"]
  | printAgentPairings => .named ["print-pairing"]
  | printAgents => .named ["print-agent-auth", "print-pairing"]
  | catalogCategories => .none
  | catalogItems => .none
  | mediaAssets => .none
  | publicSearchTenants => .any
  | catalogSearchEntries => .any

def AdmittedServices.admit : AdmittedServices → Option String → Bool
  | none, _ => false
  | named serviceIds, serviceId => serviceId.any (· ∈ serviceIds)
  | any, serviceId => serviceId.isSome

/-- The runtime policy of a table, on rows with their tenant. -/
def RlsTable.policy {α : Type} (table : RlsTable) : RowSecurity.Policy TxSettings (Id × α) := fun settings row =>
  settings.tenantId = some row.1 || table.services.admit settings.serviceId

/-- `SELECT … FROM table WHERE p` -/
def select {α : Type} (table : RlsTable) (settings : TxSettings) (p : Id × α → Bool) (rows : List (Id × α)) :
    List (Id × α) := (RowSecurity.visible table.policy settings rows).filter p

/-! ## Tables -/

inductive TenantStatus
  | onboarding
  | active
  | suspended
deriving DecidableEq, Repr

structure TenantRow where
  id : Id
  name : String
  slug : String
  normalizedSlug : String
  defaultCurrency : String
  status : TenantStatus
  version : Nat
deriving DecidableEq, Repr

/-- The JSON of `tenant_locations.address`. The coordinates are millionths of a degree; one that is no number, or
has more than six decimals, is `none`. -/
structure Address where
  lat : Option Int
  lng : Option Int
  formattedAddress : Option String
deriving DecidableEq, Repr

structure LocationRow where
  id : Id
  name : String
  active : Bool
  isPrimary : Bool
  address : Option Address
deriving DecidableEq, Repr

structure SettingsRow where
  salesEnabled : Bool
  printingEnabled : Bool
  contactPhone : Option String
  version : Nat
deriving DecidableEq, Repr

/-- The flags of `entitlements` that are read, and whether the snapshot is superseded. -/
structure EntitlementRow where
  catalogManagement : Bool
  printing : Bool
  superseded : Bool
deriving DecidableEq, Repr

inductive PairingStatus
  | pending
  | claimed
  | expired
deriving DecidableEq, Repr

structure PairingRow where
  id : Id
  locationId : Id
  codeDigest : String
  status : PairingStatus
  attempts : Nat
  expiresAt : Instant
  createdAt : Instant
  claimedAgentId : Option Id
deriving DecidableEq, Repr

structure AgentRow where
  id : Id
  locationId : Id
  name : String
  tokenPrefix : String
  tokenDigest : String
deriving DecidableEq, Repr

/-- The rows of one tenant. -/
structure Tenancy where
  row : TenantRow
  settings : Option SettingsRow
  locations : List LocationRow
  snapshots : List EntitlementRow
  pairings : List PairingRow
  agents : List AgentRow
  shop : Shop
  /-- `payment_attempts.created_at` -/
  attemptCreatedAt : Id → Instant

structure Platform where
  tenants : List Tenancy

namespace Platform

/-- A table: the rows of every tenant, with their `tenant_id`. -/
def table {α : Type} (f : Tenancy → List α) (p : Platform) : List (Id × α) :=
  p.tenants.flatMap fun t => (f t).map fun r => (t.row.id, r)

def orders (p : Platform) : List (Id × Order) := p.table fun t => t.shop.db.orders

def paymentAttempts (p : Platform) : List (Id × PaymentAttempt × Instant) :=
  p.table fun t => t.shop.db.attempts.map fun a => (a, t.attemptCreatedAt a.id)

def providerResourceRoutes (p : Platform) : List (Id × ProviderResourceRoute) := p.table fun t => t.shop.db.routes

def printAgentPairings (p : Platform) : List (Id × PairingRow) := p.table Tenancy.pairings

def tenantEntitlementSnapshots (p : Platform) : List (Id × EntitlementRow) := p.table Tenancy.snapshots

def tenantLocations (p : Platform) : List (Id × LocationRow) := p.table Tenancy.locations

/-- The rows of a tenant change. -/
def modify (tenantId : Id) (f : Tenancy → Tenancy) (p : Platform) : Platform :=
  { p with tenants := Table.updateWhere (·.row.id = tenantId) f p.tenants }

/-- A transaction of `withTenantTransaction`: every statement of it names its tenant, so it runs on that tenant's rows
alone. Nothing changes when it rolls back. -/
def inTenant {α : Type} (tenantId : Id) (x : ShopTx α) (p : Platform) : Platform :=
  p.modify tenantId fun t =>
    match x t.shop t.shop with
    | .ok (_, shop) => { t with shop }
    | .error _ => t

theorem map_table_modify {α κ : Type} {f : Tenancy → List α} {k : Id × α → κ} {tenantId : Id} {g : Tenancy → Tenancy}
    {p : Platform} (h : ∀ t, (f (g t)).map (fun r => k ((g t).row.id, r)) = (f t).map fun r => k (t.row.id, r)) :
    ((p.modify tenantId g).table f).map k = (p.table f).map k := by
  rw [table, table, modify, Table.updateWhere, List.flatMap_map, List.map_flatMap, List.map_flatMap]
  refine List.flatMap_congr fun t _ => ?_
  rw [List.map_map, List.map_map]
  split
  · exact h t
  · rfl

/-- A table that an update leaves alone. -/
theorem table_modify {α : Type} {f : Tenancy → List α} {tenantId : Id} {g : Tenancy → Tenancy} {p : Platform}
    (hrow : ∀ t, (g t).row.id = t.row.id) (hf : ∀ t, f (g t) = f t) : (p.modify tenantId g).table f = p.table f := by
  rw [table, modify, Table.updateWhere, List.flatMap_map, table]
  refine List.flatMap_congr fun t _ => ?_
  split
  · rw [hrow, hf]
  · rfl

end Platform

section Policies
variable {α : Type} {table : RlsTable} {settings : TxSettings} {q : Id × α → Bool} {rows : List (Id × α)}

theorem mem_select {r : Id × α} : r ∈ select table settings q rows ↔
    r ∈ rows ∧ table.policy settings r = true ∧ q r = true := by
  simp only [select, RowSecurity.visible, List.mem_filter, and_assoc]

/-- A service that the policy does not admit sees nothing of any tenant. -/
theorem select_eq_nil (htenant : settings.tenantId = none)
    (hservice : table.services.admit settings.serviceId = false) : select table settings q rows = [] := by
  refine List.eq_nil_iff_forall_not_mem.2 fun r hr => ?_
  have hpolicy := (mem_select.1 hr).2.1
  rw [RlsTable.policy, htenant, hservice] at hpolicy
  exact absurd hpolicy (by simp)

/-- A service that the policy admits sees the rows of every tenant. -/
theorem select_of_service (hservice : table.services.admit settings.serviceId = true) :
    select table settings q rows = rows.filter q := by
  rw [select, RowSecurity.visible_eq_self]
  intro r _
  rw [RlsTable.policy, hservice, Bool.or_true]

end Policies

end Komanda
