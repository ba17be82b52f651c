import Komanda.Database
import Komanda.Lib.ForeignKeys

/-!
# Erasing a tenant (`tenant-deletion.service.ts`)

`foreignKeys` are those of the migrations. Most name the tenant beside the id of the row they refer to; a few name the
id alone. Migration 0014 declares two of these again with the tenant, but only if no constraint of that name exists, and
migrations 0009 and 0010 have added both: they stay as they were.
-/

namespace Komanda

inductive DbTable
  | catalogSearchEntries | publicSearchTenants | storefrontItemEvents | storefrontSessions | discountRedemptions
  | discountCategories | discountItems | discounts | billingDocuments | printJobAttempts | printJobs
  | cashRegisterMovements | mpFinancialRecords | orderEvents | orderLineOptions | orderLines | orders
  | paymentAttempts | cartLineOptions | cartLines | carts | inventoryMovements | inventoryLevels | cashShifts
  | printAgentPairings | printerDestinations | printAgents | comboItems | catalogCombos | itemAddonGroups
  | addonOptions | addonGroups | catalogItems | catalogCategories | mediaAssets | providerResourceRoutes
  | integrationAccounts | webhookEvents | onboardingHandoffs | tenantSettings | tenantCounters | tenantLocations
  | tenantEntitlementSnapshots | idempotencyRecords | auditEvents | outboxEvents | tenantMemberships | tenants | users
  | userSessions | identityVerificationChallenges | planDefinitions | globalProductCatalog
deriving DecidableEq, Repr

inductive DbColumn
  | id | tenantId | userId | orderId | actorUserId | planId | planVersion | version | groupId | categoryId
  | imageAssetId | comboId | itemId | addonGroupId | cartLineId | addonOptionId | cartId | locationId | orderLineId
  | sourceItemId | sourceComboId | integrationAccountId | paymentAttemptId | printJobId | agentId | claimedByAgentId
  | associatedOrderId | videoAssetId | claimedAgentId | assignedAgentId | shiftId | destinationStationId
  | relatedDocumentId | appliedDiscountCodeId | discountId
deriving DecidableEq, Repr

namespace DbTable
open OnDelete

def ofTenant (table : DbTable) (onDelete : OnDelete) : ForeignKey DbTable DbColumn :=
  { table, pairs := [(.tenantId, .id)], parent := .tenants, onDelete }

/-- `(tenant_id, column)` refers to `(tenant_id, id)`. -/
def within (table : DbTable) (column : DbColumn) (parent : DbTable) (onDelete : OnDelete) :
    ForeignKey DbTable DbColumn :=
  { table, pairs := [(.tenantId, .tenantId), (column, .id)], parent, onDelete }

/-- `column` refers to `id`. -/
def byId (table : DbTable) (column : DbColumn) (parent : DbTable) (onDelete : OnDelete) :
    ForeignKey DbTable DbColumn :=
  { table, pairs := [(column, .id)], parent, onDelete }

/-- Where a row names the tenant it belongs to. -/
def tenantColumn : DbTable → Option DbColumn
  | users | userSessions | identityVerificationChallenges | planDefinitions | globalProductCatalog => none
  | tenants => some .id
  | _ => some .tenantId

end DbTable

namespace TenantErasure
open DbTable OnDelete

def foreignKeys : List (ForeignKey DbTable DbColumn) := [
  -- 0000_initial_schema
  byId .identityVerificationChallenges .userId .users .cascade,
  byId .onboardingHandoffs .userId .users .cascade,
  ofTenant .onboardingHandoffs .restrict,
  ofTenant .tenantCounters .restrict,
  ofTenant .tenantLocations .restrict,
  byId .tenantMemberships .userId .users .restrict,
  ofTenant .tenantMemberships .restrict,
  ofTenant .tenantSettings .restrict,
  byId .userSessions .userId .users .cascade,
  ofTenant .idempotencyRecords .restrict,
  ofTenant .orderEvents .restrict,
  within .orderEvents .orderId .orders .restrict,
  ofTenant .outboxEvents .restrict,
  ofTenant .auditEvents .restrict,
  byId .auditEvents .actorUserId .users .setNull,
  ofTenant .tenantEntitlementSnapshots .restrict,
  { table := .tenantEntitlementSnapshots, pairs := [(.planId, .planId), (.planVersion, .version)],
    parent := .planDefinitions, onDelete := .restrict },
  ofTenant .addonGroups .restrict,
  within .addonOptions .groupId .addonGroups .restrict,
  ofTenant .catalogCategories .restrict,
  within .catalogCombos .categoryId .catalogCategories .restrict,
  within .catalogCombos .imageAssetId .mediaAssets .restrict,
  ofTenant .catalogItems .restrict,
  within .catalogItems .categoryId .catalogCategories .restrict,
  within .catalogItems .imageAssetId .mediaAssets .restrict,
  within .comboItems .comboId .catalogCombos .restrict,
  within .comboItems .itemId .catalogItems .restrict,
  within .itemAddonGroups .itemId .catalogItems .restrict,
  within .itemAddonGroups .addonGroupId .addonGroups .restrict,
  ofTenant .mediaAssets .restrict,
  within .cartLineOptions .cartLineId .cartLines .restrict,
  within .cartLineOptions .addonGroupId .addonGroups .restrict,
  within .cartLineOptions .addonOptionId .addonOptions .restrict,
  within .cartLines .cartId .carts .restrict,
  within .cartLines .itemId .catalogItems .restrict,
  within .cartLines .comboId .catalogCombos .restrict,
  ofTenant .carts .restrict,
  within .carts .locationId .tenantLocations .restrict,
  within .orderLineOptions .orderLineId .orderLines .restrict,
  within .orderLineOptions .addonGroupId .addonGroups .restrict,
  within .orderLineOptions .addonOptionId .addonOptions .restrict,
  within .orderLines .orderId .orders .restrict,
  within .orderLines .sourceItemId .catalogItems .restrict,
  within .orderLines .sourceComboId .catalogCombos .restrict,
  within .paymentAttempts .cartId .carts .restrict,
  within .paymentAttempts .integrationAccountId .integrationAccounts .restrict,
  ofTenant .orders .restrict,
  within .orders .locationId .tenantLocations .restrict,
  within .orders .cartId .carts .restrict,
  within .orders .paymentAttemptId .paymentAttempts .restrict,
  ofTenant .integrationAccounts .restrict,
  ofTenant .providerResourceRoutes .restrict,
  ofTenant .webhookEvents .restrict,
  ofTenant .printAgents .restrict,
  within .printAgents .locationId .tenantLocations .restrict,
  within .printJobAttempts .printJobId .printJobs .restrict,
  within .printJobAttempts .agentId .printAgents .restrict,
  ofTenant .printJobs .restrict,
  within .printJobs .locationId .tenantLocations .restrict,
  within .printJobs .orderId .orders .restrict,
  within .printJobs .claimedByAgentId .printAgents .restrict,
  ofTenant .storefrontSessions .restrict,
  within .storefrontSessions .associatedOrderId .orders .setNull,
  ofTenant .billingDocuments .restrict,
  within .billingDocuments .locationId .tenantLocations .restrict,
  within .billingDocuments .orderId .orders .restrict,
  -- 0001_supreme_yellow_claw
  within .catalogItems .videoAssetId .mediaAssets .restrict,
  -- 0004_add_cash_shifts
  ofTenant .cashShifts .restrict,
  -- 0006_add_print_pairings
  ofTenant .printAgentPairings .restrict,
  within .printAgentPairings .locationId .tenantLocations .restrict,
  within .printAgentPairings .claimedAgentId .printAgents .restrict,
  -- 0009_add_analytics_records_and_tender
  ofTenant .cashRegisterMovements .restrict,
  byId .cashRegisterMovements .orderId .orders .restrict,
  ofTenant .mpFinancialRecords .restrict,
  byId .mpFinancialRecords .orderId .orders .restrict,
  ofTenant .storefrontItemEvents .restrict,
  -- 0010_schema_architecture_enhancements
  ofTenant .printerDestinations .restrict,
  within .printerDestinations .locationId .tenantLocations .restrict,
  within .printerDestinations .assignedAgentId .printAgents .setNull,
  ofTenant .inventoryLevels .restrict,
  within .inventoryLevels .locationId .tenantLocations .restrict,
  within .inventoryLevels .itemId .catalogItems .restrict,
  ofTenant .inventoryMovements .restrict,
  within .inventoryMovements .locationId .tenantLocations .restrict,
  within .inventoryMovements .itemId .catalogItems .restrict,
  ofTenant .discounts .restrict,
  within .cashShifts .locationId .tenantLocations .restrict,
  byId .cashRegisterMovements .shiftId .cashShifts .noAction,
  within .printJobs .destinationStationId .printerDestinations .setNull,
  within .billingDocuments .relatedDocumentId .billingDocuments .restrict,
  byId .carts .appliedDiscountCodeId .discounts .setNull,
  -- 0012_add_discount_redemptions
  ofTenant .discountRedemptions .restrict,
  within .discountRedemptions .discountId .discounts .restrict,
  within .discountRedemptions .orderId .orders .restrict,
  -- 0014_schema_optimizations_and_normalization
  within .cashRegisterMovements .locationId .tenantLocations .restrict,
  ofTenant .discountCategories .restrict,
  within .discountCategories .discountId .discounts .cascade,
  within .discountCategories .categoryId .catalogCategories .cascade,
  ofTenant .discountItems .restrict,
  within .discountItems .discountId .discounts .cascade,
  within .discountItems .itemId .catalogItems .cascade,
  -- 0015_add_search_projections_and_pg_trgm
  ofTenant .publicSearchTenants .cascade,
  ofTenant .catalogSearchEntries .cascade,
  { table := .catalogSearchEntries, pairs := [(.tenantId, .tenantId)], parent := .publicSearchTenants, onDelete := .cascade },
  within .catalogSearchEntries .itemId .catalogItems .cascade]

/-- The statements of `deleteTenant`, in order. -/
def deletionOrder : List DbTable := [
  .catalogSearchEntries, .publicSearchTenants, .storefrontItemEvents, .storefrontSessions, .discountRedemptions,
  .discountCategories, .discountItems, .discounts, .billingDocuments, .printJobAttempts, .printJobs,
  .cashRegisterMovements, .mpFinancialRecords, .orderEvents, .orderLineOptions, .orderLines, .orders,
  .paymentAttempts, .cartLineOptions, .cartLines, .carts, .inventoryMovements, .inventoryLevels, .cashShifts,
  .printAgentPairings, .printerDestinations, .printAgents, .comboItems, .catalogCombos, .itemAddonGroups,
  .addonOptions, .addonGroups, .catalogItems, .catalogCategories, .mediaAssets, .providerResourceRoutes,
  .integrationAccounts, .webhookEvents, .onboardingHandoffs, .tenantSettings, .tenantCounters, .tenantLocations,
  .tenantEntitlementSnapshots, .idempotencyRecords, .auditEvents, .outboxEvents, .tenantMemberships, .tenants]

def dbTables : List DbTable := deletionOrder ++
  [.users, .userSessions, .identityVerificationChallenges, .planDefinitions, .globalProductCatalog]

/-- `tenant_id` is `NOT NULL` but for the records of the platform; no other column that a key clears is. -/
def required (t : DbTable) (c : DbColumn) : Bool :=
  decide (c = .tenantId ∧ t ≠ .idempotencyRecords ∧ t ≠ .auditEvents)

def relations : Relations DbTable DbColumn where
  tables := dbTables
  complete := by
    intro t
    cases t <;> decide +kernel
  keys := foreignKeys
  required

end TenantErasure

open TenantErasure

/-- The columns of the keys, and whatever else a row holds. -/
abbrev StoredRow (Rest : Type) := Row DbColumn Id Rest

abbrev Tables (Rest : Type) := DbTable → List (StoredRow Rest)

/-- `TenantContext` -/
structure ErasureContext where
  tenantId : Id
  actor : Actor
deriving DecidableEq, Repr

inductive ErasureError
  | accessDenied
  | foreignKey (key : ForeignKey DbTable DbColumn)

/-- `requireOwner` -/
def requireOwner (context : ErasureContext) : Except ErasureError Unit :=
  match context.actor with
  | .user _ .owner => .ok ()
  | _ => .error .accessDenied

def belongsTo {Rest : Type} (tenantId : Id) (t : DbTable) (r : StoredRow Rest) : Bool :=
  Relations.owned DbTable.tenantColumn tenantId t r

/-- `TenantDeletionService.deleteTenant`. A statement that fails rolls the transaction back. -/
def deleteTenant {Rest : Type} (context : ErasureContext) (db : Tables Rest) : Except ErasureError (Tables Rest) := do
  requireOwner context
  match relations.erase (belongsTo context.tenantId) deletionOrder db with
  | .ok db => .ok db
  | .error key => .error (.foreignKey key)

end Komanda
