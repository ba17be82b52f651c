import Komanda.CatalogRules
import Mathlib.Data.List.Sort

/-!
# The catalog (`CatalogRepository`, `CatalogService`)

`CatalogTables` is the catalog of one tenant as its administration sees it, with the columns that the
services of `Database` never read. `Shop` is the whole tenant: what those services work on is its `face`,
the catalog as they read it, and of what they leave only the stock comes back (`absorb`). Unlocked reads are
`look`, a conditional update with its returned row is `current` and `write`.
-/

namespace Komanda
open Transaction

/-! ## Tables (`db/schema/catalog.ts`) -/

structure MediaRow where
  id : Id
  publicUrl : Option String
  status : MediaStatus
deriving DecidableEq, Repr

structure CategoryRow where
  id : Id
  name : String
  normalizedName : String
  description : Option String
  sortOrder : Nat
  status : CategoryStatus
  version : Nat
  archivedAt : Option Instant
deriving DecidableEq, Repr

structure ItemRow where
  id : Id
  categoryId : Id
  name : String
  normalizedName : String
  description : Option String
  price : Cents
  currency : String
  itemType : ItemType
  barcode : Option String
  isGeneric : Bool
  genericIcon : Option String
  trackStock : Bool
  stockQuantity : Int
  imageAssetId : Option Id
  videoAssetId : Option Id
  status : CatalogStatus
  sortOrder : Nat
  version : Nat
  archivedAt : Option Instant
deriving DecidableEq, Repr

structure AddonGroupRow where
  id : Id
  name : String
  minSelected : Nat
  maxSelected : Nat
  sortOrder : Nat
  status : CategoryStatus
  version : Nat
  archivedAt : Option Instant
deriving DecidableEq, Repr

structure AddonOptionRow where
  id : Id
  groupId : Id
  name : String
  description : Option String
  priceDelta : Cents
  status : CatalogStatus
  sortOrder : Nat
deriving DecidableEq, Repr

structure ItemAddonGroupRow where
  itemId : Id
  addonGroupId : Id
  sortOrder : Nat
deriving DecidableEq, Repr

structure ComboRow where
  id : Id
  categoryId : Id
  name : String
  normalizedName : String
  description : Option String
  price : Cents
  currency : String
  imageAssetId : Option Id
  status : CatalogStatus
  version : Nat
  archivedAt : Option Instant
deriving DecidableEq, Repr

structure ComboItemRow where
  comboId : Id
  itemId : Id
  quantity : Nat
  sortOrder : Nat
deriving DecidableEq, Repr

structure CatalogTables where
  /-- `catalog_management` of the entitlement snapshot in force. -/
  entitled : Bool
  media : List MediaRow := []
  categories : List CategoryRow := []
  items : List ItemRow := []
  addonGroups : List AddonGroupRow := []
  addonOptions : List AddonOptionRow := []
  itemAddonGroups : List ItemAddonGroupRow := []
  combos : List ComboRow := []
  comboItems : List ComboItemRow := []
deriving DecidableEq, Repr

abbrev CatalogTx (α : Type) := Tx CatalogTables CatalogError α

/-- `integer` of the database. -/
def int4Max : Nat := 2 ^ 31 - 1

/-- Roll back with the first of the constraints that fails. -/
def enforce (constraints : List (String × Bool)) : CatalogTx Unit :=
  match constraints.find? fun c => !c.2 with
  | some c => throw (.database c.1)
  | none => pure ()

/-! ## `CatalogRepository` -/

namespace CatalogRepository

def findCategory (id : Id) (t : CatalogTables) : Option CategoryRow := Table.lookup CategoryRow.id id t.categories

def findMedia (id : Option Id) (t : CatalogTables) : Option MediaRow :=
  id.bind fun id => Table.lookup MediaRow.id id t.media

def findItem (id : Id) (t : CatalogTables) : Option ItemRow := Table.lookup ItemRow.id id t.items

def findItemByBarcode (barcode : String) (t : CatalogTables) : Option ItemRow :=
  t.items.find? fun r => r.barcode = some barcode && r.archivedAt.isNone

def findWeightedItemByPlu (pluCode : String) (t : CatalogTables) : Option ItemRow :=
  t.items.find? fun r => r.itemType = .weighted && r.barcode = some pluCode && r.archivedAt.isNone

def findItems (ids : List Id) (t : CatalogTables) : List ItemRow := t.items.filter (·.id ∈ ids)

def findAddonGroups (ids : List Id) (t : CatalogTables) : List AddonGroupRow := t.addonGroups.filter (·.id ∈ ids)

def findAddonGroup (id : Id) (t : CatalogTables) : Option AddonGroupRow :=
  Table.lookup AddonGroupRow.id id t.addonGroups

def findCombo (id : Id) (t : CatalogTables) : Option ComboRow := Table.lookup ComboRow.id id t.combos

/-- In the order of `sort_order`. -/
def findComboItems (comboId : Id) (t : CatalogTables) : List ComboItemRow :=
  (t.comboItems.filter (·.comboId = comboId)).insertionSort fun a b => a.sortOrder ≤ b.sortOrder

def countCategoryChildren (categoryId : Id) (t : CatalogTables) : Nat :=
  t.items.countP (fun r => r.categoryId = categoryId && r.status ≠ .archived) +
    t.combos.countP (fun r => r.categoryId = categoryId && r.status ≠ .archived)

/-- What the table demands of a category among the others. -/
def categoryConstraints (row : CategoryRow) (others : List CategoryRow) : List (String × Bool) :=
  [("integer out of range", row.sortOrder ≤ int4Max),
   ("catalog_categories_pkey", others.all (·.id ≠ row.id)),
   ("catalog_categories_tenant_name_active_uidx", row.archivedAt.isSome ||
     others.all fun r => r.archivedAt.isSome || r.normalizedName ≠ row.normalizedName)]

def createCategory (row : CategoryRow) : CatalogTx CategoryRow := do
  let rows ← current CatalogTables.categories
  enforce (categoryConstraints row rows)
  write fun t => { t with categories := t.categories ++ [row] }
  return row

/-- `UPDATE … SET values, version = version + 1 WHERE id AND version RETURNING *`. -/
def updateCategory (id : Id) (version : Nat) (values : CategoryRow → CategoryRow) : CatalogTx (Option CategoryRow) := do
  let rows ← current CatalogTables.categories
  match rows.find? fun r => r.id = id && r.version = version with
  | none => return none
  | some r => do
    let row := { values r with version := r.version + 1 }
    enforce (categoryConstraints row (rows.filter (·.id ≠ id)))
    write fun t => { t with categories := Table.updateWhere (·.id = id) (fun _ => row) t.categories }
    return some row

def itemConstraints (row : ItemRow) (others : List ItemRow) : List (String × Bool) :=
  [("integer out of range", row.sortOrder ≤ int4Max && row.stockQuantity ≤ int4Max),
   ("catalog_items_pkey", others.all (·.id ≠ row.id)),
   ("catalog_items_price_check", 0 < row.price),
   ("catalog_items_stock_quantity_check", 0 ≤ row.stockQuantity),
   ("catalog_items_tenant_name_active_uidx", row.archivedAt.isSome ||
     others.all fun r => r.archivedAt.isSome || r.normalizedName ≠ row.normalizedName),
   ("catalog_items_tenant_barcode_uidx", row.archivedAt.isSome || row.barcode.isNone ||
     others.all fun r => r.archivedAt.isSome || r.barcode ≠ row.barcode)]

/-- The links of an item, numbered in the order given. -/
def addonLinks (itemId : Id) (addonGroupIds : List Id) : List ItemAddonGroupRow :=
  addonGroupIds.mapIdx fun sortOrder addonGroupId => { itemId, addonGroupId, sortOrder }

def createItem (row : ItemRow) (addonGroupIds : List Id) : CatalogTx ItemRow := do
  let rows ← current CatalogTables.items
  enforce (itemConstraints row rows)
  write fun t => { t with
    items := t.items ++ [row]
    itemAddonGroups := t.itemAddonGroups ++ addonLinks row.id addonGroupIds }
  return row

def updateItem (id : Id) (version : Nat) (values : ItemRow → ItemRow) (addonGroupIds : Option (List Id)) :
    CatalogTx (Option ItemRow) := do
  let rows ← current CatalogTables.items
  match rows.find? fun r => r.id = id && r.version = version with
  | none => return none
  | some r => do
    let row := { values r with version := r.version + 1 }
    enforce (itemConstraints row (rows.filter (·.id ≠ id)))
    write fun t => { t with items := Table.updateWhere (·.id = id) (fun _ => row) t.items }
    forSome addonGroupIds fun ids => write fun t => { t with
      itemAddonGroups := t.itemAddonGroups.filter (·.itemId ≠ id) ++ addonLinks id ids }
    return some row

def addonGroupConstraints (row : AddonGroupRow) (others : List AddonGroupRow) : List (String × Bool) :=
  [("integer out of range", row.sortOrder ≤ int4Max && row.maxSelected ≤ int4Max),
   ("addon_groups_pkey", others.all (·.id ≠ row.id)),
   ("addon_groups_bounds_check", row.minSelected ≤ row.maxSelected)]

/-- The options of a request as rows, under the ids drawn for them. -/
def addonOptionRows (groupId : Id) (options : List AddonOptionInput) (ids : List Id) : List AddonOptionRow :=
  options.mapIdx fun i option =>
    { id := ids.getD i "", groupId, name := option.name, description := option.description.join,
      priceDelta := option.priceDelta, status := option.status.getD .active, sortOrder := option.sortOrder.getD 0 }

def addonOptionConstraints (options others : List AddonOptionRow) : List (String × Bool) :=
  [("integer out of range", options.all (·.sortOrder ≤ int4Max)),
   ("addon_options_pkey", ((others ++ options).map (·.id)).Nodup)]

def createAddonGroup (row : AddonGroupRow) (options : List AddonOptionRow) : CatalogTx AddonGroupRow := do
  let rows ← current CatalogTables.addonGroups
  enforce (addonGroupConstraints row rows)
  let others ← current CatalogTables.addonOptions
  enforce (addonOptionConstraints options others)
  write fun t => { t with
    addonGroups := t.addonGroups ++ [row]
    addonOptions := t.addonOptions ++ options }
  return row

/-- The options in force are archived, not deleted, when new ones come. -/
def updateAddonGroup (id : Id) (version : Nat) (values : AddonGroupRow → AddonGroupRow)
    (options : Option (List AddonOptionRow)) : CatalogTx (Option AddonGroupRow) := do
  let rows ← current CatalogTables.addonGroups
  match rows.find? fun r => r.id = id && r.version = version with
  | none => return none
  | some r => do
    let row := { values r with version := r.version + 1 }
    enforce (addonGroupConstraints row (rows.filter (·.id ≠ id)))
    write fun t => { t with addonGroups := Table.updateWhere (·.id = id) (fun _ => row) t.addonGroups }
    forSome options fun options => do
      let others ← current CatalogTables.addonOptions
      enforce (addonOptionConstraints options others)
      let archive (r : AddonOptionRow) := { r with status := .archived }
      write fun t => { t with
        addonOptions := Table.updateWhere (·.groupId = id) archive t.addonOptions ++ options }
    return some row

def comboConstraints (row : ComboRow) (others : List ComboRow) : List (String × Bool) :=
  [("catalog_combos_pkey", others.all (·.id ≠ row.id)),
   ("catalog_combos_price_check", 0 < row.price),
   ("catalog_combos_tenant_name_active_uidx", row.archivedAt.isSome ||
     others.all fun r => r.archivedAt.isSome || r.normalizedName ≠ row.normalizedName)]

def comboItemRows (comboId : Id) (items : List ComboItemInput) : List ComboItemRow :=
  items.map fun line => { comboId, itemId := line.itemId, quantity := line.quantity, sortOrder := line.sortOrder.getD 0 }

def comboItemConstraints (items : List ComboItemInput) : List (String × Bool) :=
  [("integer out of range", items.all fun line => line.quantity ≤ int4Max && line.sortOrder.getD 0 ≤ int4Max),
   ("combo_items_pkey", (items.map (·.itemId)).Nodup)]

def createCombo (row : ComboRow) (items : List ComboItemInput) : CatalogTx ComboRow := do
  let rows ← current CatalogTables.combos
  enforce (comboConstraints row rows)
  enforce (comboItemConstraints items)
  write fun t => { t with
    combos := t.combos ++ [row]
    comboItems := t.comboItems ++ comboItemRows row.id items }
  return row

def updateCombo (id : Id) (version : Nat) (values : ComboRow → ComboRow) (items : Option (List ComboItemInput)) :
    CatalogTx (Option ComboRow) := do
  let rows ← current CatalogTables.combos
  match rows.find? fun r => r.id = id && r.version = version with
  | none => return none
  | some r => do
    let row := { values r with version := r.version + 1 }
    enforce (comboConstraints row (rows.filter (·.id ≠ id)))
    write fun t => { t with combos := Table.updateWhere (·.id = id) (fun _ => row) t.combos }
    forSome items fun items => do
      enforce (comboItemConstraints items)
      write fun t => { t with
        comboItems := t.comboItems.filter (·.comboId ≠ id) ++ comboItemRows id items }
    return some row

end CatalogRepository

/-! ## The tenant -/

/-- A tenant: the tables of its trade, and of its catalog. -/
structure Shop where
  /-- Its own columns of the catalog are never read: `Shop.face` fills them. -/
  db : Db
  catalog : CatalogTables
deriving DecidableEq, Repr

/-- The joined row of `media_assets`. -/
def MediaRow.face (row : MediaRow) : Media := { publicUrl := row.publicUrl, ready := row.status = .ready }

def ItemRow.face (t : CatalogTables) (row : ItemRow) : CatalogItem :=
  { id := row.id, categoryId := row.categoryId, name := row.name, price := row.price, currency := row.currency,
    itemType := row.itemType, trackStock := row.trackStock, stockQuantity := row.stockQuantity, status := row.status,
    media := (CatalogRepository.findMedia row.imageAssetId t).map MediaRow.face }

def ComboRow.face (t : CatalogTables) (row : ComboRow) : CatalogCombo :=
  { id := row.id, categoryId := some row.categoryId, name := row.name, price := row.price, currency := row.currency,
    status := row.status, media := (CatalogRepository.findMedia row.imageAssetId t).map MediaRow.face,
    itemIds := (CatalogRepository.findComboItems row.id t).map (·.itemId) }

def AddonGroupRow.face (t : CatalogTables) (row : AddonGroupRow) : AddonGroup :=
  { id := row.id, minSelected := row.minSelected, maxSelected := row.maxSelected, active := row.status = .active,
    options := (t.addonOptions.filter (·.groupId = row.id)).map fun option =>
      { id := option.id, name := option.name, priceDelta := option.priceDelta, active := option.status = .active } }

namespace Shop

/-- The tenant as the services of carts, payments and orders read it. -/
def face (s : Shop) : Db :=
  { s.db with
    items := s.catalog.items.map (ItemRow.face s.catalog)
    combos := s.catalog.combos.map (ComboRow.face s.catalog)
    addonGroups := s.catalog.addonGroups.map (AddonGroupRow.face s.catalog)
    itemAddonGroups := s.catalog.itemAddonGroups.map fun link => (link.itemId, link.addonGroupId) }

/-- The stock that a service has left of an item. -/
def restock (db : Db) (row : ItemRow) : ItemRow :=
  { row with stockQuantity := ((Table.lookup CatalogItem.id row.id db.items).map (·.stockQuantity)).getD row.stockQuantity }

/-- The tenant after such a service: `stock_quantity` is the only column of the catalog that one writes. -/
def absorb (db : Db) (s : Shop) : Shop :=
  { db, catalog := { s.catalog with items := s.catalog.items.map (restock db) } }

end Shop

abbrev ShopTx (α : Type) := Tx Shop CatalogError α

/-- The transaction of one of those services. -/
def onFace {α : Type} (x : DbTx α) : ShopTx α := zoom Shop.face Shop.absorb .app x

def onCatalog {α : Type} (x : CatalogTx α) : ShopTx α :=
  zoom Shop.catalog (fun t s => { s with catalog := t }) id x

def onDb {α : Type} (x : DbTx α) : ShopTx α := zoom Shop.db (fun db s => { s with db }) .app x

/-- An unlocked read of the catalog. -/
def lookCatalog {α : Type} (f : CatalogTables → α) : ShopTx α := look fun s => f s.catalog

/-! ## `CatalogService` -/

def requireCatalogManagement : ShopTx Unit := do
  let entitled ← lookCatalog CatalogTables.entitled
  throwIf (¬ entitled) (.entitlementDenied "Catalog management is unavailable.")

def recordMutation (action resourceType : String) (resourceId : Id) : ShopTx Unit :=
  onDb do
    appendAuditEvent action resourceType resourceId []
    appendOutboxEvent resourceType resourceId action []

namespace CatalogService
open CatalogRepository

variable (locale : Locale)

/-- The columns that a patch names. -/
def setCategory (input : CategoryPatch) (row : CategoryRow) : CategoryRow :=
  { row with
    name := input.name.getD row.name
    normalizedName := (input.name.map (normalizeCatalogName locale)).getD row.normalizedName
    description := input.description.getD row.description
    sortOrder := input.sortOrder.getD row.sortOrder
    status := input.status.getD row.status }

def newCategory (input : CategoryInput) (id : Id) : CategoryRow :=
  { id, name := input.name, normalizedName := normalizeCatalogName locale input.name,
    description := input.description.join, sortOrder := input.sortOrder.getD 0, status := input.status.getD .draft,
    version := 1, archivedAt := none }

def createCategory (value : CategoryInput) (newId : Id) : ShopTx CategoryRow := do
  let input ← fromExcept (categoryInputSchema value)
  requireCatalogManagement
  let category ← onCatalog (CatalogRepository.createCategory (newCategory locale input newId))
  recordMutation "catalog.category.created" "catalog_category" category.id
  return category

def updateCategory (categoryId : Id) (version : Nat) (value : CategoryPatch) : ShopTx CategoryRow := do
  let input ← fromExcept (categoryPatchSchema version value)
  requireCatalogManagement
  let found ← lookCatalog (findCategory categoryId)
  throwIf found.isNone (.notFound "Category not found.")
  let updated ← onCatalog (CatalogRepository.updateCategory categoryId version (setCategory locale input))
  let category ← orThrow updated (.conflict "Category version conflict.")
  recordMutation "catalog.category.updated" "catalog_category" category.id
  return category

def archiveCategory (categoryId : Id) (version : Nat) (now : Instant) : ShopTx CategoryRow := do
  let version ← fromExcept (versionedArchiveInput version)
  requireCatalogManagement
  let found ← lookCatalog (findCategory categoryId)
  throwIf found.isNone (.notFound "Category not found.")
  let children ← lookCatalog (countCategoryChildren categoryId)
  fromExcept (assertArchivableCategory children)
  let updated ← onCatalog (CatalogRepository.updateCategory categoryId version fun row =>
    { row with status := .archived, archivedAt := some now })
  let archived ← orThrow updated (.conflict "Category version conflict.")
  recordMutation "catalog.category.archived" "catalog_category" archived.id
  return archived

/-- The check of an item that is to be active, on its image and on its video. -/
def assertPublishable (category : CategoryRow) (media video : Option MediaRow) : Except CatalogError Unit := do
  assertPublishableItem category.status (media.map (·.status))
  match video with
  | some video => assertPublishableItem category.status (some video.status)
  | none => .ok ()

def newItem (input : CatalogItemInput) (isWeighted : Bool) (barcode : Option String) (id : Id) : ItemRow :=
  { id, categoryId := input.categoryId, name := input.name, normalizedName := normalizeCatalogName locale input.name,
    description := input.description.join, price := input.price, currency := input.currency,
    itemType := input.itemType.getD .unit, barcode,
    isGeneric := if isWeighted then false else input.isGeneric.getD false,
    genericIcon := if isWeighted then none else input.genericIcon.join,
    trackStock := if isWeighted then false else input.trackStock.getD false,
    stockQuantity := if isWeighted then 0 else (input.stockQuantity.getD 0 : Nat),
    imageAssetId := input.imageAssetId.join, videoAssetId := input.videoAssetId.join,
    status := input.status.getD .draft, sortOrder := input.sortOrder.getD 0, version := 1, archivedAt := none }

/-- The barcode to store: the PLU code of a weighted item, any other item's as it is. -/
def normalizeBarcode (isWeighted : Bool) (barcode : Option String) : Except CatalogError (Option String) :=
  let normalized := if isWeighted then some (normalizePluCode (barcode.getD "")) else barcode
  if isWeighted && !isPluCode (normalized.getD "").toList then
    .error (.ruleViolation "Weighted items require a valid 5-digit non-zero PLU code.")
  else .ok normalized

def createItem (value : CatalogItemInput) (newId : Id) : ShopTx ItemRow := do
  let input ← fromExcept (catalogItemInputSchema value)
  requireCatalogManagement
  let category ← lookCatalog (findCategory input.categoryId)
  let media ← lookCatalog (findMedia input.imageAssetId.join)
  let video ← lookCatalog (findMedia input.videoAssetId.join)
  let addonGroupIds := input.addonGroupIds.getD []
  let groups ← lookCatalog (findAddonGroups addonGroupIds)
  throwIf (groups.length ≠ addonGroupIds.eraseDups.length) (.notFound "Catalog relationship not found.")
  let category ← orThrow category (.notFound "Catalog relationship not found.")
  throwIf (input.imageAssetId.join.isSome ∧ media.isNone) (.notFound "Catalog media not found.")
  throwIf (input.videoAssetId.join.isSome ∧ video.isNone) (.notFound "Catalog video not found.")
  runIf (input.status = some .active) (fromExcept (assertPublishable category media video))
  let isWeighted := input.itemType = some .weighted
  let barcode ← fromExcept (normalizeBarcode isWeighted input.barcode.join)
  let item ← onCatalog (CatalogRepository.createItem (newItem locale input isWeighted barcode newId) addonGroupIds.eraseDups)
  recordMutation "catalog.item.created" "catalog_item" item.id
  return item

/-- The columns that a patch names, and those that a weighted item does not have. -/
def setItem (input : CatalogItemPatch) (isWeighted : Bool) (barcode : Option String) (row : ItemRow) : ItemRow :=
  { row with
    categoryId := input.categoryId.getD row.categoryId
    name := input.name.getD row.name
    normalizedName := (input.name.map (normalizeCatalogName locale)).getD row.normalizedName
    description := input.description.getD row.description
    price := input.price.getD row.price
    currency := input.currency.getD row.currency
    itemType := input.itemType.getD row.itemType
    imageAssetId := input.imageAssetId.getD row.imageAssetId
    videoAssetId := input.videoAssetId.getD row.videoAssetId
    barcode := if input.barcode.isSome || input.itemType.isSome then barcode else row.barcode
    isGeneric := if isWeighted then false else input.isGeneric.getD row.isGeneric
    genericIcon := if isWeighted then none else input.genericIcon.getD row.genericIcon
    trackStock := if isWeighted then false else input.trackStock.getD row.trackStock
    stockQuantity := if isWeighted then 0 else (input.stockQuantity.map Int.ofNat).getD row.stockQuantity
    status := input.status.getD row.status
    sortOrder := input.sortOrder.getD row.sortOrder }

def updateItem (itemId : Id) (version : Nat) (value : CatalogItemPatch) : ShopTx ItemRow := do
  let input ← fromExcept (catalogItemPatchSchema version value)
  requireCatalogManagement
  let found ← lookCatalog (findItem itemId)
  let row ← orThrow found (.notFound "Item not found.")
  let category ← lookCatalog (findCategory (input.categoryId.getD row.categoryId))
  let imageAssetId := input.imageAssetId.getD row.imageAssetId
  let media ← lookCatalog (findMedia imageAssetId)
  let videoAssetId := input.videoAssetId.getD row.videoAssetId
  let video ← lookCatalog (findMedia videoAssetId)
  throwIf (imageAssetId.isSome ∧ media.isNone) (.notFound "Catalog relationship not found.")
  let category ← orThrow category (.notFound "Catalog relationship not found.")
  throwIf (videoAssetId.isSome ∧ video.isNone) (.notFound "Catalog video not found.")
  forSome input.addonGroupIds fun ids => do
    let groups ← lookCatalog (findAddonGroups ids)
    throwIf (groups.length ≠ ids.eraseDups.length) (.notFound "Add-on group not found.")
  runIf (input.status.getD row.status = .active) (fromExcept (assertPublishable category media video))
  let isWeighted := input.itemType.getD row.itemType = .weighted
  let barcode ← fromExcept (normalizeBarcode isWeighted (input.barcode.getD row.barcode))
  let updated ← onCatalog (CatalogRepository.updateItem itemId version (setItem locale input isWeighted barcode)
    (input.addonGroupIds.map (·.eraseDups)))
  let item ← orThrow updated (.conflict "Item version conflict.")
  recordMutation "catalog.item.updated" "catalog_item" item.id
  return item

def archiveItem (itemId : Id) (version : Nat) : ShopTx ItemRow := do
  let version ← fromExcept (versionedArchiveInput version)
  updateItem locale itemId version { status := some .archived }

def newAddonGroup (input : AddonGroupInput) (id : Id) : AddonGroupRow :=
  { id, name := input.name, minSelected := input.minSelected, maxSelected := input.maxSelected,
    sortOrder := input.sortOrder.getD 0, status := input.status.getD .draft, version := 1, archivedAt := none }

def setAddonGroup (input : AddonGroupPatch) (row : AddonGroupRow) : AddonGroupRow :=
  { row with
    name := input.name.getD row.name
    minSelected := input.minSelected.getD row.minSelected
    maxSelected := input.maxSelected.getD row.maxSelected
    sortOrder := input.sortOrder.getD row.sortOrder
    status := input.status.getD row.status }

def createAddonGroup (value : AddonGroupInput) (newId : Id) (optionIds : List Id) : ShopTx AddonGroupRow := do
  let input ← fromExcept (addonGroupInputSchema value)
  requireCatalogManagement
  let created ← onCatalog (CatalogRepository.createAddonGroup (newAddonGroup input newId)
    (addonOptionRows newId input.options optionIds))
  recordMutation "catalog.addon_group.created" "addon_group" created.id
  return created

def updateAddonGroup (groupId : Id) (version : Nat) (value : AddonGroupPatch) (optionIds : List Id) :
    ShopTx AddonGroupRow := do
  let input ← fromExcept (addonGroupPatchSchema version value)
  requireCatalogManagement
  let found ← lookCatalog (findAddonGroup groupId)
  throwIf found.isNone (.notFound "Add-on group not found.")
  let updated ← onCatalog (CatalogRepository.updateAddonGroup groupId version (setAddonGroup input)
    (input.options.map fun options => addonOptionRows groupId options optionIds))
  let group ← orThrow updated (.conflict "Add-on group version conflict.")
  recordMutation "catalog.addon_group.updated" "addon_group" group.id
  return group

def archiveAddonGroup (groupId : Id) (version : Nat) : ShopTx AddonGroupRow := do
  let version ← fromExcept (versionedArchiveInput version)
  updateAddonGroup groupId version { status := some .archived } []

def newCombo (input : ComboInput) (id : Id) : ComboRow :=
  { id, categoryId := input.categoryId, name := input.name, normalizedName := normalizeCatalogName locale input.name,
    description := input.description.join, price := input.price, currency := input.currency,
    imageAssetId := input.imageAssetId.join, status := input.status.getD .draft, version := 1, archivedAt := none }

def setCombo (input : ComboPatch) (row : ComboRow) : ComboRow :=
  { row with
    categoryId := input.categoryId.getD row.categoryId
    name := input.name.getD row.name
    normalizedName := (input.name.map (normalizeCatalogName locale)).getD row.normalizedName
    description := input.description.getD row.description
    price := input.price.getD row.price
    currency := input.currency.getD row.currency
    imageAssetId := input.imageAssetId.getD row.imageAssetId
    status := input.status.getD row.status }

/-- The status of a line's item among the rows found, `archived` when there is none. -/
def statusOf (items : List ItemRow) (itemId : Id) : CatalogStatus :=
  ((Table.lookup ItemRow.id itemId items).map (·.status)).getD .archived

def createCombo (value : ComboInput) (newId : Id) : ShopTx ComboRow := do
  let input ← fromExcept (comboInputSchema value)
  requireCatalogManagement
  let category ← lookCatalog (findCategory input.categoryId)
  let media ← lookCatalog (findMedia input.imageAssetId.join)
  let itemIds := input.items.map (·.itemId)
  let items ← lookCatalog (findItems itemIds)
  throwIf ((input.imageAssetId.join.isSome ∧ media.isNone) ∨ items.length ≠ itemIds.eraseDups.length)
    (.notFound "Combo relationship not found.")
  let category ← orThrow category (.notFound "Combo relationship not found.")
  runIf (input.status = some .active) do
    fromExcept (assertPublishableCombo category.status (media.map (·.status))
      (input.items.map fun line => (statusOf items line.itemId, line.quantity)))
  let combo ← onCatalog (CatalogRepository.createCombo (newCombo locale input newId) input.items)
  recordMutation "catalog.combo.created" "catalog_combo" combo.id
  return combo

/-- The lines that a combo will have, with the status of their items. -/
def effectiveLines (comboId : Id) (items : Option (List ComboItemInput)) (t : CatalogTables) :
    List (CatalogStatus × Nat) :=
  let lines : List (Id × Nat) := match items with
    | some items => items.map fun line => (line.itemId, line.quantity)
    | none => (findComboItems comboId t).map fun line => (line.itemId, line.quantity)
  lines.map fun line => (statusOf (findItems (lines.map (·.1)) t) line.1, line.2)

def updateCombo (comboId : Id) (version : Nat) (value : ComboPatch) : ShopTx ComboRow := do
  let input ← fromExcept (comboPatchSchema version value)
  requireCatalogManagement
  let found ← lookCatalog (findCombo comboId)
  let row ← orThrow found (.notFound "Combo not found.")
  let category ← lookCatalog (findCategory (input.categoryId.getD row.categoryId))
  let imageAssetId := input.imageAssetId.getD row.imageAssetId
  let media ← lookCatalog (findMedia imageAssetId)
  throwIf (imageAssetId.isSome ∧ media.isNone) (.notFound "Combo relationship not found.")
  let category ← orThrow category (.notFound "Combo relationship not found.")
  forSome input.items fun items => do
    let ids := items.map (·.itemId)
    let found ← lookCatalog (findItems ids)
    throwIf (found.length ≠ ids.eraseDups.length) (.notFound "Combo item not found.")
  runIf (input.status.getD row.status = .active) do
    let lines ← lookCatalog (effectiveLines comboId input.items)
    fromExcept (assertPublishableCombo category.status (media.map (·.status)) lines)
  let updated ← onCatalog (CatalogRepository.updateCombo comboId version (setCombo locale input) input.items)
  let combo ← orThrow updated (.conflict "Combo version conflict.")
  recordMutation "catalog.combo.updated" "catalog_combo" combo.id
  return combo

def archiveCombo (comboId : Id) (version : Nat) : ShopTx ComboRow := do
  let version ← fromExcept (versionedArchiveInput version)
  updateCombo locale comboId version { status := some .archived }

end CatalogService

/-! ## Requests -/

/-- A call of the service that changes the catalog, with the values it draws. -/
inductive CatalogRequest
  | createCategory (value : CategoryInput) (newId : Id)
  | updateCategory (categoryId : Id) (version : Nat) (value : CategoryPatch)
  | archiveCategory (categoryId : Id) (version : Nat) (now : Instant)
  | createItem (value : CatalogItemInput) (newId : Id)
  | updateItem (itemId : Id) (version : Nat) (value : CatalogItemPatch)
  | archiveItem (itemId : Id) (version : Nat)
  | createAddonGroup (value : AddonGroupInput) (newId : Id) (optionIds : List Id)
  | updateAddonGroup (groupId : Id) (version : Nat) (value : AddonGroupPatch) (optionIds : List Id)
  | archiveAddonGroup (groupId : Id) (version : Nat)
  | createCombo (value : ComboInput) (newId : Id)
  | updateCombo (comboId : Id) (version : Nat) (value : ComboPatch)
  | archiveCombo (comboId : Id) (version : Nat)
deriving DecidableEq, Repr

/-- What a call answers with. -/
inductive CatalogAnswer
  | category (row : CategoryRow)
  | item (row : ItemRow)
  | addonGroup (row : AddonGroupRow)
  | combo (row : ComboRow)
deriving DecidableEq, Repr

/-- The transaction of a call. -/
def CatalogRequest.run (locale : Locale) : CatalogRequest → ShopTx CatalogAnswer
  | createCategory value newId => .category <$> CatalogService.createCategory locale value newId
  | updateCategory categoryId version value => .category <$> CatalogService.updateCategory locale categoryId version value
  | archiveCategory categoryId version now => .category <$> CatalogService.archiveCategory categoryId version now
  | createItem value newId => .item <$> CatalogService.createItem locale value newId
  | updateItem itemId version value => .item <$> CatalogService.updateItem locale itemId version value
  | archiveItem itemId version => .item <$> CatalogService.archiveItem locale itemId version
  | createAddonGroup value newId optionIds => .addonGroup <$> CatalogService.createAddonGroup value newId optionIds
  | updateAddonGroup groupId version value optionIds =>
    .addonGroup <$> CatalogService.updateAddonGroup groupId version value optionIds
  | archiveAddonGroup groupId version => .addonGroup <$> CatalogService.archiveAddonGroup groupId version
  | createCombo value newId => .combo <$> CatalogService.createCombo locale value newId
  | updateCombo comboId version value => .combo <$> CatalogService.updateCombo locale comboId version value
  | archiveCombo comboId version => .combo <$> CatalogService.archiveCombo locale comboId version

end Komanda
