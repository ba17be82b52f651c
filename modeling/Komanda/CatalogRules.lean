import Komanda.Database

/-!
# The rules of the catalog (`catalog.rules.ts`)

The request schemas, the PLU codes and the conditions for publishing and archiving. A patch has the
keys of its request: `none` is an absent key, `some none` an explicit null. Numbers that a schema wants
nonnegative are naturals, and amounts are cents. A schema answers with what it parses the request to, or
with the paths of its issues.
-/

namespace Komanda

/-- The error classes of the catalog, with their messages. -/
inductive CatalogError
  | zod (paths : List String)
  | notFound (message : String)
  | conflict (message : String)
  | entitlementDenied (message : String)
  | ruleViolation (message : String)
  /-- A violated constraint, as the driver reports it. -/
  | database (constraint : String)
  | app (e : AppError)
deriving DecidableEq, Repr

/-- The Unicode tables of the runtime: `normalize("NFKC")` and `toLocaleLowerCase("es-AR")`. -/
structure Locale where
  nfkc : String → String
  toLocaleLowerCase : String → String

def normalizeCatalogName (locale : Locale) (value : String) : String :=
  locale.toLocaleLowerCase (Text.trim (locale.nfkc value))

/-! ## PLU codes -/

/-- `/^(?!00000)\d{5}$/` -/
def isPluCode (code : List Char) : Bool :=
  code.length = 5 && code.all Char.isDigit && !(code = List.replicate 5 '0')

/-- `/^(2[0-9])\d{11}$/` -/
def isScaleCode (code : List Char) : Bool := code.length = 13 && code.all Char.isDigit && code.head? = some '2'

def normalizePluCode (barcode : String) : String :=
  let digitsOnly := (Text.trim barcode).toList.filter Char.isDigit
  if digitsOnly.isEmpty then "" else
    let candidate :=
      if isScaleCode digitsOnly then (digitsOnly.drop 2).take 5
      else (digitsOnly.drop (digitsOnly.length - 5)).leftpad 5 '0'
    if isPluCode candidate then String.ofList candidate else ""

/-! ## Schemas -/

inductive CategoryStatus
  | draft
  | active
  | archived
deriving DecidableEq, Repr

inductive MediaStatus
  | pending
  | ready
  | failed
  | archived
deriving DecidableEq, Repr

/-- The paths whose check fails. -/
def issues (checks : List (String × Bool)) : List String :=
  checks.filterMap fun c => if c.2 then none else some c.1

def parsed {α : Type} (checks : List (String × Bool)) (value : α) : Except CatalogError α :=
  if issues checks = [] then .ok value else .error (.zod (issues checks))

/-- `z.string().trim().min(lo).max(hi)` -/
def textWithin (lo hi : Nat) (value : String) : Bool :=
  lo ≤ Text.length (Text.trim value) && Text.length (Text.trim value) ≤ hi

/-- The same behind `.nullable()` and `.optional()`. -/
def nullableWithin (lo hi : Nat) (value : Option (Option String)) : Bool :=
  value.all fun v => v.all (textWithin lo hi)

/-- `moneySchema`: ten digits, a point and two digits. -/
def isMoney (value : Cents) : Bool := value < 10 ^ 12

/-- `/^[A-Z]{3}$/` -/
def isCurrency (value : String) : Bool := value.toList.length = 3 && value.toList.all Char.isUpper

structure CategoryInput where
  name : String
  description : Option (Option String) := none
  sortOrder : Option Nat := none
  status : Option CategoryStatus := none
deriving DecidableEq, Repr

structure CategoryPatch where
  name : Option String := none
  description : Option (Option String) := none
  sortOrder : Option Nat := none
  status : Option CategoryStatus := none
deriving DecidableEq, Repr

def categoryInputSchema (value : CategoryInput) : Except CatalogError CategoryInput :=
  parsed [("name", textWithin 1 120 value.name), ("description", nullableWithin 0 1000 value.description),
      ("status", value.status ≠ some .archived)]
    { name := Text.trim value.name
      description := value.description.map (·.map Text.trim)
      sortOrder := some (value.sortOrder.getD 0)
      status := some (value.status.getD .draft) }

/-- `.partial()` wraps each key in an optional, and an optional around a default parses an absent key to
the default: `sortOrder` and `status` are never absent from what it answers. -/
def categoryPatchSchema (version : Nat) (value : CategoryPatch) : Except CatalogError CategoryPatch :=
  parsed [("name", value.name.all (textWithin 1 120)), ("description", nullableWithin 0 1000 value.description),
      ("status", value.status ≠ some .archived), ("version", 0 < version)]
    { name := value.name.map Text.trim
      description := value.description.map (·.map Text.trim)
      sortOrder := some (value.sortOrder.getD 0)
      status := some (value.status.getD .draft) }

structure CatalogItemInput where
  categoryId : Id
  name : String
  description : Option (Option String) := none
  price : Cents
  currency : String
  itemType : Option ItemType := none
  imageAssetId : Option (Option Id) := none
  videoAssetId : Option (Option Id) := none
  barcode : Option (Option String) := none
  isGeneric : Option Bool := none
  genericIcon : Option (Option String) := none
  trackStock : Option Bool := none
  stockQuantity : Option Nat := none
  status : Option CatalogStatus := none
  sortOrder : Option Nat := none
  addonGroupIds : Option (List Id) := none
deriving DecidableEq, Repr

structure CatalogItemPatch where
  categoryId : Option Id := none
  name : Option String := none
  description : Option (Option String) := none
  price : Option Cents := none
  currency : Option String := none
  itemType : Option ItemType := none
  imageAssetId : Option (Option Id) := none
  videoAssetId : Option (Option Id) := none
  barcode : Option (Option String) := none
  isGeneric : Option Bool := none
  genericIcon : Option (Option String) := none
  trackStock : Option Bool := none
  stockQuantity : Option Nat := none
  status : Option CatalogStatus := none
  sortOrder : Option Nat := none
  addonGroupIds : Option (List Id) := none
deriving DecidableEq, Repr

/-- Every key with its default, for an item that is created. -/
def catalogItemInputSchema (value : CatalogItemInput) : Except CatalogError CatalogItemInput :=
  parsed [("name", textWithin 1 160 value.name), ("description", nullableWithin 0 2000 value.description),
      ("price", isMoney value.price), ("currency", isCurrency value.currency),
      ("barcode", nullableWithin 1 64 value.barcode), ("genericIcon", nullableWithin 0 32 value.genericIcon),
      ("status", value.status ≠ some .archived), ("addonGroupIds", value.addonGroupIds.all (·.length ≤ 20))]
    { value with
      name := Text.trim value.name
      description := value.description.map (·.map Text.trim)
      itemType := some (value.itemType.getD .unit)
      barcode := value.barcode.map (·.map Text.trim)
      isGeneric := some (value.isGeneric.getD false)
      genericIcon := value.genericIcon.map (·.map Text.trim)
      trackStock := some (value.trackStock.getD false)
      stockQuantity := some (value.stockQuantity.getD 0)
      status := some (value.status.getD .draft)
      sortOrder := some (value.sortOrder.getD 0)
      addonGroupIds := some (value.addonGroupIds.getD []) }

/-- As in `categoryPatchSchema`, an absent key with a default parses to it. `status` has been overridden
without one. -/
def catalogItemPatchSchema (version : Nat) (value : CatalogItemPatch) : Except CatalogError CatalogItemPatch :=
  parsed [("name", value.name.all (textWithin 1 160)), ("description", nullableWithin 0 2000 value.description),
      ("price", value.price.all isMoney), ("currency", value.currency.all isCurrency),
      ("barcode", nullableWithin 1 64 value.barcode), ("genericIcon", nullableWithin 0 32 value.genericIcon),
      ("addonGroupIds", value.addonGroupIds.all (·.length ≤ 20)), ("version", 0 < version)]
    { value with
      name := value.name.map Text.trim
      description := value.description.map (·.map Text.trim)
      itemType := some (value.itemType.getD .unit)
      barcode := value.barcode.map (·.map Text.trim)
      isGeneric := some (value.isGeneric.getD false)
      genericIcon := value.genericIcon.map (·.map Text.trim)
      trackStock := some (value.trackStock.getD false)
      stockQuantity := some (value.stockQuantity.getD 0)
      sortOrder := some (value.sortOrder.getD 0)
      addonGroupIds := some (value.addonGroupIds.getD []) }

structure AddonOptionInput where
  name : String
  description : Option (Option String) := none
  priceDelta : Cents
  status : Option CatalogStatus := none
  sortOrder : Option Nat := none
deriving DecidableEq, Repr

structure AddonGroupInput where
  name : String
  minSelected : Nat
  maxSelected : Nat
  sortOrder : Option Nat := none
  status : Option CategoryStatus := none
  options : List AddonOptionInput
deriving DecidableEq, Repr

structure AddonGroupPatch where
  name : Option String := none
  minSelected : Option Nat := none
  maxSelected : Option Nat := none
  sortOrder : Option Nat := none
  status : Option CategoryStatus := none
  options : Option (List AddonOptionInput) := none
deriving DecidableEq, Repr

/-- `active` or `unavailable`. -/
def addonOptionInputValid (value : AddonOptionInput) : Bool :=
  textWithin 1 120 value.name && nullableWithin 0 500 value.description && isMoney value.priceDelta &&
    value.status.all fun s => s = .active || s = .unavailable

def addonOptionInputSchema (value : AddonOptionInput) : AddonOptionInput :=
  { name := Text.trim value.name
    description := value.description.map (·.map Text.trim)
    priceDelta := value.priceDelta
    status := some (value.status.getD .active)
    sortOrder := some (value.sortOrder.getD 0) }

def addonOptionsValid (options : List AddonOptionInput) : Bool :=
  1 ≤ options.length && options.length ≤ 50 && options.all addonOptionInputValid

/-- The refinements on `maxSelected` run when the keys have passed. -/
def addonGroupInputSchema (value : AddonGroupInput) : Except CatalogError AddonGroupInput := do
  let group ← parsed [("name", textWithin 1 120 value.name), ("status", value.status ≠ some .archived),
      ("options", addonOptionsValid value.options)]
    { value with
      name := Text.trim value.name
      sortOrder := some (value.sortOrder.getD 0)
      status := some (value.status.getD .draft)
      options := value.options.map addonOptionInputSchema }
  parsed [("maxSelected", value.minSelected ≤ value.maxSelected),
    ("maxSelected", value.maxSelected ≤ value.options.length)] group

/-- No default here, and no refinement either. -/
def addonGroupPatchSchema (version : Nat) (value : AddonGroupPatch) : Except CatalogError AddonGroupPatch :=
  parsed [("name", value.name.all (textWithin 1 120)), ("options", value.options.all addonOptionsValid),
      ("version", 0 < version)]
    { value with
      name := value.name.map Text.trim
      options := value.options.map (·.map addonOptionInputSchema) }

structure ComboItemInput where
  itemId : Id
  quantity : Nat
  sortOrder : Option Nat := none
deriving DecidableEq, Repr

structure ComboInput where
  categoryId : Id
  name : String
  description : Option (Option String) := none
  price : Cents
  currency : String
  imageAssetId : Option (Option Id) := none
  status : Option CatalogStatus := none
  items : List ComboItemInput
deriving DecidableEq, Repr

structure ComboPatch where
  categoryId : Option Id := none
  name : Option String := none
  description : Option (Option String) := none
  price : Option Cents := none
  currency : Option String := none
  imageAssetId : Option (Option Id) := none
  status : Option CatalogStatus := none
  items : Option (List ComboItemInput) := none
deriving DecidableEq, Repr

def comboItemsValid (items : List ComboItemInput) : Bool :=
  1 ≤ items.length && items.length ≤ 50 && items.all fun line => 0 < line.quantity

def comboItemInputSchema (value : ComboItemInput) : ComboItemInput :=
  { value with sortOrder := some (value.sortOrder.getD 0) }

def comboInputSchema (value : ComboInput) : Except CatalogError ComboInput :=
  parsed [("name", textWithin 1 160 value.name), ("description", nullableWithin 0 2000 value.description),
      ("price", isMoney value.price), ("currency", isCurrency value.currency),
      ("status", value.status ≠ some .archived), ("items", comboItemsValid value.items)]
    { value with
      name := Text.trim value.name
      description := value.description.map (·.map Text.trim)
      status := some (value.status.getD .draft)
      items := value.items.map comboItemInputSchema }

/-- No key of a combo but `status` has a default, and that one has been overridden. -/
def comboPatchSchema (version : Nat) (value : ComboPatch) : Except CatalogError ComboPatch :=
  parsed [("name", value.name.all (textWithin 1 160)), ("description", nullableWithin 0 2000 value.description),
      ("price", value.price.all isMoney), ("currency", value.currency.all isCurrency),
      ("items", value.items.all comboItemsValid), ("version", 0 < version)]
    { value with
      name := value.name.map Text.trim
      description := value.description.map (·.map Text.trim)
      items := value.items.map (·.map comboItemInputSchema) }

/-- `versionedArchiveInput` -/
def versionedArchiveInput (version : Nat) : Except CatalogError Nat := parsed [("version", 0 < version)] version

/-! ## Publishing and archiving -/

def assertPublishableItem (categoryStatus : CategoryStatus) (mediaStatus : Option MediaStatus) :
    Except CatalogError Unit :=
  if categoryStatus ≠ .active then .error (.ruleViolation "Item category must be active.")
  else if mediaStatus.any (· ≠ .ready) then .error (.ruleViolation "Item media must be ready.")
  else .ok ()

def assertPublishableCombo (categoryStatus : CategoryStatus) (mediaStatus : Option MediaStatus)
    (items : List (CatalogStatus × Nat)) : Except CatalogError Unit := do
  assertPublishableItem categoryStatus mediaStatus
  if items.isEmpty || items.any fun line => line.1 ≠ .active || line.2 = 0 then
    .error (.ruleViolation "Combo requires active items and quantities.")
  else .ok ()

def assertArchivableCategory (sellableChildren : Nat) : Except CatalogError Unit :=
  if 0 < sellableChildren then
    .error (.ruleViolation "Archive or move active items and combos before archiving the category.")
  else .ok ()

end Komanda
