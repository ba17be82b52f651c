import Komanda.Carts
import Komanda.Catalog

/-!
# The storefront

`PublicTenantService.catalog` is the menu that a customer sees, and `createCartSchema` what a cart may be asked for
with. The menu reads the whole catalog and filters it in memory; the cart looks the resources of its lines up one by
one.
-/

namespace Komanda

/-! ## `PublicTenantService.catalog` -/

structure PublicAddonGroup where
  group : AddonGroupRow
  options : List AddonOptionRow
deriving DecidableEq, Repr

structure PublicItem where
  item : ItemRow
  imageUrl : Option String
  videoUrl : Option String
  addonGroups : List PublicAddonGroup
deriving DecidableEq, Repr

structure PublicCombo where
  combo : ComboRow
  imageUrl : Option String
  items : List ComboItemRow
deriving DecidableEq, Repr

structure PublicCategory where
  id : Id
  name : String
  items : List PublicItem
  combos : List PublicCombo
deriving DecidableEq, Repr

structure PublicCatalog where
  currency : String
  expressRetail : Bool
  orderingAvailable : Bool
  revision : Nat
  categories : List PublicCategory
deriving DecidableEq, Repr

namespace PublicTenantService

-- `collate` is the order that the database gives names
variable (collate : String → String → Bool) (t : CatalogTables)

def readyUrl (imageAssetId : Option Id) : Option String :=
  (CatalogRepository.findMedia imageAssetId t).bind fun media => if media.status = .ready then media.publicUrl else none

def activeCategories : List CategoryRow :=
  (t.categories.filter (·.status = .active)).insertionSort fun a b => a.sortOrder ≤ b.sortOrder

def activeItems : List ItemRow :=
  (t.items.filter (·.status = .active)).insertionSort fun a b => a.sortOrder ≤ b.sortOrder

def activeCombos : List ComboRow :=
  (t.combos.filter (·.status = .active)).insertionSort fun a b => collate a.name b.name

def comboLines : List ComboItemRow := t.comboItems.insertionSort fun a b => a.sortOrder ≤ b.sortOrder

/-- The active groups that an item is linked to, with their active options. -/
def addonGroupsOf (itemId : Id) : List PublicAddonGroup :=
  (t.itemAddonGroups.filter (·.itemId = itemId)).flatMap fun link =>
    match (t.addonGroups.filter (·.status = .active)).find? (·.id = link.addonGroupId) with
    | none => []
    | some group =>
      [{ group, options := (t.addonOptions.filter (·.status = .active)).filter (·.groupId = group.id) }]

def publicItem (item : ItemRow) : PublicItem where
  item := item
  imageUrl := readyUrl t item.imageAssetId
  videoUrl := readyUrl t item.videoAssetId
  addonGroups := addonGroupsOf t item.id

/-- A combo is shown with its category when all that it consists of is active. -/
def shownIn (category : CategoryRow) (combo : ComboRow) : Bool :=
  let lines := (comboLines t).filter (·.comboId = combo.id)
  combo.categoryId = category.id && 0 < lines.length &&
    lines.all fun line => (activeItems t).any (·.id = line.itemId)

def publicCombo (combo : ComboRow) : PublicCombo where
  combo := combo
  imageUrl := readyUrl t combo.imageAssetId
  items := (comboLines t).filter (·.comboId = combo.id)

def publicCategory (category : CategoryRow) : PublicCategory where
  id := category.id
  name := category.name
  items := ((activeItems t).filter (·.categoryId = category.id)).map (publicItem t)
  combos := ((activeCombos collate t).filter (shownIn t category)).map (publicCombo t)

def revision : Nat :=
  ((activeCategories t).map (·.version) ++ (activeItems t).map (·.version) ++
    (activeCombos collate t).map (·.version)).foldr max 1

def catalog (tenant : PublicTenant) (s : Shop) : PublicCatalog where
  currency := tenant.currency
  expressRetail := tenant.expressRetail
  orderingAvailable := s.db.settings.orderingAvailable
  revision := revision collate s.catalog
  categories := (activeCategories s.catalog).map (publicCategory collate s.catalog)

end PublicTenantService

/-! ## `createCartSchema` -/

/-- `/^\d{1,10}\.\d{2}$/` -/
def isPriceText (value : String) : Bool :=
  let chars := value.toList
  let whole := chars.length - 3
  1 ≤ whole && whole ≤ 10 && (chars.take whole).all Char.isDigit && chars[whole]? = some '.' &&
    (chars.drop (whole + 1)).all Char.isDigit

def isCartLine (line : CartSelection) : Bool :=
  0 < line.quantity && line.quantity ≤ 50 && line.optionIds.length ≤ 50 &&
    line.note.all (fun note => Text.length (Text.trim note) ≤ 500) && line.confirmedUnitPrice.all isPriceText &&
    line.calculatedSubtotal.all isMoney

def createCartSchema (value : CreateCartRequest) : Option CreateCartRequest :=
  if 1 ≤ value.lines.length ∧ value.lines.length ≤ 100 ∧ value.lines.all isCartLine then
    some
      { lines := value.lines.map fun line => { line with note := line.note.map Text.trim }
        discountCode := value.discountCode.map Text.trim }
  else none

/-- A line as the storefront sends it: the base price that it has shown, and no subtotal. -/
def storefrontLine (isCombo : Bool) (resourceId : Id) (price : Cents) (quantity : Nat) (optionIds : List Id) :
    CartSelection :=
  { isCombo, resourceId, quantity, optionIds, confirmedUnitPrice := some (centsToMoney price) }

end Komanda
