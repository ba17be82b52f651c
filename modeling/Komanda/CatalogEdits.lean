import Komanda.Lib.Versions
import Komanda.Catalog
import Komanda.System

/-!
# Editing a catalog that is sold from

`Office` is a tenant with the rows that editors have read, and two accounts that no table keeps: the units
that orders have deducted from each item, and the quantity that somebody last set it to. Its requests are the
requests of the trade, the calls of `CatalogService`, and the reading of an item by an editor; an item is
edited under the version of a reading. `officeStep` overlaps their transactions under READ COMMITTED.
-/

namespace Komanda
open Transaction

/-- The units that an order takes go, the version stays. -/
def ItemRow.sell (n : Nat) (row : ItemRow) : ItemRow := { row with stockQuantity := row.stockQuantity - n }

abbrev ItemReading := Versions.Reading ItemRow

structure Office where
  shop : Shop
  readings : List ItemReading
  /-- The units of an item that orders have deducted from its stock. -/
  taken : Id → Nat
  /-- The quantity last set, with the units taken when the row was read that was edited. -/
  stockSet : Id → Int × Nat

/-- The calls that edit no item. -/
def CatalogRequest.leavesItems : CatalogRequest → Bool
  | .updateItem _ _ _ => false
  | .archiveItem _ _ => false
  | _ => true

inductive OfficeRequest
  /-- A request of the shop: orders are created by these. -/
  | trade (q : Request) (trades : ∀ c, q.action ≠ .configure c)
  /-- An editor reads an item. -/
  | read (itemId : Id)
  /-- `updateItem` under the version of the `i`-th reading. -/
  | save (i : Nat) (value : CatalogItemPatch)
  /-- `archiveItem`, likewise. -/
  | archive (i : Nat)
  | manage (q : CatalogRequest) (leaves : q.leavesItems = true)

/-- The quantity that a patch sets. A weighted item has none, so its quantity is set to zero. -/
def CatalogItemPatch.quantity (value : CatalogItemPatch) : Option Int :=
  if value.itemType = some .weighted then some 0 else value.stockQuantity.map Int.ofNat

namespace Office

def fresh (shop : Shop) : Office :=
  { shop, readings := [], taken := fun _ => 0
    stockSet := fun id => (((CatalogRepository.findItem id shop.catalog).map (·.stockQuantity)).getD 0, 0) }

def stock (s : Shop) (id : Id) : Int := ((CatalogRepository.findItem id s.catalog).map (·.stockQuantity)).getD 0

/-- After a request of the trade: what is missing from the stock has been taken. -/
def traded (o : Office) (shop : Shop) : Office :=
  { o with shop, taken := fun id => o.taken id + (stock o.shop id - stock shop id).toNat }

/-- After an edit of the row of a reading. -/
def edited (o : Office) (g : ItemReading) (quantity : Option Int) (shop : Shop) : Office :=
  { o with shop, stockSet := fun id =>
      if id = g.row.id then (quantity.map fun n => (n, g.total)).getD (o.stockSet id) else o.stockSet id }

/-- After any other call: an item that has appeared has the quantity that it was created with. -/
def managed (o : Office) (shop : Shop) : Office :=
  { o with shop, stockSet := fun id =>
      if (CatalogRepository.findItem id o.shop.catalog).isSome then o.stockSet id else (stock shop id, o.taken id) }

end Office

/-- The tenant that a committed transaction leaves. -/
def afterwards {α : Type} (x : ShopTx α) (view shop : Shop) : Option Shop :=
  match x view shop with
  | .ok (_, shop') => some shop'
  | .error _ => none

/-- The transaction of a request, if it commits. A reading is the answer of a single statement. -/
def OfficeRequest.exec (locale : Locale) (q : OfficeRequest) (view o : Office) : Option (Unit × Office) :=
  match q with
  | trade q _ => (afterwards (onFace (q.action.run q.draw)) view.shop o.shop).map fun shop => ((), o.traded shop)
  | read itemId => (CatalogRepository.findItem itemId o.shop.catalog).map fun row =>
    ((), { o with readings := o.readings ++ [⟨row, o.taken itemId⟩] })
  | save i value => o.readings[i]?.bind fun g =>
    (afterwards (CatalogService.updateItem locale g.row.id g.row.version value) view.shop o.shop).map fun shop =>
      ((), o.edited g value.quantity shop)
  | archive i => o.readings[i]?.bind fun g =>
    (afterwards (CatalogService.archiveItem locale g.row.id g.row.version) view.shop o.shop).map fun shop =>
      ((), o.edited g none shop)
  | manage q _ => (afterwards (q.run locale) view.shop o.shop).map fun shop => ((), o.managed shop)

/-- The parts that a transaction may read again. -/
inductive OfficePart
  | trade (part : Part)
  | entitlements
  | media
  | categories
  | items
  | addonGroups
  | combos
deriving DecidableEq, Repr

def rereadCatalog (part : OfficePart) (view t : CatalogTables) : CatalogTables :=
  match part with
  | .trade _ => view
  | .entitlements => { view with entitled := t.entitled }
  | .media => { view with media := t.media }
  | .categories => { view with categories := t.categories }
  | .items => { view with items := t.items }
  | .addonGroups => { view with addonGroups := t.addonGroups, addonOptions := t.addonOptions,
                                itemAddonGroups := t.itemAddonGroups }
  | .combos => { view with combos := t.combos, comboItems := t.comboItems }

def rereadOffice (part : OfficePart) (view o : Office) : Office :=
  let db := match part with
    | .trade part => reread part view.shop.db o.shop.db
    | _ => view.shop.db
  { view with shop := { db, catalog := rereadCatalog part view.shop.catalog o.shop.catalog } }

abbrev OfficeSession := ReadCommitted.Session Office OfficeRequest
abbrev OfficeEvent := ReadCommitted.Event OfficeRequest OfficePart

/-- A step of overlapping transactions. -/
def officeStep (locale : Locale) (s : OfficeSession) (e : OfficeEvent) : Option OfficeSession :=
  ReadCommitted.step (OfficeRequest.exec locale) rereadOffice s e

/-! ## The administration alone -/

def CatalogRequest.exec (locale : Locale) (q : CatalogRequest) (view s : Shop) : Option (CatalogAnswer × Shop) :=
  (q.run locale view s).toOption

def rereadShop (part : OfficePart) (view s : Shop) : Shop :=
  { view with catalog := rereadCatalog part view.catalog s.catalog }

abbrev CatalogSession := ReadCommitted.Session Shop CatalogRequest
abbrev CatalogEvent := ReadCommitted.Event CatalogRequest OfficePart

/-- A step of overlapping calls of `CatalogService`. -/
def catalogStep (locale : Locale) (s : CatalogSession) (e : CatalogEvent) : Option CatalogSession :=
  ReadCommitted.step (CatalogRequest.exec locale) rereadShop s e

theorem afterwards_eq {α : Type} {x : ShopTx α} {view shop shop' : Shop} :
    afterwards x view shop = some shop' ↔ ∃ a, Commits x view shop a shop' := by
  unfold afterwards Commits
  cases x view shop <;> simp [Prod.ext_iff]

end Komanda
