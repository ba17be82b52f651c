import Komanda.Discounts

/-!
# Carts (`features/cart`)

`cart.rules.ts`, `cart.repository.ts` and `cart.service.ts`. The catalog of a line is read as the
repository reads it: a combo is as available as its components, an item offers its active addon groups
with their active options.
-/

namespace Komanda
open Transaction Idempotency

structure SelectedOption where
  groupId : Id
  optionId : Id
  name : String
  priceDelta : Cents
deriving DecidableEq, Repr

/-- `CartSelectionCatalog`, with the active options of the active groups. -/
structure CartSelectionCatalog where
  isCombo : Bool
  name : String
  itemType : ItemType
  status : CatalogStatus
  price : Cents
  currency : String
  imageUrl : Option String
  categoryId : Option Id
  addonGroups : List AddonGroup
deriving DecidableEq, Repr

structure ValidatedSelection where
  itemType : ItemType
  options : List SelectedOption
  unitPriceCents : Cents
deriving DecidableEq, Repr

/-- A group's chosen options. -/
def AddonGroup.selected (optionIds : List Id) (group : AddonGroup) : List AddonOption :=
  group.options.filter (optionIds.contains ·.id)

def AddonGroup.withinBounds (optionIds : List Id) (group : AddonGroup) : Bool :=
  let n := (group.selected optionIds).length
  group.minSelected ≤ n && n ≤ group.maxSelected

def knownOptions (groups : List AddonGroup) : List Id := groups.flatMap (·.options.map (·.id))

def selectedOptions (optionIds : List Id) (groups : List AddonGroup) : List SelectedOption :=
  groups.flatMap fun group => (group.selected optionIds).map fun option =>
    { groupId := group.id, optionId := option.id, name := option.name, priceDelta := option.priceDelta }

/-- `revalidateCartSelection`; the errors are messages of `CartRevalidationError`. -/
def revalidateCartSelection (selection : CartSelection) (catalog : CartSelectionCatalog) :
    Except String ValidatedSelection :=
  if catalog.status ≠ .active then .error "Catalog resource is unavailable."
  else if catalog.itemType = .unit ∧ selection.calculatedSubtotal ≠ none then
    .error "calculatedSubtotal is not allowed for unit items."
  else match catalog.itemType with
  | .weighted =>
    match selection.calculatedSubtotal with
    | none => .error "calculatedSubtotal is required for weighted items."
    | some subtotalCents =>
      if subtotalCents = 0 then .error "calculatedSubtotal must be greater than zero."
      else if selection.quantity ≠ 1 then .error "Weighted items must have quantity = 1."
      else if selection.optionIds ≠ [] then .error "Weighted items do not support options."
      else .ok { itemType := .weighted, options := [], unitPriceCents := subtotalCents }
  | .unit =>
    if selection.confirmedUnitPrice.any (· ≠ centsToMoney catalog.price) then
      .error "Catalog price changed."
    else if selection.optionIds.any (!(knownOptions catalog.addonGroups).contains ·) then
      .error "Selected add-on is unavailable."
    else if catalog.addonGroups.any (!·.withinBounds selection.optionIds) then
      .error "Add-on selection is outside allowed bounds."
    else
      let options := selectedOptions selection.optionIds catalog.addonGroups
      .ok { itemType := .unit, options, unitPriceCents := catalog.price + (options.map (·.priceDelta)).sum }

/-- A line that a cart is created with. -/
structure NewCartLine where
  isCombo : Bool
  resourceId : Id
  itemType : ItemType
  quantity : Nat
  name : String
  unitPrice : Cents
  lineTotal : Cents
  imageUrl : Option String
  note : Option String
  options : List SelectedOption
deriving DecidableEq, Repr

def NewCartLine.row (line : NewCartLine) : CartLine where
  itemId := if line.isCombo then none else some line.resourceId
  comboId := if line.isCombo then some line.resourceId else none
  itemType := line.itemType
  quantity := line.quantity
  nameSnapshot := line.name
  unitPriceSnapshot := line.unitPrice
  lineTotal := line.lineTotal
  imageUrlSnapshot := line.imageUrl
  note := line.note
  options := line.options.map fun o =>
    { addonGroupId := o.groupId, addonOptionId := o.optionId, nameSnapshot := o.name,
      priceDeltaSnapshot := o.priceDelta, quantity := 1 }

namespace CartRepository

def mediaUrl (media : Option Media) : Option String :=
  media.bind fun m => if m.ready then m.publicUrl else none

def loadItemSelection (id : Id) (db : Db) : Option CartSelectionCatalog :=
  (Table.lookup CatalogItem.id id db.items).map fun item =>
    let groupIds := (db.itemAddonGroups.filter (·.1 = id)).map (·.2)
    let groups := db.addonGroups.filter fun g => groupIds.contains g.id && g.active
    { isCombo := false, name := item.name, itemType := item.itemType, status := item.status,
      price := item.price, currency := item.currency, imageUrl := mediaUrl item.media,
      categoryId := some item.categoryId,
      addonGroups := groups.map fun g => { g with options := g.options.filter (·.active) } }

def loadComboSelection (id : Id) (db : Db) : Option CartSelectionCatalog :=
  (Table.lookup CatalogCombo.id id db.combos).map fun combo =>
    let components := combo.itemIds.filterMap fun itemId => Table.lookup CatalogItem.id itemId db.items
    let fallbackImage := (components.filterMap fun c => mediaUrl c.media).head?
    { isCombo := true, name := combo.name, itemType := .unit,
      status := if components ≠ [] ∧ components.all (·.status = .active) then combo.status else .unavailable,
      price := combo.price, currency := combo.currency,
      imageUrl := if combo.media.any (·.ready) then combo.media.bind (·.publicUrl) else fallbackImage,
      categoryId := combo.categoryId, addonGroups := [] }

def loadSelection (isCombo : Bool) (id : Id) (db : Db) : Option CartSelectionCatalog :=
  if isCombo then (loadComboSelection id db).or (loadItemSelection id db)
  else (loadItemSelection id db).or (loadComboSelection id db)

/-- `find` -/
def find (cartId : Id) (db : Db) : Option Cart := Table.lookup Cart.id cartId db.carts

structure CreateInput where
  locationId : Id
  currency : String
  subtotal : Cents
  discountTotal : Cents
  total : Cents
  appliedDiscountCodeId : Option Id
  discountMetadata : Option DiscountMetadata
  expiresAt : Instant
  lines : List NewCartLine
deriving DecidableEq, Repr

def CreateInput.row (input : CreateInput) (newId : Id) : Cart where
  id := newId
  locationId := input.locationId
  status := .validated
  currency := input.currency
  subtotal := input.subtotal
  discountTotal := input.discountTotal
  total := input.total
  appliedDiscountCodeId := input.appliedDiscountCodeId
  discountMetadata := input.discountMetadata
  expiresAt := input.expiresAt
  version := 1
  lines := input.lines.map NewCartLine.row

def create (input : CreateInput) (newId : Id) : DbTx Cart := do
  let taken ← current fun db => db.carts.any (·.id = newId)
  throwIf taken (.database "carts_pkey")
  write fun db => { db with carts := db.carts ++ [input.row newId] }
  return input.row newId

/-- The two statements that change the price of a cart set these columns, and nothing but the id guards
them: neither the cart's status nor its payment attempts. -/
structure Repricing where
  discountTotal : Cents
  total : Cents
  appliedDiscountCodeId : Option Id
  discountMetadata : Option DiscountMetadata
deriving DecidableEq, Repr

def Repricing.apply (r : Repricing) (c : Cart) : Cart :=
  { c with
    discountTotal := r.discountTotal
    total := r.total
    appliedDiscountCodeId := r.appliedDiscountCodeId
    discountMetadata := r.discountMetadata
    version := c.version + 1 }

def reprice (cartId : Id) (r : Repricing) : DbTx (Option Cart) := do
  write fun db => { db with carts := Table.updateWhere (·.id = cartId) r.apply db.carts }
  current (find cartId)

def applyDiscount (cartId : Id) (discountTotal total : Cents) (appliedDiscountCodeId : Id)
    (discountMetadata : DiscountMetadata) : DbTx (Option Cart) :=
  reprice cartId { discountTotal, total, appliedDiscountCodeId := some appliedDiscountCodeId,
                   discountMetadata := some discountMetadata }

def removeDiscount (cartId : Id) (restoredTotal : Cents) : DbTx (Option Cart) :=
  reprice cartId { discountTotal := 0, total := restoredTotal, appliedDiscountCodeId := none,
                   discountMetadata := none }

end CartRepository

namespace CartService

def unavailable (now : Instant) (cart : Cart) : Bool := cart.expiresAt ≤ now || cart.status = .expired

/-- The cart, if it exists, has not run out and is not expired. A converted cart passes. -/
def findAvailable (cartId : Id) (now : Instant) : DbTx Cart := do
  let found ← look (CartRepository.find cartId)
  let cart ← orThrow found (.cartNotFound "Cart not found.")
  throwIf (unavailable now cart) (.cartNotFound "Cart not found.")
  return cart

def linesForDiscount (lines : List CartLine) : List CartLineForDiscount :=
  lines.map fun line => { resourceId := line.itemId.or line.comboId, lineTotalCents := line.lineTotal }

def metadata (discount : Discount) (savingsAmount : Cents) : DiscountMetadata where
  code := discount.code
  name := discount.name
  discountType := discount.discountType
  discountValue := discount.discountValue
  savingsAmount
  tenderRestriction := if discount.applicableTender = .cash then some "cash" else none

/-- The line of a selection at the catalog's price. -/
def validateLine (currency : String) (db : Db) (selection : CartSelection) : Except AppError NewCartLine :=
  match CartRepository.loadSelection selection.isCombo selection.resourceId db with
  | none => .error (.cartRevalidation "Catalog resource is unavailable.")
  | some catalog =>
    if catalog.currency ≠ currency then .error (.cartRevalidation "Catalog resource is unavailable.")
    else match revalidateCartSelection selection catalog with
    | .error message => .error (.cartRevalidation message)
    | .ok validated => .ok
      { isCombo := catalog.isCombo, resourceId := selection.resourceId, itemType := validated.itemType,
        quantity := selection.quantity, name := catalog.name, unitPrice := validated.unitPriceCents,
        lineTotal := validated.unitPriceCents * selection.quantity, imageUrl := catalog.imageUrl,
        note := selection.note, options := validated.options }

/-- What a new cart costs: a code that is unknown or not eligible is ignored. -/
def initialPrice (lines : List NewCartLine) (discountCode : Option String) (now : Instant) (db : Db) :
    CartRepository.Repricing :=
  let subtotalCents := (lines.map (·.lineTotal)).sum
  let full : CartRepository.Repricing :=
    { discountTotal := 0, total := subtotalCents, appliedDiscountCodeId := none, discountMetadata := none }
  match discountCode.bind (DiscountRepository.findByCode · db) with
  | none => full
  | some discount =>
    let result := calculateDiscountAmounts
      (lines.map fun l => { resourceId := some l.resourceId, lineTotalCents := l.lineTotal }) discount now none
    if result.ineligibilityReason ≠ none then full
    else
      { discountTotal := result.discountTotalCents, total := result.totalCents,
        appliedDiscountCodeId := some discount.id,
        discountMetadata := some (metadata discount result.discountTotalCents) }

/-- `CartService.create` -/
def create (tenant : PublicTenant) (request : CreateCartRequest) (idempotencyKey : String)
    (recordId cartId : Id) (now : Instant) : DbTx Cart := do
  let orderingAvailable ← look fun db => db.settings.orderingAvailable
  throwIf (¬ orderingAvailable)
    (.cartRevalidation "Online ordering is currently unavailable for this store.")
  let claim ← IdempotencyService.claim "create-cart" idempotencyKey (.createCart request) (some 3600)
    recordId now
  match claim with
  | .replay _ body => do
    let cart ← look fun db => match body with
      | some (.cart id) => CartRepository.find id db
      | _ => none
    orThrow cart (.cartNotFound "Cart not found.")
  | .claimed recordId _ => do
    let validated ← look fun db => request.lines.mapM (validateLine tenant.currency db)
    let lines ← fromExcept validated
    let price ← look (initialPrice lines request.discountCode now)
    let cart ← CartRepository.create
      { locationId := tenant.locationId, currency := tenant.currency,
        subtotal := (lines.map (·.lineTotal)).sum, discountTotal := price.discountTotal,
        total := price.total, appliedDiscountCodeId := price.appliedDiscountCodeId,
        discountMetadata := price.discountMetadata, expiresAt := now + 30 * 60 * 1000, lines } cartId
    IdempotencyService.complete recordId 201 (.cart cart.id)
    return cart

/-- What `get` finds about the coupon of a cart: keep the price, or set another. -/
def revalidateDiscount (cart : Cart) (discountId : Id) (now : Instant) (db : Db) :
    Option CartRepository.Repricing :=
  let removed : CartRepository.Repricing :=
    { discountTotal := 0, total := cart.subtotal, appliedDiscountCodeId := none, discountMetadata := none }
  match DiscountRepository.findById discountId db with
  | none => some removed
  | some discount =>
    let result := calculateDiscountAmounts (linesForDiscount cart.lines) discount now none
    if result.ineligibilityReason ≠ none then some removed
    else if result.discountTotalCents ≠ cart.discountTotal ∨ result.totalCents ≠ cart.total then
      some { discountTotal := result.discountTotalCents, total := result.totalCents,
             appliedDiscountCodeId := some discount.id,
             discountMetadata := some (metadata discount result.discountTotalCents) }
    else none

/-- `CartService.get`, with its reactive revalidation of the applied discount. -/
def get (cartId : Id) (now : Instant) : DbTx Cart := do
  let cart ← findAvailable cartId now
  let repricing ← look fun db =>
    cart.appliedDiscountCodeId.bind fun discountId => revalidateDiscount cart discountId now db
  match repricing with
  | none => return cart
  | some r => do
    let updated ← CartRepository.reprice cartId r
    return updated.getD cart

def ineligibleMessage (discount : Discount) : IneligibilityReason → String
  | .minOrderNotMet => "Este cupón requiere una compra mínima de $" ++ centsToMoney discount.minOrderAmount
  | .expired => "Este código de descuento ha expirado."
  | .limitReached => "Este cupón ha alcanzado su límite máximo de usos."
  | .noQualifyingItems => "Tu carrito no incluye productos alcanzados por este cupón."
  | _ => "El cupón no puede ser aplicado a este pedido."

/-- `CartService.applyDiscount`; `retryAfterSeconds` is the rate limiter's refusal, if it refuses. -/
def applyDiscount (cartId : Id) (code : String) (retryAfterSeconds : Option Nat) (now : Instant) :
    DbTx Cart := do
  throwIf retryAfterSeconds.isSome (.rateLimitExceeded (retryAfterSeconds.getD 60))
  let cart ← findAvailable cartId now
  let found ← look (DiscountRepository.findByCode code)
  let discount ← orThrow found
    (.cartDiscountIneligible "DISCOUNT_NOT_FOUND" "Código de descuento no encontrado.")
  let result := calculateDiscountAmounts (linesForDiscount cart.lines) discount now none
  match result.ineligibilityReason with
  | some reason => throw (.cartDiscountIneligible reason.code (ineligibleMessage discount reason))
  | none => do
    let updated ← CartRepository.applyDiscount cartId result.discountTotalCents result.totalCents
      discount.id (metadata discount result.discountTotalCents)
    orThrow updated (.internal "Failed to apply discount to cart.")

/-- `CartService.removeDiscount` -/
def removeDiscount (cartId : Id) (now : Instant) : DbTx Cart := do
  let cart ← findAvailable cartId now
  let updated ← CartRepository.removeDiscount cartId cart.subtotal
  orThrow updated (.internal "Failed to remove discount from cart.")

end CartService

end Komanda
