import Mathlib.Data.List.Sort
import Komanda.Database
import Komanda.Money

/-!
# The cart in the browser (`features/shop/cart`)

The state of `cart.context.tsx` and its operations, the request that `cart.service.ts` makes of it and the cart it reads
from the answer. Prices are the exact cents of the source's numbers. Pictures other than the image, descriptions and the
status of the synchronization are left out.
-/

namespace Komanda.Shop

inductive ResourceKind
  | item
  | combo
deriving DecidableEq, Repr

structure ProductModifierOption where
  id : Id
  name : String
  priceDelta : Cents := 0
deriving DecidableEq, Repr

/-- An absent field is `none`; a summary that is there may be `null`. -/
structure MenuItem where
  documentId : Id
  kind : Option ResourceKind := none
  name : String
  price : Cents
  basePrice : Option Cents := none
  image : String := ""
  selectedOptionIds : Option (List Id) := none
  selectedOptionSummary : Option (Option String) := none
  selectedOptions : Option (List ProductModifierOption) := none
deriving DecidableEq, Repr

structure CartLine where
  item : MenuItem
  quantity : Nat
  lineId : Option Id := none
deriving DecidableEq, Repr

structure OfficialCartLine where
  id : Option Id
  documentId : Id
  kind : Option ResourceKind
  quantity : Nat
  name : String
  unitPrice : Cents
  lineTotal : Cents
  image : String
  note : Option String
  optionIds : List Id
  optionNames : List String
  selectedOptions : List ProductModifierOption
deriving DecidableEq, Repr

structure OfficialCart where
  id : Id
  items : List OfficialCartLine
  subtotal : Cents
  discountTotal : Cents
  total : Cents
  appliedDiscount : Option DiscountMetadata
deriving DecidableEq, Repr

/-! ## Lines -/

/-- `optionSignature` -/
def optionSignature (optionIds : Option (List Id)) : String :=
  ",".intercalate ((optionIds.getD []).insertionSort (· ≤ ·))

def cartLineId (item : MenuItem) : Id :=
  let signature := optionSignature item.selectedOptionIds
  if signature ≠ "" then item.documentId ++ "::" ++ signature else item.documentId

def sumDeltas (options : List ProductModifierOption) : Cents := (options.map (·.priceDelta)).sum

def getCartLineOptionsDelta (item : MenuItem) : Cents := sumDeltas (item.selectedOptions.getD [])

def getCartLineBaseUnitPrice (item : MenuItem) : Cents :=
  match item.basePrice with
  | some basePrice => basePrice
  | none =>
    let optionsDelta := getCartLineOptionsDelta item
    if optionsDelta > 0 ∧ item.price > optionsDelta then item.price - optionsDelta else item.price

/-- The add-ons of a line are charged once, whatever its quantity. -/
def getCartLineSubtotal (cartLine : CartLine) : Cents :=
  getCartLineBaseUnitPrice cartLine.item * cartLine.quantity + getCartLineOptionsDelta cartLine.item

/-- The id that the operations look for. -/
def CartLine.key (cartLine : CartLine) : Id := cartLine.lineId.getD (cartLineId cartLine.item)

def CartLine.optionIds (cartLine : CartLine) : List Id := cartLine.item.selectedOptionIds.getD []

def CartLine.hasAddons (cartLine : CartLine) : Bool := cartLine.optionIds.length > 0

/-! ## Operations -/

structure CartState where
  items : List CartLine := []
  cartId : Option Id := none
  appliedDiscount : Option DiscountMetadata := none
  discountTotal : Cents := 0
deriving DecidableEq, Repr

def CartState.itemCount (s : CartState) : Nat := (s.items.map (·.quantity)).sum

def CartState.subtotal (s : CartState) : Cents := (s.items.map getCartLineSubtotal).sum

/-- `{ ...item, ...other }` -/
def MenuItem.spread (item other : MenuItem) : MenuItem where
  documentId := other.documentId
  kind := other.kind.or item.kind
  name := other.name
  price := other.price
  basePrice := other.basePrice.or item.basePrice
  image := other.image
  selectedOptionIds := other.selectedOptionIds.or item.selectedOptionIds
  selectedOptionSummary := other.selectedOptionSummary.or item.selectedOptionSummary
  selectedOptions := other.selectedOptions.or item.selectedOptions

def addItem (item : MenuItem) (s : CartState) : CartState :=
  let targetLineId := cartLineId item
  { s with
    cartId := none
    items :=
      if s.items.any (·.key = targetLineId) then
        s.items.map fun line =>
          if line.key = targetLineId then { line with item := line.item.spread item, quantity := line.quantity + 1 }
          else line
      else s.items ++ [{ item, quantity := 1, lineId := some targetLineId }] }

/-- The line of that id, else the first of that product. -/
def targetIndex (lineIdOrDocumentId : Id) (items : List CartLine) : Option Nat :=
  let hasExactLineMatch := items.any (·.key = lineIdOrDocumentId)
  items.findIdx? fun line =>
    if hasExactLineMatch then line.key = lineIdOrDocumentId else line.item.documentId = lineIdOrDocumentId

/-- Another line of the product, without add-ons. -/
def siblingIndex (targetIndex : Nat) (targetLine : CartLine) (items : List CartLine) : Option Nat :=
  (items.zipIdx.find? fun p =>
    p.2 ≠ targetIndex && p.1.item.documentId = targetLine.item.documentId && !p.1.hasAddons).map (·.2)

/-- The product of the sibling with the add-ons of the target. -/
def mergedItem (sibling targetLine : CartLine) : MenuItem :=
  { sibling.item with
    price := targetLine.item.price
    basePrice := some (getCartLineBaseUnitPrice targetLine.item)
    selectedOptionIds := targetLine.item.selectedOptionIds
    selectedOptionSummary := targetLine.item.selectedOptionSummary
    selectedOptions := targetLine.item.selectedOptions }

def mergedLine (sibling targetLine : CartLine) : CartLine :=
  { sibling with lineId := some (cartLineId (mergedItem sibling targetLine)), item := mergedItem sibling targetLine }

/-- The add-ons of the target pass to a sibling, and the target goes. -/
def transferAddons (siblingIndex targetIndex : Nat) (targetLine : CartLine) (items : List CartLine) : List CartLine :=
  ((items.zipIdx.map fun p => (if p.2 = siblingIndex then mergedLine p.1 targetLine else p.1, p.2)).filter
    (·.2 ≠ targetIndex)).map (·.1)

def removeAt (targetIndex : Nat) (items : List CartLine) : List CartLine :=
  (items.zipIdx.filter (·.2 ≠ targetIndex)).map (·.1)

/-- One unit less of a line, which goes with its last unit. -/
def decrementAt (targetIndex : Nat) (items : List CartLine) : List CartLine :=
  items.zipIdx.flatMap fun p =>
    if p.2 ≠ targetIndex then [p.1]
    else if p.1.quantity ≤ 1 then []
    else [{ p.1 with quantity := p.1.quantity - 1 }]

/-- What `decrementItem` and `removeItem` share: where the add-ons of the target are not to be lost, they pass to a
sibling, if it has one; else the lines change as `otherwise` says. -/
def takeFrom (transfers : CartLine → Bool) (otherwise : Nat → List CartLine → List CartLine) (lineIdOrDocumentId : Id)
    (items : List CartLine) : List CartLine :=
  match targetIndex lineIdOrDocumentId items with
  | none => items
  | some target =>
    match items[target]? with
    | none => items
    | some targetLine =>
      match if transfers targetLine then siblingIndex target targetLine items else none with
      | some sibling => transferAddons sibling target targetLine items
      | none => otherwise target items

/-- The last unit of a line that has add-ons. -/
def CartLine.isLastWithAddons (cartLine : CartLine) : Bool := cartLine.quantity = 1 && cartLine.hasAddons

def decrementItem (lineIdOrDocumentId : Id) (s : CartState) : CartState :=
  { s with cartId := none, items := takeFrom CartLine.isLastWithAddons decrementAt lineIdOrDocumentId s.items }

def removeItem (lineIdOrDocumentId : Id) (s : CartState) : CartState :=
  { s with cartId := none, items := takeFrom CartLine.hasAddons removeAt lineIdOrDocumentId s.items }

/-- `join(", ") || null` -/
def summaryOf (names : List String) : Option String :=
  let summary := ", ".intercalate names
  if summary ≠ "" then some summary else none

/-- The product without one of its add-ons. -/
def MenuItem.withoutAddon (item : MenuItem) (optionId : Id) : MenuItem :=
  let nextOptions := (item.selectedOptions.getD []).filter (·.id ≠ optionId)
  let basePrice := getCartLineBaseUnitPrice item
  { item with
    price := basePrice + sumDeltas nextOptions
    basePrice := some basePrice
    selectedOptions := some nextOptions
    selectedOptionIds := some ((item.selectedOptionIds.getD []).filter (· ≠ optionId))
    selectedOptionSummary := some (summaryOf (nextOptions.map (·.name))) }

def removeAddonFromLine (targetLineId optionId : Id) (s : CartState) : CartState :=
  { s with
    cartId := none
    items := s.items.map fun line =>
      if line.key ≠ targetLineId then line
      else
        let updatedItem := line.item.withoutAddon optionId
        { line with lineId := some (cartLineId updatedItem), item := updatedItem } }

def clearCart : CartState := {}

/-! ## The official cart -/

def officialCartToLine (line : OfficialCartLine) : CartLine :=
  let optionsDelta := sumDeltas line.selectedOptions
  let basePrice := if optionsDelta > 0 ∧ line.unitPrice > optionsDelta then line.unitPrice - optionsDelta
    else line.unitPrice
  let kind := line.kind.getD .item
  let named : MenuItem :=
    { documentId := line.documentId, kind := some kind, name := line.name, price := line.unitPrice,
      basePrice := some basePrice, image := line.image, selectedOptionIds := some line.optionIds }
  { lineId := some (line.id.getD (cartLineId named))
    quantity := line.quantity
    item :=
      { named with
        selectedOptionSummary := some ((summaryOf line.optionNames).or (line.note.filter (· ≠ "")))
        selectedOptions := some line.selectedOptions } }

def officialCartToLines (cart : OfficialCart) : List CartLine := cart.items.map officialCartToLine

/-- What the answer does not say is taken from the line of the same product. -/
def CartLine.complete (existing : Option MenuItem) (line : CartLine) : CartLine :=
  { line with
    item :=
      { line.item with
        kind := line.item.kind.or (existing.bind (·.kind))
        image := if line.item.image ≠ "" then line.item.image else (existing.map (·.image)).getD "" } }

def applyOfficialCart (cart : OfficialCart) (s : CartState) : CartState where
  items := (officialCartToLines cart).map fun line =>
    line.complete ((s.items.find? (·.item.documentId = line.item.documentId)).map (·.item))
  cartId := some cart.id
  discountTotal := cart.discountTotal
  appliedDiscount := cart.appliedDiscount

/-! ## `cart.service.ts` -/

structure CartSnapshotLine where
  documentId : Id
  kind : ResourceKind
  quantity : Nat
  name : String
  unitPrice : Cents
  image : String
  optionIds : List Id
  note : Option String := none
deriving DecidableEq, Repr

def snapshotLine (cartLine : CartLine) (quantity : Nat) (optionIds : List Id) (note : Option String) :
    CartSnapshotLine where
  documentId := cartLine.item.documentId
  kind := cartLine.item.kind.getD .item
  quantity
  name := cartLine.item.name
  unitPrice := getCartLineBaseUnitPrice cartLine.item
  image := cartLine.item.image
  optionIds
  note

/-- One unit takes the add-ons, the others go without. -/
def cartLineToSnapshots (cartLine : CartLine) : List CartSnapshotLine :=
  let note := cartLine.item.selectedOptionSummary.join
  if cartLine.optionIds.length > 0 ∧ cartLine.quantity > 1 then
    [snapshotLine cartLine 1 cartLine.optionIds note, snapshotLine cartLine (cartLine.quantity - 1) [] none]
  else [snapshotLine cartLine cartLine.quantity cartLine.optionIds note]

def cartLinesToSnapshots (cartLines : List CartLine) : List CartSnapshotLine := cartLines.flatMap cartLineToSnapshots

def snapshotSelection (line : CartSnapshotLine) : CartSelection :=
  { isCombo := line.kind = .combo
    resourceId := line.documentId
    quantity := line.quantity
    optionIds := line.optionIds
    note := line.note.filter (· ≠ "")
    confirmedUnitPrice := some (centsToMoney line.unitPrice) }

def buildCartSnapshot (lines : List CartSnapshotLine) : List CartSelection := lines.map snapshotSelection

/-- The body of `createCart`. -/
def createCartBody (s : CartState) : CreateCartRequest where
  lines := buildCartSnapshot (cartLinesToSnapshots s.items)
  discountCode := (s.appliedDiscount.map (·.code)).filter (· ≠ "")

/-- `normalizeCartLine` of a stored line, with the id of its row. -/
def normalizeCartLine (id : Id) (line : Komanda.CartLine) : OfficialCartLine where
  id := if id ≠ "" then some id else none
  documentId := (line.itemId.or line.comboId).getD id
  kind := some (if line.comboId.isSome ∧ line.itemId.isNone then .combo else .item)
  quantity := line.quantity
  name := line.nameSnapshot
  unitPrice := line.unitPriceSnapshot
  lineTotal := line.lineTotal
  image := line.imageUrlSnapshot.getD ""
  note := line.note.filter (· ≠ "")
  optionIds := (line.options.filter (·.addonOptionId ≠ "")).map (·.addonOptionId)
  optionNames := (line.options.filter (·.nameSnapshot ≠ "")).map (·.nameSnapshot)
  selectedOptions := (line.options.filter (·.addonOptionId ≠ "")).map fun o =>
    { id := o.addonOptionId, name := o.nameSnapshot, priceDelta := o.priceDeltaSnapshot }

/-- `normalizeCartResponse` of a stored cart with its lines, each with the id of its row. -/
def normalizeCartResponse (cart : Cart) (lines : List (Id × Komanda.CartLine)) : OfficialCart where
  id := cart.id
  items := lines.map fun p => normalizeCartLine p.1 p.2
  subtotal := cart.subtotal
  discountTotal := cart.discountTotal
  total := cart.total
  appliedDiscount := cart.discountMetadata.filter (·.code ≠ "")

end Komanda.Shop
