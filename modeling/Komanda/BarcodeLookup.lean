import Komanda.Catalog
import Komanda.Money

/-!
# Looking up a barcode (`barcode-lookup.service.ts`)

A code of thirteen digits that starts with 2 is a label printed by a scale: five digits are the PLU code of a
weighted item, five are the amount, the last one checks the others. Any other barcode is looked for among the items of
the tenant, in the cache that all tenants share, and then at the public API, whose answer is cached. `fetch` is that
API: `none` where the request fails, runs into its timeout, or is not answered with a product.
-/

namespace Komanda

/-! ## Labels of scales (`catalog.rules.ts`) -/

def isScaleEan13Prefix (barcode : String) : Bool := isScaleCode (Text.trim barcode).toList

structure ParsedScale where
  pluCode : String
  calculatedSubtotal : String
deriving DecidableEq, Repr

/-- `Number` of one digit of a label. -/
def scaleDigit (c : Char) : Nat := c.toNat - '0'.toNat

/-- Every second digit counts three times. -/
def weightedSum (digits : List Nat) : Nat := (digits.mapIdx fun idx d => d * (if idx % 2 = 0 then 1 else 3)).sum

def parseScaleEan13 (barcode : String) : Option ParsedScale :=
  let clean := (Text.trim barcode).toList
  let digits := clean.map scaleDigit
  let sum := weightedSum (digits.take 12)
  let amountInt := Nat.ofDigitChars 10 ((clean.drop 7).take 5) 0
  if !isScaleCode clean then none
  else if some ((10 - sum % 10) % 10) ≠ digits[12]? then none
  else if amountInt = 0 then none
  else some { pluCode := String.ofList ((clean.drop 2).take 5), calculatedSubtotal := toString amountInt ++ ".00" }

/-! ## `BarcodeLookupService` -/

structure Suggestion where
  name : String
  suggestedCategory : Option String
  imageUrl : Option String
  brand : Option String
deriving DecidableEq, Repr

/-- A row of `global_product_catalog`. -/
structure GlobalProduct where
  barcode : String
  suggestion : Suggestion
deriving DecidableEq, Repr

/-- The `product` that the public API answers with; `none` is an absent key. -/
structure ExternalProduct where
  productNameEs : Option String := none
  productName : Option String := none
  genericNameEs : Option String := none
  genericName : Option String := none
  categoriesTags : Option (List String) := none
  imageFrontUrl : Option String := none
  imageUrl : Option String := none
  brands : Option String := none
deriving DecidableEq, Repr

structure ExternalAnswer where
  status : Option Int := none
  product : Option ExternalProduct := none
deriving DecidableEq, Repr

/-- The columns of an item that a lookup answers with. -/
structure FoundItem where
  id : Id
  name : String
  price : Cents
  currency : String
  itemType : ItemType
  barcode : Option String
  isGeneric : Bool
  genericIcon : Option String
  trackStock : Bool
  stockQuantity : Int
  status : CatalogStatus
deriving DecidableEq, Repr

def ItemRow.found (row : ItemRow) : FoundItem :=
  { id := row.id, name := row.name, price := row.price, currency := row.currency, itemType := row.itemType,
    barcode := row.barcode, isGeneric := row.isGeneric, genericIcon := row.genericIcon, trackStock := row.trackStock,
    stockQuantity := row.stockQuantity, status := row.status }

inductive BarcodeLookupResult
  | tenant (item : FoundItem)
  | global (suggestion : Suggestion)
  | external (suggestion : Suggestion)
  | none
deriving DecidableEq, Repr

namespace BarcodeLookupService
open CatalogRepository

/-- `texts[0] || texts[1] || …`: absent and empty texts are passed over. -/
def firstText (texts : List (Option String)) : Option String := (texts.filterMap id).find? (· ≠ "")

/-- The tag without what stands up to the first colon of its first line, its dashes as blanks. -/
def suggestedCategory (categoryTag : String) : String :=
  let tag := categoryTag.toList
  let language := tag.takeWhile fun c => !(c = ':' || c = '\n' || c = '\r' || c.toNat = 0x2028 || c.toNat = 0x2029)
  let name := if tag[language.length]? = some ':' then tag.drop (language.length + 1) else tag
  String.ofList (name.map fun c => if c = '-' then ' ' else c)

/-- What is suggested on an answer that has a product with a name. -/
def suggest (data : ExternalAnswer) : Option Suggestion :=
  match data.product with
  | Option.none => Option.none
  | some product =>
    let name := (firstText [product.productNameEs, product.productName, product.genericNameEs,
      product.genericName]).getD ""
    if data.status = some 1 ∧ Text.trim name ≠ "" then
      some
        { name := Text.trim name
          suggestedCategory := (firstText [product.categoriesTags.bind List.head?]).map suggestedCategory
          imageUrl := firstText [product.imageFrontUrl, product.imageUrl]
          brand := firstText [product.brands] }
    else Option.none

/-- The answer, and the shared cache afterwards. -/
def lookup (fetch : String → Option ExternalAnswer) (barcode : String) (t : CatalogTables)
    (cache : List GlobalProduct) :
    BarcodeLookupResult × List GlobalProduct :=
  let cleanBarcode := Text.trim barcode
  if cleanBarcode = "" then (.none, cache)
  else if isScaleEan13Prefix cleanBarcode then
    match parseScaleEan13 cleanBarcode with
    | Option.none => (.none, cache)
    | some parsedScale =>
      match findWeightedItemByPlu parsedScale.pluCode t with
      | some weightedItem =>
        if weightedItem.itemType = .weighted then (.tenant weightedItem.found, cache) else (.none, cache)
      | Option.none => (.none, cache)
  else
    match (findItemByBarcode cleanBarcode t).filter fun localItem => localItem.itemType ≠ .weighted with
    | some localItem => (.tenant localItem.found, cache)
    | Option.none =>
      match cache.find? (·.barcode = cleanBarcode) with
      | some globalItem => (.global globalItem.suggestion, cache)
      | Option.none =>
        match (fetch cleanBarcode).bind suggest with
        | some suggestion => (.external suggestion, cache ++ [{ barcode := cleanBarcode, suggestion }])
        | Option.none => (.none, cache)

end BarcodeLookupService

end Komanda
