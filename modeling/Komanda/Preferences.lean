import Komanda.Lib.Binary64
import Komanda.Schema

/-!
# The items of a Mercado Pago preference (`payment-session.service.ts`)

What `buildMercadoPagoPreferenceItems` sends to the provider. A `unit_price` is the exact cents that it prints; the
shares of a discount are computed in doubles.
-/

namespace Komanda
namespace PaymentSessionService

structure PreferenceItem where
  id : Option Id
  title : String
  description : Option String
  pictureUrl : Option String
  quantity : Nat
  currencyId : String
  unitPrice : Cents
deriving DecidableEq, Repr

/-- `lineResourceId`; the id of the line itself, its last resort, is left out. -/
def lineResourceId (line : CartLine) : Option Id := line.itemId.or line.comboId

def preferenceItem (cart : Cart) (line : CartLine) (quantity : Nat) (unitPrice : Cents) : PreferenceItem where
  id := lineResourceId line
  title := line.nameSnapshot
  description := line.note
  pictureUrl := line.imageUrlSnapshot
  quantity
  currencyId := cart.currency
  unitPrice

/-- `Math.round((lineTotalCents / (applicableSubtotalCents || 1)) * discountTotalCents)` -/
def lineShare (applicableSubtotalCents discountTotalCents lineTotalCents : Cents) : Cents :=
  let divisor : ℚ := if applicableSubtotalCents = 0 then 1 else applicableSubtotalCents
  ⌊Binary64.nearest (Binary64.nearest (lineTotalCents / divisor) * discountTotalCents) + 1 / 2⌋₊

/-- The lines with what is left of their totals; `Math.max(0, ·)` is the truncated subtraction. -/
def proratedLines (applicableSubtotalCents discountTotalCents : Cents) :
    Cents → List CartLine → List (CartLine × Cents)
  | _, [] => []
  | allocatedDiscountCents, line :: rest =>
    -- the last line takes what is left
    let share := if rest.isEmpty then discountTotalCents - allocatedDiscountCents
      else lineShare applicableSubtotalCents discountTotalCents line.lineTotal
    let lineDiscountCents := min line.lineTotal share
    (line, line.lineTotal - lineDiscountCents) ::
      proratedLines applicableSubtotalCents discountTotalCents (allocatedDiscountCents + lineDiscountCents) rest

/-- One item for a single unit, else an item for each unit: the first units take the cents that are left over. -/
def discountedItems (cart : Cart) (line : CartLine) (discountedLineTotalCents : Cents) : List PreferenceItem :=
  if line.quantity = 1 then [preferenceItem cart line 1 discountedLineTotalCents]
  else
    let baseUnitCents := discountedLineTotalCents / line.quantity
    let remainderCents := discountedLineTotalCents % line.quantity
    (List.range line.quantity).map fun q =>
      preferenceItem cart line 1 (baseUnitCents + if q < remainderCents then 1 else 0)

def buildMercadoPagoPreferenceItems (cart : Cart) : List PreferenceItem :=
  if cart.discountTotal = 0 then
    cart.lines.map fun line => preferenceItem cart line line.quantity line.unitPriceSnapshot
  else
    let applicableSubtotalCents := (cart.lines.map (·.lineTotal)).sum
    (proratedLines applicableSubtotalCents cart.discountTotal 0 cart.lines).flatMap fun p =>
      discountedItems cart p.1 p.2

/-- What the provider charges for the items. -/
def itemsTotal (items : List PreferenceItem) : Cents := (items.map fun i => i.quantity * i.unitPrice).sum

end PaymentSessionService
end Komanda
