import Komanda.Orders

/-!
# Cash shifts (`features/commerce/application/cash-shift.service.ts`)

A shift's expected cash is computed from the orders of the tenant: those created since the opening that
are in cash and paid. The movements of `cash_register_movements` are not read.
-/

namespace Komanda
open Transaction

namespace CashShiftService

/-- The orders that `getCurrent` and `close` count as cash sales of a shift. -/
def isCashSale (openedAt : Instant) (o : Order) : Bool :=
  o.tender = .cash && o.paymentStatus = .paid && openedAt ≤ o.createdAt

def cashSales (orders : List Order) : Cents := (orders.map (·.total)).sum

/-- The open shift with its expected cash. -/
def current (db : Db) : Option (CashShift × Cents) :=
  (db.shifts.find? (·.status = .open)).map fun shift =>
    (shift, shift.openingBalance + cashSales (db.orders.filter (isCashSale shift.openedAt)))

/-- `CashShiftService.getCurrent` -/
def getCurrent : DbTx (Option (CashShift × Cents)) := look current

/-- `CashShiftService.open` -/
def openShift (openedByUserId : String) (openingBalance : Cents) (locationId : Option Id)
    (notes : Option String) (newId : Id) (now : Instant) : DbTx CashShift := do
  let existing ← look fun db => db.shifts.any (·.status = .open)
  throwIf existing (.cashShiftConflict "Ya existe un turno de caja abierto.")
  let shift : CashShift :=
    { id := newId, locationId, registerIdentifier := "default", openedByUserId, openingBalance,
      closingBalance := none, expectedCash := none, status := .open, openedAt := now, closedAt := none,
      notes }
  -- the unique index takes null locations as distinct
  let taken ← Transaction.current fun db => db.shifts.any fun s => s.id = newId ||
    (s.status = .open && s.locationId.isSome && s.locationId = locationId &&
      s.registerIdentifier = shift.registerIdentifier)
  throwIf taken (.database "cash_shifts_one_open_per_register_uidx")
  write fun db => { db with shifts := db.shifts ++ [shift] }
  return shift

/-- `CashShiftService.close` -/
def close (shiftId : Id) (closingBalance : Cents) (notes : Option String) (now : Instant) :
    DbTx Cents := do
  let found ← look fun db => Table.lookup CashShift.id shiftId db.shifts
  let shift ← orThrow found (.cashShiftNotFound "Turno de caja no encontrado.")
  throwIf (shift.status ≠ .open) (.cashShiftConflict "El turno de caja ya se encuentra cerrado.")
  let sales ← look fun db =>
    cashSales (db.orders.filter fun o => isCashSale shift.openedAt o && o.createdAt ≤ now)
  let expectedCash := shift.openingBalance + sales
  let closed (s : CashShift) : CashShift :=
    { s with
      status := .closed, closingBalance := some closingBalance, expectedCash := some expectedCash,
      closedAt := some now, notes := notes.or shift.notes }
  write fun db => { db with shifts := Table.updateWhere (·.id = shiftId) closed db.shifts }
  return expectedCash

end CashShiftService

end Komanda
