import Komanda.Lib.NumberedLog
import Komanda.Orders
import Mathlib.Data.List.Sort

/-!
# The event log of the orders and its readers

The transactions of all tenants over `order_events` and the counters `order_event_sequence`, statement by
statement: `nextCounter` is `NumberedLog.Event.take`, the insertion of `appendEvent` is
`NumberedLog.Event.insert`. Readers ask `OrderQueryService.eventsAfter` for what follows the last event that
they have received.
-/

namespace Komanda

/-- The columns of an event beside its tenant and its sequence. -/
structure EventInput where
  orderId : Id
  eventType : String
  fromStatus : Option FulfillmentStatus
  toStatus : Option FulfillmentStatus
  metadata : Payload
deriving DecidableEq, Repr

abbrev EventRow := NumberedLog.Row Id EventInput

abbrev EventTables := NumberedLog.Tables Id EventInput

/-- `OrderEventView` -/
structure OrderEventView where
  orderId : Id
  sequence : String
  eventType : String
  fromStatus : Option FulfillmentStatus
  toStatus : Option FulfillmentStatus
  metadata : Payload
deriving DecidableEq, Repr

def serializeEvent (row : EventRow) : OrderEventView where
  orderId := row.content.orderId
  sequence := toString row.number
  eventType := row.content.eventType
  fromStatus := row.content.fromStatus
  toStatus := row.content.toStatus
  metadata := row.content.metadata

namespace OrderRepository

/-- `ORDER BY sequence` -/
def bySequence (a b : EventRow) : Prop := a.number ≤ b.number

instance : DecidableRel bySequence := fun a b => inferInstanceAs (Decidable (a.number ≤ b.number))

/-- `OrderRepository.listEventsAfter` -/
def listEventsAfter (tenantId : Id) (sequence limit : Nat) (t : EventTables) : List OrderEventView :=
  (((t.rows.filter fun e => e.key = tenantId && sequence < e.number).insertionSort bySequence).take limit).map
    serializeEvent

end OrderRepository

namespace OrderQueryService

/-- `parseSequence`: `/^\d+$/`, and 0 without a cursor. -/
def parseSequence (value : Option String) : Except AppError Nat :=
  match value with
  | none => .ok 0
  | some value =>
    if value = "" then .ok 0
    else if value.toList.all Char.isDigit then .ok (Nat.ofDigitChars 10 value.toList 0)
    else .error (.orderValidation "Invalid event cursor.")

/-- `OrderQueryService.eventsAfter` -/
def eventsAfter (tenantId : Id) (lastEventId : Option String) (t : EventTables) :
    Except AppError (List OrderEventView) :=
  (parseSequence lastEventId).map fun sequence => OrderRepository.listEventsAfter tenantId sequence 100 t

end OrderQueryService

/-! ## Readers -/

/-- A consumer of the listing: the cursor it came with, the one it has, and all that it has received. -/
structure EventReader where
  tenantId : Id
  cursor : Option String
  lastEventId : Option String := cursor
  received : List OrderEventView := []
deriving DecidableEq, Repr

/-- The next call of the listing; the sequence of the last event becomes the cursor. -/
def EventReader.poll (r : EventReader) (t : EventTables) : Except AppError EventReader :=
  (OrderQueryService.eventsAfter r.tenantId r.lastEventId t).map fun events =>
    { r with
      received := r.received ++ events
      lastEventId := (events.getLast?.map (·.sequence)).or r.lastEventId }

/-- The writing transactions and the readers. -/
structure EventSession where
  writes : NumberedLog.Session Id EventInput := {}
  readers : List EventReader := []
deriving DecidableEq, Repr

inductive EventStep
  | write (e : NumberedLog.Event Id EventInput)
  | subscribe (tenantId : Id) (cursor : Option String)
  /-- The `j`-th reader calls the listing. -/
  | poll (j : Nat)
deriving DecidableEq, Repr

def eventStep (s : EventSession) : EventStep → Option EventSession
  | .write e => (NumberedLog.step s.writes e).map fun writes => { s with writes }
  | .subscribe tenantId cursor => some { s with readers := s.readers ++ [{ tenantId, cursor }] }
  | .poll j => s.readers[j]?.bind fun r => (r.poll s.writes.tables).toOption.map fun r =>
      { s with readers := s.readers.set j r }

end Komanda
