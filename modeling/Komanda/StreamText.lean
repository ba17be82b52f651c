import Komanda.Lib.EventStream
import Komanda.Lib.JsonText
import Komanda.LiveOrders

/-!
# The text of the order events

What the routes write, and `EventSource` as the dashboard has it open: a reader of the text, with one listener for the
orders.
-/

namespace Komanda
open Json EventStream

/-- The columns of an event that are sent and that nothing else here reads. -/
structure EventColumns where
  id : Id
  metadata : Value Empty
  occurredAt : String

/-- `event` -/
def eventValue (columns : OrderEventView → EventColumns) (event : OrderEventView) : Value Empty :=
  let status (s : Option FulfillmentStatus) : Value Empty := s.elim .null fun s => .string s.text
  .object
    [("id", some (.string (columns event).id)), ("orderId", some (.string event.orderId)),
      ("sequence", some (.string event.sequence)), ("eventType", some (.string event.eventType)),
      ("fromStatus", some (status event.fromStatus)), ("toStatus", some (status event.toStatus)),
      ("metadata", some (columns event).metadata), ("occurredAt", some (.string (columns event).occurredAt))]

def ResetReason.text : ResetReason → String
  | .malformed => "malformed"
  | .ahead => "ahead"

def resetValue (reason : ResetReason) (headSequence : String) : Value Empty :=
  .object [("reason", some (.string reason.text)), ("headSequence", some (.string headSequence))]

/-- What `reply.raw.write` and `enqueue` are called with. -/
def StreamBlock.text (columns : OrderEventView → EventColumns) : StreamBlock → List Char
  | .message (.order id data) =>
    "id: ".toList ++ id.toList ++ "\nevent: order\ndata: ".toList ++ (eventValue columns data).text ++ "\n\n".toList
  | .message (.reset reason headSequence) =>
    "event: reset\ndata: ".toList ++ (resetValue reason headSequence).text ++ "\n\n".toList
  | .message (.retry milliseconds) => "retry: ".toList ++ (toString milliseconds).toList ++ "\n\n".toList
  | .heartbeat now => ": heartbeat ".toList ++ (toString now).toList ++ "\n\n".toList

/-- All that is written to one response. -/
def streamText (columns : OrderEventView → EventColumns) (blocks : List StreamBlock) : List Char :=
  blocks.flatMap (StreamBlock.text columns)

/-- `eventSource.onmessage` and the listener of the orders: what `handleOrderEvent` is called with. -/
def heard (events : List Event) : List Event := events.filter fun e => e.type = "message" || e.type = "order"

end Komanda
