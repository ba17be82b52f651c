import Komanda.OrderStream

/-!
# The live orders of the dashboard (`fastify/routes/order-events.ts`)

The stream of the standalone server resolves the cursor as `orders/events/route.ts` does, but a poll sets the timer of
the next one when it is over. `LiveSession` is the whole feed: the transactions that write the events, a browser, and
the connection that it has open. A connection breaks at any time, and with it what the browser has not read yet; then
the browser opens another one and sends the id of the last event that it has read.
-/

namespace Komanda

/-! ## The server -/

/-- What is written to the response. -/
inductive StreamBlock
  | message (m : StreamMessage)
  | heartbeat (now : Instant)
deriving DecidableEq, Repr

/-- Where the handler, or later the callback of the timer, waits. -/
inductive StreamWait
  /-- `eventsHead` -/
  | head
  /-- `eventsAfter` in `runPoll` -/
  | poll (call : SendEvents)
  /-- `setTimeout` -/
  | timer
  /-- Nothing is left to do. -/
  | over

structure FastifyStream where
  tenantId : Id
  lastEventId : Option String
  closed : Bool := false
  isPolling : Bool := false
  heartbeatTimer : Bool := false
  wait : StreamWait := .head
  written : List StreamBlock

namespace FastifyStream

/-- The handler up to its first query. -/
def handle (tenantId : Id) (cursor : Option String) : FastifyStream where
  tenantId
  lastEventId := cursor
  written := [.message (.retry OrderStream.pollIntervalMs)]

/-- `reply.raw.write` -/
def write (block : StreamBlock) (st : FastifyStream) : FastifyStream := { st with written := st.written ++ [block] }

/-- `closeStream`: both timers are cleared. -/
def closeStream (st : FastifyStream) : FastifyStream :=
  if st.closed then st
  else
    { st with
      closed := true
      heartbeatTimer := false
      wait := match st.wait with
        | .timer => .over
        | wait => wait }

/-- What follows `await runPoll()`; after the first poll the heartbeats start as well. -/
def afterPoll (st : FastifyStream) : FastifyStream :=
  if st.closed then { st with wait := .over } else { st with wait := .timer, heartbeatTimer := true }

/-- `runPoll` up to its query. -/
def runPoll (st : FastifyStream) : FastifyStream :=
  if st.closed || st.isPolling then afterPoll st
  else { st with isPolling := true, wait := .poll { lastEventId := st.lastEventId } }

/-- The cursor of the client, against the head of the log. -/
def resolve (head : Nat) (st : FastifyStream) : FastifyStream :=
  match resolveEventCursor st.lastEventId head with
  | .ok _ => st
  | .reset reason head =>
    write (.message (.reset reason (toString head))) { st with lastEventId := some (toString head) }

/-- The head has been read. -/
def resume (head : Nat) (st : FastifyStream) : FastifyStream :=
  if st.closed then { st with wait := .over } else runPoll (resolve head st)

/-- The callback of the timer up to its query. -/
def tick (st : FastifyStream) : FastifyStream := if st.closed then { st with wait := .over } else runPoll st

/-- One turn of the loop over the events. -/
def send (st : FastifyStream) (event : OrderEventView) : FastifyStream :=
  write (.message (.order event.sequence event)) { st with lastEventId := some event.sequence }

/-- The rest of `runPoll`. -/
def finishPoll (answer : Except AppError (List OrderEventView)) (st : FastifyStream) : FastifyStream :=
  let st :=
    match answer with
    | .ok events => if st.closed then st else events.foldl send st
    | .error _ => closeStream st
  { st with isPolling := false }

end FastifyStream

/-! ## The browser (`AdminOrdersLive`) -/

structure LiveOrders where
  tenantId : Id
  /-- The header of the next connection. -/
  lastEventId : Option String := none
  /-- What `handleOrderEvent` has been called with. -/
  received : List OrderEventView := []
deriving DecidableEq, Repr

/-- It has listeners for the orders alone. -/
def LiveOrders.read (client : LiveOrders) : StreamBlock → LiveOrders
  | .message (.order id data) => { client with lastEventId := some id, received := client.received ++ [data] }
  | _ => client

/-! ## Runs -/

/-- An open connection, and what the browser has not read of it. -/
structure Connection where
  stream : FastifyStream
  read : Nat := 0

def Connection.unread (c : Connection) : List StreamBlock := c.stream.written.drop c.read

structure LiveSession where
  writes : NumberedLog.Session Id EventInput := {}
  client : LiveOrders
  connection : Option Connection := none

inductive LiveStep
  | write (e : NumberedLog.Event Id EventInput)
  | connect
  /-- The head of the log has been read. -/
  | head
  | failHead
  /-- The database answers the poll. -/
  | query
  | failQuery
  /-- The poll goes on. -/
  | answered
  /-- The timer fires. -/
  | tick
  | heartbeat (now : Instant)
  /-- The server shuts down. -/
  | shutdown
  /-- The browser reads one block. -/
  | read
  /-- The connection ends for the browser, be it closed or broken. -/
  | disconnect
deriving DecidableEq, Repr

/-- The dashboard is opened. -/
def LiveSession.start (tenantId : Id) : LiveSession where
  client := { tenantId }

def LiveSession.withStream (s : LiveSession) (c : Connection) (stream : FastifyStream) : LiveSession :=
  { s with connection := some { c with stream } }

open FastifyStream in
def liveStep (s : LiveSession) : LiveStep → Option LiveSession
  | .write e => (NumberedLog.step s.writes e).map fun writes => { s with writes }
  | .connect =>
    if s.connection.isNone then
      some { s with connection := some { stream := handle s.client.tenantId s.client.lastEventId } }
    else none
  | .head => s.connection.bind fun c =>
    match c.stream.wait with
    | .head => some (s.withStream c (resume (s.writes.tables.value c.stream.tenantId) c.stream))
    | _ => none
  | .failHead => s.connection.bind fun c =>
    match c.stream.wait with
    | .head => some (s.withStream c { closeStream c.stream with wait := .over })
    | _ => none
  | .query => s.connection.bind fun c =>
    match c.stream.wait with
    | .poll call =>
      if call.answer.isNone then
        let answer := OrderQueryService.eventsAfter c.stream.tenantId call.lastEventId s.writes.tables
        some (s.withStream c { c.stream with wait := .poll { call with answer := some answer } })
      else none
    | _ => none
  | .failQuery => s.connection.bind fun c =>
    match c.stream.wait with
    | .poll _ =>
      some (s.withStream c (afterPoll { closeStream c.stream with isPolling := false }))
    | _ => none
  | .answered => s.connection.bind fun c =>
    match c.stream.wait with
    | .poll call => call.answer.map fun answer =>
      s.withStream c (afterPoll (finishPoll answer c.stream))
    | _ => none
  | .tick => s.connection.bind fun c =>
    match c.stream.wait with
    | .timer => some (s.withStream c (tick c.stream))
    | _ => none
  | .heartbeat now => s.connection.bind fun c =>
    if c.stream.heartbeatTimer && !c.stream.closed then some (s.withStream c (c.stream.write (.heartbeat now))) else none
  | .shutdown => s.connection.map fun c => s.withStream c (closeStream c.stream)
  | .read => s.connection.bind fun c => c.stream.written[c.read]?.map fun block =>
    { s with client := s.client.read block, connection := some { c with read := c.read + 1 } }
  | .disconnect => s.connection.map fun _ => { s with connection := none }

end Komanda
