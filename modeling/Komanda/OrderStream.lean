import Komanda.OrderEvents

/-!
# The live stream of the orders (`orders/events/route.ts`)

A connection of `GET` on the order events, beside the transactions that write them. The handler resolves the
cursor of the client against the head of the log, sends what follows it, and then calls `sendEvents` from a timer. Each
call asks for the events after the cursor as it stands, waits for the answer of the database, and moves the cursor
while it sends. The timer does not wait for a call to end, so calls overlap and share the one cursor.
-/

namespace Komanda

/-! ## The cursor (`order-event-cursor.ts`) -/

inductive ResetReason
  | malformed
  | ahead
deriving DecidableEq, Repr

inductive EventCursorResolution
  | ok (cursor : Nat)
  | reset (reason : ResetReason) (head : Nat)
deriving DecidableEq, Repr

def parseEventCursor (value : Option String) : Option Nat :=
  match value with
  | none => some 0
  | some value =>
    if value = "" then some 0
    else if value.toList.all Char.isDigit then some (Nat.ofDigitChars 10 value.toList 0)
    else none

def resolveEventCursor (raw : Option String) (head : Nat) : EventCursorResolution :=
  match parseEventCursor raw with
  | none => .reset .malformed head
  | some cursor => if head < cursor then .reset .ahead head else .ok cursor

/-! ## The connection -/

inductive StreamMessage
  /-- `formatResetEvent` -/
  | reset (reason : ResetReason) (headSequence : String)
  | retry (milliseconds : Nat)
  /-- `eventMessage` -/
  | order (id : String) (data : OrderEventView)
deriving DecidableEq, Repr

/-- A call of `sendEvents` that waits: the cursor that it asked with, and what the database has answered. -/
structure SendEvents where
  lastEventId : Option String
  answer : Option (Except AppError (List OrderEventView)) := none

inductive StreamPhase
  /-- The cursor is not resolved yet. -/
  | opening
  /-- The first call of `sendEvents` is awaited. -/
  | sending
  /-- Nothing is left to do but what the timer does. -/
  | polling
deriving DecidableEq, Repr

structure OrderStream where
  tenantId : Id
  lastEventId : Option String
  phase : StreamPhase := .opening
  /-- The cursor that it starts from, once it is resolved. -/
  start : Option Nat := none
  /-- The timer runs. -/
  pollTimer : Bool := false
  closed : Bool := false
  calls : List SendEvents := []
  messages : List StreamMessage := []

namespace OrderStream

def pollIntervalMs : Nat := 2000

/-- `enqueue` -/
def enqueue (message : StreamMessage) (st : OrderStream) : OrderStream :=
  if st.closed then st else { st with messages := st.messages ++ [message] }

/-- `closeStream` -/
def close (st : OrderStream) : OrderStream := if st.closed then st else { st with closed := true, pollTimer := false }

/-- `cancel`: it stops the timer of a closed stream as well. -/
def cancel (st : OrderStream) : OrderStream := { st with closed := true, pollTimer := false }

/-- The cursor of the client, against the head of the log. -/
def resolve (head : Nat) (st : OrderStream) : OrderStream :=
  match resolveEventCursor st.lastEventId head with
  | .ok cursor => { st with start := some cursor }
  | .reset reason head =>
    enqueue (.reset reason (toString head)) { st with start := some head, lastEventId := some (toString head) }

/-- `sendEvents` up to its query. -/
def call (st : OrderStream) : OrderStream := { st with calls := st.calls ++ [{ lastEventId := st.lastEventId }] }

/-- One turn of the loop over the answer. -/
def send (st : OrderStream) (event : OrderEventView) : OrderStream :=
  enqueue (.order event.sequence event) { st with lastEventId := some event.sequence }

/-- The rest of `sendEvents`. -/
def deliver (answer : Except AppError (List OrderEventView)) (st : OrderStream) : OrderStream :=
  match answer with
  | .ok events => events.foldl send st
  | .error _ => st.close

/-- The first call is over: the timer starts. -/
def startTimer (st : OrderStream) : OrderStream :=
  if st.phase = .sending then { st with phase := .polling, pollTimer := true } else st

end OrderStream

/-! ## Runs -/

/-- The transactions that write the events, and one connection. -/
structure StreamSession where
  writes : NumberedLog.Session Id EventInput := {}
  stream : OrderStream

inductive StreamStep
  | write (e : NumberedLog.Event Id EventInput)
  /-- The head of the log has been read. -/
  | resolve
  /-- Its query has failed. -/
  | failHead
  /-- The timer fires. -/
  | tick
  /-- The database answers the `i`-th waiting call. -/
  | query (i : Nat)
  /-- The query of the `i`-th waiting call has failed. -/
  | fail (i : Nat)
  /-- The `i`-th waiting call goes on. -/
  | deliver (i : Nat)
  /-- The request is aborted, or the server shuts down. -/
  | close
  /-- The client goes away. -/
  | cancel
deriving DecidableEq, Repr

/-- A client connects. -/
def StreamSession.connect (tenantId : Id) (cursor : Option String) : StreamSession where
  stream := { tenantId, lastEventId := cursor }

open OrderStream in
def streamStep (s : StreamSession) : StreamStep → Option StreamSession
  | .write e => (NumberedLog.step s.writes e).map fun writes => { s with writes }
  | .resolve =>
    if s.stream.phase = .opening then
      let head := s.writes.tables.value s.stream.tenantId
      let opened := call (enqueue (.retry pollIntervalMs) (s.stream.resolve head))
      some { s with stream := { opened with phase := .sending } }
    else none
  | .failHead =>
    if s.stream.phase = .opening then some { s with stream := { s.stream.close with phase := .polling } } else none
  | .tick => if s.stream.pollTimer then some { s with stream := s.stream.call } else none
  | .query i => s.stream.calls[i]?.bind fun c =>
    if c.answer.isNone then
      let answered : SendEvents :=
        { c with answer := some (OrderQueryService.eventsAfter s.stream.tenantId c.lastEventId s.writes.tables) }
      some { s with stream := { s.stream with calls := s.stream.calls.set i answered } }
    else none
  | .fail i => s.stream.calls[i]?.map fun _ =>
    { s with stream := startTimer (close { s.stream with calls := s.stream.calls.eraseIdx i }) }
  | .deliver i => s.stream.calls[i]?.bind fun c => c.answer.map fun answer =>
    { s with stream := startTimer (deliver answer { s.stream with calls := s.stream.calls.eraseIdx i }) }
  | .close => some { s with stream := s.stream.close }
  | .cancel => some { s with stream := s.stream.cancel }

end Komanda
