import Mathlib.Data.List.Sort
import Komanda.Lib.Runs
import Komanda.Schema

/-!
# Delivery of the outbox (`OutboxDispatcher`, `dispatchReadyWhatsApp`, `dispatchOwnerCashWhatsApp`)

`OutboxRow` is a row of `outbox_events` as its delivery sees it. A worker claims rows under a lease, hands each to its
consumer and marks it published or failed; every statement is a transaction of its own. A worker is known by its id and
does one thing after the other. What its consumers do is not modelled, only that they return, throw or never end.
-/

namespace Komanda
open Transaction

structure OutboxRow where
  id : Id
  tenantId : Id
  eventType : String
  sequence : Nat
  availableAt : Instant
  publishedAt : Option Instant
  attempts : Nat
  claimedBy : Option String
  leasedUntil : Option Instant
  lastError : Option String
  deadLetterAt : Option Instant
deriving DecidableEq, Repr

structure ClaimedOutboxEvent where
  id : Id
  tenantId : Id
  eventType : String
  sequence : Nat
  attempts : Nat
deriving DecidableEq, Repr

def OutboxRow.claimedEvent (r : OutboxRow) : ClaimedOutboxEvent :=
  { id := r.id, tenantId := r.tenantId, eventType := r.eventType, sequence := r.sequence, attempts := r.attempts }

/-- A statement on the table. -/
abbrev OutboxTx (α : Type) := Tx (List OutboxRow) Empty α

/-! ## Statements -/

/-- The condition that all workers claim under. -/
def OutboxRow.claimable (now : Instant) (r : OutboxRow) : Bool :=
  r.publishedAt.isNone && r.deadLetterAt.isNone && r.availableAt ≤ now && r.leasedUntil.all (· < now)

def OutboxRow.claimed (workerId : String) (leaseMs : Nat) (now : Instant) (r : OutboxRow) : OutboxRow :=
  { r with claimedBy := some workerId, leasedUntil := some (now + leaseMs), attempts := r.attempts + 1 }

/-- `order by sequence … for update skip locked`, and the update of the candidates. Rows in `locked` are held by others;
a row that has changed since the snapshot is looked at again. -/
def claimRows (workerId : String) (selects : OutboxRow → Bool) (limit leaseMs : Nat) (locked : List Id)
    (now : Instant) :
    OutboxTx (List ClaimedOutboxEvent) := do
  let found ← look fun rows =>
    (rows.filter fun r => selects r && r.claimable now).insertionSort fun a b => a.sequence ≤ b.sequence
  let candidates ← current fun rows =>
    (rows.filter fun r => selects r && r.claimable now && !locked.contains r.id && found.any (·.id = r.id)
      ).insertionSort (fun a b => a.sequence ≤ b.sequence) |>.take limit
  write (Table.updateWhere (fun r => candidates.any (·.id = r.id)) (OutboxRow.claimed workerId leaseMs now))
  return candidates.map fun r => (r.claimed workerId leaseMs now).claimedEvent

/-- `where id and claimed_by`, as every outcome is written. -/
def OutboxRow.heldBy (workerId : String) (id : Id) (r : OutboxRow) : Bool := r.id = id && r.claimedBy = some workerId

def markPublished (workerId : String) (id : Id) (now : Instant) : OutboxTx Unit :=
  write (Table.updateWhere (OutboxRow.heldBy workerId id) fun r =>
    { r with publishedAt := some now, claimedBy := none, leasedUntil := none, lastError := none })

namespace OutboxDispatcher

structure Options where
  batchSize : Nat := 25
  leaseMs : Nat := 30000
  maxAttempts : Nat := 5
deriving DecidableEq, Repr

variable (options : Options) (workerId : String)

/-- A lease of whole seconds. -/
def claimBatch (locked : List Id) (now : Instant) : OutboxTx (List ClaimedOutboxEvent) :=
  claimRows workerId (fun _ => true) options.batchSize (max 1 ((options.leaseMs + 999) / 1000) * 1000) locked now

/-- `retryMs` is what `backoffMs` has drawn. -/
def markFailed (event : ClaimedOutboxEvent) (message : String) (retryMs : Nat) (now : Instant) : OutboxTx Unit :=
  let deadLetter := options.maxAttempts ≤ event.attempts
  write (Table.updateWhere (OutboxRow.heldBy workerId event.id) fun r =>
    { r with
      availableAt := if deadLetter then r.availableAt else now + retryMs
      claimedBy := none
      leasedUntil := none
      lastError := some message
      deadLetterAt := if deadLetter then some now else r.deadLetterAt })

end OutboxDispatcher

namespace WhatsAppDispatch
variable (eventType workerId : String)

/-- The next event of a tenant. -/
def claimNext (tenantId : Id) (locked : List Id) (now : Instant) : OutboxTx (List ClaimedOutboxEvent) :=
  claimRows workerId (fun r => r.tenantId = tenantId && r.eventType = eventType) 1 60000 locked now

def markFailed (event : ClaimedOutboxEvent) (now : Instant) : OutboxTx Unit :=
  write (Table.updateWhere (OutboxRow.heldBy workerId event.id) fun r =>
    { r with
      claimedBy := none
      leasedUntil := none
      availableAt := now + 5 * 60000
      lastError := some "WhatsApp delivery failed"
      deadLetterAt := if 5 ≤ r.attempts then some now else r.deadLetterAt })

end WhatsAppDispatch

/-! ## Workers -/

inductive OutboxWorker
  | dispatcher (options : OutboxDispatcher.Options)
  /-- `order.whatsapp_ready` or `order.whatsapp_owner_cash_pending` -/
  | whatsApp (eventType : String)
deriving DecidableEq, Repr

namespace OutboxWorker

/-- The claim of a worker. Only a job looks at the tenant, whose turn it is. -/
def claim (workerId : String) (tenantId : Id) (locked : List Id) (now : Instant) :
    OutboxWorker → OutboxTx (List ClaimedOutboxEvent)
  | dispatcher options => OutboxDispatcher.claimBatch options workerId locked now
  | whatsApp eventType => WhatsAppDispatch.claimNext eventType workerId tenantId locked now

def markFailed (workerId : String) (event : ClaimedOutboxEvent) (message : String) (retryMs : Nat) (now : Instant) :
    OutboxWorker → OutboxTx Unit
  | dispatcher options => OutboxDispatcher.markFailed options workerId event message retryMs now
  | whatsApp _ => WhatsAppDispatch.markFailed workerId event now

end OutboxWorker

/-- What a worker has claimed and not settled, and whether it is in the `catch` of the first of these. -/
structure OutboxTask where
  events : List ClaimedOutboxEvent := []
  failing : Bool := false
deriving DecidableEq, Repr

structure OutboxState where
  rows : List OutboxRow := []
  tasks : String → OutboxTask := fun _ => {}

/-! ## Steps -/

inductive OutboxAction
  /-- `appendOutboxEvent` commits. -/
  | append (id tenantId : Id) (eventType : String) (sequence : Nat) (availableAt : Instant)
  /-- A worker without events claims; its statement has read `view`. -/
  | claim (workerId : String) (tenantId : Id) (view : List OutboxRow) (locked : List Id) (now : Instant)
  /-- The consumer returns, and `markPublished` is done; its answer may be lost. -/
  | publish (workerId : String) (answered : Bool) (now : Instant)
  /-- The consumer throws, or `markPublished` does before it has been done. -/
  | throws (workerId : String)
  | fail (workerId : String) (message : String) (retryMs : Nat) (now : Instant)
  /-- The worker stops where it is: it has died, or `markFailed` has thrown. -/
  | abandon (workerId : String)
deriving Repr

namespace OutboxState

/-- The table after a statement. -/
def after {α : Type} (x : OutboxTx α) (view : List OutboxRow) (s : OutboxState) : Option (α × OutboxState) :=
  match x view s.rows with
  | .ok (a, rows) => some (a, { s with rows })
  | .error _ => none

def setTask (workerId : String) (task : OutboxTask) (s : OutboxState) : OutboxState :=
  { s with tasks := Function.update s.tasks workerId task }

end OutboxState

def newOutboxRow (id tenantId : Id) (eventType : String) (sequence : Nat) (availableAt : Instant) : OutboxRow where
  id := id
  tenantId := tenantId
  eventType := eventType
  sequence := sequence
  availableAt := availableAt
  publishedAt := none
  attempts := 0
  claimedBy := none
  leasedUntil := none
  lastError := none
  deadLetterAt := none

/-- The workers are given by their ids, so no two have the same. -/
def outboxStep (workers : String → OutboxWorker) (s : OutboxState) : OutboxAction → Option OutboxState
  | .append id tenantId eventType sequence availableAt =>
    if s.rows.any (·.id = id) then none
    else some { s with rows := s.rows ++ [newOutboxRow id tenantId eventType sequence availableAt] }
  | .claim workerId tenantId view locked now =>
    if (s.tasks workerId).events ≠ [] then none
    else (s.after ((workers workerId).claim workerId tenantId locked now) view).map fun r =>
      r.2.setTask workerId { events := r.1 }
  | .publish workerId answered now =>
    match s.tasks workerId with
    | { events := event :: events, failing := false } =>
      (s.after (markPublished workerId event.id now) s.rows).map fun r =>
        r.2.setTask workerId (if answered then { events } else { events := event :: events, failing := true })
    | _ => none
  | .throws workerId =>
    match s.tasks workerId with
    | { events := event :: events, failing := false } =>
      some (s.setTask workerId { events := event :: events, failing := true })
    | _ => none
  | .fail workerId message retryMs now =>
    match s.tasks workerId with
    | { events := event :: events, failing := true } =>
      (s.after ((workers workerId).markFailed workerId event message retryMs now) s.rows).map fun r =>
        r.2.setTask workerId { events }
    | _ => none
  | .abandon workerId => some (s.setTask workerId {})

end Komanda
