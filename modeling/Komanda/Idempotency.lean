import Komanda.Lib.Transaction
import Komanda.Lib.Table
import Komanda.Text

/-!
# Idempotency records (`lib/idempotency/idempotency.service.ts`)

`claim`, `complete` and `fail` over the table `idempotency_records`, for requests of any type `ρ`,
request hashes of any type `η` and response bodies of any type `β`; `hashIdempotencyRequest` is the
digest of a request. The record's `SELECT` in `claim` is an unlocked read, the insertion and the
reclaiming `UPDATE` meet the committed rows.
-/

namespace Komanda
open Transaction

/-- Milliseconds since the epoch. -/
abbrev Instant := Nat

/-- A uuid. -/
abbrev Id := String

namespace Idempotency

inductive RecordState
  | processing
  | completed
  | failed
deriving DecidableEq, Repr

/-- A row of `idempotency_records`. -/
structure Record (η β : Type) where
  id : Id
  tenantId : Option Id
  scope : String
  idempotencyKey : String
  requestHash : η
  state : RecordState
  responseStatus : Option Nat
  responseBody : Option β
  lockedUntil : Instant
  expiresAt : Instant
deriving DecidableEq, Repr

inductive IdempotencyError
  /-- `IdempotencyConflictError` -/
  | conflict (message : String)
  /-- `IdempotencyInProgressError` -/
  | inProgress (message : String)
  /-- `Error` -/
  | internal (message : String)
deriving DecidableEq, Repr

structure ClaimInput (ρ : Type) where
  tenantId : Option Id
  scope : String
  key : String
  request : ρ
  lockSeconds : Option Nat := none
  retentionSeconds : Option Nat := none
deriving DecidableEq, Repr

/-- What `claim` answers: `IdempotencyReplay` or `IdempotencyClaim`. -/
inductive Answer (η β : Type)
  | replay (status : Nat) (body : Option β)
  | claimed (recordId : Id) (requestHash : η)
deriving DecidableEq, Repr

section Service
variable {ρ η β : Type} [DecidableEq η] (hashIdempotencyRequest : ρ → η)

/-- `recordIdentity`: the columns of the unique constraint, nulls not distinct. -/
def recordIdentity (tenantId : Option Id) (scope idempotencyKey : String) (r : Record η β) : Bool :=
  r.tenantId = tenantId && r.scope = scope && r.idempotencyKey = idempotencyKey

/-- The row `claim` inserts. -/
def ClaimInput.record (input : ClaimInput ρ) (newId : Id) (now : Instant) : Record η β where
  id := newId
  tenantId := input.tenantId
  scope := input.scope
  idempotencyKey := Text.trim input.key
  requestHash := hashIdempotencyRequest input.request
  state := .processing
  responseStatus := none
  responseBody := none
  lockedUntil := now + input.lockSeconds.getD 30 * 1000
  expiresAt := now + input.retentionSeconds.getD 86400 * 1000

/-- `INSERT … ON CONFLICT DO NOTHING`: a row with the primary key or the identity of `r` wins. -/
def conflicts (r q : Record η β) : Bool :=
  q.id = r.id || recordIdentity r.tenantId r.scope r.idempotencyKey q

/-- The rows the reclaiming `UPDATE` matches. -/
def reclaimable (id : Id) (now : Instant) (r : Record η β) : Bool := r.id = id && r.lockedUntil < now

/-- The fate of a claim whose insertion met an existing row. -/
def reclaim (input : ClaimInput ρ) (now : Instant) :
    Tx (List (Record η β)) IdempotencyError (Answer η β) := do
  let found ← look fun rows =>
    rows.find? (recordIdentity input.tenantId input.scope (Text.trim input.key))
  let record ← orThrow found (.internal "Failed to persist idempotency claim.")
  throwIf (record.requestHash ≠ hashIdempotencyRequest input.request)
    (.conflict "Idempotency key was already used for a different request.")
  if record.state = .completed then
    return .replay (record.responseStatus.getD 200) record.responseBody
  else do
    throwIf (record.lockedUntil > now) (.inProgress "Request is already in progress.")
    let reclaimed ← current fun rows => rows.filter (reclaimable record.id now)
    write (Table.updateWhere (reclaimable record.id now) fun r =>
      { r with state := .processing, lockedUntil := now + input.lockSeconds.getD 30 * 1000 })
    throwIf (reclaimed.length = 0) (.inProgress "Request is already in progress.")
    return .claimed record.id record.requestHash

/-- `IdempotencyService.claim`, at time `now`; `newId` is the id a new row gets. -/
def claim (input : ClaimInput ρ) (newId : Id) (now : Instant) :
    Tx (List (Record η β)) IdempotencyError (Answer η β) := do
  let key := Text.trim input.key
  throwIf (key = "" ∨ Text.length key > 255) (.conflict "Invalid idempotency key.")
  let record : Record η β := input.record hashIdempotencyRequest newId now
  let existing ← current fun rows => rows.find? (conflicts record)
  match existing with
  | none => do
    write (· ++ [record])
    return .claimed newId record.requestHash
  | some _ => reclaim hashIdempotencyRequest input now

/-- `IdempotencyService.complete` -/
def complete (recordId : Id) (status : Nat) (body : β) :
    Tx (List (Record η β)) IdempotencyError Unit :=
  write (Table.updateWhere (·.id = recordId) fun r =>
    { r with state := .completed, responseStatus := some status, responseBody := some body })

/-- `IdempotencyService.fail` -/
def fail (recordId : Id) : Tx (List (Record η β)) IdempotencyError Unit :=
  write (Table.updateWhere (·.id = recordId) fun r => { r with state := .failed, lockedUntil := 0 })

end Service

end Idempotency

end Komanda
