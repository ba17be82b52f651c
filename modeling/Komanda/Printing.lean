import Mathlib.Data.List.Sort
import Komanda.Schema

/-!
# The print queue (`features/printing`)

`print-job.repository.ts` and `print-job.service.ts`. A `PrintQueue` is the jobs of a tenant, the log of
their attempts and the idempotency records of the scope `print-result`. Every call comes from an agent's
token, so its context is an agent's.
-/

namespace Komanda
open Transaction

inductive PrintResultStatus
  | printed
  | failed
deriving DecidableEq, Repr

/-- `printJobResultSchema` -/
structure PrintJobResultRequest where
  status : PrintResultStatus
  attemptNumber : Nat
  errorCode : Option String := none
  errorMessage : Option String := none
deriving DecidableEq, Repr

structure PrintJobResultResponse where
  jobId : Id
  status : PrintJobStatus
  attemptNumber : Nat
  printedAt : Option Instant
  nextAttemptAt : Option Instant
deriving DecidableEq, Repr

structure PrintQueue where
  tenantId : Id
  jobs : List PrintJob := []
  attempts : List PrintJobAttempt := []
  idempotency : List (Idempotency.Record PrintJobResultRequest PrintJobResultResponse) := []
deriving DecidableEq, Repr

inductive PrintingError
  | idempotency (e : Idempotency.IdempotencyError)
  /-- `PrintJobNotFoundError` -/
  | notFound (message : String)
  | internal (message : String)
deriving DecidableEq, Repr

/-- The context of a print agent. -/
structure PrintAgent where
  agentId : Id
  locationId : Id
deriving DecidableEq, Repr

structure PrintJobClaim where
  jobId : Id
  orderId : Id
  attemptNumber : Nat
  leaseExpiresAt : Instant
deriving DecidableEq, Repr

/-- The last instant of a `Date`, some 273 thousand years from now; what lies beyond is an invalid date. -/
def dateMax : Instant := 8640000000000000

/-- The doubles are exact up to `dateMax`. -/
def retryDate (attemptNumber : Nat) (now : Instant) : Instant :=
  now + 15 * 2 ^ (attemptNumber - 1) * 1000

namespace PrintJobRepository
variable {ε : Type}

/-- The row `create` inserts. -/
def newJob (locationId orderId : Id) (idempotencyKey : String) (newId : Id) (now : Instant) : PrintJob where
  id := newId
  locationId
  orderId
  status := .pending
  idempotencyKey
  attemptCount := 0
  claimedByAgentId := none
  leaseExpiresAt := none
  nextAttemptAt := some now
  printedAt := none
  lastErrorCode := none
  lastErrorMessage := none
  createdAt := now
  updatedAt := now

/-- `create`: `INSERT … ON CONFLICT DO NOTHING`, then the row that holds the key. -/
def create (locationId orderId : Id) (idempotencyKey : String) (newId : Id) (now : Instant) :
    Tx (List PrintJob) ε (Option PrintJob) := do
  let taken ← current fun jobs => jobs.any fun j => j.id = newId || j.idempotencyKey = idempotencyKey
  if taken then current (Table.lookup PrintJob.idempotencyKey idempotencyKey)
  else do
    let job := newJob locationId orderId idempotencyKey newId now
    write (· ++ [job])
    return some job

/-- The jobs that an agent of the location may claim: due ones, and those whose lease has run out. -/
def claimable (locationId : Id) (now : Instant) (j : PrintJob) : Bool :=
  j.locationId = locationId &&
    (((j.status = .pending || j.status = .failed) && j.nextAttemptAt.all (· ≤ now)) ||
      (j.status = .processing && j.leaseExpiresAt.any (· ≤ now)))

/-- `order by next_attempt_at nulls first, created_at` -/
def precedes (a b : PrintJob) : Prop :=
  match a.nextAttemptAt, b.nextAttemptAt with
  | none, none => a.createdAt ≤ b.createdAt
  | none, some _ => True
  | some _, none => False
  | some x, some y => x < y ∨ (x = y ∧ a.createdAt ≤ b.createdAt)

instance : DecidableRel precedes := fun a b => by
  unfold precedes
  split <;> infer_instance

/-- `INSERT … ON CONFLICT DO NOTHING` into `print_job_attempts`. -/
def recordAttempt (attempt : PrintJobAttempt) : Tx PrintQueue ε Unit :=
  write fun q =>
    if q.attempts.any fun a => a.printJobId = attempt.printJobId &&
        a.attemptNumber = attempt.attemptNumber && a.status = attempt.status
    then q
    else { q with attempts := q.attempts ++ [attempt] }

/-- `UPDATE print_jobs SET f WHERE p RETURNING *`, for a condition that fixes the id. -/
def updateReturning (p : PrintJob → Bool) (f : PrintJob → PrintJob) : Tx PrintQueue ε (Option PrintJob) := do
  let row ← current fun q => q.jobs.find? p
  write fun q => { q with jobs := Table.updateWhere p f q.jobs }
  return row.map f

def claimed (agentId : Id) (leaseSeconds : Nat) (now : Instant) (j : PrintJob) : PrintJob :=
  { j with
    status := .processing
    attemptCount := j.attemptCount + 1
    claimedByAgentId := some agentId
    leaseExpiresAt := some (now + leaseSeconds * 1000)
    nextAttemptAt := none
    updatedAt := now }

/-- `claimNext`. The candidates are read and ordered in the statement's snapshot; `for update skip
locked` leaves out the rows in `locked`, which others hold, and looks again at the row it locks. -/
def claimNext (agent : PrintAgent) (leaseSeconds : Nat) (locked : List Id) (now : Instant) :
    Tx PrintQueue PrintingError (Option PrintJobClaim) := do
  let candidates ← look fun q => (q.jobs.filter (claimable agent.locationId now)).insertionSort precedes
  let candidate ← current fun q => candidates.find? fun c => !locked.contains c.id &&
    q.jobs.any fun j => j.id = c.id && claimable agent.locationId now j
  match candidate with
  | none => return none
  | some candidate => do
    let updated ← updateReturning (·.id = candidate.id) (claimed agent.agentId leaseSeconds now)
    let job ← orThrow updated (.internal "The candidate is locked.")
    recordAttempt
      { printJobId := job.id, agentId := agent.agentId, attemptNumber := job.attemptCount,
        status := .claimed, errorCode := none, errorMessage := none, finishedAt := none }
    let leaseExpiresAt ← orThrow job.leaseExpiresAt (.internal "Claimed print job is missing a lease.")
    return some
      { jobId := job.id, orderId := job.orderId, attemptNumber := job.attemptCount, leaseExpiresAt }

/-- The row a report leaves. -/
def reported (request : PrintJobResultRequest) (now : Instant) (j : PrintJob) : PrintJob :=
  match request.status with
  | .printed =>
    { j with
      status := .printed, claimedByAgentId := none, leaseExpiresAt := none, nextAttemptAt := none,
      printedAt := some now, lastErrorCode := none, lastErrorMessage := none, updatedAt := now }
  | .failed =>
    { j with
      status := .failed, claimedByAgentId := none, leaseExpiresAt := none,
      nextAttemptAt := some (retryDate request.attemptNumber now)
      lastErrorCode := some (request.errorCode.getD "worker_failed")
      lastErrorMessage := some (request.errorMessage.getD "Print worker reported failure.")
      updatedAt := now }

/-- The agent holds this attempt of the job. -/
def heldBy (agent : PrintAgent) (jobId : Id) (attemptNumber : Nat) (j : PrintJob) : Bool :=
  j.locationId = agent.locationId && j.id = jobId && j.claimedByAgentId = some agent.agentId &&
    j.attemptCount = attemptNumber

/-- `reportResult`. The first read is unlocked; the update meets the current row. An invalid date has no text to be
written as. -/
def reportResult (agent : PrintAgent) (jobId : Id) (request : PrintJobResultRequest) (now : Instant) :
    Tx PrintQueue PrintingError (Option PrintJob) := do
  let found ← look fun q => q.jobs.find? fun j => j.locationId = agent.locationId && j.id = jobId
  match found with
  | none => return none
  | some existing =>
    if existing.status = .printed ∧ request.status = .printed ∧
        existing.attemptCount = request.attemptNumber then return some existing
    else if existing.claimedByAgentId ≠ some agent.agentId ∨
        existing.attemptCount ≠ request.attemptNumber then return none
    else do
      throwIf (request.status = .failed ∧ dateMax < retryDate request.attemptNumber now)
        (.internal "Invalid time value")
      let updated ← updateReturning (heldBy agent jobId request.attemptNumber) (reported request now)
      runIf updated.isSome (recordAttempt
        { printJobId := jobId, agentId := agent.agentId, attemptNumber := request.attemptNumber,
          status := match request.status with | .printed => .printed | .failed => .failed
          errorCode := request.errorCode, errorMessage := request.errorMessage, finishedAt := some now })
      return updated

end PrintJobRepository

namespace PrintJobService
variable {ε : Type}

/-- `enqueueOrderTicketInTransaction`: never for unpaid cash. -/
def enqueueOrderTicket (order : Order) (printingEnabled : Bool) (newId : Id) (now : Instant) :
    Tx (List PrintJob) ε (Option PrintJob) := do
  if order.tender = .cash ∧ order.paymentStatus ≠ .paid then return none
  else if ¬ printingEnabled then return none
  else PrintJobRepository.create order.locationId order.id ("order:" ++ order.id ++ ":kitchen-ticket") newId now

/-- `claim`, with the default lease. -/
def claim (agent : PrintAgent) (locked : List Id) (now : Instant) :
    Tx PrintQueue PrintingError (Option PrintJobClaim) :=
  PrintJobRepository.claimNext agent 60 locked now

def onIdempotency {α : Type}
    (x : Tx (List (Idempotency.Record PrintJobResultRequest PrintJobResultResponse))
      Idempotency.IdempotencyError α) : Tx PrintQueue PrintingError α :=
  zoom PrintQueue.idempotency (fun t q => { q with idempotency := t }) .idempotency x

/-- `reportResult` -/
def reportResult (agent : PrintAgent) (jobId : Id) (idempotencyKey : String)
    (request : PrintJobResultRequest) (recordId : Id) (now : Instant) :
    Tx PrintQueue PrintingError (Option PrintJobResultResponse) := do
  let tenantId ← current PrintQueue.tenantId
  let claim ← onIdempotency (Idempotency.claim id
    { tenantId := some tenantId
      scope := "print-result:" ++ jobId ++ ":" ++ toString request.attemptNumber
      key := idempotencyKey, request, retentionSeconds := some (7 * 24 * 60 * 60) } recordId now)
  match claim with
  | .replay _ body => return body
  | .claimed recordId _ => do
    let found ← PrintJobRepository.reportResult agent jobId request now
    let job ← orThrow found (.notFound "Print job not found.")
    let response : PrintJobResultResponse :=
      { jobId := job.id, status := job.status, attemptNumber := job.attemptCount,
        printedAt := job.printedAt, nextAttemptAt := job.nextAttemptAt }
    onIdempotency (Idempotency.complete recordId 200 response)
    return some response

end PrintJobService

end Komanda
