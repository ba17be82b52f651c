import Komanda.Lib.ReadCommitted
import Komanda.Printing

/-!
# Agents on the print queue

A `PrintFloor` is the queue together with the attempts that `claim` has handed out, newest first. `exec`
is one call of the service as a transaction: order services enqueue tickets, any number of agents claim
and report. The reads of a claim and of a report may be older than their `UPDATE`, and the clock of a call
is any instant.
-/

namespace Komanda.Printing
open Transaction ReadCommitted

/-- An attempt that an agent was given. -/
structure Handout where
  jobId : Id
  attemptNumber : Nat
  agentId : Id
deriving DecidableEq, Repr

structure PrintFloor where
  queue : PrintQueue
  handouts : List Handout
deriving DecidableEq, Repr

inductive Call
  | enqueue (order : Order) (printingEnabled : Bool) (newId : Id) (now : Instant)
  | claimNext (agent : PrintAgent) (leaseSeconds : Nat) (locked : List Id) (now : Instant)
  | reportResult (agent : PrintAgent) (jobId : Id) (idempotencyKey : String)
      (request : PrintJobResultRequest) (recordId : Id) (now : Instant)
deriving DecidableEq, Repr

inductive Answer
  | enqueued (job : Option PrintJob)
  | claimed (claim : Option PrintJobClaim)
  | reported (response : Option PrintJobResultResponse)
deriving DecidableEq, Repr

def PrintJobClaim.handout (agent : PrintAgent) (claim : PrintJobClaim) : Handout :=
  ⟨claim.jobId, claim.attemptNumber, agent.agentId⟩

/-- The body of a call. -/
def Call.run : Call → Tx PrintQueue PrintingError Answer
  | .enqueue order printingEnabled newId now => do
    let job ← zoom PrintQueue.jobs (fun t q => { q with jobs := t }) id
      (PrintJobService.enqueueOrderTicket order printingEnabled newId now)
    return .enqueued job
  | .claimNext agent leaseSeconds locked now => do
    let claim ← PrintJobRepository.claimNext agent leaseSeconds locked now
    return .claimed claim
  | .reportResult agent jobId idempotencyKey request recordId now => do
    let response ← PrintJobService.reportResult agent jobId idempotencyKey request recordId now
    return .reported response

/-- What a call hands out. -/
def Call.handsOut : Call → Answer → List Handout
  | .claimNext agent _ _ _, .claimed (some claim) => [PrintJobClaim.handout agent claim]
  | _, _ => []

def exec (c : Call) (v s : PrintFloor) : Option (Answer × PrintFloor) :=
  match c.run v.queue s.queue with
  | .ok (answer, queue) => some (answer, ⟨queue, c.handsOut answer ++ s.handouts⟩)
  | .error _ => none

abbrev Floor := Session PrintFloor Call

/-- One step on the floor: a call starts, reads again, commits or gives up. -/
def floorStep (s : Floor) (e : Event Call Unit) : Option Floor := step exec (fun _ _ db => db) s e

def Floor.start (tenantId : Id) : Floor := ⟨⟨{ tenantId }, []⟩, []⟩

/-- The agent was given the attempt that the job is on, and the job waits for its report. -/
def Holds (s : PrintFloor) (agentId jobId : Id) : Prop :=
  ∃ j ∈ s.queue.jobs, j.id = jobId ∧ j.status = .processing ∧ ⟨jobId, j.attemptCount, agentId⟩ ∈ s.handouts

end Komanda.Printing
