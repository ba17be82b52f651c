import Komanda.Lib.BatchedDelete
import Komanda.PrintRuns
import Komanda.System

/-!
# Retention (`scripts/database-maintenance-retention.ts`)

The script deletes old rows in batches, children before their parents; a run of it is one step here. `Estate` is what it
finds: the tables of the services, and those of the print queue besides. The rows of a batch come in no order. The
model takes the first; what is left of a table whose last batch was not full does not depend on the choice.
-/

namespace Komanda
open Transaction

structure Estate where
  db : Db
  printJobAttempts : List PrintJobAttempt
  /-- The idempotency records of the scope `print-result`. -/
  printResults : List (Idempotency.Record PrintJobResultRequest PrintJobResultResponse)

namespace Estate

/-- A store on its first day. -/
def fresh (tenantId : Id) (settings : Settings) : Estate where
  db := .fresh tenantId settings
  printJobAttempts := []
  printResults := []

/-- What the calls of the agents read and write. -/
def queue (s : Estate) : PrintQueue where
  tenantId := s.db.tenantId
  jobs := s.db.printJobs
  attempts := s.printJobAttempts
  idempotency := s.printResults

def storeQueue (s : Estate) (q : PrintQueue) : Estate where
  db := { s.db with printJobs := q.jobs }
  printJobAttempts := q.attempts
  printResults := q.idempotency

end Estate

structure MaintenanceRetentionOptions where
  printJobsRetentionDays : Nat := 30
  abandonedCartsRetentionDays : Nat := 14
  batchSize : Nat := 2000
  maxBatchesPerTable : Nat := 25
deriving DecidableEq, Repr

structure MaintenanceResult where
  idempotencyRecordsPruned : Nat
  printJobAttemptsPruned : Nat
  printJobsPruned : Nat
  abandonedCartLinesPruned : Nat
  abandonedCartsPruned : Nat
  truncatedTables : List String
deriving DecidableEq, Repr

/-- `t < now() - (days || ' days')::interval` -/
def olderThan (days : Nat) (now t : Instant) : Bool := t + days * 24 * 60 * 60 * 1000 < now

namespace Retention
variable (days : Nat) (now : Instant)

/-! ## Predicates -/

/-- A job that the script takes for terminal, not touched since. -/
def terminalJob (j : PrintJob) : Bool :=
  (j.status = .printed || j.status = .failed || j.status = .cancelled) && olderThan days now j.updatedAt

/-- `cartEligibility` -/
def cartEligibility (db : Db) (c : Cart) : Bool :=
  (c.status = .open || c.status = .expired) && olderThan days now c.expiresAt &&
    !db.orders.any (·.cartId = c.id) && !db.attempts.any (·.cartId = c.id)

/-! ## Deletes -/

def expiredRecords {η β : Type} : Delete (List (Idempotency.Record η β)) := .whole fun r => r.expiresAt < now

/-- `idempotency_records`; the records of the services and those of the agents stand apart here. -/
def idempotencyRecords : Delete Estate :=
  .on (fun s => (s.db.idempotency, s.printResults))
    (fun t s => { s with db := { s.db with idempotency := t.1 }, printResults := t.2 })
    (fun _ => .pair (expiredRecords now) (expiredRecords now)) (fun _ _ => rfl) (fun _ _ _ => rfl) fun _ _ => rfl

def printJobAttempts : Delete Estate :=
  .on Estate.printJobAttempts (fun printJobAttempts s => { s with printJobAttempts })
    (fun s => .whole fun a => s.db.printJobs.any fun j => j.id = a.printJobId && terminalJob days now j)
    (fun _ _ => rfl) (fun _ _ _ => rfl) fun _ _ => rfl

def printJobs : Delete Estate :=
  .on (fun s => s.db.printJobs) (fun printJobs s => { s with db := { s.db with printJobs } })
    (fun s => .whole fun j => terminalJob days now j && !s.printJobAttempts.any (·.printJobId = j.id))
    (fun _ _ => rfl) (fun _ _ _ => rfl) fun _ _ => rfl

def onLines (d : Delete (List CartLine)) : Delete Cart :=
  .on Cart.lines (fun lines c => { c with lines }) (fun _ => d) (fun _ _ => rfl) (fun _ _ _ => rfl) fun _ _ => rfl

def onCarts (d : Estate → Delete (List Cart)) (hd : ∀ carts s, d { s with db := { s.db with carts } } = d s) :
    Delete Estate :=
  .on (fun s => s.db.carts) (fun carts s => { s with db := { s.db with carts } }) d (fun _ _ => rfl) (fun _ _ _ => rfl) hd

/-- The options of a line, all of them. -/
def lineOptions : Delete CartLine :=
  .on CartLine.options (fun options l => { l with options }) (fun _ => .whole fun _ => true) (fun _ _ => rfl)
    (fun _ _ _ => rfl) fun _ _ => rfl

def cartLineOptions : Delete Estate :=
  onCarts (fun s => .inside (cartEligibility days now s.db)
    (onLines (.inside (fun _ => true) lineOptions fun _ _ => rfl)) fun _ _ => rfl) fun _ _ => rfl

/-- The lines without options of the eligible carts. -/
def cartLines : Delete Estate :=
  onCarts (fun s => .inside (cartEligibility days now s.db) (onLines (.whole fun l => l.options.isEmpty)) fun _ _ => rfl)
    fun _ _ => rfl

def carts : Delete Estate :=
  onCarts (fun s => .whole fun c => cartEligibility days now s.db c && c.lines.isEmpty) fun _ _ => rfl

/-! ## The script -/

structure Deleted (σ : Type) where
  store : σ
  deleted : Nat
  truncated : Bool

/-- It stops early when a batch is not full. -/
def runBatchedDelete {σ : Type} (d : Delete σ) (batchSize maxBatches : Nat) (store : σ) : Deleted σ :=
  let result := d.batches batchSize maxBatches store 0
  { store := result.1, deleted := result.2.1, truncated := result.2.2 }

/-- The store and the tables that have hit the ceiling. -/
structure Progress where
  store : Estate
  truncatedTables : List String

def prune (cfg : MaintenanceRetentionOptions) (label : String) (d : Delete Estate) (p : Progress) : Progress × Nat :=
  let result := runBatchedDelete d cfg.batchSize cfg.maxBatchesPerTable p.store
  ({ store := result.store
     truncatedTables := if result.truncated then p.truncatedTables ++ [label] else p.truncatedTables },
    result.deleted)

def runDatabaseMaintenanceRetention (cfg : MaintenanceRetentionOptions) (now : Instant) (s : Estate) :
    Estate × MaintenanceResult :=
  let jobDays := cfg.printJobsRetentionDays
  let cartDays := cfg.abandonedCartsRetentionDays
  let records := prune cfg "idempotency_records" (idempotencyRecords now) ⟨s, []⟩
  -- children first, for the foreign keys
  let attempts := prune cfg "print_job_attempts" (printJobAttempts jobDays now) records.1
  let jobs := prune cfg "print_jobs" (printJobs jobDays now) attempts.1
  let options := prune cfg "cart_line_options" (cartLineOptions cartDays now) jobs.1
  let lines := prune cfg "cart_lines" (cartLines cartDays now) options.1
  let carts := prune cfg "carts" (carts cartDays now) lines.1
  (carts.1.store,
    { idempotencyRecordsPruned := records.2, printJobAttemptsPruned := attempts.2, printJobsPruned := jobs.2,
      abandonedCartLinesPruned := lines.2, abandonedCartsPruned := carts.2, truncatedTables := carts.1.truncatedTables })

end Retention

/-! ## Runs -/

inductive EstateAction
  | request (q : Request)
  | print (c : Printing.Call)
  | retention (cfg : MaintenanceRetentionOptions) (now : Instant)

inductive EstateAnswer
  | request (a : Answer)
  | print (a : Printing.Answer)
  | retention (result : MaintenanceResult)

def EstateAction.exec (a : EstateAction) (view s : Estate) : Option (EstateAnswer × Estate) :=
  match a with
  | request q => (Komanda.exec q view.db s.db).map fun p => (.request p.1, { s with db := p.2 })
  | print c => (c.run view.queue s.queue).toOption.map fun p => (.print p.1, s.storeQueue p.2)
  | retention cfg now =>
    let p := Retention.runDatabaseMaintenanceRetention cfg now s
    some (.retention p.2, p.1)

inductive EstatePart
  | db (part : Part)
  | queue
deriving DecidableEq, Repr

def rereadEstate (part : EstatePart) (view s : Estate) : Estate :=
  match part with
  | .db part => { view with db := reread part view.db s.db }
  | .queue => view.storeQueue s.queue

/-- A step of overlapping calls and runs of the script. -/
def estateStep (s : ReadCommitted.Session Estate EstateAction) (e : ReadCommitted.Event EstateAction EstatePart) :
    Option (ReadCommitted.Session Estate EstateAction) :=
  ReadCommitted.step EstateAction.exec rereadEstate s e

end Komanda
