import Komanda.Lib.ReadCommitted
import Komanda.Idempotency

/-!
# Workers on the idempotency table

A `Board` is the table together with the handles that `claim` has given out, newest first. A worker
holds the number of its handle; the service only ever sees the record id behind it. `exec` is one
call of the service as a transaction, so the claim's `SELECT` may be older than its `UPDATE`.
-/

namespace Komanda.Idempotency
open Transaction ReadCommitted

/-- What a claim gives its worker. The service itself knows the `recordId` only. -/
structure Handle where
  number : Nat
  recordId : Id
  settled : Bool
deriving DecidableEq, Repr

structure Board (η β : Type) where
  records : List (Record η β)
  handles : List Handle
deriving DecidableEq, Repr

inductive Call (ρ β : Type)
  | claim (input : ClaimInput ρ) (newId : Id) (now : Instant)
  | complete (number : Nat) (status : Nat) (body : β)
  | fail (number : Nat)
deriving DecidableEq, Repr

namespace Board
variable {η β : Type}

def empty : Board η β := ⟨[], []⟩

/-- The handle with this number. -/
def handle (b : Board η β) (number : Nat) : Option Handle := Table.lookup Handle.number number b.handles

/-- The newest handle on a record. -/
def owner (b : Board η β) (recordId : Id) : Option Handle :=
  Table.lookup Handle.recordId recordId b.handles

def settle (number : Nat) (handles : List Handle) : List Handle :=
  Table.updateWhere (·.number = number) (fun h => { h with settled := true }) handles

/-- The board after a claim has been answered. -/
def answered (b : Board η β) (records : List (Record η β)) : Answer η β → Board η β
  | .replay _ _ => { b with records }
  | .claimed id _ => { records, handles := ⟨b.handles.length, id, false⟩ :: b.handles }

end Board

section Exec
variable {ρ η β : Type} [DecidableEq η] (hashIdempotencyRequest : ρ → η)

def exec : Call ρ β → Board η β → Board η β → Option (Option (Answer η β) × Board η β)
  | .claim input newId now, v, b =>
    match claim hashIdempotencyRequest input newId now v.records b.records with
    | .ok (answer, records) => some (some answer, b.answered records answer)
    | .error _ => none
  | .complete number status body, v, b => (b.handle number).bind fun h =>
    match complete h.recordId status body v.records b.records with
    | .ok (_, records) => some (none, { records, handles := Board.settle number b.handles })
    | .error _ => none
  | .fail number, v, b => (b.handle number).bind fun h =>
    match fail h.recordId v.records b.records with
    | .ok (_, records) => some (none, { records, handles := Board.settle number b.handles })
    | .error _ => none

abbrev Workers (ρ η β : Type) := Session (Board η β) (Call ρ β)

def Workers.start : Workers ρ η β := ⟨Board.empty, []⟩

/-- The discipline the service leaves to its callers. A settling call is made by the newest handle on
its record, and only once; a claim that is about to take a record over does not meet one that was
completed after the claim's `SELECT`. -/
def Disciplined : Call ρ β → Board η β → Board η β → Prop
  | .claim input _ now, v, b =>
    ∀ r ∈ v.records, recordIdentity input.tenantId input.scope (Text.trim input.key) r = true →
      r.state ≠ .completed → r.lockedUntil ≤ now →
      ∀ q ∈ b.records, reclaimable r.id now q = true → q.state ≠ .completed
  | .complete number _ _, _, b | .fail number, _, b =>
    ∀ h ∈ b.handle number, b.owner h.recordId = some h ∧ h.settled = false

instance : ∀ (c : Call ρ β) (v b : Board η β), Decidable (Disciplined c v b)
  | .claim input _ now, v, b => inferInstanceAs (Decidable (∀ r ∈ v.records,
      recordIdentity input.tenantId input.scope (Text.trim input.key) r = true →
      r.state ≠ .completed → r.lockedUntil ≤ now →
      ∀ q ∈ b.records, reclaimable r.id now q = true → q.state ≠ .completed))
  | .complete number _ _, _, b | .fail number, _, b => inferInstanceAs (Decidable
      (∀ h ∈ b.handle number, b.owner h.recordId = some h ∧ h.settled = false))

end Exec

end Komanda.Idempotency
