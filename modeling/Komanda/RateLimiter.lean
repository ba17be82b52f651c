import Mathlib.Data.String.Basic
import Komanda.Idempotency
import Komanda.Lib.InsertionMap

/-!
# In-memory rate limiters (`PublicOrderRateLimiter`, `PinAttemptRateLimiter`, `DiscountRateLimiter`)

The three count the calls of a key since the start of its window, and start another window with the first call after
its end. They differ in their limits, and in what `checkRateLimit` does with a record that has run out: the limiter of
public orders leaves it, the other two delete it. Times do not decrease from a check to the recording that follows.
-/

namespace Komanda

/-- `{ count, windowStart }`, or `{ failures, windowStart }`. -/
structure WindowRecord where
  count : Nat
  windowStart : Instant
deriving DecidableEq, Repr

structure RateLimit where
  allowed : Bool
  retryAfterSeconds : Nat
deriving DecidableEq, Repr

/-- A limiter of one process; `max` is `maxRequests` or `maxFailures`. -/
structure RateLimiter where
  max : Nat
  windowMs : Nat
  records : List (String × WindowRecord) := []
deriving DecidableEq, Repr

namespace RateLimiter

def expired (l : RateLimiter) (record : WindowRecord) (now : Instant) : Bool := l.windowMs < now - record.windowStart

/-- Whole seconds until the window of `record` ends, at least one. -/
def retryAfterSeconds (l : RateLimiter) (record : WindowRecord) (now : Instant) : Nat :=
  let remainingMs := (l.windowMs : Int) - ((now : Int) - record.windowStart)
  Nat.max 1 ((remainingMs + 999) / 1000).toNat

/-- What `checkRateLimit` returns. -/
def answer (l : RateLimiter) (record : Option WindowRecord) (now : Instant) : RateLimit :=
  match record with
  | none => { allowed := true, retryAfterSeconds := 0 }
  | some record =>
    if l.expired record now then { allowed := true, retryAfterSeconds := 0 }
    else if record.count ≥ l.max then { allowed := false, retryAfterSeconds := l.retryAfterSeconds record now }
    else { allowed := true, retryAfterSeconds := 0 }

/-- The record of a key after a call at `now`. -/
def counted (l : RateLimiter) (record : Option WindowRecord) (now : Instant) : WindowRecord :=
  match record with
  | none => { count := 1, windowStart := now }
  | some record =>
    if l.expired record now then { count := 1, windowStart := now } else { record with count := record.count + 1 }

def setRecord (l : RateLimiter) (key : String) (now : Instant) : RateLimiter :=
  { l with records := InsertionMap.set key (l.counted (l.records.lookup key) now) l.records }

def deleteRecord (l : RateLimiter) (key : String) : RateLimiter :=
  { l with records := InsertionMap.erase key l.records }

def deleteExpired (l : RateLimiter) (key : String) (now : Instant) : RateLimiter :=
  match l.records.lookup key with
  | none => l
  | some record => if l.expired record now then l.deleteRecord key else l

end RateLimiter

/-! ## The classes -/

namespace PublicOrderRateLimiter

/-- `globalCashOrderRateLimiter` -/
def globalCashOrder : RateLimiter := { max := 20, windowMs := 60 * 60000 }

def checkRateLimit (l : RateLimiter) (key : String) (now : Instant) : RateLimit × RateLimiter :=
  (l.answer (l.records.lookup key) now, l)

def record (l : RateLimiter) (key : String) (now : Instant) : RateLimiter := l.setRecord key now

end PublicOrderRateLimiter

namespace PinAttemptRateLimiter

def globalPinAttempt : RateLimiter := { max := 8, windowMs := 10 * 60000 }

def checkRateLimit (l : RateLimiter) (key : String) (now : Instant) : RateLimit × RateLimiter :=
  (l.answer (l.records.lookup key) now, l.deleteExpired key now)

def recordFailure (l : RateLimiter) (key : String) (now : Instant) : RateLimiter := l.setRecord key now

def recordSuccess (l : RateLimiter) (key : String) : RateLimiter := l.deleteRecord key

end PinAttemptRateLimiter

namespace DiscountRateLimiter

def globalDiscount : RateLimiter := { max := 5, windowMs := 60000 }

def checkRateLimit (l : RateLimiter) (key : String) (now : Instant) : RateLimit × RateLimiter :=
  (l.answer (l.records.lookup key) now, l.deleteExpired key now)

def recordFailure (l : RateLimiter) (key : String) (now : Instant) : RateLimiter := l.setRecord key now

def recordSuccess (l : RateLimiter) (key : String) : RateLimiter := l.deleteRecord key

end DiscountRateLimiter

inductive LimiterKind
  | publicOrder
  | pinAttempt
  | discount
deriving DecidableEq, Repr

namespace LimiterKind

def checkRateLimit : LimiterKind → RateLimiter → String → Instant → RateLimit × RateLimiter
  | .publicOrder => PublicOrderRateLimiter.checkRateLimit
  | .pinAttempt => PinAttemptRateLimiter.checkRateLimit
  | .discount => DiscountRateLimiter.checkRateLimit

/-- `record`, or `recordFailure`. -/
def record : LimiterKind → RateLimiter → String → Instant → RateLimiter
  | .publicOrder => PublicOrderRateLimiter.record
  | .pinAttempt => PinAttemptRateLimiter.recordFailure
  | .discount => DiscountRateLimiter.recordFailure

end LimiterKind

/-! ## Sequences of calls -/

structure LimitedCall where
  key : String
  now : Instant
deriving DecidableEq, Repr

/-- Calls at times that do not decrease. -/
structure CallSequence where
  calls : List LimitedCall
  sorted : calls.Pairwise (·.now ≤ ·.now)

namespace LimiterKind

/-- The limiter after a call that is recorded if it is allowed. -/
def serve (kind : LimiterKind) (l : RateLimiter) (c : LimitedCall) : RateLimiter :=
  let checked := kind.checkRateLimit l c.key c.now
  if checked.1.allowed then kind.record checked.2 c.key c.now else checked.2

/-- The calls with their answers. -/
def answers (kind : LimiterKind) (l : RateLimiter) : List LimitedCall → List (LimitedCall × RateLimit)
  | [] => []
  | c :: cs => (c, (kind.checkRateLimit l c.key c.now).1) :: kind.answers (kind.serve l c) cs

/-- The times of the recorded calls of a key. -/
def recordedTimes (kind : LimiterKind) (l : RateLimiter) (key : String) (calls : List LimitedCall) : List Instant :=
  ((kind.answers l calls).filter fun a => a.1.key = key ∧ a.2.allowed).map (·.1.now)

end LimiterKind

/-- A window of `windowMs` has at most `max` recorded calls of a key, and the calls of a key are answered as if there
were no others. -/
structure RateLimited (kind : LimiterKind) (l : RateLimiter) (s : CallSequence) : Prop where
  window : ∀ key start, ((kind.recordedTimes l key s.calls).filter fun t =>
    start ≤ t ∧ t ≤ start + l.windowMs).length ≤ l.max
  independent : ∀ key, (kind.answers l s.calls).filter (·.1.key = key) = kind.answers l (s.calls.filter (·.key = key))

end Komanda
