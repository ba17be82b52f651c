import Komanda.RateLimiter
import Komanda.Text

/-!
# The limiter of the public search (`search-rate-limiter.ts`, `api/v1/search/route.ts`)

It keeps the times of the requests of each client, and drops those that have left the window. The route checks and
records without waiting in between, so requests come one after another.
-/

namespace Komanda

structure SearchRateLimiter where
  maxRequests : Nat
  windowMs : Nat
  clients : List (String × List Instant) := []
deriving DecidableEq, Repr

namespace SearchRateLimiter

/-- `globalSearchRateLimiter` -/
def globalSearch : SearchRateLimiter := { maxRequests := 30, windowMs := 60000 }

/-- `now - ts < this.windowMs` -/
def valid (windowMs : Nat) (now ts : Instant) : Bool := (now : Int) - ts < windowMs

/-- Whole seconds until `oldestTimestamp` leaves the window, at least one. -/
def retryAfterSeconds (windowMs : Nat) (oldestTimestamp now : Instant) : Nat :=
  let remainingMs := (windowMs : Int) - ((now : Int) - oldestTimestamp)
  Nat.max 1 ((remainingMs + 999) / 1000).toNat

def checkRateLimit (l : SearchRateLimiter) (key : String) (now : Instant) : RateLimit × SearchRateLimiter :=
  match l.clients.lookup key with
  | none => ({ allowed := true, retryAfterSeconds := 0 }, l)
  | some timestamps =>
    let validTimestamps := timestamps.filter (valid l.windowMs now)
    let l := { l with clients := InsertionMap.set key validTimestamps l.clients }
    if validTimestamps.length ≥ l.maxRequests then
      ({ allowed := false, retryAfterSeconds := retryAfterSeconds l.windowMs (validTimestamps.headD 0) now }, l)
    else ({ allowed := true, retryAfterSeconds := 0 }, l)

def recordRequest (l : SearchRateLimiter) (key : String) (now : Instant) : SearchRateLimiter :=
  match l.clients.lookup key with
  | none => { l with clients := InsertionMap.set key [now] l.clients }
  | some timestamps =>
    { l with clients := InsertionMap.set key (timestamps.filter (valid l.windowMs now) ++ [now]) l.clients }

end SearchRateLimiter

/-- `GET`, as far as the limiter is concerned: its headers and the two readings of the clock. -/
structure SearchRequest where
  forwardedFor : Option String := none
  realIp : Option String := none
  checkedAt : Instant
  recordedAt : Instant
deriving DecidableEq, Repr

def SearchRequest.clientIp (r : SearchRequest) : String :=
  let first := r.forwardedFor.map fun list => Text.trim (String.ofList (list.toList.takeWhile (· ≠ ',')))
  let ips := [first, r.realIp].filterMap id
  (ips.find? (· ≠ "")).getD "127.0.0.1"

namespace SearchRateLimiter

def serve (l : SearchRateLimiter) (r : SearchRequest) : RateLimit × SearchRateLimiter :=
  let (rateLimit, l) := l.checkRateLimit r.clientIp r.checkedAt
  if rateLimit.allowed then (rateLimit, l.recordRequest r.clientIp r.recordedAt) else (rateLimit, l)

def run (l : SearchRateLimiter) (requests : List SearchRequest) : SearchRateLimiter :=
  requests.foldl (fun l r => (l.serve r).2) l

/-- When the requests of a client were recorded. -/
def recorded (l : SearchRateLimiter) (key : String) : List SearchRequest → List Instant
  | [] => []
  | r :: rs =>
    let rest := recorded (l.serve r).2 key rs
    if (l.serve r).1.allowed ∧ r.clientIp = key then r.recordedAt :: rest else rest

end SearchRateLimiter
end Komanda
