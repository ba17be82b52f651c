import Komanda.Lib.SlidingWindow
import Komanda.SearchRateLimiter
import Mathlib.Algebra.Order.BigOperators.Group.List
import Mathlib.Algebra.Order.Ring.Nat

/-!
# The limiter of the search slides

The times that the limiter keeps for a client represent all that it has recorded (`Keeps`), and it lets a request
through exactly when the window that ends with it has room. So no window has more than `maxRequests`, and who waits for
`retryAfterSeconds` finds room, but not a whole second earlier.
-/

namespace Komanda.SearchRateLimiter
open SlidingWindow InsertionMap

/-! ## The law -/

/-- The readings of the clock. -/
def readings (requests : List SearchRequest) : List Instant := requests.flatMap fun r => [r.checkedAt, r.recordedAt]

/-- A later request of the client, before which no other one has been recorded. -/
structure Waits (l : SearchRateLimiter) (key : String) (requests later : List SearchRequest) (now : Instant) :
    Prop where
  sorted : (readings (requests ++ later)).Pairwise (· ≤ ·)
  now : ∀ t ∈ readings (requests ++ later), t ≤ now
  nothing : l.recorded key (requests ++ later) = l.recorded key requests

structure Slides (l : SearchRateLimiter) (requests : List SearchRequest) : Prop where
  /-- No window has more requests than allowed. -/
  window : ∀ key start, ((l.recorded key requests).filter fun t => start ≤ t ∧ t < start + l.windowMs).length ≤
    l.maxRequests
  /-- A request is let through if there is room for it, whatever others there have been. -/
  room : ∀ key now, (∀ t ∈ readings requests, t ≤ now) → (((l.run requests).checkRateLimit key now).1.allowed = true ↔
    ((l.recorded key requests).filter fun t => now < t + l.windowMs).length < l.maxRequests)
  /-- Who is refused is told when to come again, to the second. -/
  retry : ∀ key now, (∀ t ∈ readings requests, t ≤ now) →
    ((l.run requests).checkRateLimit key now).1.allowed = false → ∀ later now', now ≤ now' →
    Waits l key requests later now' →
    let seconds := ((l.run requests).checkRateLimit key now).1.retryAfterSeconds
    let allowed := ((l.run (requests ++ later)).checkRateLimit key now').1.allowed
    (now + 1000 * seconds ≤ now' → allowed = true) ∧ (now' + 1000 ≤ now + 1000 * seconds → allowed = false)

/-! ## One request -/

section Steps
variable {l : SearchRateLimiter} {key k : String} {now : Instant}

theorem valid_iff {windowMs now ts : ℕ} : valid windowMs now ts = true ↔ now < ts + windowMs := by
  simp only [valid, decide_eq_true_eq]
  omega

theorem aging (windowMs : Nat) : Aging (valid windowMs) := by
  constructor
  · intro now now' x hnow hx
    rw [valid_iff] at hx ⊢
    exact Nat.lt_of_le_of_lt hnow hx
  · intro now x y hxy hx
    rw [valid_iff] at hx ⊢
    exact Nat.lt_of_lt_of_le hx (Nat.add_le_add_right hxy windowMs)

theorem checkRateLimit_allowed (hmax : 0 < l.maxRequests) : (l.checkRateLimit key now).1.allowed =
    decide (((values key l.clients).filter (valid l.windowMs now)).length < l.maxRequests) := by
  unfold checkRateLimit values
  cases l.clients.lookup key with
  | none => exact (decide_eq_true hmax).symm
  | some timestamps =>
    dsimp only
    split
    · next hfull => simpa using hfull
    · next hroom => simpa using hroom

theorem checkRateLimit_retry (h : (l.checkRateLimit key now).1.allowed = false) :
    (l.checkRateLimit key now).1.retryAfterSeconds =
      retryAfterSeconds l.windowMs (((values key l.clients).filter (valid l.windowMs now)).headD 0) now := by
  unfold checkRateLimit values at *
  cases hlookup : l.clients.lookup key with
  | none =>
    rw [hlookup] at h
    cases h
  | some timestamps =>
    rw [hlookup] at h
    dsimp only at h ⊢
    split at h
    · next hfull =>
      rw [if_pos hfull]
      rfl
    · cases h

/-- Another client does not notice. -/
theorem values_checkRateLimit (l : SearchRateLimiter) (key k : String) (now : Instant) :
    values k (l.checkRateLimit key now).2.clients =
      if k = key then (values key l.clients).filter (valid l.windowMs now) else values k l.clients := by
  unfold checkRateLimit
  cases hlookup : l.clients.lookup key with
  | none =>
    dsimp only
    split
    · next hk =>
      subst hk
      rw [values, hlookup]
      rfl
    · rfl
  | some timestamps =>
    have hset : values k (set key (timestamps.filter (valid l.windowMs now)) l.clients) =
        if k = key then (values key l.clients).filter (valid l.windowMs now) else values k l.clients := by
      rw [values, lookup_set, values, hlookup, values]
      split <;> rfl
    dsimp only
    split
    · exact hset
    · exact hset

theorem values_recordRequest (l : SearchRateLimiter) (key k : String) (now : Instant) :
    values k (l.recordRequest key now).clients =
      if k = key then (values key l.clients).filter (valid l.windowMs now) ++ [now] else values k l.clients := by
  unfold recordRequest
  cases hlookup : l.clients.lookup key with
  | none =>
    dsimp only
    rw [values, lookup_set, values, hlookup, values]
    split <;> rfl
  | some timestamps =>
    dsimp only
    rw [values, lookup_set, values, hlookup, values]
    split <;> rfl

theorem limits_checkRateLimit (l : SearchRateLimiter) (key : String) (now : Instant) :
    (l.checkRateLimit key now).2.windowMs = l.windowMs ∧ (l.checkRateLimit key now).2.maxRequests = l.maxRequests := by
  unfold checkRateLimit
  split
  · exact ⟨rfl, rfl⟩
  · dsimp only
    split <;> exact ⟨rfl, rfl⟩

theorem limits_recordRequest (l : SearchRateLimiter) (key : String) (now : Instant) :
    (l.recordRequest key now).windowMs = l.windowMs ∧ (l.recordRequest key now).maxRequests = l.maxRequests := by
  unfold recordRequest
  split <;> exact ⟨rfl, rfl⟩

end Steps

/-! ## Runs -/

/-- What the limiter keeps represents what it has recorded for each client, and that was paced. -/
structure Keeps (l : SearchRateLimiter) (windowMs maxRequests : Nat) (now : Instant) (history : String → List Instant) :
    Prop where
  length : l.windowMs = windowMs
  limit : l.maxRequests = maxRequests
  represents : ∀ key, Represents (valid windowMs) now (values key l.clients) (history key)
  paced : ∀ key, Paced (valid windowMs) maxRequests (history key)
  past : ∀ key, ∀ t ∈ history key, t ≤ now

section Runs
variable {l : SearchRateLimiter} {windowMs maxRequests : Nat} {now now' : Instant} {history : String → List Instant}
  {r : SearchRequest} {rs : List SearchRequest}

theorem Keeps.later (h : Keeps l windowMs maxRequests now history) (hnow : now ≤ now') :
    Keeps l windowMs maxRequests now' history :=
  ⟨h.length, h.limit, fun key => (h.represents key).mono hnow, h.paced, fun key t ht =>
    Nat.le_trans (h.past key t ht) hnow⟩

theorem Keeps.allowed (h : Keeps l windowMs maxRequests now history) (hmax : 0 < maxRequests) (key : String) :
    (l.checkRateLimit key now).1.allowed = decide (((history key).filter (valid windowMs now)).length < maxRequests) := by
  rw [checkRateLimit_allowed (by rw [h.limit]; exact hmax), h.length, h.limit,
    h.represents key now (Nat.le_refl _)]

/-- A check forgets what has left the window. -/
theorem Keeps.check (h : Keeps l windowMs maxRequests now history) (key : String) :
    Keeps (l.checkRateLimit key now).2 windowMs maxRequests now history := by
  obtain ⟨hwindow, hmax⟩ := limits_checkRateLimit l key now
  refine ⟨hwindow.trans h.length, hmax.trans h.limit, fun k => ?_, h.paced, h.past⟩
  rw [values_checkRateLimit, h.length]
  split
  · next hk =>
    subst hk
    exact (h.represents k).prune (aging windowMs)
  · exact h.represents k

/-- A request that there was room for is recorded. -/
theorem Keeps.record (h : Keeps l windowMs maxRequests now history) {key : String}
    (hroom : ((history key).filter (valid windowMs now)).length < maxRequests) (hnow : now ≤ now') :
    Keeps (l.recordRequest key now') windowMs maxRequests now'
      fun k => history k ++ if key = k then [now'] else [] := by
  obtain ⟨hwindow, hmax⟩ := limits_recordRequest l key now'
  refine ⟨hwindow.trans h.length, hmax.trans h.limit, fun k => ?_, fun k => ?_, fun k t ht => ?_⟩
  · rw [values_recordRequest, h.length]
    by_cases hk : k = key
    · subst hk
      rw [if_pos rfl, if_pos rfl]
      exact (((h.later hnow).represents k).prune (aging windowMs)).push now'
    · rw [if_neg hk, if_neg (Ne.symm hk), List.append_nil]
      exact (h.later hnow).represents k
  · by_cases hk : key = k
    · subst hk
      rw [if_pos rfl]
      exact .push (h.paced key) (h.past key) hnow hroom
    · rw [if_neg hk, List.append_nil]
      exact h.paced k
  · rcases List.mem_append.1 ht with ht | ht
    · exact Nat.le_trans (h.past k t ht) hnow
    · split at ht
      · rw [List.mem_singleton.1 ht]
      · cases ht

theorem Keeps.serve (h : Keeps l windowMs maxRequests now history) (hmax : 0 < maxRequests)
    (hchecked : now ≤ r.checkedAt)
    (hrecorded : r.checkedAt ≤ r.recordedAt) : Keeps (l.serve r).2 windowMs maxRequests r.recordedAt
      fun k => history k ++ if (l.serve r).1.allowed ∧ r.clientIp = k then [r.recordedAt] else [] := by
  have hlater := h.later hchecked
  have hallowed := hlater.allowed hmax r.clientIp
  have hcheck := hlater.check r.clientIp
  unfold SearchRateLimiter.serve
  dsimp only
  split
  · next hyes =>
    have hroom := of_decide_eq_true (hallowed.symm.trans hyes)
    simpa [hyes] using hcheck.record hroom hrecorded
  · next hno => simpa [hno] using hcheck.later hrecorded

theorem Keeps.run (h : Keeps l windowMs maxRequests now history) (hmax : 0 < maxRequests)
    (hsorted : (readings rs).Pairwise (· ≤ ·)) (hnow : ∀ t ∈ readings rs, now ≤ t) (hend : ∀ t ∈ readings rs, t ≤ now')
    (hle : now ≤ now') :
    Keeps (l.run rs) windowMs maxRequests now' fun k => history k ++ l.recorded k rs := by
  induction rs generalizing l now history with
  | nil =>
    have hsame : (fun k => history k ++ l.recorded k []) = history := funext fun k => List.append_nil _
    rw [hsame]
    exact h.later hle
  | cons r rs ih =>
    have hreadings : readings (r :: rs) = r.checkedAt :: r.recordedAt :: readings rs := rfl
    rw [hreadings] at hsorted hnow hend
    have hchecked := hnow r.checkedAt List.mem_cons_self
    have hrecorded := List.rel_of_pairwise_cons hsorted List.mem_cons_self
    have hserve := h.serve hmax hchecked hrecorded
    have hrest := ih hserve hsorted.of_cons.of_cons
      (fun t ht => List.rel_of_pairwise_cons hsorted.of_cons ht)
      (fun t ht => hend t (List.mem_cons_of_mem _ (List.mem_cons_of_mem _ ht)))
      (hend r.recordedAt (List.mem_cons_of_mem _ List.mem_cons_self))
    have hhistory : (fun k => history k ++ l.recorded k (r :: rs)) = fun k =>
        (history k ++ if (l.serve r).1.allowed ∧ r.clientIp = k then [r.recordedAt] else []) ++
          (l.serve r).2.recorded k rs := by
      funext k
      rw [recorded, List.append_assoc]
      split <;> rfl
    rw [hhistory]
    exact hrest

end Runs

/-! ## The limiter -/

/-- A window of the limiter. -/
theorem window_valid {windowMs start x y : ℕ} (hx : start ≤ x ∧ x < start + windowMs)
    (hy : start ≤ y ∧ y < start + windowMs) : valid windowMs y x = true := by
  rw [valid_iff]
  omega

theorem retry_iff {windowMs oldest now now' : ℕ} (hlive : valid windowMs now oldest = true) :
    let seconds := retryAfterSeconds windowMs oldest now
    (now + 1000 * seconds ≤ now' → valid windowMs now' oldest = false) ∧
      (now' + 1000 ≤ now + 1000 * seconds → valid windowMs now' oldest = true) := by
  rw [valid_iff] at hlive
  rw [retryAfterSeconds, Bool.eq_false_iff, Ne, valid_iff]
  have hceil : Nat.max 1 (((windowMs : Int) - ((now : Int) - oldest) + 999) / 1000).toNat =
      (((windowMs : Int) - ((now : Int) - oldest) + 999) / 1000).toNat := by
    refine Nat.max_eq_right ?_
    omega
  rw [hceil]
  constructor <;> intro h <;> omega

theorem search_limiter_slides (maxRequests windowMs : Nat) (hmax : 0 < maxRequests) {requests : List SearchRequest}
    (hsorted : (readings requests).Pairwise (· ≤ ·)) : Slides { maxRequests, windowMs } requests := by
  have hfresh : Keeps { maxRequests, windowMs } windowMs maxRequests 0 fun _ => [] :=
    ⟨rfl, rfl, fun _ _ _ => rfl, fun _ => .empty, fun _ t ht => by cases ht⟩
  have hkeeps (rs : List SearchRequest) (hrs : (readings rs).Pairwise (· ≤ ·)) (now : Instant)
      (hend : ∀ t ∈ readings rs, t ≤ now) :
      Keeps (run { maxRequests, windowMs } rs) windowMs maxRequests now fun k => recorded { maxRequests, windowMs } k rs :=
    hfresh.run hmax hrs (fun t _ => Nat.zero_le t) hend (Nat.zero_le now)
  refine ⟨fun key start => ?_, fun key now hnow => ?_, fun key now hnow hrefused later now' hle hwaits => ?_⟩
  · have hlast : ∃ now, ∀ t ∈ readings requests, t ≤ now := ⟨(readings requests).sum, fun t ht => List.le_sum_of_mem ht⟩
    obtain ⟨now, hnow⟩ := hlast
    refine ((hkeeps requests hsorted now hnow).paced key).window (aging windowMs) fun x y hx hy _ => ?_
    exact window_valid (of_decide_eq_true hx) (of_decide_eq_true hy)
  · rw [(hkeeps requests hsorted now hnow).allowed hmax key, decide_eq_true_iff]
    have hvalid : (fun t => decide (now < t + windowMs)) = valid windowMs now := by
      funext t
      rw [Bool.eq_iff_iff, decide_eq_true_iff, valid_iff]
    rw [← hvalid]
  · have hnow' := hkeeps requests hsorted now hnow
    have hlater := hkeeps _ hwaits.sorted now' hwaits.now
    have hfull : maxRequests ≤ ((recorded { maxRequests, windowMs } key requests).filter (valid windowMs now)).length := by
      rw [hnow'.allowed hmax key] at hrefused
      exact Nat.le_of_not_lt (of_decide_eq_false hrefused)
    obtain ⟨oldest, rest, hwindow⟩ := List.exists_cons_of_length_pos (Nat.lt_of_lt_of_le hmax hfull)
    have hhead := checkRateLimit_retry hrefused
    rw [hnow'.length, hnow'.represents key now (Nat.le_refl _), hwindow] at hhead
    have hmem : oldest ∈ (recorded { maxRequests, windowMs } key requests).filter (valid windowMs now) :=
      hwindow ▸ List.mem_cons_self
    have hlive := (List.mem_filter.1 hmem).2
    have hfull_iff := (hnow'.paced key).full_iff (aging windowMs) (hnow'.past key) hwindow hfull hle
    have hallowed := hlater.allowed hmax key
    rw [hwaits.nothing] at hallowed
    obtain ⟨hafter, hbefore⟩ : (now + 1000 * _ ≤ now' → _) ∧ (now' + 1000 ≤ now + 1000 * _ → _) := retry_iff hlive
    dsimp only
    rw [hallowed, hhead]
    refine ⟨fun h => ?_, fun h => ?_⟩
    · have hgone := hafter h
      refine decide_eq_true (Nat.lt_of_not_le fun hstill => ?_)
      rw [hfull_iff.1 hstill] at hgone
      cases hgone
    · exact decide_eq_false (Nat.not_lt.2 (hfull_iff.2 (hbefore h)))

namespace Demo

/-- Three requests of one client within a minute, and one of another. -/
def requests : List SearchRequest :=
  [{ realIp := some "192.0.2.1", checkedAt := 0, recordedAt := 1 },
    { forwardedFor := some "192.0.2.1, 198.51.100.7", checkedAt := 10, recordedAt := 10 },
    { realIp := some "203.0.113.5", checkedAt := 20, recordedAt := 21 },
    { realIp := some "192.0.2.1", checkedAt := 30, recordedAt := 30 }]

end Demo

open Demo in
theorem search_limiter_slides_requests : recorded { maxRequests := 2, windowMs := 60000 } "192.0.2.1" requests = [1, 10] ∧
    Slides { maxRequests := 2, windowMs := 60000 } requests :=
  ⟨by decide +kernel, search_limiter_slides 2 60000 (by decide) (by decide +kernel)⟩

end Komanda.SearchRateLimiter
