import Komanda.RateLimiter
import Komanda.Lib.FixedWindows

/-!
# Rate limits over sequences of calls

Serving a call reads and writes only the record of its key (`serve_lookup`), so a key is served as if it were alone, and
its record follows the counter of `FixedWindow` (`Follows.serve`).
-/

namespace Komanda

/-! ## One record -/

namespace RateLimiter
variable {l : RateLimiter} {key k : String} {now : Instant}

/-- A refusal says how long the window lasts. -/
theorem retryAfterSeconds_covers (record : WindowRecord) :
    (record.windowStart : Int) + l.windowMs ≤ now + 1000 * l.retryAfterSeconds record now := by
  have hmax : (((l.windowMs : Int) - ((now : Int) - record.windowStart) + 999) / 1000).toNat ≤
      l.retryAfterSeconds record now := Nat.le_max_right _ _
  have hseconds := Int.self_le_toNat (((l.windowMs : Int) - ((now : Int) - record.windowStart) + 999) / 1000)
  omega

/-- A success frees its key, and no other. -/
theorem lookup_deleteRecord : (l.deleteRecord key).records.lookup k =
    if k = key then none else l.records.lookup k :=
  InsertionMap.lookup_erase l.records

theorem lookup_deleteExpired : (l.deleteExpired key now).records.lookup k =
    if k = key then (l.records.lookup key).filter (!l.expired · now) else l.records.lookup k := by
  rw [deleteExpired]
  cases hr : l.records.lookup key with
  | none =>
    by_cases h : k = key
    · rw [if_pos h, h, hr, Option.filter_none]
    · rw [if_neg h]
  | some record =>
    cases he : l.expired record now with
    | true =>
      dsimp only
      rw [if_pos he, lookup_deleteRecord, Option.filter_some, he]
      rfl
    | false =>
      dsimp only
      rw [if_neg (by rw [he]; exact Bool.false_ne_true), Option.filter_some, he]
      by_cases h : k = key
      · rw [if_pos h, h, hr]
        rfl
      · rw [if_neg h]

theorem deleteExpired_max : (l.deleteExpired key now).max = l.max := by
  rw [deleteExpired]
  cases l.records.lookup key with
  | none => rfl
  | some record => exact apply_ite RateLimiter.max _ _ _ |>.trans (ite_self _)

theorem deleteExpired_windowMs : (l.deleteExpired key now).windowMs = l.windowMs := by
  rw [deleteExpired]
  cases l.records.lookup key with
  | none => rfl
  | some record => exact apply_ite RateLimiter.windowMs _ _ _ |>.trans (ite_self _)

/-- A record that has run out counts like none. -/
theorem counted_filter {l' : RateLimiter} (hwindow : l'.windowMs = l.windowMs) (record : Option WindowRecord) :
    l'.counted (record.filter (!l.expired · now)) now = l.counted record now := by
  cases record with
  | none => rfl
  | some record =>
    have hexpired : l'.expired record now = l.expired record now := by rw [expired, expired, hwindow]
    rw [Option.filter_some]
    cases he : l.expired record now with
    | true => exact (if_pos he).symm
    | false =>
      have hkept : l'.counted (some record) now = l.counted (some record) now := by
        rw [counted, counted, hexpired]
      exact hkept

/-- A refused call has a record that has not run out. -/
theorem filter_of_refused {record : Option WindowRecord} (h : (l.answer record now).allowed = false) :
    record.filter (!l.expired · now) = record := by
  cases record with
  | none => rfl
  | some record =>
    cases he : l.expired record now with
    | true =>
      rw [answer, if_pos he] at h
      cases h
    | false =>
      rw [Option.filter_some, he]
      rfl

end RateLimiter

/-! ## One call -/

namespace LimiterKind
variable {kind : LimiterKind} {l l' : RateLimiter} {c : LimitedCall} {key k : String} {now : Instant}

theorem checkRateLimit_answer : (kind.checkRateLimit l key now).1 = l.answer (l.records.lookup key) now := by
  cases kind <;> rfl

theorem serve_max : (kind.serve l c).max = l.max := by
  rw [serve]
  cases kind <;> split
  exacts [rfl, rfl, RateLimiter.deleteExpired_max, RateLimiter.deleteExpired_max, RateLimiter.deleteExpired_max,
    RateLimiter.deleteExpired_max]

theorem serve_windowMs : (kind.serve l c).windowMs = l.windowMs := by
  rw [serve]
  cases kind <;> split
  exacts [rfl, rfl, RateLimiter.deleteExpired_windowMs, RateLimiter.deleteExpired_windowMs,
    RateLimiter.deleteExpired_windowMs, RateLimiter.deleteExpired_windowMs]

/-- The record that serving a call at `now` leaves. -/
def servedRecord (l : RateLimiter) (record : Option WindowRecord) (now : Instant) : Option WindowRecord :=
  if (l.answer record now).allowed then some (l.counted record now) else record

/-- Checking may delete a record that has run out, which changes nothing about what follows. -/
theorem lookup_checked (checked : RateLimiter)
    (hlookup : ∀ j, checked.records.lookup j =
      if j = c.key then (l.records.lookup c.key).filter (!l.expired · c.now) else l.records.lookup j)
    (hwindow : checked.windowMs = l.windowMs) :
    (if (l.answer (l.records.lookup c.key) c.now).allowed then checked.setRecord c.key c.now else checked).records.lookup k =
      if k = c.key then servedRecord l (l.records.lookup c.key) c.now else l.records.lookup k := by
  by_cases ha : (l.answer (l.records.lookup c.key) c.now).allowed = true
  · rw [if_pos ha, RateLimiter.setRecord, servedRecord, if_pos ha]
    dsimp only
    rw [InsertionMap.lookup_set, hlookup, if_pos rfl, RateLimiter.counted_filter hwindow]
    by_cases h : k = c.key
    · rw [if_pos h, if_pos h]
    · rw [if_neg h, if_neg h, hlookup, if_neg h]
  · rw [if_neg ha, servedRecord, if_neg ha, hlookup, RateLimiter.filter_of_refused (Bool.not_eq_true _ ▸ ha)]

/-- Serving a call writes the record of its key, and no other. -/
theorem serve_lookup : (kind.serve l c).records.lookup k =
    if k = c.key then servedRecord l (l.records.lookup c.key) c.now else l.records.lookup k := by
  cases kind with
  | publicOrder =>
    show (if (l.answer (l.records.lookup c.key) c.now).allowed then l.setRecord c.key c.now else l).records.lookup k = _
    by_cases ha : (l.answer (l.records.lookup c.key) c.now).allowed = true
    · rw [if_pos ha, RateLimiter.setRecord, servedRecord, if_pos ha]
      exact InsertionMap.lookup_set _ _
    · rw [if_neg ha, servedRecord, if_neg ha]
      by_cases h : k = c.key
      · rw [if_pos h, h]
      · rw [if_neg h]
  | pinAttempt => exact lookup_checked _ (fun _ => RateLimiter.lookup_deleteExpired) RateLimiter.deleteExpired_windowMs
  | discount => exact lookup_checked _ (fun _ => RateLimiter.lookup_deleteExpired) RateLimiter.deleteExpired_windowMs

/-! ## Sequences of calls -/

section Sequences

theorem answer_congr (hmax : l'.max = l.max) (hwindow : l'.windowMs = l.windowMs) : l'.answer = l.answer := by
  obtain ⟨max, windowMs, records⟩ := l
  obtain rfl : l'.max = max := hmax
  obtain rfl : l'.windowMs = windowMs := hwindow
  rfl

theorem servedRecord_congr (hmax : l'.max = l.max) (hwindow : l'.windowMs = l.windowMs) :
    servedRecord l' = servedRecord l := by
  obtain ⟨max, windowMs, records⟩ := l
  obtain rfl : l'.max = max := hmax
  obtain rfl : l'.windowMs = windowMs := hwindow
  rfl

/-- Two limiters with one record for a key answer its calls alike, whatever other calls the first one gets. -/
theorem answers_filter (hmax : l'.max = l.max) (hwindow : l'.windowMs = l.windowMs)
    (hrecord : l'.records.lookup key = l.records.lookup key) (calls : List LimitedCall) :
    (kind.answers l calls).filter (·.1.key = key) = kind.answers l' (calls.filter (·.key = key)) := by
  induction calls generalizing l l' with
  | nil => rfl
  | cons c calls ih =>
    rw [answers, List.filter_cons, List.filter_cons]
    by_cases hkey : c.key = key
    · rw [if_pos (decide_eq_true hkey), if_pos (decide_eq_true hkey), answers, checkRateLimit_answer,
        checkRateLimit_answer, hkey, hrecord, answer_congr hmax hwindow]
      refine congrArg _ (ih ?_ ?_ ?_)
      · rw [serve_max, serve_max, hmax]
      · rw [serve_windowMs, serve_windowMs, hwindow]
      · rw [serve_lookup, serve_lookup, hkey, if_pos rfl, if_pos rfl, hrecord, servedRecord_congr hmax hwindow]
    · rw [if_neg (by simpa using hkey), if_neg (by simpa using hkey)]
      refine ih (hmax.trans serve_max.symm) (hwindow.trans serve_windowMs.symm) ?_
      rw [serve_lookup, if_neg (Ne.symm hkey), hrecord]

/-- The record of the counter that has let the calls of `w` through. -/
def recordOf (w : FixedWindow.Calls) : Option WindowRecord :=
  w.current.head?.map fun start => { count := w.current.length, windowStart := start }

variable {w : FixedWindow.Calls}

theorem answer_recordOf : (l.answer (recordOf w) now).allowed = w.allows l.max l.windowMs now := by
  obtain ⟨previous, current⟩ := w
  cases current with
  | nil => rfl
  | cons start rest =>
    show (l.answer (some { count := (start :: rest).length, windowStart := start }) now).allowed =
      (decide (l.windowMs < now - start) || decide ((start :: rest).length < l.max))
    rw [RateLimiter.answer]
    by_cases hexpired : l.windowMs < now - start
    · rw [if_pos (show l.expired _ now = true from decide_eq_true hexpired), decide_eq_true hexpired]
      rfl
    · have hopen : l.expired { count := (start :: rest).length, windowStart := start } now = false :=
        decide_eq_false hexpired
      rw [if_neg (by rw [hopen]; exact Bool.false_ne_true), decide_eq_false hexpired, Bool.false_or]
      by_cases hfull : (start :: rest).length ≥ l.max
      · rw [if_pos hfull, decide_eq_false (Nat.not_lt.2 hfull)]
      · rw [if_neg hfull, decide_eq_true (Nat.not_le.1 hfull)]

theorem servedRecord_recordOf : servedRecord l (recordOf w) now = recordOf (w.call l.max l.windowMs now) := by
  rw [servedRecord, answer_recordOf]
  cases ha : w.allows l.max l.windowMs now with
  | false => rw [FixedWindow.call_refused ha, if_neg Bool.false_ne_true]
  | true =>
    rw [if_pos rfl]
    rcases FixedWindow.call_cases ha with ⟨hempty, hcall⟩ | ⟨start, rest, hcurrent, hexpired, hcall⟩ |
      ⟨start, rest, hcurrent, hopen, -, hcall⟩
    · rw [hcall, recordOf, recordOf, hempty]
      rfl
    · rw [hcall, recordOf, recordOf, hcurrent]
      exact congrArg some (if_pos (decide_eq_true hexpired))
    · rw [hcall, recordOf, recordOf, hcurrent]
      refine congrArg some ((if_neg ?_).trans ?_)
      · exact fun h => hopen (of_decide_eq_true h)
      · rw [List.length_append, List.length_singleton]

def timesOf (key : String) (calls : List LimitedCall) : List Instant := (calls.filter (·.key = key)).map (·.now)

/-- The recorded calls of a key are those that its counter lets through. -/
theorem recordedTimes_eq (hrecord : l.records.lookup key = recordOf w) (calls : List LimitedCall) :
    kind.recordedTimes l key calls = FixedWindow.recorded l.max l.windowMs w (timesOf key calls) := by
  induction calls generalizing l w with
  | nil => rfl
  | cons c calls ih =>
    by_cases hkey : c.key = key
    · have hserved : (kind.serve l c).records.lookup key = recordOf (w.call l.max l.windowMs c.now) := by
        rw [serve_lookup, if_pos hkey.symm, hkey, hrecord, servedRecord_recordOf]
      have hrest := ih hserved
      rw [serve_max, serve_windowMs] at hrest
      rw [timesOf, List.filter_cons_of_pos (by simpa using hkey), List.map_cons, ← timesOf, FixedWindow.recorded,
        ← hrest, recordedTimes, answers, List.filter_cons, checkRateLimit_answer, hkey, hrecord, answer_recordOf]
      cases w.allows l.max l.windowMs c.now with
      | true =>
        rw [if_pos (by simp), if_pos rfl]
        rfl
      | false =>
        rw [if_neg (by simp), if_neg Bool.false_ne_true]
        rfl
    · have hserved : (kind.serve l c).records.lookup key = recordOf w := by
        rw [serve_lookup, if_neg (Ne.symm hkey), hrecord]
      have hrest := ih hserved
      rw [serve_max, serve_windowMs] at hrest
      rw [timesOf, List.filter_cons_of_neg (by simpa using hkey), ← timesOf, ← hrest, recordedTimes, answers,
        List.filter_cons_of_neg (by simp [hkey])]
      rfl

theorem sorted_timesOf (s : CallSequence) (key : String) : (timesOf key s.calls).Pairwise (· ≤ ·) :=
  List.pairwise_map.2 (s.sorted.filter _)

end Sequences
end LimiterKind

/-! ## Every window -/

section Windows
open LimiterKind
variable {kind : LimiterKind} {max windowMs : Nat}

theorem rateLimited_iff_bounded (s : CallSequence) : RateLimited kind { max, windowMs } s ↔
    ∀ key, FixedWindow.Bounded max windowMs (FixedWindow.recorded max windowMs {} (timesOf key s.calls)) := by
  have hcounts : ∀ key, kind.recordedTimes { max, windowMs } key s.calls =
      FixedWindow.recorded max windowMs {} (timesOf key s.calls) := fun key => recordedTimes_eq rfl s.calls
  constructor
  · intro h key start
    have hwindow := h.window key start
    rw [hcounts] at hwindow
    exact hwindow
  · intro h
    refine ⟨fun key start => ?_, fun key => answers_filter rfl rfl rfl s.calls⟩
    rw [hcounts]
    exact h key start

/-- The calls of one key at the times `times`. -/
def callsAt (times : List Instant) (hsorted : times.Pairwise (· ≤ ·)) : CallSequence where
  calls := times.map fun now => { key := "", now }
  sorted := List.pairwise_map.2 hsorted

theorem timesOf_callsAt (times : List Instant) (hsorted : times.Pairwise (· ≤ ·)) :
    timesOf "" (callsAt times hsorted).calls = times := by
  show ((times.map fun now => (⟨"", now⟩ : LimitedCall)).filter (·.key = "")).map (·.now) = times
  rw [List.filter_eq_self.2, List.map_map]
  · exact List.map_id times
  · intro c hc
    obtain ⟨now, -, rfl⟩ := List.mem_map.1 hc
    rfl

/-- Every window is within the limit exactly when each call that is let through finds room among those of its key's last
two windows; with a limit of two or more and a duration there are sequences without this. -/
theorem rate_limited_iff (kind : LimiterKind) (max windowMs : Nat) :
    (∀ s : CallSequence, RateLimited kind { max, windowMs } s ↔
      ∀ key, FixedWindow.Roomy max windowMs {} (timesOf key s.calls)) ∧
    ((∀ s : CallSequence, RateLimited kind { max, windowMs } s) ↔ max = 1 ∨ windowMs = 0 ∧ 1 ≤ max) := by
  constructor
  · intro s
    rw [rateLimited_iff_bounded]
    exact forall_congr' fun key => FixedWindow.bounded_iff (sorted_timesOf s key)
  · rw [← FixedWindow.bounded_all_iff]
    constructor
    · intro h times hsorted
      have hkey := (rateLimited_iff_bounded (callsAt times hsorted)).1 (h _) ""
      rwa [timesOf_callsAt] at hkey
    · intro h s
      exact (rateLimited_iff_bounded s).2 fun key => h _ (sorted_timesOf s key)

/-- A call when a window starts, one when it ends, and as many as the limit right after it. -/
def doubleBurst (l : RateLimiter) : CallSequence := callsAt
    (FixedWindow.burst l.max l.windowMs) FixedWindow.sorted_burst

theorem double_burst_at_boundary :
    ¬ RateLimited .publicOrder PublicOrderRateLimiter.globalCashOrder (doubleBurst PublicOrderRateLimiter.globalCashOrder) ∧
    ¬ RateLimited .pinAttempt PinAttemptRateLimiter.globalPinAttempt (doubleBurst PinAttemptRateLimiter.globalPinAttempt) ∧
    ¬ RateLimited .discount DiscountRateLimiter.globalDiscount (doubleBurst DiscountRateLimiter.globalDiscount) := by
  refine ⟨fun h => ?_, fun h => ?_, fun h => ?_⟩
  · have hwindow := h.window "" PublicOrderRateLimiter.globalCashOrder.windowMs
    exact absurd hwindow (by decide +kernel)
  · have hwindow := h.window "" PinAttemptRateLimiter.globalPinAttempt.windowMs
    exact absurd hwindow (by decide +kernel)
  · have hwindow := h.window "" DiscountRateLimiter.globalDiscount.windowMs
    exact absurd hwindow (by decide +kernel)

end Windows
end Komanda
