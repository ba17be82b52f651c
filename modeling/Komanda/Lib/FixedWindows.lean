import Mathlib.Data.List.Basic
import Mathlib.Data.List.Sublists
import Mathlib.Order.Basic

/-!
# Counting calls in fixed windows

A counter starts a window of a given length with a call, lets calls through up to a limit, and starts the next window
with the first call after the end of this one. `recorded` is what it lets through of calls at times that do not
decrease. A sliding window of the same length then meets at most two of the fixed ones, and `bounded_iff` says when no
sliding window has more calls than the limit. With a limit of two or more and a length of one or more there are calls
for which one has (`bounded_all_iff`).
-/

namespace FixedWindow

/-- The calls let through in the current window, oldest first, and in the window before it. -/
structure Calls where
  previous : List ℕ := []
  current : List ℕ := []
deriving DecidableEq, Repr

namespace Calls

/-- A call is let through: it starts a window, or the current one has room. -/
def allows (limit length : ℕ) (w : Calls) (now : ℕ) : Bool :=
  match w.current with
  | [] => true
  | start :: _ => length < now - start || w.current.length < limit

def call (limit length : ℕ) (w : Calls) (now : ℕ) : Calls :=
  match w.current with
  | [] => { previous := [], current := [now] }
  | start :: _ =>
    if length < now - start then { previous := w.current, current := [now] }
    else if w.current.length < limit then { w with current := w.current ++ [now] }
    else w

/-- The calls of the two windows that are at most `length` old. -/
def crowd (length : ℕ) (w : Calls) (now : ℕ) : ℕ := ((w.previous ++ w.current).filter (now ≤ · + length)).length

end Calls

/-- The times of the calls that are let through. -/
def recorded (limit length : ℕ) (w : Calls) : List ℕ → List ℕ
  | [] => []
  | t :: ts =>
    if w.allows limit length t then t :: recorded limit length (w.call limit length t) ts
    else recorded limit length (w.call limit length t) ts

/-- The number of times in the window that begins at `a`. -/
def inWindow (length a : ℕ) (times : List ℕ) : ℕ := (times.filter fun x => a ≤ x ∧ x ≤ a + length).length

/-- No window has more times than the limit. -/
def Bounded (limit length : ℕ) (times : List ℕ) : Prop := ∀ a, inWindow length a times ≤ limit

/-- Every call that is let through finds room among those of the last two windows. -/
def Roomy (limit length : ℕ) (w : Calls) : List ℕ → Prop
  | [] => True
  | t :: ts => (w.allows limit length t = true → w.crowd length t < limit) ∧
    Roomy limit length (w.call limit length t) ts

/-! ## One call -/

section Call
variable {limit length : ℕ} {w : Calls} {t : ℕ}

/-- What a call that is let through does. -/
theorem call_cases (h : w.allows limit length t = true) :
    (w.current = [] ∧ w.call limit length t = { previous := [], current := [t] }) ∨
    (∃ start rest, w.current = start :: rest ∧ length < t - start ∧
      w.call limit length t = { previous := w.current, current := [t] }) ∨
    (∃ start rest, w.current = start :: rest ∧ ¬ length < t - start ∧ w.current.length < limit ∧
      w.call limit length t = { w with current := w.current ++ [t] }) := by
  cases hc : w.current with
  | nil =>
    refine .inl ⟨rfl, ?_⟩
    rw [Calls.call, hc]
  | cons start rest =>
    rw [Calls.allows, hc] at h
    by_cases hexpired : length < t - start
    · refine .inr (.inl ⟨start, rest, rfl, hexpired, ?_⟩)
      rw [Calls.call, hc]
      exact if_pos hexpired
    · have hroom : (start :: rest).length < limit := by
        simpa [hexpired] using h
      refine .inr (.inr ⟨start, rest, rfl, hexpired, hroom, ?_⟩)
      rw [Calls.call, hc]
      dsimp only
      rw [if_neg hexpired, if_pos hroom]

theorem call_refused (h : w.allows limit length t = false) : w.call limit length t = w := by
  cases hc : w.current with
  | nil =>
    rw [Calls.allows, hc] at h
    cases h
  | cons start rest =>
    rw [Calls.allows, hc] at h
    obtain ⟨hexpired, hroom⟩ := Bool.or_eq_false_iff.1 h
    rw [Calls.call, hc]
    dsimp only
    rw [if_neg (of_decide_eq_false hexpired), if_neg (of_decide_eq_false hroom)]

/-- The calls `times` have been let through: those before the last two windows have long run out. -/
structure Tracks (limit length : ℕ) (times : List ℕ) (w : Calls) : Prop where
  split : ∃ older, times = older ++ (w.previous ++ w.current) ∧
    ∀ start ∈ w.current.head?, ∀ x ∈ older, x + length < start
  sorted : times.Pairwise (· ≤ ·)
  previous : ∀ start ∈ w.current.head?, ∀ x ∈ w.previous, x < start
  current : ∀ start ∈ w.current.head?, ∀ x ∈ w.current, start ≤ x ∧ x ≤ start + length
  empty : w.current = [] → times = []
  count : 0 < limit → w.current.length ≤ limit

theorem Tracks.nil : Tracks limit length [] {} where
  split := ⟨[], rfl, fun _ h => by cases h⟩
  sorted := List.Pairwise.nil
  previous _ h := by cases h
  current _ h := by cases h
  empty _ := rfl
  count _ := Nat.zero_le _

theorem Tracks.start_mem {times : List ℕ} (h : Tracks limit length times w) {start : ℕ}
    (hstart : start ∈ w.current.head?) :
    start ∈ times := by
  obtain ⟨older, hsplit, -⟩ := h.split
  rw [hsplit]
  exact List.mem_append_right _ (List.mem_append_right _ (List.mem_of_mem_head? hstart))

theorem sorted_concat {times : List ℕ} (hs : times.Pairwise (· ≤ ·)) (h : ∀ x ∈ times, x ≤ t) :
    (times ++ [t]).Pairwise (· ≤ ·) :=
  List.pairwise_append.2 ⟨hs, List.pairwise_singleton _ _, fun x hx _ hy => List.mem_singleton.1 hy ▸ h x hx⟩

/-- A window that starts with `t`, when all calls before the last window have run out. -/
theorem Tracks.restart {times older previous : List ℕ} (hsplit : times = older ++ previous)
    (hsorted : times.Pairwise (· ≤ ·)) (hlast : ∀ x ∈ times, x ≤ t) (holder : ∀ x ∈ older, x + length < t)
    (hprevious : ∀ x ∈ previous, x < t) : Tracks limit length (times ++ [t]) { previous, current := [t] } := by
  refine ⟨⟨older, ?_, fun s hs x hx => ?_⟩, sorted_concat hsorted hlast, fun s hs x hx => ?_, fun s hs x hx => ?_,
    fun hnil => absurd hnil (List.cons_ne_nil _ _), fun hpos => hpos⟩
  · rw [hsplit, List.append_assoc]
  · rw [← Option.some.inj hs]
    exact holder x hx
  · rw [← Option.some.inj hs]
    exact hprevious x hx
  · rw [← Option.some.inj hs, List.mem_singleton.1 hx]
    exact ⟨le_rfl, Nat.le_add_right _ _⟩

/-- A call that is let through is tracked. -/
theorem Tracks.call {times : List ℕ} (h : Tracks limit length times w) (hlast : ∀ x ∈ times, x ≤ t)
    (hallowed : w.allows limit length t = true) : Tracks limit length (times ++ [t]) (w.call limit length t) := by
  obtain ⟨older, hsplit, holder⟩ := h.split
  rcases call_cases hallowed with ⟨hempty, hcall⟩ | ⟨start, rest, hcurrent, hexpired, hcall⟩ |
    ⟨start, rest, hcurrent, hopen, hroom, hcall⟩
  · -- the first window
    rw [hcall]
    exact .restart (h.empty hempty) h.sorted hlast (fun _ hx => absurd hx List.not_mem_nil)
      fun _ hx => absurd hx List.not_mem_nil
  · -- the current window has run out
    have hstart : start ∈ w.current.head? := by rw [hcurrent]; rfl
    have hold : times = (older ++ w.previous) ++ w.current := by rw [hsplit, List.append_assoc]
    rw [hcall]
    refine .restart hold h.sorted hlast (fun x hx => ?_) fun x hx => ?_
    · rcases List.mem_append.1 hx with hx | hx
      · have := holder start hstart x hx
        omega
      · have := h.previous start hstart x hx
        omega
    · have := h.current start hstart x hx
      omega
  · -- the current window has room
    have hstart : start ∈ w.current.head? := by rw [hcurrent]; rfl
    have hhead : ∀ s, s ∈ (w.current ++ [t]).head? ↔ s ∈ w.current.head? := by
      intro s
      rw [hcurrent]
      rfl
    have hle := hlast start (h.start_mem hstart)
    rw [hcall]
    refine ⟨⟨older, ?_, ?_⟩, sorted_concat h.sorted hlast, ?_, ?_, ?_, ?_⟩
    · dsimp only
      rw [hsplit, List.append_assoc, List.append_assoc]
    · intro s hs
      exact holder s ((hhead s).1 hs)
    · intro s hs
      exact h.previous s ((hhead s).1 hs)
    · intro s hs x hx
      have hs' := (hhead s).1 hs
      obtain rfl := Option.mem_unique hstart hs'
      rcases List.mem_append.1 hx with hx | hx
      · exact h.current start hstart x hx
      · rw [List.mem_singleton.1 hx]
        omega
    · intro hnil
      exact absurd hnil (List.append_ne_nil_of_right_ne_nil _ (List.cons_ne_nil _ _))
    · intro _
      rw [List.length_append, List.length_singleton]
      exact hroom

/-- The recent calls are those of the last two windows. -/
theorem Tracks.crowd_eq {times : List ℕ} (h : Tracks limit length times w) (hlast : ∀ x ∈ times, x ≤ t) :
    (times.filter (t ≤ · + length)).length = w.crowd length t := by
  obtain ⟨older, hsplit, holder⟩ := h.split
  have hold : older.filter (t ≤ · + length) = [] := by
    rw [List.filter_eq_nil_iff]
    intro x hx
    cases hc : w.current with
    | nil =>
      rw [h.empty hc, eq_comm, List.append_eq_nil_iff] at hsplit
      rw [hsplit.1] at hx
      exact absurd hx List.not_mem_nil
    | cons start rest =>
      have hstart : start ∈ w.current.head? := by rw [hc]; rfl
      have hbefore := holder start hstart x hx
      have hle := hlast start (h.start_mem hstart)
      simp only [decide_eq_true_eq]
      omega
  rw [hsplit, List.filter_append, hold, List.nil_append, Calls.crowd]

end Call

/-! ## Every window -/

section Windows
variable {limit length : ℕ} {w : Calls} {times : List ℕ} {t : ℕ}

theorem length_filter_le {p q : ℕ → Bool} (h : ∀ x ∈ times, p x = true → q x = true) :
    (times.filter p).length ≤ (times.filter q).length := by
  rw [← List.countP_eq_length_filter, ← List.countP_eq_length_filter]
  exact List.countP_mono_left h

/-- A window with the last call has only calls that are recent at it, and the one that ends with it has all of these. -/
theorem bounded_concat (hlast : ∀ x ∈ times, x ≤ t) : Bounded limit length (times ++ [t]) ↔
    Bounded limit length times ∧ (times.filter (t ≤ · + length)).length < limit := by
  have hrecent : ((times ++ [t]).filter (t ≤ · + length)).length = (times.filter (t ≤ · + length)).length + 1 := by
    rw [List.filter_append, List.length_append, List.filter_singleton, decide_eq_true (Nat.le_add_right t length)]
    rfl
  constructor
  · intro h
    refine ⟨fun a => le_trans ?_ (h a), ?_⟩
    · exact ((List.sublist_append_left times [t]).filter _).length_le
    · rw [Nat.lt_iff_add_one_le, ← hrecent]
      refine le_trans (length_filter_le fun x hx hx' => ?_) (h (t - length))
      have hle : x ≤ t := by
        rcases List.mem_append.1 hx with hx | hx
        · exact hlast x hx
        · exact (List.mem_singleton.1 hx).le
      simp only [decide_eq_true_eq] at hx' ⊢
      omega
  · rintro ⟨hbounded, hroom⟩ a
    by_cases hin : a ≤ t ∧ t ≤ a + length
    · refine le_trans (length_filter_le fun x _ hx => ?_) (hrecent.trans_le hroom)
      simp only [decide_eq_true_eq] at hx ⊢
      omega
    · have hskip : (times ++ [t]).filter (fun x => a ≤ x ∧ x ≤ a + length) =
          times.filter (fun x => a ≤ x ∧ x ≤ a + length) := by
        rw [List.filter_append, List.filter_singleton, decide_eq_false hin]
        exact List.append_nil _
      rw [inWindow, hskip]
      exact hbounded a

theorem bounded_nil : Bounded limit length [] := fun _ => Nat.zero_le _

/-- The calls that are let through after `times` keep every window within the limit when each of them finds room. -/
theorem bounded_recorded (h : Tracks limit length times w) {later : List ℕ}
    (hlater : (times ++ later).Pairwise (· ≤ ·)) :
    Bounded limit length (times ++ recorded limit length w later) ↔
      Bounded limit length times ∧ Roomy limit length w later := by
  induction later generalizing times w with
  | nil => rw [recorded, List.append_nil, Roomy, and_true]
  | cons t later ih =>
    have hlast : ∀ x ∈ times, x ≤ t := fun x hx =>
      (List.pairwise_append.1 hlater).2.2 x hx t List.mem_cons_self
    rw [recorded, Roomy]
    by_cases hallowed : w.allows limit length t = true
    · have hnext : ((times ++ [t]) ++ later).Pairwise (· ≤ ·) := by
        rw [List.append_assoc]
        exact hlater
      rw [if_pos hallowed, List.append_cons, ih (h.call hlast hallowed) hnext, bounded_concat hlast, h.crowd_eq hlast]
      simp only [hallowed, forall_const, and_assoc]
    · have hnext : (times ++ later).Pairwise (· ≤ ·) :=
        hlater.sublist ((List.sublist_cons_self t later).append_left times)
      rw [if_neg hallowed, call_refused (Bool.not_eq_true _ ▸ hallowed), ih h hnext]
      simp only [hallowed, Bool.false_eq_true, false_implies, true_and]

/-- The calls that are let through keep every window within the limit when each of them finds room. -/
theorem bounded_iff (hsorted : times.Pairwise (· ≤ ·)) :
    Bounded limit length (recorded limit length {} times) ↔ Roomy limit length {} times := by
  have hrun : Bounded limit length ([] ++ recorded limit length {} times) ↔
      Bounded limit length [] ∧ Roomy limit length {} times := bounded_recorded Tracks.nil hsorted
  rw [List.nil_append] at hrun
  exact hrun.trans (and_iff_right bounded_nil)

end Windows

/-! ## Every limit and length -/

section Parameters
variable {limit length : ℕ} {w : Calls} {times : List ℕ} {t : ℕ}

/-- A counter of one call, and one without duration, find room for what they let through. -/
theorem crowd_lt (h : limit = 1 ∨ length = 0 ∧ 1 ≤ limit) (htracks : Tracks limit length times w)
    (hlast : ∀ x ∈ times, x ≤ t) (hallowed : w.allows limit length t = true) : w.crowd length t < limit := by
  have hpositive : 0 < limit := by omega
  rw [Calls.crowd, List.filter_append, List.length_append]
  obtain ⟨older, hsplit, -⟩ := htracks.split
  rcases call_cases hallowed with ⟨hempty, -⟩ | ⟨start, rest, hcurrent, hexpired, -⟩ |
    ⟨start, rest, hcurrent, hopen, hroom, -⟩
  · have hnone := htracks.empty hempty
    rw [hnone, eq_comm, List.append_eq_nil_iff, List.append_eq_nil_iff] at hsplit
    rw [hsplit.2.1, hsplit.2.2]
    exact hpositive
  · have hstart : start ∈ w.current.head? := by rw [hcurrent]; rfl
    have hprevious : w.previous.filter (t ≤ · + length) = [] := by
      rw [List.filter_eq_nil_iff]
      intro x hx
      have := htracks.previous start hstart x hx
      simp only [decide_eq_true_eq]
      omega
    have hcurrentOut : w.current.filter (t ≤ · + length) = [] := by
      rw [List.filter_eq_nil_iff]
      intro x hx
      simp only [decide_eq_true_eq]
      rcases h with hone | ⟨hzero, -⟩
      · have hcount := htracks.count hpositive
        rw [hcurrent, hone, List.length_cons] at hcount
        have hrest : rest = [] := List.eq_nil_of_length_eq_zero (by omega)
        rw [hcurrent, hrest, List.mem_singleton] at hx
        omega
      · have := htracks.current start hstart x hx
        omega
    rw [hprevious, hcurrentOut]
    exact hpositive
  · have hstart : start ∈ w.current.head? := by rw [hcurrent]; rfl
    rcases h with hone | ⟨hzero, -⟩
    · rw [hcurrent, hone, List.length_cons] at hroom
      omega
    · have hprevious : w.previous.filter (t ≤ · + length) = [] := by
        rw [List.filter_eq_nil_iff]
        intro x hx
        have hbefore := htracks.previous start hstart x hx
        have hle := hlast start (htracks.start_mem hstart)
        simp only [decide_eq_true_eq]
        omega
      have hle := List.length_filter_le (t ≤ · + length) w.current
      rw [hprevious, List.length_nil]
      omega

theorem roomy_of (h : limit = 1 ∨ length = 0 ∧ 1 ≤ limit) (htracks : Tracks limit length times w) {later : List ℕ}
    (hlater : (times ++ later).Pairwise (· ≤ ·)) : Roomy limit length w later := by
  induction later generalizing times w with
  | nil => exact trivial
  | cons t later ih =>
    have hlast : ∀ x ∈ times, x ≤ t := fun x hx =>
      (List.pairwise_append.1 hlater).2.2 x hx t List.mem_cons_self
    by_cases hallowed : w.allows limit length t = true
    · have hnext : ((times ++ [t]) ++ later).Pairwise (· ≤ ·) := by
        rw [List.append_assoc]
        exact hlater
      exact ⟨fun _ => crowd_lt h htracks hlast hallowed, ih (htracks.call hlast hallowed) hnext⟩
    · have hnext : (times ++ later).Pairwise (· ≤ ·) :=
        hlater.sublist ((List.sublist_cons_self t later).append_left times)
      refine ⟨fun ha => absurd ha hallowed, ?_⟩
      rw [call_refused (Bool.not_eq_true _ ▸ hallowed)]
      exact ih htracks hnext

/-- A burst goes through until the window is full. -/
theorem recorded_replicate {previous : List ℕ} {k n m : ℕ} (h : k + 1 + m ≤ limit) :
    recorded limit length { previous, current := List.replicate (k + 1) n } (List.replicate m n) =
      List.replicate m n := by
  induction m generalizing k with
  | zero => rfl
  | succ m ih =>
    have hopen : ¬ length < n - n := by omega
    have hroom : (List.replicate (k + 1) n).length < limit := by
      rw [List.length_replicate]
      omega
    have hcall : Calls.call limit length { previous, current := List.replicate (k + 1) n } n =
        { previous, current := List.replicate (k + 1 + 1) n } := by
      rw [List.replicate_succ' (n := k + 1), Calls.call]
      dsimp only [List.replicate_succ]
      rw [if_neg hopen]
      exact if_pos hroom
    have hallowed : Calls.allows limit length { previous, current := List.replicate (k + 1) n } n = true := by
      show (decide (length < n - n) || decide ((List.replicate (k + 1) n).length < limit)) = true
      rw [decide_eq_true hroom, Bool.or_true]
    rw [List.replicate_succ (n := m), recorded, if_pos hallowed, hcall, ih (by omega)]

/-- Calls at both ends of a window, and a burst right after it. -/
def burst (limit length : ℕ) : List ℕ := 0 :: length :: List.replicate limit (length + 1)

theorem recorded_burst (hlimit : 2 ≤ limit) : recorded limit length {} (burst limit length) = burst limit length := by
  obtain ⟨m, rfl⟩ : ∃ m, limit = m + 1 := ⟨limit - 1, by omega⟩
  have hsecond : Calls.allows (m + 1) length { previous := [], current := [0] } length = true := by
    show (decide (length < length - 0) || decide (1 < m + 1)) = true
    rw [decide_eq_true (show 1 < m + 1 by omega), Bool.or_true]
  have hsecondCall : Calls.call (m + 1) length { previous := [], current := [0] } length =
      { previous := [], current := [0, length] } := by
    rw [Calls.call]
    dsimp only
    rw [if_neg (by omega), if_pos (show [0].length < m + 1 by rw [List.length_singleton]; omega)]
    rfl
  have hthird : Calls.allows (m + 1) length { previous := [], current := [0, length] } (length + 1) = true := by
    show (decide (length < length + 1 - 0) || decide (2 < m + 1)) = true
    rw [decide_eq_true (show length < length + 1 - 0 by omega), Bool.true_or]
  have hthirdCall : Calls.call (m + 1) length { previous := [], current := [0, length] } (length + 1) =
      { previous := [0, length], current := [length + 1] } := by
    rw [Calls.call]
    dsimp only
    rw [if_pos (show length < length + 1 - 0 by omega)]
  have hfirst : Calls.allows (m + 1) length {} 0 = true := rfl
  rw [burst, recorded, if_pos hfirst]
  show 0 :: recorded (m + 1) length { previous := [], current := [0] } _ = _
  rw [recorded, if_pos hsecond, hsecondCall, List.replicate_succ, recorded, if_pos hthird, hthirdCall]
  have hrest : recorded (m + 1) length { previous := [0, length], current := List.replicate (0 + 1) (length + 1) }
      (List.replicate m (length + 1)) = List.replicate m (length + 1) := recorded_replicate (by omega)
  rw [List.replicate_succ, List.replicate_zero] at hrest
  rw [hrest]

theorem sorted_burst : (burst limit length).Pairwise (· ≤ ·) := by
  have hmem : ∀ x ∈ List.replicate limit (length + 1), x = length + 1 := fun x hx => List.eq_of_mem_replicate hx
  refine List.pairwise_cons.2 ⟨fun x _ => Nat.zero_le x, List.pairwise_cons.2 ⟨fun x hx => ?_, ?_⟩⟩
  · rw [hmem x hx]
    exact Nat.le_succ _
  · exact List.pairwise_replicate.2 (.inr le_rfl)

/-- The counter keeps every window within its limit for all calls only if it lets one through, or has no duration. -/
theorem bounded_all_iff : (∀ times : List ℕ, times.Pairwise (· ≤ ·) → Bounded limit length (recorded limit length {} times)) ↔
    limit = 1 ∨ length = 0 ∧ 1 ≤ limit := by
  constructor
  · intro h
    by_contra hno
    have hzero : limit ≠ 0 := by
      rintro rfl
      have hone := h [0] (List.pairwise_singleton _ _) 0
      have hcounted : inWindow length 0 (recorded 0 length {} [0]) = 1 := by
        have hfirst : Calls.allows 0 length {} 0 = true := rfl
        rw [recorded, if_pos hfirst, recorded, inWindow, List.filter_singleton,
          decide_eq_true ⟨Nat.zero_le 0, Nat.zero_le _⟩]
        rfl
      omega
    have hlimit : 2 ≤ limit := by omega
    have hlength : 1 ≤ length := by omega
    have hburst := h (burst limit length) sorted_burst length
    rw [recorded_burst hlimit, inWindow, burst, List.filter_cons_of_neg (by simp only [decide_eq_true_eq]; omega),
      List.filter_cons_of_pos (by simp only [decide_eq_true_eq]; omega), List.length_cons,
      List.filter_eq_self.2, List.length_replicate] at hburst
    · omega
    · intro x hx
      rw [List.eq_of_mem_replicate hx]
      simp only [decide_eq_true_eq]
      omega
  · intro h times hsorted
    have hroomy : Roomy limit length {} times := roomy_of h Tracks.nil (by rwa [List.nil_append])
    exact (bounded_iff hsorted).2 hroomy

end Parameters

end FixedWindow
