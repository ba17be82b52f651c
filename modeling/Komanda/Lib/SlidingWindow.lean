import Mathlib.Data.List.Basic
import Mathlib.Order.Lattice

/-!
# Sliding windows

A limiter lets a request through while fewer than `limit` earlier ones are live, and a request is live until it is too
old. It may forget those that are not: what it keeps represents the whole history from now on (`Represents`). Of the
requests that it has let through no window has more than the limit (`Paced.window`), and the oldest live one decides
how long a full window stays full (`Paced.full_iff`).
-/

namespace SlidingWindow
variable {T : Type} [LinearOrder T]

/-- When a time is live: not for ever, and an older one no longer than a newer one. -/
structure Aging (live : T → T → Bool) : Prop where
  later : ∀ {now now' x : T}, now ≤ now' → live now' x = true → live now x = true
  newer : ∀ {now x y : T}, x ≤ y → live now x = true → live now y = true

/-- What is kept is as good as the history, from now on. -/
def Represents (live : T → T → Bool) (now : T) (kept history : List T) : Prop :=
  ∀ now', now ≤ now' → kept.filter (live now') = history.filter (live now')

/-- The requests that a limiter has let through: one comes when fewer than `limit` are live, and is recorded then or
later. -/
inductive Paced (live : T → T → Bool) (limit : Nat) : List T → Prop
  | empty : Paced live limit []
  | push {history : List T} {now x : T} (h : Paced live limit history) (hnow : ∀ y ∈ history, y ≤ now) (hx : now ≤ x)
      (hroom : (history.filter (live now)).length < limit) : Paced live limit (history ++ [x])

section Represents
variable {live : T → T → Bool} {now now' x : T} {kept history : List T} {limit : Nat}

theorem Represents.refl (history : List T) : Represents live now history history := fun _ _ => rfl

theorem Represents.mono (h : Represents live now kept history) (hnow : now ≤ now') :
    Represents live now' kept history := fun t ht => h t (hnow.trans ht)

/-- What is not live may be forgotten. -/
theorem Represents.prune (hlive : Aging live) (h : Represents live now kept history) :
    Represents live now (kept.filter (live now)) history := by
  intro t ht
  rw [List.filter_filter, ← h t ht]
  refine List.filter_congr fun y _ => ?_
  cases hy : live t y with
  | false => rfl
  | true => rw [hlive.later ht hy, Bool.and_self]

theorem Represents.push (h : Represents live now kept history) (x : T) :
    Represents live now (kept ++ [x]) (history ++ [x]) := by
  intro t ht
  rw [List.filter_append, List.filter_append, h t ht]

end Represents

section Paced
variable {live : T → T → Bool} {now now' x : T} {history : List T} {limit : Nat}

/-- No window has more requests than the limit, if its older requests are live when it ends. -/
theorem Paced.window (hlive : Aging live) (h : Paced live limit history) {W : T → Bool}
    (hW : ∀ x y, W x = true → W y = true → x ≤ y → live y x = true) : (history.filter W).length ≤ limit := by
  induction h with
  | empty => exact Nat.zero_le _
  | @push history now x _ hnow hx hroom ih =>
    rw [List.filter_append, List.length_append]
    cases hWx : W x with
    | false =>
      have hnone : ([x].filter W).length = 0 := by simp [hWx]
      rwa [hnone]
    | true =>
      have hone : ([x].filter W).length = 1 := by simp [hWx]
      have hsub : ∀ y ∈ history, W y = true → live now y = true := fun y hy hWy =>
        hlive.later hx (hW y x hWy hWx ((hnow y hy).trans hx))
      have hle : (history.filter W).length ≤ (history.filter (live now)).length := by
        rw [← List.countP_eq_length_filter, ← List.countP_eq_length_filter]
        exact List.countP_mono_left hsub
      rw [hone]
      omega

theorem Paced.sorted (h : Paced live limit history) : history.Pairwise (· ≤ ·) := by
  induction h with
  | empty => exact List.Pairwise.nil
  | push _ hnow hx _ ih =>
    refine List.pairwise_append.2 ⟨ih, List.pairwise_singleton _ _, fun y hy z hz => ?_⟩
    rw [List.mem_singleton.1 hz]
    exact (hnow y hy).trans hx

/-- The live ones are never more than the limit. -/
theorem Paced.live_le (hlive : Aging live) (h : Paced live limit history) (hnow : ∀ y ∈ history, y ≤ now) :
    (history.filter (live now)).length ≤ limit := by
  have hle : (history.filter fun y => decide (y ≤ now) && live now y).length ≤ limit := by
    refine h.window hlive fun x y hx hy _ => ?_
    rw [Bool.and_eq_true, decide_eq_true_eq] at hx hy
    exact hlive.later hy.1 hx.2
  have hsame : history.filter (fun y => decide (y ≤ now) && live now y) = history.filter (live now) :=
    List.filter_congr fun y hy => by rw [decide_eq_true (hnow y hy), Bool.true_and]
  rwa [hsame] at hle

/-- A full window stays full as long as its oldest request is live. -/
theorem Paced.full_iff (hlive : Aging live) (h : Paced live limit history) (hnow : ∀ y ∈ history, y ≤ now)
    {oldest : T} {rest : List T} (hwindow : history.filter (live now) = oldest :: rest)
    (hfull : limit ≤ (history.filter (live now)).length) (hlater : now ≤ now') :
    limit ≤ (history.filter (live now')).length ↔ live now' oldest = true := by
  have hlimit : (oldest :: rest).length = limit := by
    rw [← hwindow]
    exact Nat.le_antisymm (h.live_le hlive hnow) hfull
  have hsplit : history.filter (live now') = (oldest :: rest).filter (live now') := by
    rw [← hwindow, List.filter_filter]
    refine List.filter_congr fun y _ => ?_
    cases hy : live now' y with
    | false => rfl
    | true => rw [hlive.later hlater hy, Bool.and_self]
  have hsorted := (hwindow ▸ h.sorted.filter (live now) : (oldest :: rest).Pairwise (· ≤ ·))
  rw [hsplit]
  constructor
  · intro hle
    by_contra hold
    have hshort := List.length_filter_le (live now') rest
    rw [List.filter_cons_of_neg hold] at hle
    rw [List.length_cons] at hlimit
    omega
  · intro hold
    have hall : (oldest :: rest).filter (live now') = oldest :: rest := by
      refine List.filter_eq_self.2 (List.forall_mem_cons.2 ⟨hold, fun y hy => ?_⟩)
      exact hlive.newer (List.rel_of_pairwise_cons hsorted hy) hold
    rw [hall]
    exact Nat.le_of_eq hlimit.symm

end Paced
end SlidingWindow
