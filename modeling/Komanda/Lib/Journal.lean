import Mathlib.Data.List.Induction

/-!
# Journals of state changes

An `Entry` says that the thing `key` went from one state to another; `none` is the state of a thing that does not
exist. A journal is `Sound` if every entry leaves the state that the entries before it have led to, so that `state`,
which reads the journal from its end, can be trusted as the history of each thing.
-/

namespace Journal

structure Entry (κ τ : Type) where
  key : κ
  source : Option τ
  target : Option τ
deriving DecidableEq, Repr

section State
variable {κ τ : Type} [DecidableEq κ]

/-- The target of the last entry of `k`, for a journal that is read from its end. -/
def stateRev (k : κ) : List (Entry κ τ) → Option τ
  | [] => none
  | e :: es => if e.key = k then e.target else stateRev k es

/-- Where the journal has left `k`. -/
def state (log : List (Entry κ τ)) (k : κ) : Option τ := stateRev k log.reverse

/-- Every entry starts where those before it have led. -/
def Sound (log : List (Entry κ τ)) : Prop :=
  ∀ before e after, log = before ++ e :: after → e.source = state before e.key

variable {log : List (Entry κ τ)} {e : Entry κ τ} {k : κ}

@[simp] theorem state_nil : state ([] : List (Entry κ τ)) k = none := rfl

theorem state_concat : state (log ++ [e]) k = if e.key = k then e.target else state log k := by
  rw [state, List.reverse_append, List.reverse_singleton, List.singleton_append, stateRev]
  rfl

theorem state_concat_self : state (log ++ [e]) e.key = e.target := by rw [state_concat, if_pos rfl]

theorem state_concat_of_ne (h : e.key ≠ k) : state (log ++ [e]) k = state log k := by rw [state_concat, if_neg h]

/-- A thing that no entry names does not exist. -/
theorem state_eq_none (h : ∀ e ∈ log, e.key ≠ k) : state log k = none := by
  induction log using List.reverseRecOn with
  | nil => rfl
  | append_singleton log e ih =>
    rw [state_concat_of_ne (h e (List.mem_append_right _ (List.mem_singleton_self e)))]
    exact ih fun x hx => h x (List.mem_append_left _ hx)

theorem Sound.nil : Sound ([] : List (Entry κ τ)) := by
  intro before e after h
  simp at h

theorem sound_concat : Sound (log ++ [e]) ↔ Sound log ∧ e.source = state log e.key := by
  constructor
  · intro h
    refine ⟨fun before x after hlog => ?_, h log e [] rfl⟩
    exact h before x (after ++ [e]) (by rw [hlog, List.append_assoc, List.cons_append])
  · rintro ⟨hlog, he⟩ before x after heq
    rcases List.eq_nil_or_concat after with rfl | ⟨after, y, rfl⟩
    · obtain ⟨rfl, hxe⟩ := List.append_inj' heq rfl
      obtain rfl : e = x := by simpa using hxe
      exact he
    · have heq' : log ++ [e] = (before ++ x :: after) ++ [y] := by
        rw [heq]
        simp
      obtain ⟨hinit, -⟩ := List.append_inj' heq' rfl
      exact hlog before x after hinit

end State

end Journal
