import Mathlib.Data.List.Basic

/-!
# Reading a growing log behind a cursor

A reader remembers a position of a log and asks again and again for the rows behind it, a few at a time.
While the log grows at its end only, what it has received is the log from where it started, without a gap
and without a repetition (`Follows.poll`), and every answer brings it nearer to the end (`Covers.poll`).
-/

namespace Feed

variable {α : Type} {log log' received : List α} {start limit n m : Nat}

/-- The answer to a reader at position `cursor`. -/
def chunk (limit cursor : Nat) (log : List α) : List α := (log.drop cursor).take limit

/-- The reader that started at `start` has received what the log holds from there on, as far as it got. -/
def Follows (start : Nat) (log received : List α) : Prop := received <+: log.drop start

/-- It has got at least `n` rows, or all that the log holds. -/
def Covers (start n : Nat) (log received : List α) : Prop := (log.drop start).take n <+: received

theorem drop_mono (h : log <+: log') : log.drop start <+: log'.drop start := by
  obtain ⟨new, rfl⟩ := h
  rw [List.drop_append]
  exact List.prefix_append _ _

theorem Follows.empty : Follows start log [] := List.nil_prefix

theorem Follows.grow (h : Follows start log received) (hlog : log <+: log') : Follows start log' received :=
  h.trans (drop_mono hlog)

/-- What is behind the rows received. -/
theorem Follows.rest (h : Follows start log received) :
    log.drop start = received ++ log.drop (start + received.length) := by
  obtain ⟨rest, hrest⟩ := h
  rw [← List.drop_drop, ← hrest, List.drop_append_of_le_length (Nat.le_refl _), List.drop_length, List.nil_append]

/-- An answer from an earlier log still follows on, if nothing has been received since it was asked for. -/
theorem Follows.deliver {old : List α} (h : Follows start log received) (hold : old <+: log) :
    Follows start log (received ++ chunk limit (start + received.length) old) := by
  rw [Follows, h.rest]
  exact (List.prefix_append_right_inj _).2 ((List.take_prefix _ _).trans (drop_mono hold))

theorem Follows.poll (h : Follows start log received) :
    Follows start log (received ++ chunk limit (start + received.length) log) := h.deliver List.prefix_rfl

theorem Covers.zero : Covers start 0 log received := by
  rw [Covers, List.take_zero]
  exact List.nil_prefix

/-- An answer brings a reader `limit` rows further in what the log held before, and the log may have grown since. -/
theorem Covers.poll (h : Covers start n log received) (hlog : log <+: log') (hf : Follows start log' received) :
    Covers start (n + limit) log (received ++ chunk limit (start + received.length) log') := by
  have hsub : log.drop start <+: log'.drop start := drop_mono hlog
  have hlength := congrArg List.length hf.rest
  have hle := hsub.length_le
  have hn := List.IsPrefix.length_le h
  rw [List.length_append] at hlength
  rw [List.length_take] at hn
  refine List.prefix_of_prefix_length_le ((List.take_prefix _ _).trans hsub) hf.poll ?_
  rw [List.length_take, List.length_append, chunk, List.length_take]
  omega

end Feed
