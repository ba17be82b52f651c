import Mathlib.Data.List.Perm.Subperm
import Komanda.Lib.Table

/-!
# Row level security

A policy decides for the context of a transaction which rows it may see. Under a forced policy a statement works
on the `visible` rows only: a query filters them, a deletion leaves what is hidden. `Batch` is what a query with a
limit owes to its caller when the caller means the whole table.
-/

namespace RowSecurity

variable {κ α : Type}

/-- The `USING` clause of a policy. -/
abbrev Policy (κ α : Type) := κ → α → Bool

def visible (policy : Policy κ α) (ctx : κ) (rows : List α) : List α := rows.filter (policy ctx)

/-- `DELETE FROM rows WHERE p`. -/
def delete (policy : Policy κ α) (ctx : κ) (p : α → Bool) (rows : List α) : List α :=
  rows.filter fun r => !(policy ctx r && p r)

/-- `UPDATE rows SET f WHERE p`. -/
def update (policy : Policy κ α) (ctx : κ) (p : α → Bool) (f : α → α) (rows : List α) : List α :=
  Table.updateWhere (fun r => policy ctx r && p r) f rows

/-- `INSERT row … ON CONFLICT (k) DO UPDATE SET f`, refused when the row, or what it becomes of the one with its key,
or that one itself is hidden. -/
def upsert {ι : Type} [DecidableEq ι] (policy : Policy κ α) (ctx : κ) (k : α → ι) (row : α) (f : α → α)
    (rows : List α) : Option (List α) :=
  if policy ctx row && (Table.lookup k (k row) rows).all fun r => policy ctx r && policy ctx (f r) then
    some (Table.upsert k row f rows)
  else none

/-- As many of the rows as the limit allows. -/
structure Batch (rows : List α) (limit : Nat) (result : List α) : Prop where
  subperm : result.Subperm rows
  length : result.length = min limit rows.length

section Rules
variable {policy : Policy κ α} {ctx : κ} {p : α → Bool} {f : α → α} {rows result : List α} {limit : Nat}

theorem visible_eq_self (h : ∀ r ∈ rows, policy ctx r = true) : visible policy ctx rows = rows :=
  List.filter_eq_self.2 h

/-- A deletion that may see everything deletes what it names. -/
theorem delete_of_visible (h : ∀ r ∈ rows, policy ctx r = true) :
    delete policy ctx p rows = rows.filter fun r => !p r :=
  List.filter_congr fun r hr => by rw [h r hr, Bool.true_and]

/-- A deletion deletes what it names, if it may see that. -/
theorem delete_of_visible_of (h : ∀ r ∈ rows, p r = true → policy ctx r = true) :
    delete policy ctx p rows = rows.filter fun r => !p r := by
  refine List.filter_congr fun r hr => ?_
  cases hp : p r with
  | false => rw [Bool.and_false]
  | true => rw [h r hr hp, Bool.and_true]

theorem upsert_of_visible {ι : Type} [DecidableEq ι] {k : α → ι} {row : α} (hrow : policy ctx row = true)
    (h : ∀ r ∈ rows, k r = k row → policy ctx r = true ∧ policy ctx (f r) = true) :
    upsert policy ctx k row f rows = some (Table.upsert k row f rows) := by
  rw [upsert, if_pos]
  rw [hrow, Bool.true_and, Option.all_eq_true]
  intro r hr
  obtain ⟨hold, hnew⟩ := h r (Table.lookup_mem hr) (Table.lookup_key hr)
  rw [hold, hnew, Bool.and_true]

/-- The first rows, in any order, are a batch. -/
theorem Batch.of_perm {sorted : List α} (h : sorted.Perm rows) : Batch rows limit (sorted.take limit) := by
  refine ⟨(List.take_sublist limit sorted).subperm.trans h.subperm, ?_⟩
  rw [List.length_take, h.length_eq]

/-- Nothing is a batch of nothing, or of a limit of zero. -/
theorem Batch.nil_iff : Batch rows limit [] ↔ rows = [] ∨ limit = 0 := by
  constructor
  · intro h
    have hlength := h.length
    rw [List.length_nil, eq_comm, Nat.min_eq_zero_iff] at hlength
    rcases hlength with hzero | hnil
    · exact .inr hzero
    · exact .inl (List.length_eq_zero_iff.1 hnil)
  · rintro (rfl | rfl)
    · exact ⟨List.nil_subperm, by simp⟩
    · exact ⟨List.nil_subperm, by simp⟩

end Rules
end RowSecurity
