import Mathlib.Data.Nat.Basic

/-!
# Readings of a versioned row that drifts

A versioned write to a row counts its version up. Besides these, the row *drifts*: `drift n` changes it by
`n` units under the version that it has, and a counter beside the row adds the units up. A `Reading` is a row
as somebody has read it, with the counter of that moment. `Valid` is what a row owes to its readings; it
holds of a reading when it is taken, and both kinds of change keep it. By `Valid.row_eq_iff`, a row that still
has the version of a reading is the row as read exactly when it has not drifted since.
-/

namespace Versions

structure Reading (α : Type) where
  row : α
  total : Nat
deriving DecidableEq, Repr

variable {α : Type}

/-- Drifting adds up, leaves the version alone and never returns. -/
structure Drift (version : α → Nat) (drift : Nat → α → α) : Prop where
  version_eq : ∀ n r, version (drift n r) = version r
  zero : ∀ r, drift 0 r = r
  add : ∀ m n r, drift n (drift m r) = drift (m + n) r
  eq_self : ∀ n r, drift n r = r → n = 0

variable (version : α → Nat) (drift : Nat → α → α)

structure Valid (row : α) (total : Nat) (g : Reading α) : Prop where
  total_le : g.total ≤ total
  version_le : version g.row ≤ version row
  drifted : version g.row = version row → row = drift (total - g.total) g.row

variable {version drift} {row row' : α} {total : Nat} {g : Reading α}

namespace Valid

/-- A row that is read now. -/
theorem now (hd : Drift version drift) : Valid version drift row total ⟨row, total⟩ := by
  refine ⟨le_rfl, le_rfl, fun _ => ?_⟩
  simp only [Nat.sub_self]
  exact (hd.zero row).symm

theorem drifts (hd : Drift version drift) (h : Valid version drift row total g) (n : Nat) :
    Valid version drift (drift n row) (total + n) g := by
  have hle := h.total_le
  refine ⟨by omega, ?_, fun hv => ?_⟩
  · rw [hd.version_eq]
    exact h.version_le
  · rw [hd.version_eq] at hv
    have hrow := h.drifted hv
    calc drift n row = drift n (drift (total - g.total) g.row) := by rw [← hrow]
      _ = drift (total - g.total + n) g.row := hd.add _ _ _
      _ = drift (total + n - g.total) g.row := by
        congr 1
        omega

/-- A versioned write leaves every reading behind. -/
theorem write (h : Valid version drift row total g) (hv : version row < version row') :
    Valid version drift row' total g := by
  have hle := h.version_le
  exact ⟨h.total_le, by omega, fun heq => by omega⟩

theorem row_eq_iff (hd : Drift version drift) (h : Valid version drift row total g)
    (hv : version g.row = version row) : row = g.row ↔ total = g.total := by
  have hle := h.total_le
  have hrow := h.drifted hv
  constructor
  · intro heq
    rw [heq] at hrow
    have hzero := hd.eq_self _ _ hrow.symm
    omega
  · intro heq
    rw [hrow, heq, Nat.sub_self, hd.zero]

end Valid
end Versions
