import Komanda.Lib.ReadCommitted
import Mathlib.Data.List.Infix

/-!
# Numbers drawn from a maximum

A transaction that numbers a row reads the largest number of its series without a lock and takes the next one;
a unique key refuses a number that has been committed meanwhile. A stale maximum is the length of an earlier
series, so the only next number that is still free is that of the committed one: every series stays `1, …, n`
(`rely`).
-/

namespace MaxNumbers
open ReadCommitted

/-- The number after the largest of a series. -/
def next (ns : List Nat) : Nat := ns.foldl max 0 + 1

/-- A series without gaps and duplicates. -/
def Gapless (ns : List Nat) : Prop := ns = List.range' 1 ns.length

variable {ns vs : List Nat}

theorem Gapless.nil : Gapless [] := rfl

theorem Gapless.mem_iff (h : Gapless ns) {n : Nat} : n ∈ ns ↔ 1 ≤ n ∧ n ≤ ns.length := by
  rw [h, List.mem_range'_1, List.length_range']
  omega

theorem foldl_max_range' (m n : Nat) : (List.range' 1 n).foldl max m = max m n := by
  induction n with
  | zero => simp
  | succ n ih =>
    rw [List.range'_1_concat, List.foldl_append, ih]
    simp only [List.foldl_cons, List.foldl_nil]
    omega

theorem Gapless.next_eq (h : Gapless ns) : next ns = ns.length + 1 := by
  rw [next, h, foldl_max_range', List.length_range', Nat.zero_max]

theorem Gapless.of_prefix (h : Gapless ns) (hv : vs <+: ns) : Gapless vs := by
  obtain ⟨ts, rfl⟩ := hv
  obtain ⟨k, -, hvs, -⟩ := List.range'_eq_append_iff.1 (Eq.symm h)
  rw [Gapless, hvs, List.length_range']

/-- The number after an earlier maximum is free only when it is the number after the present one. -/
theorem Gapless.append (h : Gapless ns) (hv : vs <+: ns) (hfree : next vs ∉ ns) : Gapless (ns ++ [next vs]) := by
  have hlen : vs.length = ns.length := by
    have hle := hv.length_le
    rw [(h.of_prefix hv).next_eq, h.mem_iff] at hfree
    omega
  rw [(h.of_prefix hv).next_eq, hlen, Gapless, List.length_append, List.length_singleton, List.range'_1_concat]
  exact congrArg₂ (· ++ [·]) h (Nat.add_comm _ _)

section Rely
variable {σ α β ρ κ : Type} {exec : α → σ → σ → Option (β × σ)} {reread : ρ → σ → σ → σ}
  {numbers : κ → σ → List Nat} {C : α → σ → σ → Prop}

/-- Transactions that take the number after the maximum of their view, and commit only when it is free, number
every series without gaps. -/
theorem rely (hreread : ∀ r v db k, numbers k (reread r v db) = numbers k v ∨ numbers k (reread r v db) = numbers k db)
    (hstep : ∀ a v db b db', exec a v db = some (b, db') → ∀ k, numbers k db' = numbers k db ∨
      next (numbers k v) ∉ numbers k db ∧ numbers k db' = numbers k db ++ [next (numbers k v)]) :
    Rely exec reread (fun db => ∀ k, Gapless (numbers k db)) (fun v db => ∀ k, numbers k v <+: numbers k db) C where
  refl _ _ _ := List.prefix_refl _
  reread r v db _ hv k := by
    rcases hreread r v db k with he | he
    · rw [he]; exact hv k
    · rw [he]
  inv a v db b db' hi hv _ hx k := by
    rcases hstep a v db b db' hx k with he | ⟨hfree, he⟩
    · rw [he]; exact hi k
    · rw [he]; exact (hi k).append (hv k) hfree
  stable a v db b db' _ _ _ hx w hw k := by
    rcases hstep a v db b db' hx k with he | ⟨-, he⟩
    · rw [he]; exact hw k
    · rw [he]; exact (hw k).trans (List.prefix_append _ _)

end Rely

end MaxNumbers
