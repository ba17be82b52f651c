import Mathlib.Data.List.Basic

/-!
# Deleting in batches

A `Delete` takes away at most `n` rows at a time and counts them. `all` is what is left when it has nothing more to
take: a batch that is not full has taken the last one (`done`), and a batch leaves the same remainder (`rest`). So a
loop of batches that ends on one that is not full has deleted everything, however the rows were chosen.
-/

structure Delete (σ : Type) where
  run : Nat → σ → σ × Nat
  all : σ → σ
  done : ∀ n s, (run n s).2 < n → (run n s).1 = all s
  rest : ∀ n s, all (run n s).1 = all s

namespace Delete
variable {σ τ ρ : Type}

/-- Batches of `n` rows, `fuel` of them at most: what is left, how many rows are deleted, and whether there may be
more. -/
def batches (d : Delete σ) (n : Nat) : Nat → σ → Nat → σ × Nat × Bool
  | 0, s, deleted => (s, deleted, true)
  | fuel + 1, s, deleted =>
    let batch := d.run n s
    if batch.2 < n then (batch.1, deleted + batch.2, false)
    else d.batches n fuel batch.1 (deleted + batch.2)

theorem batches_all {d : Delete σ} {n fuel deleted : Nat} {s : σ} (h : (d.batches n fuel s deleted).2.2 = false) :
    (d.batches n fuel s deleted).1 = d.all s := by
  induction fuel generalizing s deleted with
  | zero => cases h
  | succ fuel ih =>
    rw [batches] at h ⊢
    split at h
    · next hlast =>
      rw [if_pos hlast]
      exact d.done n s hlast
    · next hfull =>
      rw [if_neg hfull, ih h]
      exact d.rest n s

/-- What every batch keeps. -/
theorem batches_inv {P : σ → Prop} {d : Delete σ} {n fuel deleted : Nat} {s : σ} (hrun : ∀ s, P s → P (d.run n s).1)
    (h : P s) : P (d.batches n fuel s deleted).1 := by
  induction fuel generalizing s deleted with
  | zero => exact h
  | succ fuel ih =>
    rw [batches]
    split
    · exact hrun s h
    · exact ih (hrun s h)

/-! ## Rows -/

section Rows
variable (p : ρ → Bool)

/-- The first rows that meet `p`. -/
def first : Nat → List ρ → List ρ × Nat
  | _, [] => ([], 0)
  | n, r :: rows =>
    if p r && decide (0 < n) then
      let others := first (n - 1) rows
      (others.1, others.2 + 1)
    else
      let others := first n rows
      (r :: others.1, others.2)

variable {p} {r : ρ} {rows : List ρ} {n : Nat}

theorem first_cons_of (hp : p r = true) (hn : 0 < n) :
    first p n (r :: rows) = ((first p (n - 1) rows).1, (first p (n - 1) rows).2 + 1) :=
  if_pos (by rw [hp, decide_eq_true hn]; rfl)

theorem first_cons_of_not (hp : p r = false) : first p n (r :: rows) = (r :: (first p n rows).1, (first p n rows).2) :=
  if_neg (by rw [hp]; exact Bool.false_ne_true)

theorem first_zero : first p 0 rows = (rows, 0) := by
  induction rows with
  | nil => rfl
  | cons r rows ih => rw [first, if_neg (by simp), ih]

theorem first_done (n : Nat) (rows : List ρ) (h : (first p n rows).2 < n) :
    (first p n rows).1 = rows.filter fun r => !p r := by
  induction rows generalizing n with
  | nil => rfl
  | cons r rows ih =>
    cases hp : p r with
    | true =>
      rw [first_cons_of hp (Nat.zero_lt_of_lt h)] at h ⊢
      rw [List.filter_cons_of_neg (by rw [hp]; decide)]
      exact ih (n - 1) (by simp only at h; omega)
    | false =>
      rw [first_cons_of_not hp] at h ⊢
      rw [List.filter_cons_of_pos (by rw [hp]; rfl), ← ih n h]

theorem first_rest (n : Nat) (rows : List ρ) :
    ((first p n rows).1.filter fun r => !p r) = rows.filter fun r => !p r := by
  induction rows generalizing n with
  | nil => rfl
  | cons r rows ih =>
    cases hp : p r with
    | true =>
      rcases Nat.eq_zero_or_pos n with rfl | hn
      · rw [first_zero]
      · rw [first_cons_of hp hn, List.filter_cons_of_neg (by rw [hp]; decide)]
        exact ih (n - 1)
    | false =>
      rw [first_cons_of_not hp, List.filter_cons_of_pos (l := rows) (by rw [hp]; rfl), ← ih n]
      exact List.filter_cons_of_pos (by rw [hp]; rfl)

theorem mem_of_first {q : ρ} (h : q ∈ (first p n rows).1) : q ∈ rows := by
  induction rows generalizing n with
  | nil => exact h
  | cons r rows ih =>
    rw [first] at h
    split at h
    · exact List.mem_cons_of_mem _ (ih h)
    · rcases List.mem_cons.1 h with rfl | h
      · exact List.mem_cons_self
      · exact List.mem_cons_of_mem _ (ih h)

variable (p)

/-- `DELETE … WHERE p`. -/
def whole : Delete (List ρ) where
  run := first p
  all rows := rows.filter fun r => !p r
  done := first_done
  rest := first_rest

end Rows

/-! ## Rows under rows -/

section Inside
variable (p : ρ → Bool) (d : Delete ρ)

/-- What `d` deletes of the rows that meet `p`. -/
def insideRun : Nat → List ρ → List ρ × Nat
  | _, [] => ([], 0)
  | n, r :: rows =>
    if p r then
      let own := d.run n r
      let others := insideRun (n - own.2) rows
      (own.1 :: others.1, own.2 + others.2)
    else
      let others := insideRun n rows
      (r :: others.1, others.2)

variable {p d} {r : ρ} {rows : List ρ} {n : Nat}

theorem insideRun_of (hp : p r = true) : insideRun p d n (r :: rows) =
    ((d.run n r).1 :: (insideRun p d (n - (d.run n r).2) rows).1,
    (d.run n r).2 + (insideRun p d (n - (d.run n r).2) rows).2) := if_pos hp

theorem insideRun_of_not (hp : p r = false) :
    insideRun p d n (r :: rows) = (r :: (insideRun p d n rows).1, (insideRun p d n rows).2) :=
  if_neg (by rw [hp]; exact Bool.false_ne_true)

theorem insideRun_done (n : Nat) (rows : List ρ) (h : (insideRun p d n rows).2 < n) :
    (insideRun p d n rows).1 = rows.map fun r => if p r then d.all r else r := by
  induction rows generalizing n with
  | nil => rfl
  | cons r rows ih =>
    cases hp : p r with
    | true =>
      rw [insideRun_of hp] at h ⊢
      simp only at h
      have hown := d.done n r (by omega)
      have hothers := ih (n - (d.run n r).2) (by omega)
      rw [List.map_cons, if_pos hp, ← hown, ← hothers]
    | false =>
      rw [insideRun_of_not hp] at h ⊢
      rw [List.map_cons, hp, if_neg Bool.false_ne_true, ← ih n h]

theorem insideRun_rest (hp : ∀ n r, p (d.run n r).1 = p r) (n : Nat) (rows : List ρ) :
    (insideRun p d n rows).1.map (fun r => if p r then d.all r else r) =
      rows.map fun r => if p r then d.all r else r := by
  induction rows generalizing n with
  | nil => rfl
  | cons r rows ih =>
    cases hr : p r with
    | true => rw [insideRun_of hr, List.map_cons, ih, List.map_cons, hp, hr, if_pos rfl, if_pos rfl, d.rest]
    | false => rw [insideRun_of_not hr, List.map_cons, ih, List.map_cons]

theorem mem_of_insideRun {q : ρ} (h : q ∈ (insideRun p d n rows).1) : ∃ r ∈ rows, q = r ∨ ∃ m, q = (d.run m r).1 := by
  induction rows generalizing n with
  | nil => cases h
  | cons r rows ih =>
    rw [insideRun] at h
    split at h
    · rcases List.mem_cons.1 h with rfl | h
      · exact ⟨r, List.mem_cons_self, .inr ⟨n, rfl⟩⟩
      · obtain ⟨x, hx, hcases⟩ := ih h
        exact ⟨x, List.mem_cons_of_mem _ hx, hcases⟩
    · rcases List.mem_cons.1 h with rfl | h
      · exact ⟨q, List.mem_cons_self, .inl rfl⟩
      · obtain ⟨x, hx, hcases⟩ := ih h
        exact ⟨x, List.mem_cons_of_mem _ hx, hcases⟩

variable (p d)

/-- `d` on each row that meets `p`; what `d` deletes does not bear on `p`. -/
def inside (hp : ∀ n r, p (d.run n r).1 = p r) : Delete (List ρ) where
  run := insideRun p d
  all rows := rows.map fun r => if p r then d.all r else r
  done := insideRun_done
  rest := insideRun_rest hp

end Inside

/-! ## Parts of a state -/

/-- A delete on a part of the state; what is to be deleted may depend on the rest of it. -/
def on (get : σ → τ) (set : τ → σ → σ) (d : σ → Delete τ) (hget : ∀ t s, get (set t s) = t)
    (hset : ∀ t t' s, set t' (set t s) = set t' s) (hd : ∀ t s, d (set t s) = d s) : Delete σ where
  run n s :=
    let part := (d s).run n (get s)
    (set part.1 s, part.2)
  all s := set ((d s).all (get s)) s
  done n s h := congrArg (set · s) ((d s).done n (get s) h)
  rest n s := by rw [hset, hget, hd, (d s).rest]

/-- One table of which two parts are kept apart. -/
def pair (d : Delete σ) (d' : Delete τ) : Delete (σ × τ) where
  run n s :=
    let left := d.run n s.1
    let right := d'.run (n - left.2) s.2
    ((left.1, right.1), left.2 + right.2)
  all s := (d.all s.1, d'.all s.2)
  done n s h := by
    simp only at h
    exact Prod.ext (d.done n s.1 (by omega)) (d'.done _ s.2 (by omega))
  rest n s := by rw [d.rest, d'.rest]

end Delete
