import Mathlib.Algebra.Order.Ring.Int
import Mathlib.Data.List.Forall2
import Mathlib.Data.List.Nodup

/-!
# Tables as lists of rows

Rows stand in insertion order. `lookup k a` is `SELECT … WHERE k = a LIMIT 1`, `updateWhere p f` is
`UPDATE … SET f WHERE p`, an insertion appends. `UniqueOn k` is a unique constraint on the columns
`k`; an update keeps it when it leaves these columns alone, an insertion when no row has the new
row's columns.
-/

namespace Table

variable {α κ : Type}

def updateWhere (p : α → Bool) (f : α → α) (rows : List α) : List α :=
  rows.map fun r => if p r then f r else r

def lookup [DecidableEq κ] (k : α → κ) (a : κ) (rows : List α) : Option α :=
  rows.find? fun r => k r = a

/-- `INSERT row … ON CONFLICT (k) DO UPDATE SET f`. -/
def upsert [DecidableEq κ] (k : α → κ) (row : α) (f : α → α) (rows : List α) : List α :=
  if (lookup k (k row) rows).isSome then updateWhere (fun r => k r = k row) f rows else rows ++ [row]

/-- Row by row: what has the key `a` has changed under `R`, all else is as it was. -/
def ChangesAt (k : α → κ) (a : κ) (R : α → α → Prop) (rows rows' : List α) : Prop :=
  List.Forall₂ (fun r r' => (k r = a → R r r') ∧ (k r ≠ a → r' = r)) rows rows'

/-- No two rows agree on the columns `k`. -/
def UniqueOn (k : α → κ) (rows : List α) : Prop := (rows.map k).Nodup

instance [DecidableEq κ] (k : α → κ) (rows : List α) : Decidable (UniqueOn k rows) :=
  inferInstanceAs (Decidable (List.Nodup _))

section Update
variable {p : α → Bool} {f : α → α} {rows : List α} {r : α}

theorem mem_updateWhere : r ∈ updateWhere p f rows ↔ ∃ q ∈ rows, (if p q then f q else q) = r := by
  simp [updateWhere]

/-- A row of the updated table is an untouched row or the update of a matching one. -/
theorem mem_updateWhere_cases (h : r ∈ updateWhere p f rows) :
    (r ∈ rows ∧ p r = false) ∨ ∃ q ∈ rows, p q = true ∧ r = f q := by
  obtain ⟨q, hq, rfl⟩ := mem_updateWhere.1 h
  cases hp : p q with
  | false => exact .inl ⟨by simpa [hp] using hq, by simp [hp]⟩
  | true => exact .inr ⟨q, hq, hp, by simp⟩

theorem mem_updateWhere_of_not (h : r ∈ rows) (hp : p r = false) : r ∈ updateWhere p f rows :=
  mem_updateWhere.2 ⟨r, h, by simp [hp]⟩

theorem mem_updateWhere_of (h : r ∈ rows) (hp : p r = true) : f r ∈ updateWhere p f rows :=
  mem_updateWhere.2 ⟨r, h, by simp [hp]⟩

/-- What held of every row holds of every row after one has been overwritten, if it holds of the new one. -/
theorem forall_overwrite {P : α → Prop} {row : α} (hr : r ∈ rows) (hp : p r = true) (h : ∀ q ∈ rows, P q) :
    (∀ q ∈ updateWhere p (fun _ => row) rows, P q) ↔ P row := by
  constructor
  · intro hall
    exact hall row (mem_updateWhere_of (f := fun _ => row) hr hp)
  · intro hrow q hq
    rcases mem_updateWhere_cases hq with ⟨hq, -⟩ | ⟨_, -, -, rfl⟩
    · exact h q hq
    · exact hrow

/-- The same after the update of a single row. -/
theorem forall_updateWhere {P : α → Prop} (hr : r ∈ rows) (hp : ∀ q ∈ rows, p q = true ↔ q = r) (h : ∀ q ∈ rows, P q) :
    (∀ q ∈ updateWhere p f rows, P q) ↔ P (f r) := by
  constructor
  · intro hall
    exact hall (f r) (mem_updateWhere_of hr ((hp r hr).2 rfl))
  · intro hrow q hq
    rcases mem_updateWhere_cases hq with ⟨hq, -⟩ | ⟨x, hx, hpx, rfl⟩
    · exact h q hq
    · rwa [(hp x hx).1 hpx]

@[simp] theorem length_updateWhere : (updateWhere p f rows).length = rows.length := by
  simp [updateWhere]

/-- Columns the update leaves alone read as before. -/
theorem map_updateWhere {k : α → κ} (hk : ∀ r, p r = true → k (f r) = k r) :
    (updateWhere p f rows).map k = rows.map k := by
  rw [updateWhere, List.map_map]
  refine List.map_congr_left fun r _ => ?_
  cases hp : p r with
  | false => simp [hp]
  | true => simpa [hp] using hk r hp

theorem updateWhere_eq_self (h : ∀ r ∈ rows, p r = false) : updateWhere p f rows = rows := by
  rw [updateWhere]
  exact (List.map_congr_left fun r hr => by simp [h r hr]).trans (List.map_id' rows)

/-- An update that only the last row matches. -/
theorem updateWhere_concat (h : ∀ q ∈ rows, p q = false) (hr : p r = true) :
    updateWhere p f (rows ++ [r]) = rows ++ [f r] := by
  have hrows : rows.map (fun q => if p q then f q else q) = rows := updateWhere_eq_self h
  rw [updateWhere, List.map_append, hrows, List.map_singleton, if_pos hr]

end Update

section Lookup
variable [DecidableEq κ] {k : α → κ} {a b : κ} {p : α → Bool} {f : α → α} {rows : List α} {r : α}

theorem lookup_mem (h : lookup k a rows = some r) : r ∈ rows := List.mem_of_find?_eq_some h

theorem lookup_key (h : lookup k a rows = some r) : k r = a := by
  simpa using List.find?_some h

/-- The row that an optimistic update finds: it has the key, and still the version. -/
theorem find?_versioned {ν : Type} [DecidableEq ν] {v : α → ν} {n : ν}
    (h : rows.find? (fun r => k r = a && v r = n) = some r) : r ∈ rows ∧ k r = a ∧ v r = n := by
  have hmatch := List.find?_some h
  simp only [Bool.and_eq_true, decide_eq_true_eq] at hmatch
  exact ⟨List.mem_of_find?_eq_some h, hmatch⟩

theorem lookup_eq_none : lookup k a rows = none ↔ ∀ r ∈ rows, k r ≠ a := by simp [lookup]

theorem lookup_map {β : Type} {k' : β → κ} {g : α → β} (hk : ∀ r, k' (g r) = k r) :
    lookup k' a (rows.map g) = (lookup k a rows).map g := by
  unfold lookup
  rw [List.find?_map]
  congr 2
  funext r
  simp [hk]

theorem lookup_append_of_ne (h : k r ≠ a) : lookup k a (rows ++ [r]) = lookup k a rows := by
  simp [lookup, List.find?_append, h]

theorem lookup_append_of_none (h : lookup k a rows = none) (hr : k r = a) :
    lookup k a (rows ++ [r]) = some r := by
  unfold lookup at h ⊢
  rw [List.find?_append, h]
  simp [hr]

theorem lookup_append_of_some (h : lookup k a rows = some r) (q : α) : lookup k a (rows ++ [q]) = some r := by
  unfold lookup at h ⊢
  rw [List.find?_append, h]
  rfl

/-- Finding a row after an update that leaves the condition alone. -/
theorem find?_updateWhere {q : α → Bool} (hq : ∀ r, p r = true → q (f r) = q r) :
    (updateWhere p f rows).find? q = (rows.find? q).map fun r => if p r then f r else r := by
  induction rows with
  | nil => rfl
  | cons r rows ih =>
    have hr : q (if p r then f r else r) = q r := by
      split
      · exact hq r ‹_›
      · rfl
    simp only [updateWhere, List.map_cons, List.find?_cons, hr] at ih ⊢
    split
    · simp
    · exact ih

/-- Reading a row after an update that leaves its key alone. -/
theorem lookup_updateWhere (hk : ∀ r, p r = true → k (f r) = k r) :
    lookup k a (updateWhere p f rows) = (lookup k a rows).map fun r => if p r then f r else r :=
  find?_updateWhere fun r hr => by rw [hk r hr]

theorem lookup_overwrite {row : α} (hr : r ∈ rows) (hk : k row = k r) :
    lookup k a (updateWhere (fun q => k q = k r) (fun _ => row) rows) = if a =
      k r then some row else lookup k a rows := by
  rw [lookup_updateWhere fun q hq => hk.trans (of_decide_eq_true hq).symm]
  split
  · next ha =>
    subst ha
    cases hl : lookup k (k r) rows with
    | none => exact absurd rfl (lookup_eq_none.1 hl r hr)
    | some q => simp [lookup_key hl]
  · next ha =>
    cases hl : lookup k a rows with
    | none => rfl
    | some q =>
      rw [Option.map_some, if_neg]
      simpa [lookup_key hl] using ha

/-- The row that is upserted is there, and takes the place of the one with its key. -/
theorem mem_upsert (hf : ∀ q ∈ rows, k q = k r → f q = r) {q : α} :
    q ∈ upsert k r f rows ↔ q = r ∨ (q ∈ rows ∧ k q ≠ k r) := by
  unfold upsert
  split
  · next hsome =>
    obtain ⟨q₀, hq₀⟩ := Option.isSome_iff_exists.1 hsome
    rw [mem_updateWhere]
    constructor
    · rintro ⟨q₁, hq₁, rfl⟩
      by_cases hk : k q₁ = k r
      · simpa [hk] using Or.inl (hf q₁ hq₁ hk)
      · simpa [hk] using Or.inr hq₁
    · rintro (rfl | ⟨hq, hk⟩)
      · exact ⟨q₀, lookup_mem hq₀, by simpa [lookup_key hq₀] using hf q₀ (lookup_mem hq₀) (lookup_key hq₀)⟩
      · exact ⟨q, hq, by simp [hk]⟩
  · next hnone =>
    have hfree := lookup_eq_none.1 (Option.not_isSome_iff_eq_none.1 hnone)
    rw [List.mem_append, List.mem_singleton, or_comm]
    exact or_congr Iff.rfl ⟨fun hq => ⟨hq, hfree q hq⟩, And.left⟩

/-- A row of an upserted table: one of another key, the changed one of its key, or the first of its key. -/
theorem mem_upsert_cases {q : α} (h : q ∈ upsert k r f rows) :
    (q ∈ rows ∧ k q ≠ k r) ∨ (∃ q₀ ∈ rows, k q₀ = k r ∧ q = f q₀) ∨ (q = r ∧ ∀ x ∈ rows, k x ≠ k r) := by
  unfold upsert at h
  split at h
  · rcases mem_updateWhere_cases h with ⟨hq, hne⟩ | ⟨q₀, hq₀, hk, rfl⟩
    · exact .inl ⟨hq, of_decide_eq_false hne⟩
    · exact .inr (.inl ⟨q₀, hq₀, of_decide_eq_true hk, rfl⟩)
  · next hnone =>
    have hnew := lookup_eq_none.1 (Option.not_isSome_iff_eq_none.1 hnone)
    rcases List.mem_append.1 h with hq | hq
    · exact .inl ⟨hq, hnew q hq⟩
    · exact .inr (.inr ⟨List.mem_singleton.1 hq, hnew⟩)

theorem mem_map_upsert (hf : ∀ q, k q = k r → k (f q) = k q) :
    a ∈ (upsert k r f rows).map k ↔ a ∈ rows.map k ∨ a = k r := by
  unfold upsert
  split
  · next hsome =>
    obtain ⟨q₀, hq₀⟩ := Option.isSome_iff_exists.1 hsome
    rw [map_updateWhere fun q hq => hf q (of_decide_eq_true hq)]
    refine ⟨.inl, fun h => h.elim id fun ha => ?_⟩
    rw [ha, ← lookup_key hq₀]
    exact List.mem_map_of_mem (lookup_mem hq₀)
  · rw [List.map_append, List.mem_append, List.map_singleton, List.mem_singleton]

theorem lookup_upsert (hf : ∀ q, k q = k r → f q = r) :
    lookup k a (upsert k r f rows) = if a = k r then some r else lookup k a rows := by
  have hkey : ∀ q, decide (k q = k r) = true → k (f q) = k q := fun q hq => by
    rw [hf q (of_decide_eq_true hq), of_decide_eq_true hq]
  unfold upsert
  split
  · next hsome =>
    obtain ⟨q₀, hq₀⟩ := Option.isSome_iff_exists.1 hsome
    rw [lookup_updateWhere hkey]
    split
    · next ha => rw [ha, hq₀, Option.map_some, if_pos (by simp [lookup_key hq₀]), hf q₀ (lookup_key hq₀)]
    · next ha =>
      cases hl : lookup k a rows with
      | none => rfl
      | some q => rw [Option.map_some, if_neg (by simpa [lookup_key hl] using ha)]
  · next hnone =>
    rw [Option.not_isSome_iff_eq_none] at hnone
    split
    · next ha => rw [ha, lookup_append_of_none hnone rfl]
    · next ha => rw [lookup_append_of_ne (Ne.symm ha)]

end Lookup

section Unique
variable {k : α → κ} {p : α → Bool} {f : α → α} {rows : List α} {r q : α}

theorem UniqueOn.nil : UniqueOn k ([] : List α) := List.nodup_nil

theorem UniqueOn.eq (h : UniqueOn k rows) (hr : r ∈ rows) (hq : q ∈ rows) (hk : k r = k q) : r = q :=
  List.inj_on_of_nodup_map h hr hq hk

theorem UniqueOn.append (h : UniqueOn k rows) (hr : ∀ q ∈ rows, k q ≠ k r) :
    UniqueOn k (rows ++ [r]) := by
  rw [UniqueOn, List.map_append, List.nodup_append]
  refine ⟨h, by simp, ?_⟩
  rintro _ ha b hb rfl
  obtain ⟨q, hq, rfl⟩ := List.mem_map.1 ha
  exact hr q hq (by simpa using hb)

theorem UniqueOn.updateWhere (h : UniqueOn k rows) (hk : ∀ r, p r = true → k (f r) = k r) :
    UniqueOn k (updateWhere p f rows) := by
  rw [UniqueOn, map_updateWhere hk]; exact h

theorem UniqueOn.overwrite [DecidableEq κ] {row : α} (h : UniqueOn k rows) (hk : k row = k r) :
    UniqueOn k (Table.updateWhere (fun q => k q = k r) (fun _ => row) rows) :=
  h.updateWhere fun _ hq => hk.trans (of_decide_eq_true hq).symm

theorem UniqueOn.upsert [DecidableEq κ] (h : UniqueOn k rows) (hf : ∀ q ∈ rows, k q = k r → k (f q) = k q) :
    UniqueOn k (upsert k r f rows) := by
  unfold Table.upsert
  split
  · rw [UniqueOn, Table.updateWhere, List.map_map]
    have hmap : List.map (k ∘ fun q => if decide (k q = k r) = true then f q else q) rows = rows.map k := by
      refine List.map_congr_left fun q hq => ?_
      by_cases hk : k q = k r
      · simpa [hk] using hf q hq hk
      · simp [hk]
    rw [hmap]
    exact h
  · next hnone =>
    exact h.append (lookup_eq_none.1 (Option.not_isSome_iff_eq_none.1 hnone))

theorem UniqueOn.lookup [DecidableEq κ] (h : UniqueOn k rows) (hr : r ∈ rows) :
    lookup k (k r) rows = some r := by
  cases hl : Table.lookup k (k r) rows with
  | none => exact absurd rfl (lookup_eq_none.1 hl r hr)
  | some q => rw [h.eq (lookup_mem hl) hr (lookup_key hl)]

/-- A condition that fixes the key finds the row that meets it. -/
theorem UniqueOn.find?_eq (h : UniqueOn k rows) (hr : r ∈ rows) (hp : p r = true) (hk : ∀ q, p q = true → k q = k r) :
    rows.find? p = some r := by
  cases hfind : rows.find? p with
  | none => exact absurd hp (List.find?_eq_none.1 hfind r hr)
  | some q => rw [h.eq (List.mem_of_find?_eq_some hfind) hr (hk q (List.find?_some hfind))]

/-- The same of the row of a key, by what it takes for the new row. -/
theorem UniqueOn.forall_overwrite_iff [DecidableEq κ] {P C : α → Prop} {row : α} (h : UniqueOn k rows) (hr : r ∈ rows)
    (hall : ∀ q ∈ rows, P q) (hrow : P row ↔ C r) :
    (∀ q ∈ Table.updateWhere (fun q => k q = k r) (fun _ => row) rows, P q) ↔ ∀ q ∈ Table.lookup k (k r) rows, C q := by
  rw [forall_overwrite hr (by simp) hall, hrow, h.lookup hr]
  simp

/-- Overwriting the row of a key changes that row and no other. -/
theorem UniqueOn.changesAt_overwrite [DecidableEq κ] {R : α → α → Prop} {row : α} (h : UniqueOn k rows)
    (hr : r ∈ rows) :
    ChangesAt k (k r) R rows (Table.updateWhere (fun q => k q = k r) (fun _ => row) rows) ↔ R r row := by
  rw [ChangesAt, Table.updateWhere, List.forall₂_map_right_iff, List.forall₂_same]
  constructor
  · intro hall
    simpa using (hall r hr).1 rfl
  · intro hrow q hq
    refine ⟨fun hk => ?_, fun hk => by simp [hk]⟩
    obtain rfl := h.eq hq hr hk
    simpa using hrow

theorem UniqueOn.nodup (h : UniqueOn k rows) : rows.Nodup := List.Nodup.of_map k h

/-- Updating one row changes a sum over the table by what it does to that row. -/
theorem sum_updateWhere {w : α → Int} (hn : rows.Nodup) (hr : r ∈ rows)
    (hp : ∀ q ∈ rows, p q = true ↔ q = r) :
    ((Table.updateWhere p f rows).map w).sum = (rows.map w).sum - w r + w (f r) := by
  induction rows with
  | nil => cases hr
  | cons q rows ih =>
    obtain ⟨hq, hn⟩ := List.nodup_cons.1 hn
    by_cases hqr : q = r
    · subst hqr
      have hrest : Table.updateWhere p f rows = rows := updateWhere_eq_self fun x hx =>
        Bool.eq_false_iff.2 fun hpx => hq ((hp x (List.mem_cons_of_mem _ hx)).1 hpx ▸ hx)
      have hpq : p q = true := (hp q List.mem_cons_self).2 rfl
      rw [Table.updateWhere] at hrest
      simp only [Table.updateWhere, List.map_cons, hpq, if_true, hrest, List.sum_cons]
      omega
    · have hpq : p q = false := Bool.eq_false_iff.2 fun h => hqr ((hp q List.mem_cons_self).1 h)
      have hmem : r ∈ rows := (List.mem_cons.1 hr).resolve_left fun h => hqr h.symm
      have ih := ih hn hmem fun x hx => hp x (List.mem_cons_of_mem _ hx)
      rw [Table.updateWhere] at ih
      simp only [Table.updateWhere, List.map_cons, hpq, Bool.false_eq_true, if_false, List.sum_cons, ih]
      omega

/-- A unique key has at most one row. -/
theorem UniqueOn.filter_eq [DecidableEq κ] (h : UniqueOn k rows) (hr : r ∈ rows) :
    rows.filter (fun q => k q = k r) = [r] := by
  induction rows with
  | nil => cases hr
  | cons q rows ih =>
    have hn := List.nodup_cons.1 h
    rcases List.mem_cons.1 hr with rfl | hr
    · have : rows.filter (fun q => k q = k r) = [] :=
        List.filter_eq_nil_iff.2 fun q hq => by
          simpa using fun hk => hn.1 (List.mem_map.2 ⟨q, hq, hk⟩)
      simp [this]
    · have hne : k q ≠ k r := fun hk => hn.1 (List.mem_map.2 ⟨r, hr, hk.symm⟩)
      simp [hne, ih hn.2 hr]

/-- A condition that pins the key selects one row at most. -/
theorem UniqueOn.length_filter_le_one (h : UniqueOn k rows)
    (hp : ∀ a ∈ rows, ∀ b ∈ rows, p a = true → p b = true → k a = k b) : (rows.filter p).length ≤ 1 := by
  have hn : ((rows.filter p).map k).Nodup := h.sublist (List.filter_sublist.map k)
  cases hf : rows.filter p with
  | nil => simp
  | cons a as =>
    cases as with
    | nil => simp
    | cons b bs =>
      have hmem {x : α} (hx : x ∈ a :: b :: bs) : x ∈ rows ∧ p x = true := List.mem_filter.1 (hf ▸ hx)
      obtain ⟨ha, hpa⟩ := hmem (x := a) (by simp)
      obtain ⟨hb, hpb⟩ := hmem (x := b) (by simp)
      rw [hf] at hn
      exact absurd (by simp [hp a ha b hb hpa hpb]) (List.nodup_cons.1 hn).1

end Unique

end Table
