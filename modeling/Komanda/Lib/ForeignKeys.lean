import Mathlib.Algebra.GroupWithZero.Nat
import Mathlib.Data.List.Basic
import Mathlib.Data.List.Nodup

/-!
# Deleting under foreign keys

Rows of named tables refer to rows of others through foreign keys. A `delete` takes away the rows that meet a condition
and what cascades from them, clears the columns that are set to null, and fails when a key forbids it: a `restrict`
tolerates no row outside the statement's own, a `noAction` none that stays, and a column that may not be null is never
cleared. A null column of the child matches nothing.

`erase` deletes what an owner has, one table after another. If children come before their parents (`Ordered`), it leaves
exactly the rows of the others iff none of these refers to a row of the owner.
-/

inductive OnDelete
  | noAction
  | restrict
  | cascade
  | setNull
  deriving DecidableEq

structure ForeignKey (Table Column : Type) where
  table : Table
  pairs : List (Column × Column)
  parent : Table
  onDelete : OnDelete
  nonempty : pairs ≠ [] := by simp

structure Row (Column Value Rest : Type) where
  cell : Column → Option Value
  rest : Rest

/-- The tables, the keys between them and the columns that may not be null. -/
structure Relations (Table Column : Type) where
  tables : List Table
  complete : ∀ t, t ∈ tables
  keys : List (ForeignKey Table Column)
  required : Table → Column → Bool

set_option linter.unusedSectionVars false

variable {Table Column Value Rest : Type} [DecidableEq Table] [DecidableEq Column] [DecidableEq Value]

namespace ForeignKey
variable {k : ForeignKey Table Column} {r r' q q' : Row Column Value Rest}

def refers (k : ForeignKey Table Column) (r q : Row Column Value Rest) : Bool :=
  k.pairs.all fun p => (r.cell p.1).isSome && decide (r.cell p.1 = q.cell p.2)

/-- Some row of the parent table to which `r` refers meets `p`. -/
def hits (k : ForeignKey Table Column) (db : Table → List (Row Column Value Rest))
    (p : Table → Row Column Value Rest → Bool) (r : Row Column Value Rest) : Bool :=
  (db k.parent).any fun q => p k.parent q && k.refers r q

def columns (k : ForeignKey Table Column) : List Column := k.pairs.map Prod.fst

def references (k : ForeignKey Table Column) : List Column := k.pairs.map Prod.snd

/-- Every row refers to one of the parent table, or has a null among the columns of the key. -/
def Holds (k : ForeignKey Table Column) (db : Table → List (Row Column Value Rest)) : Prop :=
  ∀ r ∈ db k.table, (∃ c ∈ k.columns, r.cell c = none) ∨ ∃ q ∈ db k.parent, k.refers r q = true

instance {k : ForeignKey Table Column} {db : Table → List (Row Column Value Rest)} : Decidable (k.Holds db) :=
  inferInstanceAs (Decidable (∀ r ∈ db k.table, (∃ c ∈ k.columns, r.cell c = none) ∨
    ∃ q ∈ db k.parent, k.refers r q = true))

theorem refers_iff : k.refers r q = true ↔ ∀ p ∈ k.pairs, (r.cell p.1).isSome = true ∧ r.cell p.1 = q.cell p.2 := by
  simp only [refers, List.all_eq_true, Bool.and_eq_true, decide_eq_true_eq]

theorem hits_iff {db : Table → List (Row Column Value Rest)} {p : Table → Row Column Value Rest → Bool} :
    k.hits db p r = true ↔ ∃ q ∈ db k.parent, p k.parent q = true ∧ k.refers r q = true := by
  simp only [hits, List.any_eq_true, Bool.and_eq_true]

theorem isSome_of_refers (h : k.refers r q = true) {c : Column} (hc : c ∈ k.columns) : (r.cell c).isSome = true := by
  obtain ⟨p, hp, rfl⟩ := List.mem_map.1 hc
  exact (refers_iff.1 h p hp).1

end ForeignKey

namespace Row
variable {r r' r'' q q' : Row Column Value Rest} {k : ForeignKey Table Column}

/-- `r` is `r'` with some columns cleared. -/
def Fades (r r' : Row Column Value Rest) : Prop := ∀ c, r.cell c = none ∨ r.cell c = r'.cell c

theorem Fades.refl (r : Row Column Value Rest) : r.Fades r := fun _ => .inr rfl

theorem Fades.trans (h : r.Fades r') (h' : r'.Fades r'') : r.Fades r'' := by
  intro c
  rcases h c with hc | hc
  · exact .inl hc
  · rw [hc]
    exact h' c

theorem Fades.eq_of_isSome (h : r.Fades r') {c : Column} (hc : (r.cell c).isSome = true) : r'.cell c = r.cell c := by
  rcases h c with hnone | heq
  · rw [hnone] at hc
    cases hc
  · exact heq.symm

theorem Fades.refers (h : r.Fades r') (hq : ∀ c ∈ k.references, q'.cell c = q.cell c) (hr : k.refers r q = true) :
    k.refers r' q' = true := by
  refine ForeignKey.refers_iff.2 fun p hp => ?_
  obtain ⟨hsome, heq⟩ := ForeignKey.refers_iff.1 hr p hp
  rw [h.eq_of_isSome hsome, hq p.2 (List.mem_map_of_mem hp)]
  exact ⟨hsome, heq⟩

end Row

namespace Relations
variable (S : Relations Table Column) (db : Table → List (Row Column Value Rest))

/-! ## One statement -/

section Statement
variable (t : Table) (p : Row Column Value Rest → Bool)

def own (u : Table) (r : Row Column Value Rest) : Bool := decide (u = t) && p r

/-- With the rows of `d`, those that refer to one of them through a cascading key. -/
def spread (d : Table → Row Column Value Rest → Bool) (u : Table) (r : Row Column Value Rest) : Bool :=
  d u r || S.keys.any fun k => decide (k.table = u ∧ k.onDelete = .cascade) && k.hits db d r

def cascaded : Nat → (Table → Row Column Value Rest → Bool) → Table → Row Column Value Rest → Bool
  | 0, d => d
  | n + 1, d => cascaded n (S.spread db d)

/-- A round that adds nothing is the last, so there are no more rounds than rows. -/
def doomed : Table → Row Column Value Rest → Bool :=
  S.cascaded db ((S.tables.map fun u => (db u).length).sum) (own t p)

/-- `k` forbids the statement because of `r`. -/
def forbids (k : ForeignKey Table Column) (r : Row Column Value Rest) : Bool :=
  match k.onDelete with
  | .restrict => !own t p k.table r
  | .noAction => !S.doomed db t p k.table r
  | .cascade => false
  | .setNull => !S.doomed db t p k.table r && k.columns.any (S.required k.table)

def blocks (k : ForeignKey Table Column) : Bool :=
  (db k.table).any fun r => k.hits db (S.doomed db t p) r && S.forbids db t p k r

/-- `c` of the row `r` of `u` is set to null. -/
def clears (u : Table) (r : Row Column Value Rest) (c : Column) : Bool :=
  S.keys.any fun k =>
    decide (k.table = u ∧ k.onDelete = .setNull ∧ c ∈ k.columns) && k.hits db (S.doomed db t p) r

def cleared (u : Table) (r : Row Column Value Rest) : Row Column Value Rest :=
  { r with cell := fun c => if S.clears db t p u r c then none else r.cell c }

def delete : Except (ForeignKey Table Column) (Table → List (Row Column Value Rest)) :=
  match S.keys.find? (S.blocks db t p) with
  | some k => .error k
  | none => .ok fun u => ((db u).filter fun r => !S.doomed db t p u r).map (S.cleared db t p u)

end Statement

section Statement
variable {S db} {t : Table} {p : Row Column Value Rest → Bool} {d : Table → Row Column Value Rest → Bool}
  {db' : Table → List (Row Column Value Rest)} {k : ForeignKey Table Column} {u : Table} {r : Row Column Value Rest}

theorem own_iff : own t p u r = true ↔ u = t ∧ p r = true := by
  simp only [own, Bool.and_eq_true, decide_eq_true_eq]

theorem spread_iff : S.spread db d u r = true ↔
    d u r = true ∨ ∃ k ∈ S.keys, (k.table = u ∧ k.onDelete = .cascade) ∧ k.hits db d r = true := by
  simp only [spread, Bool.or_eq_true, List.any_eq_true, Bool.and_eq_true, decide_eq_true_eq]

/-- What holds of the rows of `d` and is handed on by the cascading keys holds of every row that goes with them. -/
theorem cascaded_inv {P : Table → Row Column Value Rest → Prop}
    (hk : ∀ k ∈ S.keys, k.onDelete = .cascade → ∀ r, ∀ q ∈ db k.parent, P k.parent q → k.refers r q = true → P k.table r)
    {n : Nat} (hd : ∀ u r, d u r = true → P u r) (h : S.cascaded db n d u r = true) : P u r := by
  induction n generalizing d with
  | zero => exact hd u r h
  | succ n ih =>
    refine ih (fun u r hspread => ?_) h
    rcases spread_iff.1 hspread with hdr | ⟨k, hmem, ⟨rfl, hcascade⟩, hhits⟩
    · exact hd u r hdr
    · obtain ⟨q, hq, hdq, hrefers⟩ := ForeignKey.hits_iff.1 hhits
      exact hk k hmem hcascade r q hq (hd _ q hdq) hrefers

theorem cascaded_of {n : Nat} (h : d u r = true) : S.cascaded db n d u r = true := by
  induction n generalizing d with
  | zero => exact h
  | succ n ih => exact ih (spread_iff.2 (.inl h))

theorem doomed_of_own (h : own t p u r = true) : S.doomed db t p u r = true := cascaded_of h

/-- A row that refers through a cascading key to a row of the statement goes with it. -/
theorem doomed_of_hits (hk : k ∈ S.keys) (hcascade : k.onDelete = .cascade) (hhits : k.hits db (own t p) r = true) :
    S.doomed db t p k.table r = true := by
  obtain ⟨q, hq, -⟩ := ForeignKey.hits_iff.1 hhits
  have hrows : 0 < (S.tables.map fun u => (db u).length).sum :=
    List.sum_pos_iff_exists_pos_nat.2
      ⟨_, List.mem_map_of_mem (S.complete k.parent), List.length_pos_of_mem hq⟩
  obtain ⟨n, hn⟩ := Nat.exists_eq_succ_of_ne_zero (Nat.ne_of_gt hrows)
  rw [doomed, hn, cascaded]
  exact cascaded_of (spread_iff.2 (.inr ⟨k, hk, ⟨rfl, hcascade⟩, hhits⟩))

theorem delete_ok_iff : S.delete db t p = .ok db' ↔ (∀ k ∈ S.keys, S.blocks db t p k = false) ∧
    db' = fun u => ((db u).filter fun r => !S.doomed db t p u r).map (S.cleared db t p u) := by
  rw [delete]
  cases hfind : S.keys.find? (S.blocks db t p) with
  | none =>
    simp only [List.find?_eq_none, Bool.not_eq_true] at hfind
    constructor
    · intro h
      exact ⟨hfind, (Except.ok.inj h).symm⟩
    · rintro ⟨-, rfl⟩
      rfl
  | some k =>
    constructor
    · intro h
      cases h
    · intro h
      have hblocks := List.find?_some hfind
      rw [h.1 k (List.mem_of_find?_eq_some hfind)] at hblocks
      cases hblocks

theorem clears_iff {c : Column} : S.clears db t p u r c = true ↔
    ∃ k ∈ S.keys, (k.table = u ∧ k.onDelete = .setNull ∧ c ∈ k.columns) ∧ k.hits db (S.doomed db t p) r = true := by
  simp only [clears, List.any_eq_true, Bool.and_eq_true, decide_eq_true_eq]

theorem cleared_fades : (S.cleared db t p u r).Fades r := by
  intro c
  simp only [cleared]
  split
  · exact .inl rfl
  · exact .inr rfl

theorem blocks_iff : S.blocks db t p k = true ↔
    ∃ r ∈ db k.table, k.hits db (S.doomed db t p) r = true ∧ S.forbids db t p k r = true := by
  simp only [blocks, List.any_eq_true, Bool.and_eq_true]

theorem forbids_of_hits (hb : S.blocks db t p k = false) (hr : r ∈ db k.table)
    (hits : k.hits db (S.doomed db t p) r = true) : S.forbids db t p k r = false := by
  rw [← Bool.not_eq_true] at hb ⊢
  exact fun h => hb (blocks_iff.2 ⟨r, hr, hits, h⟩)

/-- The rows that are left are those that are not doomed, cleared. -/
theorem origin_of_delete (h : S.delete db t p = .ok db') (hr : r ∈ db' u) :
    ∃ r' ∈ db u, S.doomed db t p u r' = false ∧ r = S.cleared db t p u r' := by
  rw [(delete_ok_iff.1 h).2] at hr
  obtain ⟨r', hr', rfl⟩ := List.mem_map.1 hr
  obtain ⟨hmem, hnot⟩ := List.mem_filter.1 hr'
  exact ⟨r', hmem, by simpa using hnot, rfl⟩

theorem cleared_mem (h : S.delete db t p = .ok db') (hr : r ∈ db u) (hd : S.doomed db t p u r = false) :
    S.cleared db t p u r ∈ db' u := by
  rw [(delete_ok_iff.1 h).2]
  exact List.mem_map_of_mem (List.mem_filter.2 ⟨hr, by rw [hd]; rfl⟩)

end Statement

/-! ## One table after another -/

def erase (mine : Table → Row Column Value Rest → Bool) :
    List Table → (Table → List (Row Column Value Rest)) →
      Except (ForeignKey Table Column) (Table → List (Row Column Value Rest))
  | [], db => .ok db
  | t :: rest, db => do
    let db ← S.delete db t (mine t)
    erase mine rest db

/-- The rows of a table that carry `x` in the column of the owner, if the table has one. -/
def owned (owner : Table → Option Column) (x : Value) (u : Table) (r : Row Column Value Rest) : Bool :=
  match owner u with
  | some c => decide (r.cell c = some x)
  | none => false

/-- The key clears columns that may be null. -/
def clearable (k : ForeignKey Table Column) : Bool :=
  decide (k.onDelete = .setNull) && !k.columns.any (S.required k.table)

/-- Every table with an owner is listed once, after those whose rows keep its own from being deleted, and a column that
is set to null is neither that of the owner nor one that a key refers to. -/
structure Ordered (owner : Table → Option Column) (order : List Table) : Prop where
  nodup : order.Nodup
  owners : ∀ u ∈ S.tables, (owner u).isSome = true → u ∈ order
  children : ∀ k ∈ S.keys, k.parent ∈ order →
    S.clearable k = true ∨ order.idxOf k.table ≤ order.idxOf k.parent
  unreferenced : ∀ k ∈ S.keys, S.clearable k = true → ∀ k' ∈ S.keys, k'.parent = k.table →
    ∀ c ∈ k.columns, c ∉ k'.references
  unowned : ∀ k ∈ S.keys, S.clearable k = true → ∀ c ∈ k.columns, owner k.table ≠ some c

/-- The columns of the owner and those that keys refer to are the same. -/
def SameKey (owner : Table → Option Column) (u : Table) (r r' : Row Column Value Rest) : Prop :=
  (∀ k ∈ S.keys, k.parent = u → ∀ c ∈ k.references, r.cell c = r'.cell c) ∧
    ∀ c, owner u = some c → r.cell c = r'.cell c

section Order
variable {S db} {owner : Table → Option Column} {x : Value} {order rest pre post : List Table} {t u : Table}
  {db' now : Table → List (Row Column Value Rest)} {k : ForeignKey Table Column} {r r' q q' : Row Column Value Rest}

theorem clearable_iff : S.clearable k = true ↔ k.onDelete = .setNull ∧ k.columns.any (S.required k.table) = false := by
  simp only [clearable, Bool.and_eq_true, decide_eq_true_eq, Bool.not_eq_true']

theorem SameKey.trans {r'' : Row Column Value Rest} (h : S.SameKey owner u r r') (h' : S.SameKey owner u r' r'') :
    S.SameKey owner u r r'' :=
  ⟨fun k hk hp c hc => (h.1 k hk hp c hc).trans (h'.1 k hk hp c hc), fun c hc => (h.2 c hc).trans (h'.2 c hc)⟩

theorem SameKey.owned (h : S.SameKey owner u r r') : Relations.owned owner x u r = Relations.owned owner x u r' := by
  rw [Relations.owned, Relations.owned]
  cases ho : owner u with
  | none => rfl
  | some c => simp only [h.2 c ho]

/-- What a statement clears in a row that stays is neither the owner's column nor one that a key refers to. -/
theorem Ordered.cleared_same {p : Row Column Value Rest → Bool} (hO : S.Ordered owner order)
    (hb : ∀ k ∈ S.keys, S.blocks db t p k = false) (hr : r ∈ db u) (hd : S.doomed db t p u r = false) :
    S.SameKey owner u (S.cleared db t p u r) r := by
  have hkey {c : Column} (hc : S.clears db t p u r c = true) :
      ∃ k ∈ S.keys, S.clearable k = true ∧ k.table = u ∧ c ∈ k.columns := by
    obtain ⟨k, hk, ⟨rfl, hnull, hmem⟩, hhits⟩ := clears_iff.1 hc
    have hforbids := forbids_of_hits (hb k hk) hr hhits
    rw [forbids, hnull, hd] at hforbids
    exact ⟨k, hk, clearable_iff.2 ⟨hnull, hforbids⟩, rfl, hmem⟩
  have hsame {c : Column} (hc : S.clears db t p u r c = false) : (S.cleared db t p u r).cell c = r.cell c := by
    simp only [cleared, hc, Bool.false_eq_true, if_false]
  constructor
  · intro k' hk' hp c hc
    cases hclears : S.clears db t p u r c with
    | false => exact hsame hclears
    | true =>
      obtain ⟨k, hk, hclear, rfl, hmem⟩ := hkey hclears
      exact absurd hc (hO.unreferenced k hk hclear k' hk' hp c hmem)
  · intro c hc
    cases hclears : S.clears db t p u r c with
    | false => exact hsame hclears
    | true =>
      obtain ⟨k, hk, hclear, rfl, hmem⟩ := hkey hclears
      exact absurd hc (hO.unowned k hk hclear c hmem)

theorem erase_cons_ok {mine : Table → Row Column Value Rest → Bool} (h : S.erase mine (t :: rest) db = .ok db') :
    ∃ now, S.delete db t (mine t) = .ok now ∧ S.erase mine rest now = .ok db' := by
  rw [erase] at h
  cases hdelete : S.delete db t (mine t) with
  | error k =>
    rw [hdelete] at h
    cases h
  | ok now =>
    rw [hdelete] at h
    exact ⟨now, rfl, h⟩

theorem erase_append_ok {mine : Table → Row Column Value Rest → Bool}
    (h : S.erase mine (pre ++ rest) db = .ok db') :
    ∃ now, S.erase mine pre db = .ok now ∧ S.erase mine rest now = .ok db' := by
  induction pre generalizing db with
  | nil => exact ⟨db, rfl, h⟩
  | cons t pre ih =>
    obtain ⟨now, hdelete, hrest⟩ := erase_cons_ok h
    obtain ⟨mid, hpre, hlast⟩ := ih hrest
    refine ⟨mid, ?_, hlast⟩
    rw [erase, hdelete]
    exact hpre

theorem origin_of_erase {mine : Table → Row Column Value Rest → Bool} (h : S.erase mine order db = .ok db')
    (hr : r ∈ db' u) : ∃ r' ∈ db u, r.Fades r' := by
  induction order generalizing db with
  | nil =>
    cases h
    exact ⟨r, hr, Row.Fades.refl r⟩
  | cons t rest ih =>
    obtain ⟨now, hdelete, hrest⟩ := erase_cons_ok h
    obtain ⟨r', hr', hfades⟩ := ih hrest
    obtain ⟨r'', hr'', -, rfl⟩ := origin_of_delete hdelete hr'
    exact ⟨r'', hr'', hfades.trans cleared_fades⟩

/-- A statement takes no row of a table that comes later. -/
theorem Ordered.doomed_le {p : Row Column Value Rest → Bool} (hO : S.Ordered owner order) (ht : t ∈ order)
    (h : S.doomed db t p u r = true) : order.idxOf u ≤ order.idxOf t := by
  refine cascaded_inv (P := fun u _ => order.idxOf u ≤ order.idxOf t) (fun k hk hcascade _ _ _ hle _ => ?_)
    (fun v _ hown => ?_) h
  · have hparent : k.parent ∈ order := List.idxOf_lt_length_iff.1 (Nat.lt_of_le_of_lt hle (List.idxOf_lt_length_iff.2 ht))
    rcases hO.children k hk hparent with hclear | hchild
    · rw [(clearable_iff.1 hclear).1] at hcascade
      cases hcascade
    · exact Nat.le_trans hchild hle
  · exact Nat.le_of_eq (congrArg (fun w => order.idxOf w) (own_iff.1 hown).1)

/-- Until its own turn a table keeps its rows, except for what is cleared in them. -/
theorem Ordered.kept (hO : S.Ordered owner order)
    (hlist : ∀ v ∈ pre, v ∈ order ∧ order.idxOf v < order.idxOf t) (h : S.erase (owned owner x) pre db = .ok db')
    (hq : q ∈ db t) : ∃ q' ∈ db' t, S.SameKey owner t q' q := by
  induction pre generalizing db q with
  | nil =>
    cases h
    exact ⟨q, hq, fun _ _ _ _ _ => rfl, fun _ _ => rfl⟩
  | cons v pre ih =>
    obtain ⟨now, hdelete, hrest⟩ := erase_cons_ok h
    obtain ⟨hv, hlt⟩ := hlist v (List.mem_cons_self ..)
    have hstays : S.doomed db v (owned owner x v) t q = false := by
      rw [← Bool.not_eq_true]
      intro hdoomed
      exact absurd (hO.doomed_le hv hdoomed) (Nat.not_le.2 hlt)
    obtain ⟨q', hq', hsame⟩ := ih (fun w hw => hlist w (List.mem_cons_of_mem v hw)) hrest (cleared_mem hdelete hq hstays)
    exact ⟨q', hq', hsame.trans (hO.cleared_same (delete_ok_iff.1 hdelete).1 hq hstays)⟩

theorem idxOf_lt_of_mem (hnodup : (pre ++ t :: post).Nodup) {v : Table} (hv : v ∈ pre) :
    (pre ++ t :: post).idxOf v < (pre ++ t :: post).idxOf t := by
  have hnot : t ∉ pre := fun ht => List.disjoint_of_nodup_append hnodup ht (List.mem_cons_self ..)
  rw [List.idxOf_append_of_mem hv, List.idxOf_append_of_notMem hnot, List.idxOf_cons_self, Nat.add_zero]
  exact List.idxOf_lt_length_iff.2 hv

/-! ## What an owner leaves behind -/

/-- No row of the others refers to one of the owner, in the tables of `order`. -/
def Unreferenced (S : Relations Table Column) (owner : Table → Option Column) (x : Value) (order : List Table)
    (db : Table → List (Row Column Value Rest)) : Prop :=
  ∀ k ∈ S.keys, k.parent ∈ order → ∀ r ∈ db k.table, owned owner x k.table r = false →
    ∀ q ∈ db k.parent, owned owner x k.parent q = true → k.refers r q = false

/-- After the tables of `pre`: the others' rows are as they were, those tables hold nothing of the owner, and a row that
is left has its keys. -/
structure Purged (S : Relations Table Column) (owner : Table → Option Column) (x : Value)
    (db : Table → List (Row Column Value Rest)) (pre : List Table) (now : Table → List (Row Column Value Rest)) :
    Prop where
  others : ∀ u, (now u).filter (fun r => !owned owner x u r) = (db u).filter fun r => !owned owner x u r
  gone : ∀ u ∈ pre, ∀ r ∈ now u, owned owner x u r = false
  origin : ∀ u, ∀ q ∈ now u, ∃ q' ∈ db u, S.SameKey owner u q q'

theorem Purged.start : Purged S owner x db [] db :=
  ⟨fun _ => rfl, fun _ hu => absurd hu List.not_mem_nil, fun _ q hq => ⟨q, hq, fun _ _ _ _ _ => rfl, fun _ _ => rfl⟩⟩

theorem Purged.mem_of_others (h : Purged S owner x db pre now) (hr : r ∈ now u) (ho : owned owner x u r = false) :
    r ∈ db u := by
  have hmem : r ∈ (now u).filter fun r => !owned owner x u r := List.mem_filter.2 ⟨hr, by rw [ho]; rfl⟩
  rw [h.others u] at hmem
  exact List.mem_of_mem_filter hmem

section Turn
variable (hO : S.Ordered owner (pre ++ t :: post)) (hU : Unreferenced S owner x (pre ++ t :: post) db)
  (h : Purged S owner x db pre now)
include hO hU h

/-- Who refers to a row of the owner is a row of the owner, in the same table if the key keeps it from being deleted. -/
theorem Purged.owned_of_refers (hk : k ∈ S.keys) (hp : k.parent = t) (hr : r ∈ now k.table) (hq : q ∈ now t)
    (hq' : owned owner x t q = true) (hrefers : k.refers r q = true) :
    owned owner x k.table r = true ∧ (S.clearable k = true ∨ k.table = t) := by
  have ht : t ∈ pre ++ t :: post := List.mem_append_right pre (List.mem_cons_self ..)
  have hown : owned owner x k.table r = true := by
    rw [← Bool.not_eq_false]
    intro hother
    obtain ⟨q₀, hq₀, hsame⟩ := h.origin t q hq
    have hfalse := hU k hk (hp ▸ ht) r (h.mem_of_others hr hother) hother q₀ (hp ▸ hq₀)
      (by rw [hp, ← hsame.owned]; exact hq')
    rw [(Row.Fades.refl r).refers (fun c hc => (hsame.1 k hk hp c hc).symm) hrefers] at hfalse
    cases hfalse
  refine ⟨hown, ?_⟩
  rcases hO.children k hk (hp ▸ ht) with hclear | hle
  · exact .inl hclear
  · refine .inr ?_
    by_contra hne
    rw [hp] at hle
    have hin : k.table ∈ pre ++ t :: post :=
      List.idxOf_lt_length_iff.1 (Nat.lt_of_le_of_lt hle (List.idxOf_lt_length_iff.2 ht))
    rcases List.mem_append.1 hin with hpre | hpost
    · rw [h.gone k.table hpre r hr] at hown
      cases hown
    · rcases List.mem_cons.1 hpost with heq | hpost
      · exact hne heq
      · have hnot : k.table ∉ pre := fun hpre =>
          List.disjoint_of_nodup_append hO.nodup hpre (List.mem_cons_of_mem t hpost)
        have hnot' : t ∉ pre := fun hpre => List.disjoint_of_nodup_append hO.nodup hpre (List.mem_cons_self ..)
        rw [List.idxOf_append_of_notMem hnot, List.idxOf_append_of_notMem hnot', List.idxOf_cons_self,
          List.idxOf_cons_ne _ fun heq => hne heq.symm] at hle
        omega

/-- Nothing goes with the owner's rows of the table whose turn it is. -/
theorem Purged.doomed_iff (hr : r ∈ now u) :
    S.doomed now t (owned owner x t) u r = own t (owned owner x t) u r := by
  rw [Bool.eq_iff_iff]
  constructor
  · intro hdoomed
    refine cascaded_inv (P := fun u r => r ∈ now u → own t (owned owner x t) u r = true)
      (fun k hk hcascade r q hq hown hrefers hr => ?_) (fun _ _ hown _ => hown) hdoomed hr
    obtain ⟨hparent, hq'⟩ := own_iff.1 (hown hq)
    obtain ⟨hr', hclear | htable⟩ := h.owned_of_refers hO hU hk hparent hr (hparent ▸ hq) hq' hrefers
    · rw [(clearable_iff.1 hclear).1] at hcascade
      cases hcascade
    · exact own_iff.2 ⟨htable, htable ▸ hr'⟩
  · exact doomed_of_own

theorem Purged.owned_of_hits (hk : k ∈ S.keys) (hr : r ∈ now k.table)
    (hhits : k.hits now (S.doomed now t (owned owner x t)) r = true) :
    owned owner x k.table r = true ∧ (S.clearable k = true ∨ k.table = t) := by
  obtain ⟨q, hq, hdoomed, hrefers⟩ := ForeignKey.hits_iff.1 hhits
  rw [h.doomed_iff hO hU hq] at hdoomed
  obtain ⟨hparent, hq'⟩ := own_iff.1 hdoomed
  exact h.owned_of_refers hO hU hk hparent hr (hparent ▸ hq) hq' hrefers

theorem Purged.not_blocks (hk : k ∈ S.keys) : S.blocks now t (owned owner x t) k = false := by
  rw [← Bool.not_eq_true]
  intro hblocks
  obtain ⟨r, hr, hhits, hforbids⟩ := blocks_iff.1 hblocks
  obtain ⟨hown, hcases⟩ := h.owned_of_hits hO hU hk hr hhits
  have hgoes (htable : k.table = t) : own t (owned owner x t) k.table r = true := own_iff.2 ⟨htable, htable ▸ hown⟩
  rw [forbids, h.doomed_iff hO hU hr] at hforbids
  rcases hcases with hclear | htable
  · obtain ⟨hnull, hrequired⟩ := clearable_iff.1 hclear
    rw [hnull, hrequired] at hforbids
    simp only [Bool.and_false, Bool.false_eq_true] at hforbids
  · rw [hgoes htable] at hforbids
    cases haction : k.onDelete with
    | noAction | restrict | cascade | setNull =>
      rw [haction] at hforbids
      cases hforbids

/-- Nothing is cleared in the rows of the others. -/
theorem Purged.cleared_other (hr : r ∈ now u) (ho : owned owner x u r = false) :
    S.cleared now t (owned owner x t) u r = r := by
  have hclears (c : Column) : S.clears now t (owned owner x t) u r c = false := by
    rw [← Bool.not_eq_true]
    intro hclears
    obtain ⟨k, hk, ⟨rfl, -, -⟩, hhits⟩ := clears_iff.1 hclears
    rw [(h.owned_of_hits hO hU hk hr hhits).1] at ho
    cases ho
  simp only [cleared, hclears, Bool.false_eq_true, if_false]

theorem Purged.step :
    ∃ now', S.delete now t (owned owner x t) = .ok now' ∧ Purged S owner x db (pre ++ [t]) now' := by
  have hb : ∀ k ∈ S.keys, S.blocks now t (owned owner x t) k = false := fun k hk => h.not_blocks hO hU hk
  have hsame {u : Table} {r : Row Column Value Rest} (hr : r ∈ now u)
      (hd : S.doomed now t (owned owner x t) u r = false) :
      S.SameKey owner u (S.cleared now t (owned owner x t) u r) r := hO.cleared_same hb hr hd
  have hdelete := delete_ok_iff.2 ⟨hb, rfl⟩
  refine ⟨_, hdelete, ?_, ?_, ?_⟩
  · intro u
    have hstays : ∀ r ∈ now u,
        ((!owned owner x u (S.cleared now t (owned owner x t) u r)) && !S.doomed now t (owned owner x t) u r) =
          !owned owner x u r := by
      intro r hr
      cases hd : S.doomed now t (owned owner x t) u r with
      | false => rw [(hsame hr hd).owned, Bool.not_false, Bool.and_true]
      | true =>
        rw [h.doomed_iff hO hU hr] at hd
        obtain ⟨rfl, hown⟩ := own_iff.1 hd
        rw [hown, Bool.not_true, Bool.and_false]
    calc (((now u).filter fun r => !S.doomed now t (owned owner x t) u r).map
          (S.cleared now t (owned owner x t) u)).filter (fun r => !owned owner x u r)
        = ((now u).filter fun r => !owned owner x u r).map (S.cleared now t (owned owner x t) u) := by
          rw [List.filter_map, List.filter_filter]
          exact congrArg _ (List.filter_congr hstays)
      _ = (now u).filter fun r => !owned owner x u r := by
          have hother : ∀ r ∈ (now u).filter fun r => !owned owner x u r,
              S.cleared now t (owned owner x t) u r = id r := by
            intro r hr
            obtain ⟨hmem, ho⟩ := List.mem_filter.1 hr
            exact h.cleared_other hO hU hmem (by simpa using ho)
          exact (List.map_congr_left hother).trans (List.map_id _)
      _ = (db u).filter fun r => !owned owner x u r := h.others u
  · intro u hu r hr
    obtain ⟨r', hr', hd, rfl⟩ := origin_of_delete hdelete hr
    rw [(hsame hr' hd).owned]
    rcases List.mem_append.1 hu with hpre | hlast
    · exact h.gone u hpre r' hr'
    · rw [List.mem_singleton.1 hlast] at hr' hd ⊢
      rw [h.doomed_iff hO hU hr', ← Bool.not_eq_true, own_iff] at hd
      rw [← Bool.not_eq_true]
      exact fun hown => hd ⟨rfl, hown⟩
  · intro u q hq
    obtain ⟨r', hr', hd, rfl⟩ := origin_of_delete hdelete hq
    obtain ⟨q', hq', hkey⟩ := h.origin u r' hr'
    exact ⟨q', hq', (hsame hr' hd).trans hkey⟩

end Turn

theorem Purged.run (h : Purged S owner x db pre now) (hO : S.Ordered owner (pre ++ rest))
    (hU : Unreferenced S owner x (pre ++ rest) db) :
    ∃ db', S.erase (owned owner x) rest now = .ok db' ∧ Purged S owner x db (pre ++ rest) db' := by
  induction rest generalizing pre now with
  | nil => exact ⟨now, rfl, (List.append_nil pre).symm ▸ h⟩
  | cons t rest ih =>
    obtain ⟨next, hdelete, hnext⟩ := h.step hO hU
    have heq : pre ++ t :: rest = (pre ++ [t]) ++ rest := (List.append_cons pre t rest)
    rw [heq] at hO hU ⊢
    obtain ⟨db', herase, hpurged⟩ := ih hnext hO hU
    refine ⟨db', ?_, hpurged⟩
    rw [erase, hdelete]
    exact herase

/-- A row of the others that refers to one of the owner stops the statement that deletes it, goes with it or is
changed. -/
theorem Ordered.unreferenced_of_erase (hO : S.Ordered owner order) (h : S.erase (owned owner x) order db = .ok db')
    (hothers : ∀ u, db' u = (db u).filter fun r => !owned owner x u r) : Unreferenced S owner x order db := by
  intro k hk hparent r hr ho q hq hq'
  rw [← Bool.not_eq_true]
  intro hrefers
  obtain ⟨pre, post, rfl⟩ := List.append_of_mem hparent
  obtain ⟨now, hpre, hrest⟩ := erase_append_ok h
  obtain ⟨next, hdelete, hpost⟩ := erase_cons_ok hrest
  obtain ⟨q', hnow, hsame⟩ := hO.kept (fun v hv => ⟨List.mem_append_left _ hv, idxOf_lt_of_mem hO.nodup hv⟩) hpre hq
  -- the row of the others is still there at the end, so its trace went through this statement
  have hlast : r ∈ db' k.table := by
    rw [hothers]
    exact List.mem_filter.2 ⟨hr, by rw [ho]; rfl⟩
  obtain ⟨r₂, hr₂, hfades⟩ := origin_of_erase hpost hlast
  obtain ⟨r₁, hr₁, hstays, rfl⟩ := origin_of_delete hdelete hr₂
  have hrefers₁ : k.refers r₁ q' = true :=
    (hfades.trans cleared_fades).refers (fun c hc => hsame.1 k hk rfl c hc) hrefers
  have hown : own k.parent (owned owner x k.parent) k.parent q' = true :=
    own_iff.2 ⟨rfl, by rw [hsame.owned]; exact hq'⟩
  have hhits : k.hits now (S.doomed now k.parent (owned owner x k.parent)) r₁ = true :=
    ForeignKey.hits_iff.2 ⟨q', hnow, doomed_of_own hown, hrefers₁⟩
  have hforbids := forbids_of_hits ((delete_ok_iff.1 hdelete).1 k hk) hr₁ hhits
  rw [forbids] at hforbids
  cases haction : k.onDelete with
  | restrict =>
    rw [haction, Bool.not_eq_false'] at hforbids
    rw [doomed_of_own hforbids] at hstays
    cases hstays
  | noAction =>
    rw [haction, hstays] at hforbids
    cases hforbids
  | cascade =>
    rw [doomed_of_hits hk haction (ForeignKey.hits_iff.2 ⟨q', hnow, hown, hrefers₁⟩)] at hstays
    cases hstays
  | setNull =>
    obtain ⟨c, hc⟩ := List.exists_mem_of_ne_nil k.columns (fun hnil => k.nonempty (List.map_eq_nil_iff.1 hnil))
    have hclears : S.clears now k.parent (owned owner x k.parent) k.table r₁ c = true :=
      clears_iff.2 ⟨k, hk, ⟨rfl, haction, hc⟩, hhits⟩
    have hsome := hfades.eq_of_isSome (ForeignKey.isSome_of_refers hrefers hc)
    simp only [cleared, hclears, if_true] at hsome
    have hnone := ForeignKey.isSome_of_refers hrefers hc
    rw [← hsome] at hnone
    cases hnone

/-- Erasing what an owner has succeeds and leaves everything else as it was iff nothing else refers to it. -/
theorem Ordered.erase_iff (hO : S.Ordered owner order) :
    (∃ db', S.erase (owned owner x) order db = .ok db' ∧ ∀ u, db' u = (db u).filter fun r => !owned owner x u r) ↔
      Unreferenced S owner x order db := by
  constructor
  · rintro ⟨db', h, hothers⟩
    exact hO.unreferenced_of_erase h hothers
  · intro hU
    have hstart : Purged S owner x db [] db := Purged.start
    obtain ⟨db', h, hpurged⟩ := hstart.run hO hU
    refine ⟨db', h, fun u => ?_⟩
    rw [← hpurged.others u, List.filter_eq_self.2]
    intro r hr
    rw [Bool.not_eq_true']
    cases howner : owner u with
    | none => rw [owned, howner]
    | some c => exact hpurged.gone u (hO.owners u (S.complete u) (by rw [howner]; rfl)) r hr

/-! ## Keys that name the owner -/

/-- Child and parent have the same owner. -/
def confined (owner : Table → Option Column) (k : ForeignKey Table Column) : Bool :=
  k.pairs.any fun p => decide (owner k.table = some p.1 ∧ owner k.parent = some p.2)

theorem owned_of_confined (h : confined owner k = true) (hr : k.refers r q = true) :
    owned owner x k.table r = owned owner x k.parent q := by
  obtain ⟨p, hp, hcolumns⟩ := List.any_eq_true.1 h
  obtain ⟨hchild, hparent⟩ := of_decide_eq_true hcolumns
  rw [owned, owned, hchild, hparent]
  simp only [(ForeignKey.refers_iff.1 hr p hp).2]

/-- Only the keys that do not name the owner can cross. -/
theorem unreferenced_iff : Unreferenced S owner x order db ↔
    ∀ k ∈ S.keys.filter (fun k => !confined owner k && decide (k.parent ∈ order)),
      ∀ r ∈ db k.table, owned owner x k.table r = false →
        ∀ q ∈ db k.parent, owned owner x k.parent q = true → k.refers r q = false := by
  constructor
  · intro h k hk
    obtain ⟨hmem, hcond⟩ := List.mem_filter.1 hk
    simp only [Bool.and_eq_true, decide_eq_true_eq] at hcond
    exact h k hmem hcond.2
  · intro h k hk hparent r hr ho q hq hq'
    cases hconfined : confined owner k with
    | false =>
      have hcond : (!confined owner k && decide (k.parent ∈ order)) = true := by
        rw [hconfined, decide_eq_true hparent]
        rfl
      exact h k (List.mem_filter.2 ⟨hk, hcond⟩) r hr ho q hq hq'
    | true =>
      rw [← Bool.not_eq_true]
      intro hrefers
      rw [owned_of_confined hconfined hrefers, hq'] at ho
      cases ho

end Order
end Relations
