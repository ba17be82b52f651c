import Komanda.Lib.Runs
import Komanda.Lib.Table

/-!
# Logs numbered by a locked counter

A transaction that appends to the log of a key takes the next value of the key's counter and inserts its
row under that number. It keeps the row of the counter locked until it ends: another transaction of the key
waits, and one that rolls back leaves the counter as it found it. So the committed numbers of a key are
`1, …, n` (`exec_inv`), and they come out in their order (`exec_grows`).
-/

namespace NumberedLog
open Table Runs

variable {κ ε : Type}

/-! ## The machine -/

structure Counter (κ : Type) where
  key : κ
  value : Nat
deriving DecidableEq, Repr

structure Row (κ ε : Type) where
  key : κ
  number : Nat
  content : ε
deriving DecidableEq, Repr

/-- The committed tables. -/
structure Tables (κ ε : Type) where
  counters : List (Counter κ) := []
  rows : List (Row κ ε) := []
deriving DecidableEq, Repr

/-- An open transaction. -/
structure Writer (κ ε : Type) where
  key : κ
  /-- Its version of the counter's row, once it holds that row locked. -/
  counter : Option Nat := none
  /-- The number of the row that it inserts next. -/
  taken : Option Nat := none
  inserted : List (Row κ ε) := []
deriving DecidableEq, Repr

structure Session (κ ε : Type) where
  tables : Tables κ ε := {}
  writers : List (Writer κ ε) := []
deriving DecidableEq, Repr

inductive Event (κ ε : Type)
  | start (k : κ)
  /-- The `i`-th transaction takes the next number. -/
  | take (i : Nat)
  /-- It inserts a row under the number that it has taken. -/
  | insert (i : Nat) (content : ε)
  | commit (i : Nat)
  | abort (i : Nat)
deriving DecidableEq, Repr

/-- A transaction beside a committed counter `value`: it has not touched the counter, or holds its row and has
numbered its rows from there. -/
inductive Writer.Sound (value : Nat) (w : Writer κ ε) : Prop
  | idle (hc : w.counter = none) (ht : w.taken = none) (hi : w.inserted = [])
  | holding (hc : w.counter = some (value + w.inserted.length + w.taken.toList.length))
      (ht : ∀ n ∈ w.taken, n = value + w.inserted.length + 1) (hk : ∀ r ∈ w.inserted, r.key = w.key)
      (hn : w.inserted.map Row.number = List.range' (value + 1) w.inserted.length)

section Sound
variable {w : Writer κ ε} {value : Nat}

/-- The keys of a sound transaction. -/
theorem Writer.Sound.keys (h : w.Sound value) : ∀ r ∈ w.inserted, r.key = w.key := by
  cases h with
  | idle _ _ hi => rw [hi]; exact fun _ h => (List.not_mem_nil h).elim
  | holding _ _ hk => exact hk

/-- What a sound transaction numbers. -/
theorem Writer.Sound.numbers (h : w.Sound value) :
    w.inserted.map Row.number = List.range' (value + 1) w.inserted.length := by
  cases h with
  | idle _ _ hi => rw [hi]; rfl
  | holding _ _ _ hn => exact hn

/-- A transaction that commits has no number in hand. -/
theorem Writer.Sound.counter (h : w.Sound value) (ht : w.taken = none) :
    w.counter.getD value = value + w.inserted.length := by
  cases h with
  | idle hc _ hi => rw [hc, hi]; rfl
  | holding hc => rw [hc, ht]; rfl

end Sound

variable [DecidableEq κ]

/-- The value of a counter; one without a row counts as 0. -/
def Tables.value (k : κ) (t : Tables κ ε) : Nat := ((lookup Counter.key k t.counters).map (·.value)).getD 0

/-- The rows of a key. -/
def Tables.log (k : κ) (t : Tables κ ε) : List (Row κ ε) := t.rows.filter (·.key = k)

def upsert (k : κ) (value : Nat) (counters : List (Counter κ)) : List (Counter κ) :=
  let set (c : Counter κ) := { c with value }
  if counters.any (·.key = k) then updateWhere (·.key = k) set counters else counters ++ [⟨k, value⟩]

/-- No transaction has the counter's row locked. -/
def unlocked (k : κ) (ws : List (Writer κ ε)) : Bool := ws.all fun w => !(w.key = k && w.counter.isSome)

/-- The number is in use: key and number are unique among the rows. -/
def used (k : κ) (number : Nat) (s : Session κ ε) : Bool :=
  (s.tables.rows ++ s.writers.flatMap (·.inserted)).any fun r => r.key = k && r.number = number

/-- What a commit leaves of the tables. -/
def Tables.save (w : Writer κ ε) (t : Tables κ ε) : Tables κ ε where
  counters := match w.counter with
    | none => t.counters
    | some value => upsert w.key value t.counters
  rows := t.rows ++ w.inserted

def takeNumber (w : Writer κ ε) (s : Session κ ε) : Option Nat :=
  match w.taken, w.counter with
  | some _, _ => none
  | none, some n => some (n + 1)
  | none, none => if unlocked w.key s.writers then some (s.tables.value w.key + 1) else none

def step (s : Session κ ε) : Event κ ε → Option (Session κ ε)
  | .start k => some { s with writers := s.writers ++ [{ key := k }] }
  | .take i => s.writers[i]?.bind fun w => (takeNumber w s).map fun n =>
      { s with writers := s.writers.set i { w with counter := some n, taken := some n } }
  | .insert i content => s.writers[i]?.bind fun w => w.taken.bind fun n =>
      if used w.key n s then none
      else some { s with
        writers := s.writers.set i { w with taken := none, inserted := w.inserted ++ [⟨w.key, n, content⟩] } }
  | .commit i => s.writers[i]?.bind fun w =>
      if w.taken = none then some { tables := s.tables.save w, writers := s.writers.eraseIdx i } else none
  | .abort i => s.writers[i]?.map fun _ => { s with writers := s.writers.eraseIdx i }

/-! ## The invariant -/

structure Inv (s : Session κ ε) : Prop where
  counters : UniqueOn Counter.key s.tables.counters
  numbered : ∀ k, (s.tables.log k).map Row.number = List.range' 1 (s.tables.value k)
  writers : ∀ w ∈ s.writers, w.Sound (s.tables.value w.key)
  /-- One transaction at a time holds the row of a counter. -/
  exclusive : ∀ (i j : Nat) (a b : Writer κ ε), s.writers[i]? = some a → s.writers[j]? = some b → a.key = b.key →
    a.counter ≠ none → b.counter ≠ none → i = j

section Tables
variable {t : Tables κ ε} {w : Writer κ ε} {k : κ} {value : Nat} {counters : List (Counter κ)}

theorem lookup_upsert (hu : UniqueOn Counter.key counters) :
    (lookup Counter.key k (upsert w.key value counters)).map (·.value) =
      if w.key = k then some value else (lookup Counter.key k counters).map (·.value) := by
  unfold upsert
  dsimp only
  split
  · rename_i hany
    rw [lookup_updateWhere (by intro _ _; rfl)]
    split
    · rename_i hk
      subst hk
      obtain ⟨c, hc, hck⟩ := List.any_eq_true.1 hany
      have hck : c.key = w.key := of_decide_eq_true hck
      rw [← hck, hu.lookup hc]
      simp
    · rename_i hk
      cases hl : lookup Counter.key k counters with
      | none => rfl
      | some c =>
        have hc : ¬ c.key = w.key := fun h => hk (h.symm.trans (lookup_key hl))
        simp [hc]
  · rename_i hany
    have hnone : ∀ c ∈ counters, c.key ≠ w.key := by simpa using hany
    split
    · rename_i hk
      subst hk
      rw [lookup_append_of_none (lookup_eq_none.2 hnone) rfl]
      rfl
    · rename_i hk
      rw [lookup_append_of_ne (by exact hk)]

theorem value_save (hu : UniqueOn Counter.key t.counters) :
    (t.save w).value k = if w.key = k then w.counter.getD (t.value k) else t.value k := by
  unfold Tables.save Tables.value
  cases w.counter with
  | none => simp
  | some n =>
    dsimp only
    rw [lookup_upsert hu]
    split
    · rfl
    · rfl

theorem log_save (hk : ∀ r ∈ w.inserted, r.key = w.key) :
    (t.save w).log k = t.log k ++ if w.key = k then w.inserted else [] := by
  rw [Tables.log, Tables.log, Tables.save, List.filter_append]
  congr 1
  split
  · rename_i hwk
    exact List.filter_eq_self.2 fun r hr => decide_eq_true ((hk r hr).trans hwk)
  · rename_i hwk
    exact List.filter_eq_nil_iff.2 fun r hr h => hwk ((hk r hr).symm.trans (of_decide_eq_true h))

theorem counters_save (hu : UniqueOn Counter.key t.counters) : UniqueOn Counter.key (t.save w).counters := by
  unfold Tables.save
  cases w.counter with
  | none => exact hu
  | some n =>
    show UniqueOn Counter.key (upsert w.key n t.counters)
    unfold upsert
    dsimp only
    split
    · exact hu.updateWhere fun _ _ => rfl
    · rename_i hany
      exact hu.append (by simpa using hany)

end Tables

/-! ## Steps -/

section Steps
variable {s s' : Session κ ε} {e : Event κ ε} {es : List (Event κ ε)} {w a b : Writer κ ε} {i j n : Nat} {k : κ}

theorem Inv.empty : Inv ({} : Session κ ε) where
  counters := List.nodup_nil
  numbered _ := rfl
  writers _ h := (List.not_mem_nil h).elim
  exclusive i j a b ha := by cases ha

/-- Changing one transaction, so that it holds its counter alone. -/
theorem Inv.set (hi : Inv s) (hkey : a.key = w.key) (ha : a.Sound (s.tables.value a.key))
    (halone : ∀ j b, s.writers[j]? = some b → b.key = w.key → b.counter ≠ none → j = i) :
    Inv { s with writers := s.writers.set i a } := by
  refine ⟨hi.counters, hi.numbered, fun x hx => ?_, fun m n x y hx hy hxy hcx hcy => ?_⟩
  · rcases List.mem_or_eq_of_mem_set hx with hx | rfl
    · exact hi.writers x hx
    · exact ha
  · have hcase {m : Nat} {x : Writer κ ε} (hx : (s.writers.set i a)[m]? = some x) :
        (m = i ∧ x = a) ∨ (m ≠ i ∧ s.writers[m]? = some x) := by
      rw [List.getElem?_set] at hx
      by_cases hm : i = m
      · rw [if_pos hm] at hx
        split at hx
        · cases hx; exact .inl ⟨hm.symm, rfl⟩
        · cases hx
      · rw [if_neg hm] at hx
        exact .inr ⟨fun h => hm h.symm, hx⟩
    rcases hcase hx with ⟨hm, rfl⟩ | ⟨hm, hx'⟩
    · rcases hcase hy with ⟨hn, rfl⟩ | ⟨hn, hy'⟩
      · omega
      · exact absurd (halone n y hy' (hxy.symm.trans hkey) hcy) hn
    · rcases hcase hy with ⟨hn, rfl⟩ | ⟨hn, hy'⟩
      · exact absurd (halone m x hx' (hxy.trans hkey) hcx) hm
      · exact hi.exclusive m n x y hx' hy' hxy hcx hcy

/-- Removing one transaction. -/
theorem Inv.erased (hi : Inv s) {i m n : Nat} {x y : Writer κ ε} (hx : (s.writers.eraseIdx i)[m]? = some x)
    (hy : (s.writers.eraseIdx i)[n]? = some y) (hxy : x.key = y.key) (hcx : x.counter ≠ none)
    (hcy : y.counter ≠ none) : m = n := by
  have hcase {m : Nat} {x : Writer κ ε} (hx : (s.writers.eraseIdx i)[m]? = some x) :
      (m < i ∧ s.writers[m]? = some x) ∨ (i ≤ m ∧ s.writers[m + 1]? = some x) := by
    rw [List.getElem?_eraseIdx] at hx
    by_cases hm : m < i
    · rw [if_pos hm] at hx
      exact .inl ⟨hm, hx⟩
    · rw [if_neg hm] at hx
      exact .inr ⟨Nat.le_of_not_lt hm, hx⟩
  rcases hcase hx with ⟨hm, hx⟩ | ⟨hm, hx⟩
  · rcases hcase hy with ⟨hn, hy⟩ | ⟨hn, hy⟩
    · exact hi.exclusive m n x y hx hy hxy hcx hcy
    · have := hi.exclusive m (n + 1) x y hx hy hxy hcx hcy
      omega
  · rcases hcase hy with ⟨hn, hy⟩ | ⟨hn, hy⟩
    · have := hi.exclusive (m + 1) n x y hx hy hxy hcx hcy
      omega
    · have := hi.exclusive (m + 1) (n + 1) x y hx hy hxy hcx hcy
      omega

/-- The number that a transaction takes. -/
theorem Inv.take (hi : Inv s) (hw : s.writers[i]? = some w) (hn : takeNumber w s = some n) :
    Inv { s with writers := s.writers.set i { w with counter := some n, taken := some n } } := by
  have hmem := List.mem_of_getElem? hw
  unfold takeNumber at hn
  split at hn
  · cases hn
  · rename_i m ht hc
    cases hn
    refine hi.set rfl ?_ fun j b hb hkey hcb => ?_
    · cases hi.writers w hmem with
      | idle hc' => rw [hc'] at hc; cases hc
      | holding hc' _ hk hnum =>
        rw [hc, ht] at hc'
        have hm : m = s.tables.value w.key + w.inserted.length := Option.some.inj hc'
        subst hm
        exact .holding rfl (fun n hn => by cases hn; rfl) hk hnum
    · exact hi.exclusive j i b w hb hw hkey hcb (by rw [hc]; exact Option.some_ne_none m)
  · rename_i ht hc
    split at hn
    · rename_i hfree
      cases hn
      refine hi.set rfl ?_ fun j b hb hkey hcb => ?_
      · cases hi.writers w hmem with
        | idle _ _ hins =>
          refine .holding ?_ ?_ ?_ ?_
          · show some _ = some _
            rw [hins]; rfl
          · intro n hn
            cases hn
            show _ = _ + w.inserted.length + 1
            rw [hins]; rfl
          · show ∀ r ∈ w.inserted, r.key = w.key
            rw [hins]; exact fun _ h => (List.not_mem_nil h).elim
          · show w.inserted.map Row.number = List.range' _ w.inserted.length
            rw [hins]; rfl
        | holding hc' => rw [hc] at hc'; cases hc'
      · -- the row of the counter was free
        have hb' := List.all_eq_true.1 hfree b (List.mem_of_getElem? hb)
        rw [hkey, decide_eq_true rfl, Bool.true_and, Bool.not_eq_true', Option.isSome_eq_false_iff,
          Option.isNone_iff_eq_none] at hb'
        exact absurd hb' hcb
    · cases hn

/-- The row that it inserts under the number. -/
theorem Inv.insert (hi : Inv s) (hw : s.writers[i]? = some w) (hn : w.taken = some n) (content : ε) :
    Inv { s with
      writers := s.writers.set i { w with taken := none, inserted := w.inserted ++ [⟨w.key, n, content⟩] } } := by
  have hmem := List.mem_of_getElem? hw
  cases hi.writers w hmem with
  | idle _ ht => rw [hn] at ht; cases ht
  | holding hc ht hk hnum =>
    have hnext : n = s.tables.value w.key + w.inserted.length + 1 := ht n hn
    refine hi.set rfl (.holding ?_ (fun _ h => by cases h) ?_ ?_) fun j b hb hkey hcb => ?_
    · show w.counter = some (s.tables.value w.key + (w.inserted ++ [_]).length + 0)
      rw [hc, hn, List.length_append, Option.toList_some, List.length_singleton]
      rfl
    · intro r hr
      rcases List.mem_append.1 hr with hr | hr
      · exact hk r hr
      · rw [List.mem_singleton.1 hr]
    · show (w.inserted ++ [_]).map Row.number = List.range' _ (w.inserted ++ [_]).length
      rw [List.map_append, hnum, List.length_append, List.length_singleton, List.range'_concat, hnext]
      simp [Nat.add_right_comm]
    · exact hi.exclusive j i b w hb hw hkey hcb (by rw [hc]; exact Option.some_ne_none _)

/-- A commit appends what the transaction has inserted, and moves the counter by as much. -/
theorem Inv.commit (hi : Inv s) (hw : s.writers[i]? = some w) (ht : w.taken = none) :
    Inv { tables := s.tables.save w, writers := s.writers.eraseIdx i } := by
  have hmem := List.mem_of_getElem? hw
  have hsound := hi.writers w hmem
  have hvalue (k : κ) : (s.tables.save w).value k =
      if w.key = k then s.tables.value k + w.inserted.length else s.tables.value k := by
    rw [value_save hi.counters]
    split
    · rename_i hk
      subst hk
      exact hsound.counter ht
    · rfl
  refine ⟨counters_save hi.counters, fun k => ?_, fun b hb => ?_, fun m n x y hx hy hxy hcx hcy => ?_⟩
  · show ((s.tables.save w).log k).map Row.number = List.range' 1 ((s.tables.save w).value k)
    rw [log_save hsound.keys, hvalue, List.map_append, hi.numbered]
    split
    · rename_i hk
      subst hk
      rw [hsound.numbers, Nat.add_comm (s.tables.value w.key) 1, List.range'_append_1]
    · simp
  · show b.Sound ((s.tables.save w).value b.key)
    rw [hvalue]
    have hbm := List.mem_of_mem_eraseIdx hb
    split
    · rename_i hk
      cases hi.writers b hbm with
      | idle hc hbt hbi => exact .idle hc hbt hbi
      | holding hc hbt hbk hbn =>
        -- the transaction that commits, if it holds the row, holds it alone
        cases hsound with
        | idle _ _ hwi => rw [hwi]; exact .holding hc hbt hbk hbn
        | holding hwc =>
          obtain ⟨j, hj⟩ := List.mem_iff_getElem?.1 hb
          rw [List.getElem?_eraseIdx] at hj
          have hwc' : w.counter ≠ none := by rw [hwc]; exact Option.some_ne_none _
          have hbc : b.counter ≠ none := by rw [hc]; exact Option.some_ne_none _
          split at hj
          · have := hi.exclusive j i b w hj hw hk.symm hbc hwc'
            omega
          · have := hi.exclusive (j + 1) i b w hj hw hk.symm hbc hwc'
            omega
    · exact hi.writers b hbm
  · exact hi.erased hx hy hxy hcx hcy

theorem step_inv (e : Event κ ε) (hi : Inv s) (hs : step s e = some s') : Inv s' := by
  cases e with
  | start k =>
    cases hs
    refine ⟨hi.counters, hi.numbered, fun x hx => ?_, fun m n x y hx hy hxy hcx hcy => ?_⟩
    · rcases List.mem_append.1 hx with hx | hx
      · exact hi.writers x hx
      · rw [List.mem_singleton.1 hx]
        exact .idle rfl rfl rfl
    · have hold {m : Nat} {x : Writer κ ε} (hx : (s.writers ++ [{ key := k }])[m]? = some x) (hc : x.counter ≠ none) :
          s.writers[m]? = some x := by
        rw [List.getElem?_append] at hx
        split at hx
        · exact hx
        · rw [List.mem_singleton.1 (List.mem_of_getElem? hx)] at hc
          exact absurd rfl hc
      exact hi.exclusive m n x y (hold hx hcx) (hold hy hcy) hxy hcx hcy
  | take i =>
    obtain ⟨w, hw, hs⟩ := Option.bind_eq_some_iff.1 hs
    obtain ⟨n, hn, rfl⟩ := Option.map_eq_some_iff.1 hs
    exact hi.take hw hn
  | insert i content =>
    obtain ⟨w, hw, hs⟩ := Option.bind_eq_some_iff.1 hs
    obtain ⟨n, hn, hs⟩ := Option.bind_eq_some_iff.1 hs
    split at hs
    · cases hs
    · cases hs
      exact hi.insert hw hn content
  | commit i =>
    obtain ⟨w, hw, hs⟩ := Option.bind_eq_some_iff.1 hs
    split at hs
    · rename_i ht
      cases hs
      exact hi.commit hw ht
    · cases hs
  | abort i =>
    obtain ⟨w, hw, rfl⟩ := Option.map_eq_some_iff.1 hs
    exact ⟨hi.counters, hi.numbered, fun x hx => hi.writers x (List.mem_of_mem_eraseIdx hx),
      fun m n x y hx hy => hi.erased hx hy⟩

/-- A step appends to the log of a key, if it changes it. -/
theorem step_grows (e : Event κ ε) (hi : Inv s) (hs : step s e = some s') (k : κ) :
    s.tables.log k <+: s'.tables.log k := by
  cases e with
  | start => cases hs; exact List.prefix_rfl
  | take i =>
    obtain ⟨w, -, hs⟩ := Option.bind_eq_some_iff.1 hs
    obtain ⟨n, -, rfl⟩ := Option.map_eq_some_iff.1 hs
    exact List.prefix_rfl
  | insert i content =>
    obtain ⟨w, -, hs⟩ := Option.bind_eq_some_iff.1 hs
    obtain ⟨n, -, hs⟩ := Option.bind_eq_some_iff.1 hs
    split at hs
    · cases hs
    · cases hs
      exact List.prefix_rfl
  | commit i =>
    obtain ⟨w, hw, hs⟩ := Option.bind_eq_some_iff.1 hs
    split at hs
    · cases hs
      show s.tables.log k <+: (s.tables.save w).log k
      rw [log_save (hi.writers w (List.mem_of_getElem? hw)).keys]
      exact List.prefix_append _ _
    · cases hs
  | abort i =>
    obtain ⟨w, -, rfl⟩ := Option.map_eq_some_iff.1 hs
    exact List.prefix_rfl

/-- A number that has been taken is free: the insertion is not refused. -/
theorem Inv.unused (hi : Inv s) (hw : s.writers[i]? = some w) (hn : w.taken = some n) : used w.key n s = false := by
  have hmem := List.mem_of_getElem? hw
  cases hi.writers w hmem with
  | idle _ ht => rw [hn] at ht; cases ht
  | holding hc ht hk hnum =>
    have hnext : n = s.tables.value w.key + w.inserted.length + 1 := ht n hn
    refine List.any_eq_false.2 fun r hr h => ?_
    obtain ⟨hrk, hrn⟩ := Bool.and_eq_true_iff.1 h
    have hrk : r.key = w.key := of_decide_eq_true hrk
    have hrn : r.number = n := of_decide_eq_true hrn
    rcases List.mem_append.1 hr with hr | hr
    · have hlog : r ∈ s.tables.log w.key := List.mem_filter.2 ⟨hr, decide_eq_true hrk⟩
      have hrange := List.mem_map_of_mem (f := Row.number) hlog
      rw [hi.numbered, List.mem_range'_1] at hrange
      omega
    · obtain ⟨x, hx, hrx⟩ := List.mem_flatMap.1 hr
      have hxs := hi.writers x hx
      have hxk : x.key = w.key := (hxs.keys r hrx).symm.trans hrk
      obtain ⟨j, hj⟩ := List.mem_iff_getElem?.1 hx
      have hxw : x = w := by
        have hxc : x.counter ≠ none := by
          cases hxs with
          | idle _ _ hxi => rw [hxi] at hrx; cases hrx
          | holding hxc => rw [hxc]; exact Option.some_ne_none _
        have hij := hi.exclusive j i x w hj hw hxk hxc (by rw [hc]; exact Option.some_ne_none _)
        rw [hij, hw] at hj
        exact (Option.some.inj hj).symm
      rw [hxw] at hrx
      have hrange := List.mem_map_of_mem (f := Row.number) hrx
      rw [hnum, List.mem_range'_1] at hrange
      omega

end Steps

/-! ## Runs -/

section Runs
variable {s s' : Session κ ε} {es : List (Event κ ε)} {k : κ}

theorem exec_inv (hi : Inv s) (hr : Runs.exec step s es = some s') : Inv s' := by
  induction es generalizing s with
  | nil => rw [exec_nil] at hr; exact hr ▸ hi
  | cons e es ih =>
    obtain ⟨s₁, hs, hr⟩ := exec_cons.1 hr
    exact ih (step_inv e hi hs) hr

/-- Every committed state continues the logs of those before it. -/
theorem exec_grows (hi : Inv s) (hr : Runs.exec step s es = some s') : s.tables.log k <+: s'.tables.log k := by
  induction es generalizing s with
  | nil => rw [exec_nil] at hr; exact hr ▸ List.prefix_rfl
  | cons e es ih =>
    obtain ⟨s₁, hs, hr⟩ := exec_cons.1 hr
    exact (step_grows e hi hs k).trans (ih (step_inv e hi hs) hr)

end Runs

end NumberedLog
