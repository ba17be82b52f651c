import Mathlib.Data.List.Nodup

/-!
# Maps and sets that remember the order of insertion

A map is the list of its entries, in the order in which their keys came; setting a key again keeps its place
(`lookup_set`). `push` appends to the list of a key, and pushing every element under its key leaves each list the
elements of that key, in order (`values_pushAll`). `upsert` makes the entry of a key if it has none, and changes it;
upserting every element leaves each key what the elements of that key alone make of its entry (`lookup_upsertAll`).
-/

namespace InsertionMap
variable {α β κ : Type} [DecidableEq κ]

def set (key : κ) (value : β) : List (κ × β) → List (κ × β)
  | [] => [(key, value)]
  | e :: m => if e.1 = key then (key, value) :: m else e :: set key value m

/-- `map.delete(key)` -/
def erase (key : κ) (m : List (κ × β)) : List (κ × β) := m.filter (·.1 ≠ key)

/-- `set.add(key)` -/
def add (key : κ) (keys : List κ) : List κ := if key ∈ keys then keys else keys ++ [key]

/-- The list of a key, without which it is empty. -/
def values (key : κ) (m : List (κ × List β)) : List β := (m.lookup key).getD []

def push (key : κ) (value : β) (m : List (κ × List β)) : List (κ × List β) := set key (values key m ++ [value]) m

section Lookup
variable {key k : κ}

theorem lookup_cons_ite (e : κ × β) (m : List (κ × β)) :
    (e :: m).lookup k = if k = e.1 then some e.2 else m.lookup k := by
  rw [List.lookup_cons]
  by_cases h : k = e.1
  · rw [if_pos h, beq_iff_eq.2 h]
  · rw [if_neg h, beq_eq_false_iff_ne.2 h]

theorem lookup_set (value : β) (m : List (κ × β)) :
    (set key value m).lookup k = if k = key then some value else m.lookup k := by
  induction m with
  | nil => exact lookup_cons_ite _ _
  | cons e m ih =>
    rw [set]
    by_cases he : e.1 = key
    · rw [if_pos he, lookup_cons_ite, lookup_cons_ite, he]
      by_cases h : k = key
      · rw [if_pos h, if_pos h]
      · rw [if_neg h, if_neg h, if_neg h]
    · rw [if_neg he, lookup_cons_ite, ih, lookup_cons_ite]
      by_cases h : k = e.1
      · rw [if_pos h, if_pos h, if_neg fun hk => he (h.symm.trans hk)]
      · rw [if_neg h, if_neg h]

theorem mem_of_lookup {value : β} {m : List (κ × β)} (h : m.lookup key = some value) : (key, value) ∈ m := by
  induction m with
  | nil => cases h
  | cons e m ih =>
    rw [lookup_cons_ite] at h
    split at h
    · next heq => exact List.mem_cons.2 (.inl (Prod.ext heq (Option.some.inj h).symm))
    · exact List.mem_cons_of_mem e (ih h)

/-- A key that is new comes last. -/
theorem set_of_lookup_none (value : β) {m : List (κ × β)} (h : m.lookup key = none) :
    set key value m = m ++ [(key, value)] := by
  induction m with
  | nil => rfl
  | cons e m ih =>
    rw [lookup_cons_ite] at h
    split at h
    · cases h
    · next hne => rw [set, if_neg (Ne.symm hne), ih h, List.cons_append]

theorem lookup_erase (m : List (κ × β)) : (erase key m).lookup k = if k = key then none else m.lookup k := by
  induction m with
  | nil => rw [erase, List.filter_nil, List.lookup_nil, ite_self]
  | cons e m ih =>
    rw [erase] at ih
    rw [erase, List.filter_cons, lookup_cons_ite]
    by_cases he : e.1 = key
    · rw [if_neg (by simpa using he), ih, he]
      by_cases h : k = key
      · rw [if_pos h, if_pos h]
      · rw [if_neg h, if_neg h, if_neg h]
    · rw [if_pos (by simpa using he), lookup_cons_ite, ih]
      by_cases h : k = e.1
      · rw [if_pos h, if_pos h, if_neg fun hk => he (h.symm.trans hk)]
      · rw [if_neg h, if_neg h]

theorem lookup_map_values (f : β → α) (m : List (κ × β)) :
    (m.map fun e => (e.1, f e.2)).lookup k = (m.lookup k).map f := by
  induction m with
  | nil => rfl
  | cons e m ih =>
    rw [List.map_cons, List.lookup_cons, List.lookup_cons, ih]
    cases k == e.1 <;> rfl

theorem values_push (value : β) (m : List (κ × List β)) :
    values k (push key value m) = if k = key then values key m ++ [value] else values k m := by
  rw [values, push, lookup_set]
  by_cases h : k = key
  · rw [if_pos h, if_pos h, Option.getD_some]
  · rw [if_neg h, if_neg h, values]

end Lookup

/-- Elements that have a key go to the list of that key. -/
def pushAll (key : α → Option κ) (value : α → β) (l : List α) (m : List (κ × List β)) : List (κ × List β) :=
  l.foldl (fun m a => (key a).elim m fun k => push k (value a) m) m

theorem values_pushAll (key : α → Option κ) (value : α → β) (l : List α) (m : List (κ × List β)) (k : κ) :
    values k (pushAll key value l m) = values k m ++ (l.filter (key · = some k)).map value := by
  induction l generalizing m with
  | nil => simp [pushAll]
  | cons a l ih =>
    rw [pushAll, List.foldl_cons, ← pushAll, ih]
    cases hk : key a with
    | none => simp [hk]
    | some j =>
      rw [Option.elim_some, values_push]
      by_cases h : k = j
      · subst h
        simp [hk]
      · have hne : ¬ key a = some k := by
          rw [hk, Option.some.injEq]
          exact Ne.symm h
        simp [h, hne]

section Add
variable {key k : κ} {keys : List κ}

theorem mem_add : k ∈ add key keys ↔ k = key ∨ k ∈ keys := by
  rw [add]
  by_cases h : key ∈ keys
  · rw [if_pos h]
    constructor
    · exact .inr
    · rintro (rfl | hk)
      · exact h
      · exact hk
  · rw [if_neg h, List.mem_append, List.mem_singleton, or_comm]

theorem nodup_add (h : keys.Nodup) : (add key keys).Nodup := by
  rw [add]
  by_cases hk : key ∈ keys
  · rwa [if_pos hk]
  · rw [if_neg hk]
    exact h.append (List.nodup_singleton key) (List.disjoint_singleton.2 hk)

/-- The set of all keys. -/
theorem addAll_spec (l : List κ) (h : keys.Nodup) :
    (l.foldl (fun s k => add k s) keys).Nodup ∧ ∀ k, k ∈ l.foldl (fun s k => add k s) keys ↔ k ∈ keys ∨ k ∈ l := by
  induction l generalizing keys with
  | nil => exact ⟨h, fun k => by simp⟩
  | cons j l ih =>
    refine ⟨(ih (nodup_add h)).1, fun k => ?_⟩
    rw [List.foldl_cons, (ih (nodup_add h)).2, mem_add, List.mem_cons]
    tauto

end Add

/-! ## Entries that are made and changed -/

/-- `change` of the entry of a key, which is `new` if the key has none. -/
def upsert (key : κ) (new : β) (change : β → β) (m : List (κ × β)) : List (κ × β) :=
  set key (change ((m.lookup key).getD new)) m

def upsertAll (key : α → κ) (new : α → β) (change : α → β → β) (l : List α) (m : List (κ × β)) : List (κ × β) :=
  l.foldl (fun m a => upsert (key a) (new a) (change a) m) m

/-- What elements of one key make of its entry. -/
def entry (new : α → β) (change : α → β → β) (l : List α) (e : Option β) : Option β :=
  l.foldl (fun e a => some (change a (e.getD (new a)))) e

section Upsert
variable {key : α → κ} {new : α → β} {change : α → β → β}

theorem entry_some (l : List α) (b : β) : entry new change l (some b) = some (l.foldl (fun b a => change a b) b) := by
  induction l generalizing b with
  | nil => rfl
  | cons a l ih => exact ih (change a b)

theorem lookup_upsertAll (l : List α) (m : List (κ × β)) (k : κ) :
    (upsertAll key new change l m).lookup k = entry new change (l.filter (key · = k)) (m.lookup k) := by
  induction l generalizing m with
  | nil => rfl
  | cons a l ih =>
    rw [upsertAll, List.foldl_cons, ← upsertAll, ih, upsert, lookup_set]
    by_cases h : key a = k
    · rw [if_pos h.symm, List.filter_cons_of_pos (by rwa [decide_eq_true_eq]), h]
      rfl
    · rw [if_neg (Ne.symm h), List.filter_cons_of_neg (by rwa [decide_eq_true_eq])]

theorem keys_set (k : κ) (b : β) (m : List (κ × β)) : (set k b m).map (·.1) = add k (m.map (·.1)) := by
  induction m with
  | nil => rfl
  | cons e m ih =>
    rw [set]
    by_cases h : e.1 = k
    · rw [if_pos h, add, if_pos (by rw [List.map_cons, h]; exact List.mem_cons_self), List.map_cons, List.map_cons, h]
    · rw [if_neg h, List.map_cons, ih, List.map_cons, add, add]
      by_cases hk : k ∈ m.map (·.1)
      · rw [if_pos hk, if_pos (List.mem_cons_of_mem _ hk)]
      · have hno : k ∉ e.1 :: m.map (·.1) := by
          rw [List.mem_cons, not_or]
          exact ⟨Ne.symm h, hk⟩
        rw [if_neg hk, if_neg hno, List.cons_append]

theorem keys_upsertAll (l : List α) (m : List (κ × β)) : (upsertAll key new change l m).map (·.1) =
    (l.map key).foldl (fun s k => add k s) (m.map (·.1)) := by
  induction l generalizing m with
  | nil => rfl
  | cons a l ih => rw [upsertAll, List.foldl_cons, ← upsertAll, ih, upsert, keys_set, List.map_cons, List.foldl_cons]

theorem nodup_keys_upsertAll (l : List α) : ((upsertAll key new change l []).map (·.1)).Nodup := by
  rw [keys_upsertAll]
  exact (addAll_spec _ List.nodup_nil).1

theorem mem_keys_upsertAll {l : List α} {k : κ} :
    k ∈ (upsertAll key new change l []).map (·.1) ↔ ∃ a ∈ l, key a = k := by
  rw [keys_upsertAll, List.map_nil, (addAll_spec _ List.nodup_nil).2, List.mem_map]
  exact or_iff_right List.not_mem_nil

/-- A map without duplicate keys has the entries that are looked up. -/
theorem mem_iff_lookup {m : List (κ × β)} (h : (m.map (·.1)).Nodup) {k : κ} {b : β} :
    (k, b) ∈ m ↔ m.lookup k = some b := by
  induction m with
  | nil => exact ⟨fun hm => absurd hm List.not_mem_nil, fun hm => by cases hm⟩
  | cons e m ih =>
    obtain ⟨he, hm⟩ := List.nodup_cons.1 h
    rw [List.mem_cons, lookup_cons_ite, ih hm]
    by_cases hk : k = e.1
    · have hnone : m.lookup k ≠ some b := by
        intro hl
        exact he (List.mem_map.2 ⟨(k, b), (ih hm).2 hl, hk⟩)
      rw [if_pos hk, or_iff_left hnone, Option.some.injEq]
      exact ⟨fun heq => heq ▸ rfl, fun heq => Prod.ext hk heq.symm⟩
    · rw [if_neg hk]
      exact or_iff_right fun heq => hk (congrArg Prod.fst heq)

end Upsert
end InsertionMap
