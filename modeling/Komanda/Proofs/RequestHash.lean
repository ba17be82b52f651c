import Komanda.RequestHash

/-!
# Equal hashes

Requests have equal hashes exactly when they agree as far as the sort can tell the keys apart, and a date is taken for
an object without fields (`hash_eq_iff`). So the hash separates two requests, unless they differ in dates, or have two
keys in different orders that `localeCompare` takes for equal (`hash_separates_iff`).
-/

namespace Komanda
open Json Value

/-- The same keys, and those that `localeCompare` takes for equal in the same order. -/
def InStep (c : Collation) (ks ks' : List String) : Prop :=
  ks.Perm ks' ∧ ∀ k, (ks.filter fun k' => arrayIndex k' = none).filter (StableSort.tied c.le k) =
    (ks'.filter fun k' => arrayIndex k' = none).filter (StableSort.tied c.le k)

section Keys
variable {δ : Type} {c : Collation} {k : String} {ks ks' : List String} {fs : List (String × Option (Value δ))}

theorem arrayIndex_inj {n : Nat} {k' : String} (h : arrayIndex k = some n) (h' : arrayIndex k' = some n) : k = k' := by
  obtain ⟨-, hk⟩ := Option.filter_eq_some_iff.1 h
  obtain ⟨-, hk'⟩ := Option.filter_eq_some_iff.1 h'
  exact (of_decide_eq_true hk).2.symm.trans (of_decide_eq_true hk').2

theorem indexLe_preorder : StableSort.TotalPreorder indexLe where
  trans a b c hab hbc := by
    cases a with
    | none =>
      cases b with
      | none => exact hbc
      | some b => cases hab
    | some a =>
      cases c with
      | none => rfl
      | some c =>
        cases b with
        | none => cases hbc
        | some b => exact decide_eq_true (Nat.le_trans (of_decide_eq_true hab) (of_decide_eq_true hbc))
  total a b := by
    cases a with
    | none =>
      cases b with
      | none => rfl
      | some b => rfl
    | some a =>
      cases b with
      | none => rfl
      | some b =>
        rw [Bool.or_eq_true]
        exact (Nat.le_total a b).imp decide_eq_true decide_eq_true

theorem tied_indexLe {a b : Option Nat} : StableSort.tied indexLe a b = true ↔ a = b := by
  rw [StableSort.tied_iff]
  constructor
  · rintro ⟨hab, hba⟩
    cases a with
    | none =>
      cases b with
      | none => rfl
      | some b => cases hab
    | some a =>
      cases b with
      | none => cases hba
      | some b => rw [Nat.le_antisymm (of_decide_eq_true hab) (of_decide_eq_true hba)]
  · rintro rfl
    exact ⟨indexLe_preorder.refl a, indexLe_preorder.refl a⟩

/-- The order in which the keys come out. -/
def orderedKeys (c : Collation) (ks : List String) : List String :=
  StableSort.sortBy indexLe arrayIndex (StableSort.sortBy c.le id ks)

theorem orderedKeys_perm (c : Collation) (ks : List String) : (orderedKeys c ks).Perm ks :=
  (StableSort.perm_sortBy indexLe arrayIndex _).trans (StableSort.perm_sortBy c.le id ks)

theorem orderedKeys_eq_iff : orderedKeys c ks = orderedKeys c ks' ↔ InStep c ks ks' := by
  have hclass (i : Option Nat) (l : List String) : l.filter (fun k => StableSort.tied indexLe i (arrayIndex k)) =
      l.filter fun k => arrayIndex k = i :=
    List.filter_congr fun k _ => Bool.eq_iff_iff.2 (tied_indexLe.trans (eq_comm.trans decide_eq_true_iff.symm))
  have hnone : (StableSort.sortBy c.le id ks).filter (fun k => arrayIndex k = none) =
      (StableSort.sortBy c.le id ks').filter (fun k => arrayIndex k = none) ↔
        ∀ k, (ks.filter fun k' => arrayIndex k' = none).filter (StableSort.tied c.le k) =
          (ks'.filter fun k' => arrayIndex k' = none).filter (StableSort.tied c.le k) := by
    rw [StableSort.filter_sortBy c.preorder, StableSort.filter_sortBy c.preorder, StableSort.sortBy_eq_iff c.preorder]
    rfl
  constructor
  · intro h
    have hperm := orderedKeys_perm c ks
    rw [h] at hperm
    refine ⟨hperm.symm.trans (orderedKeys_perm c ks'), hnone.1 ?_⟩
    have hclasses := (StableSort.sortBy_eq_iff indexLe_preorder).1 h none
    rwa [hclass, hclass] at hclasses
  · rintro ⟨hperm, hties⟩
    refine (StableSort.sortBy_eq_iff indexLe_preorder).2 fun i => ?_
    rw [hclass, hclass]
    cases i with
    | none => exact hnone.2 hties
    | some n =>
      -- all keys of one index are the same
      have hsorted := (StableSort.perm_sortBy c.le id ks).trans (hperm.trans (StableSort.perm_sortBy c.le id ks').symm)
      have hany (l : List String) : l.Pairwise fun _ _ => True := List.pairwise_of_forall fun _ _ => trivial
      refine (hsorted.filter fun k => arrayIndex k = some n).eq_of_pairwise ?_ (hany _) (hany _)
      intro k k' hk hk' _ _
      exact arrayIndex_inj (of_decide_eq_true (List.mem_filter.1 hk).2) (of_decide_eq_true (List.mem_filter.1 hk').2)

end Keys

/-! ## Stable values -/

section Stable
variable {δ : Type} {c : Collation} {fs fs' : List (String × Option (Value δ))} {v w : Value δ}

theorem stableElements_eq (c : Collation) (es : List (Value δ)) : stableElements c es = es.map (stableValue c) := by
  induction es with
  | nil => rfl
  | cons v es ih => rw [stableElements, ih, List.map_cons]

theorem stableFields_eq (c : Collation) (fs : List (String × Option (Value δ))) :
    stableFields c fs = fs.map fun f => (f.1, f.2.map (stableValue c)) := by
  induction fs with
  | nil => rfl
  | cons f fs ih =>
    obtain ⟨k, o⟩ := f
    cases o with
    | none => rw [stableFields, ih]; rfl
    | some v => rw [stableFields, ih]; rfl

/-- The fields of a stable object. -/
def settledFields (c : Collation) (fs : List (String × Option (Value δ))) : List (String × Option (Value Empty)) :=
  fromEntries (StableSort.sortBy c.le (·.1) (stableFields c fs))

theorem settledFields_perm (c : Collation) (fs : List (String × Option (Value δ))) :
    (settledFields c fs).Perm (fs.map fun f => (f.1, f.2.map (stableValue c))) := by
  rw [← stableFields_eq]
  exact (StableSort.perm_sortBy indexLe _ _).trans (StableSort.perm_sortBy c.le _ _)

theorem mem_settledFields {k : String} {u : Value Empty} :
    (k, some u) ∈ settledFields c fs ↔ ∃ v, (k, some v) ∈ fs ∧ stableValue c v = u := by
  rw [(settledFields_perm c fs).mem_iff, List.mem_map]
  constructor
  · rintro ⟨⟨k', o⟩, hf, he⟩
    obtain ⟨rfl, ho⟩ := Prod.mk.inj he
    obtain ⟨v, rfl, hv⟩ := Option.map_eq_some_iff.1 ho
    exact ⟨v, hf, hv⟩
  · rintro ⟨v, hf, rfl⟩
    exact ⟨_, hf, rfl⟩

theorem keys_settledFields (c : Collation) (fs : List (String × Option (Value δ))) :
    keys (settledFields c fs) = orderedKeys c (keys fs) := by
  have hkeys : keys (stableFields c fs) = keys fs := by
    rw [stableFields_eq, keys, keys, List.filterMap_map]
    refine List.filterMap_congr fun f _ => ?_
    show (f.2.map (stableValue c)).map (fun _ => f.1) = f.2.map fun _ => f.1
    rw [Option.map_map]
    rfl
  have hkey {ε : Type} (f : String × Option (Value ε)) : ∀ k ∈ f.2.map fun _ => f.1, k = f.1 := fun k hk => by
    obtain ⟨-, -, rfl⟩ := Option.map_eq_some_iff.1 hk
    rfl
  rw [orderedKeys, ← hkeys, settledFields, fromEntries, keys, keys,
    ← StableSort.filterMap_sortBy c.preorder (·.1) (fun f k hk => hkey f k hk),
    ← StableSort.filterMap_sortBy indexLe_preorder (fun e : String × Option (Value Empty) => arrayIndex e.1)
      (fun f k hk => congrArg arrayIndex (hkey f k hk))]

theorem shape_stableValue (c : Collation) (v : Value δ) : (stableValue c v).shape = v.shape := by
  cases v with
  | _ => rw [stableValue]; rfl

theorem keyed_stableValue (c : Collation) (h : Keyed v) : Keyed (stableValue c v) := by
  induction h with
  | null => rw [stableValue]; exact .null
  | boolean b => rw [stableValue]; exact .boolean b
  | number n => rw [stableValue]; exact .number n
  | string s => rw [stableValue]; exact .string s
  | date d =>
    rw [stableValue]
    exact .object List.nodup_nil fun k v hv => absurd hv List.not_mem_nil
  | array _ ih =>
    rw [stableValue, stableElements_eq]
    exact .array (List.forall_mem_map.2 ih)
  | @object fs hk _ ih =>
    rw [stableValue]
    refine .object ?_ fun k u hu => ?_
    · refine (((settledFields_perm c fs).map (·.1)).nodup_iff).2 ?_
      rw [List.map_map]
      exact hk
    · obtain ⟨v, hv, rfl⟩ := mem_settledFields.1 hu
      exact ih k v hv

/-- The fields of an object; a date has none. -/
def fieldsOf : Value δ → List (String × Option (Value δ))
  | .object fs => fs
  | _ => []

theorem stable_object (c : Collation) (h : v.shape = 5) : stableValue c v = .object (settledFields c (fieldsOf v)) := by
  cases v with
  | object fs => rw [stableValue]; rfl
  | date d =>
    have hnone : settledFields c (fieldsOf (Value.date d)) = [] := List.perm_nil.1 (settledFields_perm c [])
    rw [stableValue, hnone]
  | _ => cases h

theorem inStep_refl (c : Collation) (ks : List String) : InStep c ks ks := ⟨.refl _, fun _ => rfl⟩

theorem not_mem_keys (h : keys fs = []) {k : String} {u : Value δ} :
    (k, some u) ∉ fs := by
  intro hu
  have hmem : k ∈ keys fs := by
    rw [keys_eq]
    exact List.mem_map_of_mem (mem_members.2 hu)
  rw [h] at hmem
  exact absurd hmem List.not_mem_nil

/-- Blindly, dates and objects agree when their fields do. -/
theorem agree_blind_iff (hv : v.shape = 5) (hw : w.shape = 5) : Agree (InStep c) True v w ↔
    InStep c (keys (fieldsOf v)) (keys (fieldsOf w)) ∧ ∀ k u u', (k, some u) ∈ fieldsOf v → (k, some u') ∈ fieldsOf w →
      Agree (InStep c) True u u' := by
  have hnone {u : Value δ} (h : Blank u) : keys (fieldsOf u) = [] := by
    cases h with
    | date d => rfl
    | object h => exact h
  constructor
  · intro h
    cases h with
    | date d => exact ⟨inStep_refl c _, fun k u u' hu => absurd hu List.not_mem_nil⟩
    | object hk h => exact ⟨hk, h⟩
    | blank _ hbv hbw =>
      rw [hnone hbv, hnone hbw]
      exact ⟨inStep_refl c _, fun k u u' hu => absurd hu (not_mem_keys (hnone hbv))⟩
    | _ => cases hv
  · rintro ⟨hk, h⟩
    cases v with
    | date d =>
      refine .blank trivial (.date d) ?_
      cases w with
      | date d' => exact .date d'
      | object fs => exact .object (List.nil_perm.1 hk.1)
      | _ => cases hw
    | object fs =>
      cases w with
      | date d => exact .blank trivial (.object (List.perm_nil.1 hk.1)) (.date d)
      | object fs' => exact .object hk h
      | _ => cases hw
    | _ => cases hv

theorem agree_stable_of_shape (h : v.shape ≠ w.shape) :
    Agree (· = ·) False (stableValue c v) (stableValue c w) ↔ Agree (InStep c) True v w :=
  iff_of_false (fun hs => h (by rw [← shape_stableValue c v, hs.shape_eq, shape_stableValue])) fun ha => h ha.shape_eq

/-- Stable objects agree when their fields have the same keys in step, and agree. -/
theorem agree_stable_fields (hv : v.shape = 5) (hw : w.shape = 5)
    (ih : ∀ k u u', (k, some u) ∈ fieldsOf v → (k, some u') ∈ fieldsOf w →
      (Agree (· = ·) False (stableValue c u) (stableValue c u') ↔ Agree (InStep c) True u u')) :
    Agree (· = ·) False (stableValue c v) (stableValue c w) ↔ Agree (InStep c) True v w := by
  rw [stable_object c hv, stable_object c hw, agree_blind_iff hv hw, ← orderedKeys_eq_iff, ← keys_settledFields,
    ← keys_settledFields]
  constructor
  · intro h
    cases h with
    | blank h => exact h.elim
    | object hk h =>
      exact ⟨hk, fun k u u' hu hu' => (ih k u u' hu hu').1
        (h k _ _ (mem_settledFields.2 ⟨u, hu, rfl⟩) (mem_settledFields.2 ⟨u', hu', rfl⟩))⟩
  · rintro ⟨hk, h⟩
    refine .object hk fun k _ _ hs hs' => ?_
    obtain ⟨u, hu, rfl⟩ := mem_settledFields.1 hs
    obtain ⟨u', hu', rfl⟩ := mem_settledFields.1 hs'
    exact (ih k u u' hu hu').2 (h k u u' hu hu')

/-- Stable values agree when the values agree but for their dates, in step. -/
theorem agree_stable_iff (v w : Value δ) :
    Agree (· = ·) False (stableValue c v) (stableValue c w) ↔ Agree (InStep c) True v w := by
  induction v using Value.induction generalizing w with
  | null =>
    cases w with
    | null => exact iff_of_true (by rw [stableValue]; exact .null) .null
    | _ => exact agree_stable_of_shape fun h => by cases h
  | boolean b =>
    cases w with
    | boolean b' =>
      rw [stableValue, stableValue]
      constructor
      · intro h
        cases h with
        | boolean => exact .boolean b
        | blank h => exact h.elim
      · intro h
        cases h with
        | boolean => exact .boolean b
        | blank _ hb => cases hb
    | _ => exact agree_stable_of_shape fun h => by cases h
  | number n =>
    cases w with
    | number n' =>
      rw [stableValue, stableValue]
      constructor
      · intro h
        cases h with
        | number => exact .number n
        | blank h => exact h.elim
      · intro h
        cases h with
        | number => exact .number n
        | blank _ hb => cases hb
    | _ => exact agree_stable_of_shape fun h => by cases h
  | string s =>
    cases w with
    | string s' =>
      rw [stableValue, stableValue]
      constructor
      · intro h
        cases h with
        | string => exact .string s
        | blank h => exact h.elim
      · intro h
        cases h with
        | string => exact .string s
        | blank _ hb => cases hb
    | _ => exact agree_stable_of_shape fun h => by cases h
  | array es ih =>
    cases w with
    | array es' =>
      rw [stableValue, stableValue, stableElements_eq, stableElements_eq]
      have hzip : (∀ p ∈ (es.map (stableValue c)).zip (es'.map (stableValue c)), Agree (· = ·) False p.1 p.2) ↔
          ∀ p ∈ es.zip es', Agree (InStep c) True p.1 p.2 := by
        rw [List.zip_map, List.forall_mem_map]
        refine forall_congr' fun p => imp_congr_right fun hp => ih p.1 (List.of_mem_zip hp).1 p.2
      constructor
      · intro h
        cases h with
        | array hl h => exact .array (by rwa [List.length_map, List.length_map] at hl) (hzip.1 h)
        | blank h => exact h.elim
      · intro h
        cases h with
        | array hl h => exact .array (by rwa [List.length_map, List.length_map]) (hzip.2 h)
        | blank _ hb => cases hb
    | _ => exact agree_stable_of_shape fun h => by cases h
  | date d =>
    by_cases hw : w.shape = 5
    · exact agree_stable_fields rfl hw fun k u u' hu => absurd hu List.not_mem_nil
    · exact agree_stable_of_shape fun h => hw h.symm
  | object fs ih =>
    by_cases hw : w.shape = 5
    · exact agree_stable_fields rfl hw fun k u u' hu _ => ih k u hu u'
    · exact agree_stable_of_shape fun h => hw h.symm

end Stable

/-! ## Hashes -/

/-- Equal up to the order of fields, where a field that is undefined counts as none. -/
def SameRequest {δ : Type} (v w : Value δ) : Prop := Agree List.Perm False v w

/-- They would be the same if every date were an object without fields, and are not. -/
def DifferInDates {δ : Type} (c : Collation) (v w : Value δ) : Prop := Agree (InStep c) True v w ∧ ¬ SameRequest v w

/-- They are the same, but keys that `localeCompare` takes for equal come in different orders. -/
def DifferInTies {δ : Type} (c : Collation) (v w : Value δ) : Prop := SameRequest v w ∧ ¬ Agree (InStep c) False v w

section Hashes
variable {δ : Type} {sha256 : String → String} {c : Collation} {v w : Value δ}

theorem hash_eq_iff (hsha : Function.Injective sha256) (hv : Keyed v) (hw : Keyed w) :
    hashIdempotencyRequest sha256 c v = hashIdempotencyRequest sha256 c w ↔ Agree (InStep c) True v w := by
  rw [hashIdempotencyRequest, hashIdempotencyRequest, hsha.eq_iff, String.ofList_inj,
    text_eq_iff (keyed_stableValue c hv) (keyed_stableValue c hw), agree_stable_iff]

/-- Requests that are the same, and agree in step but for dates, agree in step. -/
theorem agree_in_step (h : SameRequest v w) (hblind : Agree (InStep c) True v w) : Agree (InStep c) False v w := by
  induction h with
  | null => exact .null
  | boolean b => exact .boolean b
  | number n => exact .number n
  | string s => exact .string s
  | date d => exact .date d
  | blank h => exact h.elim
  | array hl _ ih =>
    cases hblind with
    | array _ hblind => exact .array hl fun p hp => ih p hp (hblind p hp)
    | blank _ hb => cases hb
  | object _ _ ih =>
    cases hblind with
    | object hk hblind => exact .object hk fun k u u' hu hu' => ih k u u' hu hu' (hblind k u u' hu hu')
    | blank _ hb hb' =>
      cases hb with
      | object hb =>
        cases hb' with
        | object hb' =>
          refine .object ?_ fun k u u' hu => absurd hu (not_mem_keys hb)
          rw [hb, hb']
          exact inStep_refl c []

theorem agree_blindly {K : List String → List String → Prop} (h : Agree K False v w) : Agree K True v w := by
  induction h with
  | null => exact .null
  | boolean b => exact .boolean b
  | number n => exact .number n
  | string s => exact .string s
  | date d => exact .date d
  | blank h => exact h.elim
  | array hl _ ih => exact .array hl ih
  | object hk _ ih => exact .object hk ih

/-- The hash tells two requests apart exactly when they are not the same, unless they differ in dates or in ties. -/
theorem hash_separates_iff (hsha : Function.Injective sha256) (hv : Keyed v) (hw : Keyed w) :
    (hashIdempotencyRequest sha256 c v = hashIdempotencyRequest sha256 c w ↔ SameRequest v w) ↔
      ¬ DifferInDates c v w ∧ ¬ DifferInTies c v w := by
  rw [hash_eq_iff hsha hv hw]
  constructor
  · intro h
    refine ⟨fun hdates => hdates.2 (h.1 hdates.1), fun hties => hties.2 (agree_in_step hties.1 (h.2 hties.1))⟩
  · rintro ⟨hdates, hties⟩
    constructor
    · exact fun h => by_contra fun hs => hdates ⟨h, hs⟩
    · exact fun h => agree_blindly (by_contra fun hs => hties ⟨h, hs⟩)

end Hashes
namespace Demo

/-- Strings compared by their code points. -/
def codePoints : Collation where
  le a b := decide (a ≤ b)
  preorder :=
    { trans := fun _ _ _ hab hbc => decide_eq_true (String.le_trans (of_decide_eq_true hab) (of_decide_eq_true hbc))
      total := fun a b => by
        rw [Bool.or_eq_true]
        exact (String.le_total a b).imp decide_eq_true decide_eq_true }

def pickUpAt (time : Int) : Value Int := .object [("pickupAt", some (.date time))]

theorem pickUpAt_keyed (time : Int) : Keyed (pickUpAt time) := by
  refine .object (List.nodup_singleton _) fun k v hv => ?_
  obtain ⟨-, hv⟩ := Prod.mk.inj (List.mem_singleton.1 hv)
  cases hv
  exact .date time

end Demo

open Demo

theorem hash_separates_iff_pickUp :
    (hashIdempotencyRequest id codePoints (pickUpAt 0) = hashIdempotencyRequest id codePoints (pickUpAt 1) ↔
        SameRequest (pickUpAt 0) (pickUpAt 1)) ↔
      ¬ DifferInDates codePoints (pickUpAt 0) (pickUpAt 1) ∧ ¬ DifferInTies codePoints (pickUpAt 0) (pickUpAt 1) :=
  hash_separates_iff Function.injective_id (pickUpAt_keyed 0) (pickUpAt_keyed 1)

/-- Requests for different times have one hash. -/
theorem dates_hash_alike : ¬ ∀ (sha256 : String → String) (c : Collation) (v w : Value Int),
    Function.Injective sha256 → Keyed v → Keyed w →
    (hashIdempotencyRequest sha256 c v = hashIdempotencyRequest sha256 c w ↔ SameRequest v w) := by
  intro hall
  have hstable : stableValue codePoints (pickUpAt 0) = stableValue codePoints (pickUpAt 1) := rfl
  have hhash : hashIdempotencyRequest id codePoints (pickUpAt 0) = hashIdempotencyRequest id codePoints (pickUpAt 1) := by
    rw [hashIdempotencyRequest, hashIdempotencyRequest, hstable]
  have hsame := (hall id codePoints (pickUpAt 0) (pickUpAt 1) Function.injective_id (pickUpAt_keyed 0)
    (pickUpAt_keyed 1)).1 hhash
  cases hsame with
  | object _ h =>
    have hdate := h "pickupAt" _ _ List.mem_cons_self List.mem_cons_self
    cases hdate with
    | blank h => exact h
  | blank h => exact h

end Komanda
