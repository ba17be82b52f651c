import Mathlib.Data.List.Basic
import Mathlib.Data.List.Nodup

/-!
# Values of a JavaScript program

Plain data with dates. A finite number other than zero is its shortest decimal. A field of an object may hold
`undefined`, which is `none`. `Agree K blind` compares values whatever order their fields have, as far as `K` tells
about the keys; if it is blind, a date is taken for an object without fields. `depth` bounds the recursion of a function
that goes through a value.
-/

namespace Json

/-- `±0.d₁d₂…dₖ · 10 ^ point`. -/
structure Decimal where
  negative : Bool
  digits : List Char
  point : Int
  digit : ∀ c ∈ digits, c.isDigit = true
  nonempty : digits ≠ []
  first : digits.head? ≠ some '0'
  last : digits.getLast? ≠ some '0'
deriving DecidableEq, Repr

inductive Number
  | zero
  | decimal (d : Decimal)
deriving DecidableEq, Repr

inductive Value (δ : Type)
  | null
  | boolean (b : Bool)
  | number (n : Number)
  | string (s : String)
  | date (d : δ)
  | array (elements : List (Value δ))
  | object (fields : List (String × Option (Value δ)))

namespace Value
variable {δ : Type}

@[elab_as_elim]
theorem induction {P : Value δ → Prop} (null : P null) (boolean : ∀ b, P (boolean b)) (number : ∀ n, P (number n))
    (string : ∀ s, P (string s)) (date : ∀ d, P (date d)) (array : ∀ es, (∀ v ∈ es, P v) → P (array es))
    (object : ∀ fs : List (String × Option (Value δ)), (∀ k v, (k, some v) ∈ fs → P v) → P (object fs)) (v : Value δ) :
    P v := by
  refine @Value.rec δ P (fun es => ∀ v ∈ es, P v) (fun fs => ∀ k v, (k, some v) ∈ fs → P v)
    (fun f => ∀ v, f.2 = some v → P v) (fun o => ∀ v, o = some v → P v) null boolean number string date array object
    ?_ ?_ ?_ ?_ ?_ ?_ ?_ v
  · exact fun v hv => absurd hv List.not_mem_nil
  · exact fun v es hv hes => List.forall_mem_cons.2 ⟨hv, hes⟩
  · exact fun k v hv => absurd hv List.not_mem_nil
  · intro f fs hf hfs k v hv
    rcases List.mem_cons.1 hv with rfl | hv
    · exact hf v rfl
    · exact hfs k v hv
  · exact fun k o ho v hv => ho v hv
  · exact fun v hv => by cases hv
  · intro v hv w hw
    cases hw
    exact hv

/-- The keys of the fields that are not undefined. -/
def keys (fields : List (String × Option (Value δ))) : List String := fields.filterMap fun f => f.2.map fun _ => f.1

/-- No object has a key twice. -/
inductive Keyed : Value δ → Prop
  | null : Keyed null
  | boolean (b : Bool) : Keyed (boolean b)
  | number (n : Number) : Keyed (number n)
  | string (s : String) : Keyed (string s)
  | date (d : δ) : Keyed (date d)
  | array {es : List (Value δ)} (h : ∀ v ∈ es, Keyed v) : Keyed (array es)
  | object {fs : List (String × Option (Value δ))} (hk : (fs.map (·.1)).Nodup) (h : ∀ k v, (k, some v) ∈ fs → Keyed v) :
    Keyed (object fs)

/-- A date, or an object without fields. -/
inductive Blank : Value δ → Prop
  | date (d : δ) : Blank (date d)
  | object {fs : List (String × Option (Value δ))} (h : keys fs = []) : Blank (object fs)

inductive Agree (K : List String → List String → Prop) (blind : Prop) : Value δ → Value δ → Prop
  | null : Agree K blind null null
  | boolean (b : Bool) : Agree K blind (boolean b) (boolean b)
  | number (n : Number) : Agree K blind (number n) (number n)
  | string (s : String) : Agree K blind (string s) (string s)
  | date (d : δ) : Agree K blind (date d) (date d)
  | blank {v w : Value δ} (h : blind) (hv : Blank v) (hw : Blank w) : Agree K blind v w
  | array {es es' : List (Value δ)} (hl : es.length = es'.length) (h : ∀ p ∈ es.zip es', Agree K blind p.1 p.2) :
    Agree K blind (array es) (array es')
  | object {fs fs' : List (String × Option (Value δ))} (hk : K (keys fs) (keys fs'))
    (h : ∀ k v w, (k, some v) ∈ fs → (k, some w) ∈ fs' → Agree K blind v w) : Agree K blind (object fs) (object fs')

/-- The kind of a value; a date is an object. -/
def shape : Value δ → Nat
  | null => 0
  | boolean _ => 1
  | number _ => 2
  | string _ => 3
  | array _ => 4
  | date _ => 5
  | object _ => 5

/-- The fields that are not undefined. -/
def members (fs : List (String × Option (Value δ))) : List (String × Value δ) :=
  fs.filterMap fun f => f.2.map (f.1, ·)

section Fields
variable {fs fs' : List (String × Option (Value δ))} {v w : Value δ} {K : List String → List String → Prop}
  {blind : Prop}

theorem Blank.shape_eq (h : Blank v) : v.shape = 5 := by
  cases h with
  | _ => rfl

theorem Agree.shape_eq (h : Agree K blind v w) : v.shape = w.shape := by
  cases h with
  | blank _ hv hw => exact hv.shape_eq.trans hw.shape_eq.symm
  | _ => rfl

theorem mem_members {k : String} {v : Value δ} : (k, v) ∈ members fs ↔ (k, some v) ∈ fs := by
  rw [members, List.mem_filterMap]
  constructor
  · rintro ⟨⟨k', o⟩, hf, ho⟩
    obtain ⟨w, rfl, hw⟩ := Option.map_eq_some_iff.1 ho
    obtain ⟨rfl, rfl⟩ := Prod.mk.inj hw
    exact hf
  · exact fun h => ⟨_, h, rfl⟩

theorem keys_eq : keys fs = (members fs).map (·.1) := by
  rw [keys, members, List.map_filterMap]
  refine List.filterMap_congr fun f _ => ?_
  cases f.2 with
  | none => rfl
  | some v => rfl

theorem keys_sublist : (keys fs).Sublist (fs.map (·.1)) := by
  rw [keys, ← List.filterMap_eq_map]
  induction fs with
  | nil => exact .slnil
  | cons f fs ih =>
    rw [List.filterMap_cons, List.filterMap_cons]
    cases f.2 with
    | none => exact .cons _ ih
    | some v => exact .cons_cons _ ih

theorem Agree.of_members (hk : K (keys fs) (keys fs'))
    (hnodup : (fs'.map (·.1)).Nodup)
    (h : List.Forall₂ (fun p q => p.1 = q.1 ∧ Agree K blind p.2 q.2) (members fs) (members fs')) :
    Agree K blind (Value.object fs) (Value.object fs') := by
  refine .object hk fun k v w hv hw => ?_
  have hkeys : ((members fs').map (·.1)).Nodup := keys_eq ▸ hnodup.sublist keys_sublist
  have hagree : ∀ p ∈ members fs, ∀ q ∈ members fs', p.1 = q.1 → Agree K blind p.2 q.2 := by
    generalize members fs = l at h
    generalize members fs' = l' at h hkeys
    induction h with
    | nil => exact fun p hp => absurd hp List.not_mem_nil
    | @cons p q l l' hpq h ih =>
      rw [List.map_cons, List.nodup_cons] at hkeys
      have hkey {p' : String × Value δ} (hp' : p' ∈ l) : ∃ q' ∈ l', p'.1 = q'.1 := by
        clear ih hkeys
        induction h with
        | nil => exact absurd hp' List.not_mem_nil
        | cons hpq _ ih =>
          rcases List.mem_cons.1 hp' with rfl | hp'
          · exact ⟨_, List.mem_cons_self, hpq.1⟩
          · obtain ⟨q', hq', he⟩ := ih hp'
            exact ⟨q', List.mem_cons_of_mem _ hq', he⟩
      intro p' hp' q' hq' he
      rcases List.mem_cons.1 hp' with rfl | hp'
      · rcases List.mem_cons.1 hq' with rfl | hq'
        · exact hpq.2
        · exact absurd (List.mem_map.2 ⟨q', hq', he.symm.trans hpq.1⟩) hkeys.1
      · rcases List.mem_cons.1 hq' with rfl | hq'
        · obtain ⟨q'', hq'', he'⟩ := hkey hp'
          exact absurd (List.mem_map.2 ⟨q'', hq'', he'.symm.trans he⟩) hkeys.1
        · exact ih hkeys.2 p' hp' q' hq' he
  exact hagree (k, v) (mem_members.2 hv) (k, w) (mem_members.2 hw) rfl

end Fields

/-! ## Depth -/

mutual

/-- How many arrays and objects stand inside one another; a date is an object. -/
def depth : Value δ → Nat
  | .array es => depthElements es + 1
  | .object fs => depthFields fs + 1
  | .date _ => 1
  | .null => 0
  | .boolean _ => 0
  | .number _ => 0
  | .string _ => 0

def depthElements : List (Value δ) → Nat
  | [] => 0
  | v :: es => Nat.max (depth v) (depthElements es)

def depthFields : List (String × Option (Value δ)) → Nat
  | [] => 0
  | (_, some v) :: fs => Nat.max (depth v) (depthFields fs)
  | (_, none) :: fs => depthFields fs

end

theorem depthElements_le {es : List (Value δ)} {n : Nat} : depthElements es ≤ n ↔ ∀ v ∈ es, v.depth ≤ n := by
  induction es with
  | nil => exact iff_of_true (Nat.zero_le n) fun v hv => absurd hv List.not_mem_nil
  | cons v es ih =>
    rw [depthElements, List.forall_mem_cons, ← ih]
    exact Nat.max_le

theorem depthFields_le {fs : List (String × Option (Value δ))} {n : Nat} :
    depthFields fs ≤ n ↔ ∀ f ∈ fs, ∀ v ∈ f.2, v.depth ≤ n := by
  induction fs with
  | nil => exact iff_of_true (Nat.zero_le n) fun f hf => absurd hf List.not_mem_nil
  | cons f fs ih =>
    obtain ⟨k, o⟩ := f
    rw [List.forall_mem_cons, ← ih]
    cases o with
    | none =>
      rw [depthFields]
      exact (and_iff_right fun v hv => by cases hv).symm
    | some v =>
      rw [depthFields]
      refine Nat.max_le.trans (and_congr_left' ⟨fun h w hw => ?_, fun h => h v rfl⟩)
      rw [← Option.some.inj hw]
      exact h

theorem depth_array_le {es : List (Value δ)} {n : Nat} : (array es).depth ≤ n + 1 ↔ ∀ v ∈ es, v.depth ≤ n := by
  rw [depth, Nat.succ_le_succ_iff, depthElements_le]

theorem depth_object_le {fs : List (String × Option (Value δ))} {n : Nat} :
    (object fs).depth ≤ n + 1 ↔ ∀ f ∈ fs, ∀ v ∈ f.2, v.depth ≤ n := by
  rw [depth, Nat.succ_le_succ_iff, depthFields_le]

end Value
end Json
