import Mathlib.Data.Option.Basic
import Mathlib.Order.Basic
import Mathlib.Order.Nat
import Komanda.Redaction

/-!
# What a log shows of a value

`redactLevels_eq` says that the depth of a value is enough, so `redactSensitiveData` is the recursion of the source
(`redactSensitiveData_object`). Redacting again changes nothing (`redact_redact`), and so the second pass under
`customer` does not change an object (`rebuildCustomer_object`).
-/

namespace Komanda.Redaction
open Json Json.Value

variable {δ : Type}

/-! ## The depth is enough -/

section Levels
variable {redact redact' : Value δ → Value δ} {v : Value δ} {f : String × Option (Value δ)} {n m : Nat}

/-- The values below an object are less deep. -/
theorem depth_field {fields : List (String × Option (Value δ))} (hf : f ∈ fields) (hv : v ∈ f.2) :
    v.depth ≤ depthFields fields :=
  depthFields_le.1 le_rfl f hf v hv

theorem depth_element {elements : List (Value δ)} (hv : v ∈ elements) : v.depth ≤ depthElements elements :=
  depthElements_le.1 le_rfl v hv

theorem depth_rebuildCustomer (h : ∀ w, (redact w).depth ≤ w.depth) : (rebuildCustomer redact v).depth ≤ v.depth := by
  cases v with
  | object fields =>
    refine depth_object_le.2 fun f hf w hw => ?_
    obtain ⟨f, hmem, rfl⟩ := List.mem_map.1 hf
    dsimp only at hw
    cases hc : customerField f.1 with
    | true =>
      rw [hc, if_pos rfl] at hw
      cases hw
      exact Nat.zero_le _
    | false =>
      rw [hc, if_neg Bool.false_ne_true, Option.mem_map] at hw
      obtain ⟨x, hx, rfl⟩ := hw
      exact (h x).trans (depth_field hmem hx)
  | array elements =>
    refine depth_object_le.2 fun f hf w hw => ?_
    obtain ⟨⟨x, i⟩, hmem, rfl⟩ := List.mem_map.1 hf
    cases hw
    exact (h x).trans (depth_element (List.fst_mem_of_mem_zipIdx hmem))
  | date d => exact le_rfl
  | _ => exact le_rfl

theorem depth_redactEntry (h : ∀ w, (redact w).depth ≤ w.depth) (hf : ∀ w ∈ f.2, w.depth ≤ n) :
    ∀ w ∈ (redactEntry redact f).2, w.depth ≤ n := by
  have hnested : ∀ w ∈ (if sensitiveKey f.1 && f.1 ≠ "customer" then some redacted else f.2.map redact), w.depth ≤ n := by
    intro w hw
    split at hw
    · cases hw
      exact Nat.zero_le _
    · obtain ⟨x, hx, rfl⟩ := Option.mem_map.1 hw
      exact (h x).trans (hf x hx)
  intro w hw
  rw [redactEntry] at hw
  dsimp only at hw
  split at hw
  · obtain ⟨x, hx, rfl⟩ := Option.mem_map.1 hw
    exact (depth_rebuildCustomer h).trans (hnested x hx)
  · exact hnested w hw

theorem depth_redactLevels (n : Nat) (v : Value δ) : (redactLevels n v).depth ≤ v.depth := by
  induction n generalizing v with
  | zero => exact le_rfl
  | succ n ih =>
    cases v with
    | array elements =>
      refine depth_array_le.2 fun w hw => ?_
      obtain ⟨x, hx, rfl⟩ := List.mem_map.1 hw
      exact (ih x).trans (depth_element hx)
    | object fields =>
      refine depth_object_le.2 fun f hf w hw => ?_
      obtain ⟨g, hg, rfl⟩ := List.mem_map.1 hf
      exact depth_redactEntry ih (fun x hx => depth_field hg hx) w hw
    | date d => exact le_rfl
    | _ => exact le_rfl

theorem rebuildCustomer_congr (h : ∀ w, w.depth ≤ n → redact w = redact' w) (hv : v.depth ≤ n) :
    rebuildCustomer redact v = rebuildCustomer redact' v := by
  cases v with
  | object fields =>
    refine congrArg Value.object (List.map_congr_left fun f hf => Prod.ext rfl ?_)
    have hchild : f.2.map redact = f.2.map redact' := Option.map_congr fun x hx =>
      h x ((depth_field hf hx).trans (Nat.le_of_succ_le hv))
    dsimp only
    rw [hchild]
  | array elements =>
    refine congrArg Value.object (List.map_congr_left fun e he => Prod.ext rfl (congrArg some ?_))
    exact h e.1 ((depth_element (List.fst_mem_of_mem_zipIdx he)).trans (Nat.le_of_succ_le hv))
  | _ => rfl

theorem redactEntry_congr (h : ∀ w, w.depth ≤ n → redact w = redact' w) (hdepth : ∀ w, (redact' w).depth ≤ w.depth)
    (hf : ∀ w ∈ f.2, w.depth ≤ n) : redactEntry redact f = redactEntry redact' f := by
  have hchild : f.2.map redact = f.2.map redact' := Option.map_congr fun x hx => h x (hf x hx)
  rw [redactEntry, redactEntry, hchild]
  refine Prod.ext rfl ?_
  dsimp only
  split
  · refine Option.map_congr fun y hy => rebuildCustomer_congr h ?_
    split at hy
    · cases hy
      exact Nat.zero_le _
    · obtain ⟨x, hx, rfl⟩ := Option.mem_map.1 hy
      exact (hdepth x).trans (hf x hx)
  · rfl

/-- More levels than the value has make no difference. -/
theorem redactLevels_eq (hn : v.depth ≤ n) (hm : v.depth ≤ m) : redactLevels n v = redactLevels m v := by
  induction n generalizing m v with
  | zero =>
    cases v with
    | array elements => exact absurd hn (Nat.not_succ_le_zero _)
    | object fields => exact absurd hn (Nat.not_succ_le_zero _)
    | date d => exact absurd hn (Nat.not_succ_le_zero _)
    | _ => cases m <;> rfl
  | succ n ih =>
    cases m with
    | zero =>
      cases v with
      | array elements => exact absurd hm (Nat.not_succ_le_zero _)
      | object fields => exact absurd hm (Nat.not_succ_le_zero _)
      | date d => exact absurd hm (Nat.not_succ_le_zero _)
      | _ => rfl
    | succ m =>
      cases v with
      | array elements =>
        refine congrArg Value.array (List.map_congr_left fun x hx => ?_)
        exact ih (depth_array_le.1 hn x hx) (depth_array_le.1 hm x hx)
      | object fields =>
        refine congrArg Value.object (List.map_congr_left fun f hf => ?_)
        refine redactEntry_congr (n := Nat.min n m) (fun w hw => ?_) (depth_redactLevels m) fun w hw => ?_
        · exact ih (hw.trans (Nat.min_le_left n m)) (hw.trans (Nat.min_le_right n m))
        · exact Nat.le_min.2 ⟨depth_object_le.1 hn f hf w hw, depth_object_le.1 hm f hf w hw⟩
      | _ => rfl

end Levels

/-! ## The recursion of the source -/

theorem redactSensitiveData_array (elements : List (Value δ)) :
    redactSensitiveData (.array elements) = .array (elements.map redactSensitiveData) :=
  congrArg Value.array (List.map_congr_left fun _ hv => redactLevels_eq (depth_element hv) le_rfl)

theorem redactSensitiveData_object (fields : List (String × Option (Value δ))) :
    redactSensitiveData (.object fields) = .object (fields.map (redactEntry redactSensitiveData)) := by
  refine congrArg Value.object (List.map_congr_left fun f hf => ?_)
  exact redactEntry_congr (fun w hw => redactLevels_eq hw le_rfl) (fun w => depth_redactLevels _ w)
    fun w hw => depth_field hf hw

section Entry
variable {redact : Value δ → Value δ} {f : String × Option (Value δ)} {key : String} {value : Option (Value δ)}

/-- The value is replaced, whatever it is. -/
def hidden (key : String) : Bool := sensitiveKey key && key ≠ "customer"

theorem fst_redactEntry : (redactEntry redact f).1 = f.1 := rfl

theorem redactEntry_hidden (h : hidden key = true) : redactEntry redact (key, value) = (key, some redacted) := by
  have hcustomer : key ≠ "customer" := of_decide_eq_true (Bool.and_eq_true_iff.1 h).2
  rw [redactEntry, ← hidden, if_pos h, if_neg hcustomer]

theorem redactEntry_customer (h : key = "customer") :
    redactEntry redact (key, value) = (key, (value.map redact).map (rebuildCustomer redact)) := by
  have hshown : ¬ hidden key = true := fun hh => of_decide_eq_true (Bool.and_eq_true_iff.1 hh).2 h
  rw [redactEntry, ← hidden, if_neg hshown, if_pos h]

theorem redactEntry_plain (h : hidden key = false) (hc : key ≠ "customer") :
    redactEntry redact (key, value) = (key, value.map redact) := by
  rw [redactEntry, ← hidden, h, if_neg hc]
  rfl

theorem hidden_customerField (h : customerField key = true) : hidden key = true := by
  have hmem : key ∈ ["email", "phone", "name"] := of_decide_eq_true h
  simp only [List.mem_cons, List.not_mem_nil, or_false] at hmem
  rcases hmem with rfl | rfl | rfl <;> decide

theorem toLower_digit {c : Char} (h : c.isDigit = true) : c.toLower = c := by
  rw [Char.isDigit, Bool.and_eq_true, decide_eq_true_iff, decide_eq_true_iff] at h
  refine dif_neg fun hupper => ?_
  have hle : c.val.toNat ≤ 57 := h.2
  have hge : 65 ≤ c.val.toNat := hupper.1
  omega

/-- The index of an element is not a sensitive key. -/
theorem sensitiveKey_index (i : Nat) : sensitiveKey (toString i) = false := by
  have hlist : (toString i).toList = Nat.toDigits 10 i := Nat.toList_repr
  have hdigits : ((toString i).toList.map Char.toLower).all Char.isDigit = true := by
    rw [hlist, List.all_map, List.all_eq_true]
    intro c hc
    have hdigit : c.isDigit = true := Nat.isDigit_of_mem_toDigits (by decide) (by decide) hc
    rw [Function.comp_apply, toLower_digit hdigit, hdigit]
  have hwords : ∀ w ∈ ["accesstoken", "access_token", "refreshtoken", "refresh_token", "authorization", "cookie",
      "password", "secret", "email", "phone", "name", "customer"], w.toList.all Char.isDigit = false := by decide
  refine decide_eq_false fun hmem => ?_
  have hword := hwords _ hmem
  rw [String.toList_ofList, hdigits] at hword
  cases hword

theorem hidden_index (i : Nat) : hidden (toString i) = false := by rw [hidden, sensitiveKey_index, Bool.false_and]

theorem index_ne_customer (i : Nat) : toString i ≠ "customer" := by
  intro h
  have hsensitive : sensitiveKey "customer" = true := by decide
  rw [← h, sensitiveKey_index] at hsensitive
  cases hsensitive

theorem customerField_index (i : Nat) : customerField (toString i) = false := by
  by_contra h
  have hhidden := hidden_customerField (Bool.not_eq_false _ ▸ h)
  rw [hidden_index] at hhidden
  cases hhidden

end Entry

/-! ## Redacting again -/

/-- What is redacted stays as it is, also when it is rebuilt under `customer`. -/
structure Settled (v : Value δ) : Prop where
  again : redactSensitiveData (redactSensitiveData v) = redactSensitiveData v
  rebuilt : redactSensitiveData (rebuildCustomer redactSensitiveData (redactSensitiveData v)) =
    rebuildCustomer redactSensitiveData (redactSensitiveData v)
  twice : rebuildCustomer redactSensitiveData (rebuildCustomer redactSensitiveData (redactSensitiveData v)) =
    rebuildCustomer redactSensitiveData (redactSensitiveData v)

section Again
variable {f : String × Option (Value δ)}

/-- A redacted field stays as it is. -/
theorem redactEntry_again (h : ∀ v ∈ f.2, Settled v) :
    redactEntry redactSensitiveData (redactEntry redactSensitiveData f) = redactEntry redactSensitiveData f := by
  obtain ⟨key, value⟩ := f
  cases hh : hidden key with
  | true => rw [redactEntry_hidden hh, redactEntry_hidden hh]
  | false =>
    by_cases hc : key = "customer"
    · rw [redactEntry_customer hc, redactEntry_customer hc]
      cases value with
      | none => rfl
      | some v =>
        simp only [Option.map_some]
        rw [(h v rfl).rebuilt, (h v rfl).twice]
    · rw [redactEntry_plain hh hc, redactEntry_plain hh hc]
      cases value with
      | none => rfl
      | some v =>
        simp only [Option.map_some]
        rw [(h v rfl).again]

/-- Rebuilding an object does not change a redacted field. -/
theorem rebuilt_redactEntry (h : ∀ v ∈ f.2, Settled v) :
    (if customerField f.1 then some redacted else (redactEntry redactSensitiveData f).2.map redactSensitiveData) =
      (redactEntry redactSensitiveData f).2 := by
  obtain ⟨key, value⟩ := f
  dsimp only
  cases hf : customerField key with
  | true => rw [redactEntry_hidden (hidden_customerField hf), if_pos rfl]
  | false =>
    rw [if_neg Bool.false_ne_true]
    cases hh : hidden key with
    | true =>
      rw [redactEntry_hidden hh]
      rfl
    | false =>
      by_cases hc : key = "customer"
      · rw [redactEntry_customer hc]
        cases value with
        | none => rfl
        | some v => exact congrArg some (h v rfl).rebuilt
      · rw [redactEntry_plain hh hc]
        cases value with
        | none => rfl
        | some v => exact congrArg some (h v rfl).again

theorem rebuildCustomer_fields {fields : List (String × Option (Value δ))} (h : ∀ f ∈ fields, ∀ v ∈ f.2, Settled v) :
    rebuildCustomer redactSensitiveData (redactSensitiveData (.object fields)) =
      redactSensitiveData (.object fields) := by
  rw [redactSensitiveData_object, rebuildCustomer, List.map_map]
  refine congrArg Value.object (List.map_congr_left fun f hf => ?_)
  have hfield := rebuilt_redactEntry (h f hf)
  rw [Function.comp_apply, fst_redactEntry, hfield, ← fst_redactEntry]

/-- The object of an array's elements, which are redacted. -/
theorem redact_indices {elements : List (Value δ)} (h : ∀ v ∈ elements, redactSensitiveData v = v) :
    redactSensitiveData (.object (elements.zipIdx.map fun e => (toString e.2, some e.1))) =
        .object (elements.zipIdx.map fun e => (toString e.2, some e.1)) ∧
      rebuildCustomer redactSensitiveData (.object (elements.zipIdx.map fun e => (toString e.2, some e.1))) =
        .object (elements.zipIdx.map fun e => (toString e.2, some e.1)) := by
  have helement : ∀ e ∈ elements.zipIdx, redactSensitiveData e.1 = e.1 := fun e he =>
    h e.1 (List.fst_mem_of_mem_zipIdx he)
  constructor
  · rw [redactSensitiveData_object, List.map_map]
    refine congrArg Value.object (List.map_congr_left fun e he => ?_)
    have hentry : redactEntry redactSensitiveData (toString e.2, some e.1) =
        (toString e.2, (some e.1).map redactSensitiveData) := redactEntry_plain (hidden_index e.2) (index_ne_customer e.2)
    rw [Function.comp_apply, hentry, Option.map_some, helement e he]
  · rw [rebuildCustomer, List.map_map]
    refine congrArg Value.object (List.map_congr_left fun e he => ?_)
    rw [Function.comp_apply]
    dsimp only
    rw [customerField_index, if_neg Bool.false_ne_true, Option.map_some, helement e he]

theorem settled (v : Value δ) : Settled v := by
  induction v using Value.induction with
  | null => exact ⟨rfl, rfl, rfl⟩
  | boolean b => exact ⟨rfl, rfl, rfl⟩
  | number n => exact ⟨rfl, rfl, rfl⟩
  | string s => exact ⟨rfl, rfl, rfl⟩
  | date d => exact ⟨rfl, rfl, rfl⟩
  | array es ih =>
    have hagain : (es.map redactSensitiveData).map redactSensitiveData = es.map redactSensitiveData := by
      rw [List.map_map]
      exact List.map_congr_left fun v hv => (ih v hv).again
    have hfixed : ∀ v ∈ es.map redactSensitiveData, redactSensitiveData v = v := by
      intro v hv
      obtain ⟨w, hw, rfl⟩ := List.mem_map.1 hv
      exact (ih w hw).again
    have hrebuilt : rebuildCustomer redactSensitiveData (redactSensitiveData (.array es)) =
        .object ((es.map redactSensitiveData).zipIdx.map fun e => (toString e.2, some e.1)) := by
      rw [redactSensitiveData_array, rebuildCustomer]
      refine congrArg Value.object (List.map_congr_left fun e he => ?_)
      rw [hfixed e.1 (List.fst_mem_of_mem_zipIdx he)]
    obtain ⟨hredact, hrebuild⟩ := redact_indices hfixed
    refine ⟨?_, ?_, ?_⟩
    · rw [redactSensitiveData_array, redactSensitiveData_array, hagain]
    · rw [hrebuilt, hredact]
    · rw [hrebuilt, hrebuild]
  | object fs ih =>
    have hfields : ∀ f ∈ fs, ∀ v ∈ f.2, Settled v := fun f hf v hv => ih f.1 v (by rwa [← Option.mem_def.1 hv])
    have hagain : redactSensitiveData (redactSensitiveData (.object fs)) = redactSensitiveData (.object fs) := by
      rw [redactSensitiveData_object, redactSensitiveData_object, List.map_map]
      exact congrArg Value.object (List.map_congr_left fun f hf => redactEntry_again (hfields f hf))
    have hrebuilt := rebuildCustomer_fields hfields
    refine ⟨hagain, ?_, ?_⟩
    · rw [hrebuilt, hagain]
    · rw [hrebuilt, hrebuilt]

/-- Redacting twice is redacting once. -/
theorem redact_redact (v : Value δ) : redactSensitiveData (redactSensitiveData v) = redactSensitiveData v :=
  (settled v).again

/-- The second pass does not change an object. -/
theorem rebuildCustomer_object (fields : List (String × Option (Value δ))) :
    rebuildCustomer redactSensitiveData (redactSensitiveData (.object fields)) = redactSensitiveData (.object fields) :=
  rebuildCustomer_fields fun _ _ v _ => settled v

end Again

/-! ## What may be shown -/

def isObject : Value δ → Bool
  | .object _ => true
  | _ => false

mutual

/-- A value with nothing but `redacted` under its sensitive keys, at every depth; under `customer` an object is shown,
with its own sensitive keys (`email`, `phone` and `name` are among them) redacted. -/
def shown : Value δ → Value δ
  | .array elements => .array (shownElements elements)
  | .object fields => .object (shownFields fields)
  | .date d => .date d
  | .null => .null
  | .boolean b => .boolean b
  | .number n => .number n
  | .string s => .string s

def shownElements : List (Value δ) → List (Value δ)
  | [] => []
  | v :: elements => shown v :: shownElements elements

def shownFields : List (String × Option (Value δ)) → List (String × Option (Value δ))
  | [] => []
  | (key, none) :: fields => (key, if sensitiveKey key then some redacted else none) :: shownFields fields
  | (key, some v) :: fields =>
    (key, some (if hidden key || (key = "customer" && !isObject v) then redacted else shown v)) :: shownFields fields

end

/-- No date is shown, and `customer` holds an object wherever it is shown, or what it is replaced with. -/
inductive Plain : Value δ → Prop
  | null : Plain .null
  | boolean (b : Bool) : Plain (.boolean b)
  | number (n : Number) : Plain (.number n)
  | string (s : String) : Plain (.string s)
  | array {elements : List (Value δ)} (h : ∀ v ∈ elements, Plain v) : Plain (.array elements)
  | object {fields : List (String × Option (Value δ))}
    (customer : ∀ value, ("customer", value) ∈ fields → (∃ own, value = some (.object own)) ∨ value = some redacted)
    (h : ∀ key v, (key, some v) ∈ fields → hidden key = false → Plain v) : Plain (.object fields)

section Shown
variable {key : String} {value : Option (Value δ)} {v : Value δ}

def shownValue (key : String) : Option (Value δ) → Option (Value δ)
  | none => if sensitiveKey key then some redacted else none
  | some v => some (if hidden key || (key = "customer" && !isObject v) then redacted else shown v)

theorem shownElements_eq (elements : List (Value δ)) : shownElements elements = elements.map shown := by
  induction elements with
  | nil => rfl
  | cons v elements ih => rw [shownElements, ih, List.map_cons]

theorem shownFields_eq (fields : List (String × Option (Value δ))) :
    shownFields fields = fields.map fun f => (f.1, shownValue f.1 f.2) := by
  induction fields with
  | nil => rfl
  | cons f fields ih =>
    obtain ⟨key, value⟩ := f
    cases value with
    | none => rw [shownFields, ih, List.map_cons, shownValue]
    | some v => rw [shownFields, ih, List.map_cons, shownValue]

theorem sensitiveKey_of_hidden (h : hidden key = true) : sensitiveKey key = true := (Bool.and_eq_true_iff.1 h).1

theorem shownValue_hidden (h : hidden key = true) : shownValue key value = some redacted := by
  cases value with
  | none => exact if_pos (sensitiveKey_of_hidden h)
  | some v => rw [shownValue, h, Bool.true_or, if_pos rfl]

theorem shownValue_plain (h : hidden key = false) (hc : key ≠ "customer") : shownValue key value = value.map shown := by
  have hsensitive : sensitiveKey key = false := by
    rw [hidden, Bool.and_eq_false_iff] at h
    exact h.resolve_right fun hne => of_decide_eq_false hne hc
  cases value with
  | none =>
    rw [shownValue, hsensitive]
    rfl
  | some v =>
    rw [shownValue, h, decide_eq_false hc]
    rfl

/-- Under `customer`, an object is shown and everything else is replaced. -/
theorem redact_customer_iff (hv : redactSensitiveData v = shown v ↔ Plain v) :
    rebuildCustomer redactSensitiveData (redactSensitiveData v) = (if isObject v then shown v else redacted) ↔
      ((∃ own, v = .object own) ∨ v = redacted) ∧ Plain v := by
  cases v with
  | object own =>
    rw [rebuildCustomer_object, isObject, if_pos rfl, hv]
    exact (and_iff_right (.inl ⟨own, rfl⟩)).symm
  | string s =>
    constructor
    · intro h
      exact ⟨.inr h, .string s⟩
    · rintro ⟨⟨own, h⟩ | h, -⟩
      · cases h
      · exact h
  | array elements =>
    have hno : isObject (Value.array elements) = false := rfl
    rw [redactSensitiveData_array, rebuildCustomer, hno, if_neg Bool.false_ne_true]
    refine iff_of_false (fun h => by cases h) ?_
    rintro ⟨⟨own, h⟩ | h, -⟩
    · cases h
    · cases h
  | _ =>
    refine iff_of_false (fun h => by cases h) ?_
    rintro ⟨⟨own, h⟩ | h, -⟩
    · cases h
    · cases h

theorem hidden_customer : hidden "customer" = false := by decide

/-- A field is redacted as it may be shown when what it holds is. -/
theorem redactEntry_iff (h : ∀ v ∈ value, (redactSensitiveData v = shown v ↔ Plain v)) :
    redactEntry redactSensitiveData (key, value) = (key, shownValue key value) ↔
      (key = "customer" → (∃ own, value = some (.object own)) ∨ value = some redacted) ∧
      (hidden key = false → ∀ v ∈ value, Plain v) := by
  cases hh : hidden key with
  | true =>
    have hc : key ≠ "customer" := of_decide_eq_true (Bool.and_eq_true_iff.1 hh).2
    rw [redactEntry_hidden hh, shownValue_hidden hh]
    exact iff_of_true rfl ⟨fun hcustomer => absurd hcustomer hc, fun hno => absurd hno Bool.true_eq_false.mp⟩
  | false =>
    simp only [forall_const]
    by_cases hc : key = "customer"
    · rw [redactEntry_customer hc]
      simp only [hc, forall_const, Prod.mk.injEq, true_and]
      cases value with
      | none =>
        refine iff_of_false (fun heq => by cases heq) fun hcustomer => ?_
        rcases hcustomer.1 with ⟨own, heq⟩ | heq
        · cases heq
        · cases heq
      | some v =>
        have hcustomer := redact_customer_iff (h v rfl)
        have hshown : shownValue "customer" (some v) = some (if isObject v then shown v else redacted) := by
          rw [shownValue, hidden_customer, Bool.false_or]
          cases isObject v <;> rfl
        rw [hshown, Option.map_some, Option.map_some, Option.some.injEq, hcustomer]
        simp only [Option.some.injEq, Option.mem_def, forall_eq']
    · rw [redactEntry_plain hh hc, shownValue_plain hh hc]
      simp only [hc, false_implies, true_and, Prod.mk.injEq]
      cases value with
      | none => exact iff_of_true rfl fun v hv => by cases hv
      | some v =>
        rw [Option.map_some, Option.map_some, Option.some.injEq, h v rfl]
        simp only [Option.mem_def, Option.some.injEq, forall_eq']

theorem redact_eq_shown_iff (v : Value δ) : redactSensitiveData v = shown v ↔ Plain v := by
  induction v using Value.induction with
  | null => exact iff_of_true rfl .null
  | boolean b => exact iff_of_true rfl (.boolean b)
  | number n => exact iff_of_true rfl (.number n)
  | string s => exact iff_of_true rfl (.string s)
  | date d => exact iff_of_false (fun h => by cases h) fun h => by cases h
  | array es ih =>
    rw [redactSensitiveData_array, shown, shownElements_eq, Value.array.injEq, List.map_inj_left]
    constructor
    · exact fun h => .array fun v hv => (ih v hv).1 (h v hv)
    · intro h v hv
      cases h with
      | array h => exact (ih v hv).2 (h v hv)
  | object fs ih =>
    have hfields : ∀ f ∈ fs, ∀ v ∈ f.2, (redactSensitiveData v = shown v ↔ Plain v) := fun f hf v hv =>
      ih f.1 v (by rwa [← Option.mem_def.1 hv])
    rw [redactSensitiveData_object, shown, shownFields_eq, Value.object.injEq, List.map_inj_left]
    constructor
    · intro h
      refine .object (fun value hmem => ?_) fun key v hmem hshown => ?_
      · exact ((redactEntry_iff (hfields _ hmem)).1 (h _ hmem)).1 rfl
      · exact ((redactEntry_iff (hfields _ hmem)).1 (h _ hmem)).2 hshown v rfl
    · intro h f hf
      obtain ⟨key, value⟩ := f
      refine (redactEntry_iff (hfields _ hf)).2 ?_
      cases h with
      | object customer hplain =>
        refine ⟨fun hc => customer value (hc ▸ hf), fun hshown v hv => hplain key v ?_ hshown⟩
        rwa [← Option.mem_def.1 hv]

end Shown

/-- What is redacted is what may be shown, and redacting again changes nothing, exactly for values whose dates are all
replaced and whose customers are objects. -/
theorem redaction_complete_iff (v : Value δ) :
    redactSensitiveData v = shown v ∧ redactSensitiveData (redactSensitiveData v) = redactSensitiveData v ↔ Plain v :=
  (and_iff_left (redact_redact v)).trans (redact_eq_shown_iff v)

namespace Demo

def datedPayload : Value Nat := .object [("approvedAt", some (.date 0))]

def namedCustomer : Value Nat := .object [("customer", some (.string "Ada, ada@example.com"))]

def listedCustomers : Value Nat := .object [("customer", some (.array [.string "Ada, ada@example.com"]))]

end Demo

/-- A date is lost, and a customer that is a text or a list of them is shown. -/
theorem redaction_leaks : redactSensitiveData Demo.datedPayload ≠ shown Demo.datedPayload ∧
    redactSensitiveData Demo.namedCustomer ≠ shown Demo.namedCustomer ∧
    redactSensitiveData Demo.listedCustomers ≠ shown Demo.listedCustomers := by
  refine ⟨fun h => ?_, fun h => ?_, fun h => ?_⟩
  · cases (redact_eq_shown_iff _).1 h with
    | object _ hplain =>
      have hdate := hplain "approvedAt" (.date 0) List.mem_cons_self (by decide)
      cases hdate
  · cases (redact_eq_shown_iff _).1 h with
    | object customer _ =>
      rcases customer _ List.mem_cons_self with ⟨own, heq⟩ | heq
      · cases heq
      · have htext := Value.string.inj (Option.some.inj heq)
        exact absurd htext (by decide)
  · cases (redact_eq_shown_iff _).1 h with
    | object customer _ =>
      rcases customer _ List.mem_cons_self with ⟨own, heq⟩ | heq
      · cases heq
      · cases heq

end Komanda.Redaction
