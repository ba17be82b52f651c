import Komanda.BarcodeLookup
import Komanda.Proofs.PairingCodes
import Komanda.Proofs.VersionedEdits
import Mathlib.Data.List.DropRight

/-!
# Barcodes are found again

What `createItem` and `updateItem` store under a barcode is trimmed and not empty, for a weighted item a PLU code, and
the unique index keeps two items from sharing it (`Barcoded`). So a lookup by the barcode finds the one item that has
it. A barcode in the form of a scale's label is never looked for among the items themselves: it is read as a label.
-/

namespace Komanda
open Transaction CatalogRepository

/-! ## Texts -/

section Texts
variable {s : String} {l : List Char}

theorem trim_toList (s : String) : (Text.trim s).toList = (s.toList.dropWhile Text.isSpace).rdropWhile Text.isSpace := by
  rw [Text.trim, String.toList_ofList, List.rdropWhile]

/-- A blank at the start of what is left would have been dropped first. -/
theorem dropWhile_rdropWhile {p : Char → Bool} (h : l.dropWhile p = l) :
    (l.rdropWhile p).dropWhile p = l.rdropWhile p := by
  cases hkept : l.rdropWhile p with
  | nil => rfl
  | cons c rest =>
    obtain ⟨tail, htail⟩ := hkept ▸ List.rdropWhile_prefix p l
    rw [← htail, List.cons_append] at h
    have hc : ¬ p c = true := by
      intro hc
      have hlength := congrArg List.length h
      rw [List.dropWhile_cons_of_pos hc] at hlength
      have hle := (List.dropWhile_suffix p (l := rest ++ tail)).length_le
      simp only [List.length_cons] at hlength
      omega
    exact List.dropWhile_cons_of_neg hc

@[simp] theorem trim_trim (s : String) : Text.trim (Text.trim s) = Text.trim s := by
  have hstart : (s.toList.dropWhile Text.isSpace).dropWhile Text.isSpace = s.toList.dropWhile Text.isSpace :=
    List.dropWhile_idempotent _ _
  apply String.toList_injective
  rw [trim_toList (Text.trim s), trim_toList s, dropWhile_rdropWhile hstart, List.rdropWhile_idempotent]

theorem trim_ne_empty {hi : Nat} (h : textWithin 1 hi s = true) : Text.trim s ≠ "" := by
  intro hempty
  simp [textWithin, hempty, Text.length] at h

end Texts

/-! ## Labels of scales -/

/-- The check digit fits: the weighted sum of all thirteen is a multiple of ten. -/
def CheckDigitFits (code : List Char) : Prop := weightedSum (code.map scaleDigit) % 10 = 0

instance (code : List Char) : Decidable (CheckDigitFits code) := inferInstanceAs (Decidable (_ = _))

/-- What a scale prints on a label, beside the check digit: a digit of the shop's own, a PLU code and an amount. -/
structure ScaleLabel where
  variant : Fin 10
  pluCode : String
  amount : Nat
  plu : isPluCode pluCode.toList = true
  positive : 0 < amount
  fits : amount < 10 ^ 5

namespace ScaleLabel
variable (label : ScaleLabel)

def digits : List Char :=
  '2' :: Nat.digitChar label.variant :: (label.pluCode.toList ++ (Nat.toDigits 10 label.amount).leftpad 5 '0')

def checkDigit : Nat := (10 - weightedSum (label.digits.map scaleDigit) % 10) % 10

def code : String := String.ofList (label.digits ++ [Nat.digitChar label.checkDigit])

end ScaleLabel

section Sums

/-- A digit more counts by its place. -/
theorem weightedSum_concat (digits : List Nat) (d : Nat) :
    weightedSum (digits ++ [d]) = weightedSum digits + d * (if digits.length % 2 = 0 then 1 else 3) := by
  simp [weightedSum, List.mapIdx_concat]

theorem checkDigit_iff {sum d : Nat} (h : d < 10) : (10 - sum % 10) % 10 = d ↔ (sum + d) % 10 = 0 := by omega

theorem scaleDigit_lt {c : Char} (h : c.isDigit = true) : scaleDigit c < 10 := by
  have hrange := Text.digit_range h
  show c.toNat - 48 < 10
  omega

theorem scaleDigit_digitChar {n : Nat} (h : n < 10) : scaleDigit (Nat.digitChar n) = n :=
  Nat.toNat_digitChar_sub_48_of_lt_ten h

end Sums

/-- A code of thirteen digits is its first twelve and the check digit. -/
theorem isScaleCode_cases {code : List Char} (h : isScaleCode code = true) :
    code.length = 13 ∧ code.all Char.isDigit = true ∧ code.head? = some '2' := by
  simpa [isScaleCode, and_assoc] using h

theorem checkDigitFits_iff {code : List Char} (h : isScaleCode code = true) :
    CheckDigitFits code ↔
      some ((10 - weightedSum ((code.map scaleDigit).take 12) % 10) % 10) = (code.map scaleDigit)[12]? := by
  obtain ⟨hlength, hdigits, -⟩ := isScaleCode_cases h
  have hlast : 12 < code.length := by omega
  have hsplit : code.map scaleDigit = (code.map scaleDigit).take 12 ++ [scaleDigit code[12]] := by
    have htake := List.take_append_getElem (l := code.map scaleDigit) (i := 12) (by simpa using hlast)
    rw [List.getElem_map] at htake
    rw [htake]
    exact (List.take_of_length_le (by simp [hlength])).symm
  have hdigit : scaleDigit code[12] < 10 := scaleDigit_lt (List.all_eq_true.1 hdigits _ (List.getElem_mem hlast))
  have htwelve : ((code.map scaleDigit).take 12).length = 12 := by simp [hlength]
  have hsum : weightedSum (code.map scaleDigit) =
      weightedSum ((code.map scaleDigit).take 12) + scaleDigit code[12] := by
    conv_lhs => rw [hsplit]
    rw [weightedSum_concat, htwelve]
    simp
  rw [CheckDigitFits, hsum, List.getElem?_map, List.getElem?_eq_getElem hlast, Option.map_some, Option.some.injEq,
    checkDigit_iff hdigit]

theorem isPluCode_cases {code : List Char} (h : isPluCode code = true) :
    code.length = 5 ∧ code.all Char.isDigit = true := by
  rw [isPluCode, Bool.and_eq_true, Bool.and_eq_true, decide_eq_true_iff] at h
  exact h.1

namespace ScaleLabel
variable (label : ScaleLabel)

theorem digits_length : label.digits.length = 12 := by
  simp only [digits, List.length_cons, List.length_append, (isPluCode_cases label.plu).1,
    padded_length (by decide : 0 < 5) label.fits]

theorem code_toList : label.code.toList = label.digits ++ [Nat.digitChar label.checkDigit] := String.toList_ofList

theorem checkDigit_lt : label.checkDigit < 10 := Nat.mod_lt _ (by decide)

theorem isScaleCode_code : isScaleCode label.code.toList = true := by
  have hvariant : (Nat.digitChar label.variant).isDigit = true := by
    rw [Nat.isDigit_digitChar]
    exact decide_eq_true label.variant.isLt
  have hcheck : (Nat.digitChar label.checkDigit).isDigit = true := by
    rw [Nat.isDigit_digitChar]
    exact decide_eq_true label.checkDigit_lt
  have hamount : (Nat.toDigits 10 label.amount).all Char.isDigit = true := List.all_eq_true.2 isDigit_toDigits
  rw [isScaleCode, code_toList, List.length_append, label.digits_length]
  simp [digits, hvariant, hcheck, (isPluCode_cases label.plu).2, hamount, -List.all_eq_true]

theorem trim_code : Text.trim label.code = label.code := trim_digits (isScaleCode_cases label.isScaleCode_code).2.1

theorem checkDigitFits : CheckDigitFits label.code.toList := by
  rw [CheckDigitFits, code_toList, List.map_append, List.map_singleton, weightedSum_concat, List.length_map,
    label.digits_length]
  simp only [scaleDigit_digitChar label.checkDigit_lt]
  have hfits := (@checkDigit_iff (weightedSum (label.digits.map scaleDigit)) _ label.checkDigit_lt).1 rfl
  simpa using hfits

/-- A label reads as its PLU code and its amount. -/
theorem parseScaleEan13_code : parseScaleEan13 label.code =
    some { pluCode := label.pluCode, calculatedSubtotal := centsToMoney (label.amount * 100) } := by
  have hplu := (isPluCode_cases label.plu).1
  have hpad := padded_length (by decide : 0 < 5) label.fits
  have hcode : label.code.toList = '2' :: Nat.digitChar label.variant :: (label.pluCode.toList ++
      ((Nat.toDigits 10 label.amount).leftpad 5 '0' ++ [Nat.digitChar label.checkDigit])) := by
    rw [code_toList, digits]
    simp
  have hdrop : (label.code.toList.drop 2).take 5 = label.pluCode.toList := by
    rw [hcode, List.drop_succ_cons, List.drop_succ_cons, List.drop_zero, List.take_left' hplu]
  have hamount : (label.code.toList.drop 7).take 5 = (Nat.toDigits 10 label.amount).leftpad 5 '0' := by
    rw [hcode, List.drop_succ_cons, List.drop_succ_cons, List.drop_left' hplu, List.take_left' hpad]
  have hmoney : centsToMoney (label.amount * 100) = toString label.amount ++ ".00" := by
    rw [centsToMoney, Nat.mul_div_cancel _ (by decide), Nat.mul_mod_left, if_pos (by decide), String.append_assoc,
      String.append_assoc]
    rfl
  simp only [parseScaleEan13, label.trim_code, hdrop, hamount, padded_value, String.ofList_toList]
  rw [if_neg (by simp [label.isScaleCode_code]), if_neg (not_not_intro ((checkDigitFits_iff label.isScaleCode_code).1
    label.checkDigitFits)), if_neg label.positive.ne', hmoney]

end ScaleLabel

theorem isScaleEan13Prefix_trim (barcode : String) :
    isScaleEan13Prefix (Text.trim barcode) = isScaleEan13Prefix barcode := by
  rw [isScaleEan13Prefix, isScaleEan13Prefix, trim_trim]

theorem parseScaleEan13_misfit {barcode : String} (hcode : isScaleEan13Prefix barcode = true)
    (h : ¬ CheckDigitFits (Text.trim barcode).toList) : parseScaleEan13 barcode = none := by
  rw [checkDigitFits_iff hcode] at h
  have hprefix : isScaleCode (Text.trim barcode).toList = true := hcode
  simp only [parseScaleEan13, hprefix]
  rw [if_neg (by decide), if_pos h]

/-! ## What is stored -/

/-- A barcode as it is looked up. -/
def Trimmed (barcode : Option String) : Prop := ∀ b ∈ barcode, Text.trim b = b ∧ b ≠ ""

/-- An item that can be looked up: it is there, under a trimmed barcode, a weighted one under its PLU code. -/
structure ItemRow.Labelled (row : ItemRow) : Prop where
  present : row.archivedAt = none
  trimmed : Trimmed row.barcode
  plu : row.itemType = .weighted → ∃ b ∈ row.barcode, isPluCode b.toList = true

/-- The items of a catalog that can be looked up: no two have a barcode in common. -/
structure Barcoded (items : List ItemRow) : Prop where
  unique : Table.UniqueOn ItemRow.id items
  labelled : ∀ r ∈ items, r.Labelled
  distinct : ∀ r ∈ items, ∀ q ∈ items, r.barcode.isSome → q.barcode = r.barcode → q.id = r.id

theorem CatalogRepository.itemConstraints_barcode {row : ItemRow} {others : List ItemRow}
    (h : ∀ c ∈ itemConstraints row others, c.2 = true) (hpresent : row.archivedAt = none)
    (hbarcode : row.barcode.isSome) : ∀ r ∈ others, r.archivedAt = none → r.barcode ≠ row.barcode := by
  simp only [itemConstraints, List.forall_mem_cons, Bool.or_eq_true, List.all_eq_true, decide_eq_true_eq] at h
  obtain ⟨-, -, -, -, -, hbarcodes, -⟩ := h
  intro r hr hrpresent
  rcases hbarcodes with (harchived | hnone) | hothers
  · rw [hpresent] at harchived
    cases harchived
  · rw [Option.isNone_iff_eq_none] at hnone
    rw [hnone] at hbarcode
    cases hbarcode
  · rcases hothers r hr with harchived | hne
    · rw [hrpresent] at harchived
      cases harchived
    · exact hne

/-- What a schema leaves of a barcode that it accepts. -/
theorem trimmed_of_within {value : Option (Option String)} {hi : Nat} (h : nullableWithin 1 hi value = true) :
    ∀ barcode ∈ value.map (·.map Text.trim), Trimmed barcode := by
  intro barcode hbarcode b hb
  obtain ⟨named, rfl, rfl⟩ := Option.map_eq_some_iff.1 hbarcode
  obtain ⟨text, rfl, rfl⟩ := Option.map_eq_some_iff.1 hb
  have hwithin : textWithin 1 hi text = true := by simpa [nullableWithin] using h
  exact ⟨trim_trim text, trim_ne_empty hwithin⟩

theorem catalogItemInputSchema_barcode {value input : CatalogItemInput} (h : catalogItemInputSchema value = .ok input) :
    (∀ barcode ∈ input.barcode, Trimmed barcode) ∧ input.itemType = some (value.itemType.getD .unit) := by
  have hvalid := parsed_checks h ("barcode", nullableWithin 1 64 value.barcode) (by simp)
  obtain rfl := parsed_ok h
  exact ⟨trimmed_of_within hvalid, rfl⟩

theorem catalogItemPatchSchema_barcode {version : Nat} {value input : CatalogItemPatch}
    (h : catalogItemPatchSchema version value = .ok input) :
    (∀ barcode ∈ input.barcode, Trimmed barcode) ∧ input.itemType = some (value.itemType.getD .unit) := by
  have hvalid := parsed_checks h ("barcode", nullableWithin 1 64 value.barcode) (by simp)
  obtain rfl := parsed_ok h
  exact ⟨trimmed_of_within hvalid, rfl⟩

theorem isPluCode_trimmed {code : String} (h : isPluCode code.toList = true) : Text.trim code = code ∧ code ≠ "" := by
  obtain ⟨hlength, hdigits⟩ := isPluCode_cases h
  refine ⟨trim_digits hdigits, ?_⟩
  rintro rfl
  exact absurd hlength (by decide)

theorem normalizeBarcode_trimmed {isWeighted : Bool} {barcode barcode' : Option String}
    (h : CatalogService.normalizeBarcode isWeighted barcode = .ok barcode') (ht : Trimmed barcode) :
    Trimmed barcode' ∧ (isWeighted = true → ∃ b ∈ barcode', isPluCode b.toList = true) := by
  cases isWeighted with
  | false =>
    cases h
    exact ⟨ht, fun hweighted => absurd hweighted (by decide)⟩
  | true =>
    simp only [CatalogService.normalizeBarcode, Bool.true_and, if_true, Option.getD_some] at h
    split at h
    · cases h
    · next hplu =>
      cases h
      rw [Bool.not_eq_true', Bool.not_eq_false] at hplu
      refine ⟨fun b hb => ?_, fun _ => ⟨_, rfl, hplu⟩⟩
      obtain rfl := Option.some.inj hb
      exact isPluCode_trimmed hplu

namespace Barcoded
variable {items : List ItemRow} {row r₀ : ItemRow}

theorem nil : Barcoded [] :=
  ⟨List.nodup_nil, fun _ hr => absurd hr List.not_mem_nil, fun _ hr => absurd hr List.not_mem_nil⟩

theorem append (h : Barcoded items) (hrow : row.Labelled) (hc : ∀ c ∈ itemConstraints row items, c.2 = true) :
    Barcoded (items ++ [row]) := by
  have hother : ∀ r ∈ items, row.barcode.isSome → r.barcode ≠ row.barcode := fun r hr hsome =>
    itemConstraints_barcode hc hrow.present hsome r hr (h.labelled r hr).present
  refine ⟨Table.UniqueOn.append h.unique (itemConstraints_hold hc).1, fun r hr => ?_, fun r hr q hq hsome heq => ?_⟩
  · rcases List.mem_append.1 hr with hr | hr
    · exact h.labelled r hr
    · rwa [List.mem_singleton.1 hr]
  · rcases List.mem_append.1 hr with hr | hr <;> rcases List.mem_append.1 hq with hq | hq
    · exact h.distinct r hr q hq hsome heq
    · rw [List.mem_singleton.1 hq] at heq ⊢
      exact absurd heq.symm (hother r hr (heq ▸ hsome))
    · rw [List.mem_singleton.1 hr] at hsome heq ⊢
      exact absurd heq (hother q hq hsome)
    · rw [List.mem_singleton.1 hr, List.mem_singleton.1 hq]

theorem overwrite (h : Barcoded items) (hid : row.id = r₀.id) (hrow : row.Labelled)
    (hc : ∀ c ∈ itemConstraints row (items.filter (·.id ≠ r₀.id)), c.2 = true) :
    Barcoded (Table.updateWhere (·.id = r₀.id) (fun _ => row) items) := by
  have hother : ∀ r ∈ items, decide (r.id = r₀.id) = false → row.barcode.isSome → r.barcode ≠ row.barcode := by
    intro r hr hne hsome
    refine itemConstraints_barcode hc hrow.present hsome r (List.mem_filter.2 ⟨hr, ?_⟩) (h.labelled r hr).present
    exact decide_eq_true (of_decide_eq_false hne)
  refine ⟨Table.UniqueOn.overwrite h.unique hid, fun r hr => ?_, fun r hr q hq hsome heq => ?_⟩
  · rcases Table.mem_updateWhere_cases hr with ⟨hr, -⟩ | ⟨_, -, -, rfl⟩
    · exact h.labelled r hr
    · exact hrow
  · rcases Table.mem_updateWhere_cases hr with ⟨hrold, hrne⟩ | ⟨_, -, -, hrnew⟩ <;>
      rcases Table.mem_updateWhere_cases hq with ⟨hqold, hqne⟩ | ⟨_, -, -, hqnew⟩
    · exact h.distinct r hrold q hqold hsome heq
    · rw [hqnew] at heq ⊢
      exact absurd heq.symm (hother r hrold hrne (heq ▸ hsome))
    · rw [hrnew] at hsome heq ⊢
      exact absurd heq (hother q hqold hqne hsome)
    · rw [hrnew, hqnew]

/-- An item is the only one with its barcode. -/
theorem find?_eq (h : Barcoded items) {p : ItemRow → Bool} (hrow : row ∈ items) (hp : p row = true)
    (hbarcode : row.barcode.isSome) (hsame : ∀ q, p q = true → q.barcode = row.barcode) :
    items.find? p = some row := by
  cases hfind : items.find? p with
  | none => exact absurd hp (List.find?_eq_none.1 hfind row hrow)
  | some q =>
    have hq := List.mem_of_find?_eq_some hfind
    have hid := h.distinct row hrow q hq hbarcode (hsame q (List.find?_some hfind))
    rw [Table.UniqueOn.eq h.unique hq hrow hid]

end Barcoded

/-! ## Runs -/

section Calls
variable {locale : Locale} {v s s' : Shop}

theorem ItemUpdated.barcoded {itemId : Id} {version : Nat} {value input : CatalogItemPatch} {before r row : ItemRow}
    {category : CategoryRow} {barcode : Option String} (hi : Barcoded s.catalog.items)
    (hv : ∀ r ∈ v.catalog.items, r.Labelled)
    (h : CatalogService.ItemUpdated locale itemId version value input v s before category barcode r row s') :
    Barcoded s'.catalog.items := by
  obtain ⟨hmem, rfl, -⟩ := Table.find?_versioned h.current
  obtain ⟨hnamed, htype⟩ := catalogItemPatchSchema_barcode h.accepted
  -- an absent `barcode` is the one that was read
  have hbefore : Trimmed (input.barcode.getD before.barcode) := by
    cases hbarcode : input.barcode with
    | none => exact (hv before (Table.lookup_mem h.read)).trimmed
    | some named => exact hnamed named hbarcode
  obtain ⟨htrimmed, hplu⟩ := normalizeBarcode_trimmed h.labelled hbefore
  rw [htype, Option.getD_some, decide_eq_true_iff] at hplu
  have hbarcode : row.barcode = barcode := by
    rw [h.written]
    simp only [CatalogService.setItem, htype, Option.isSome_some, Bool.or_true, if_true]
  have hitemType : row.itemType = value.itemType.getD .unit := by
    rw [h.written]
    simp only [CatalogService.setItem, htype, Option.getD_some]
  have hpresent : row.archivedAt = none := by
    rw [h.written]
    exact (hi.labelled r hmem).present
  rw [h.catalog]
  exact hi.overwrite (by rw [h.written]; rfl)
    ⟨hpresent, by rwa [hbarcode], by rwa [hbarcode, hitemType]⟩ h.constraints

/-- A call keeps the barcodes, whatever it has read before. -/
theorem CatalogRequest.run_barcoded {q : CatalogRequest} {a : CatalogAnswer} (hi : Barcoded s.catalog.items)
    (hv : ∀ r ∈ v.catalog.items, r.Labelled) (h : Commits (q.run locale) v s a s') : Barcoded s'.catalog.items := by
  have hother (hkind : q.kind ≠ .item) : Barcoded s'.catalog.items := by
    rwa [(CatalogRequest.run_written h).items_eq hkind]
  cases q with
  | createItem value newId =>
    obtain ⟨row, h, -⟩ := commits_map.1 h
    obtain ⟨input, category, barcode, haccepted, -, -, hbarcode, hrow, hconstraints, hcatalog⟩ :=
      CatalogService.createItem_cases h
    obtain ⟨hnamed, htype⟩ := catalogItemInputSchema_barcode haccepted
    have hinput : Trimmed input.barcode.join := by
      cases hvalue : input.barcode with
      | none => exact fun b hb => absurd hb (by simp)
      | some named => exact hnamed named hvalue
    obtain ⟨htrimmed, hplu⟩ := normalizeBarcode_trimmed hbarcode hinput
    rw [decide_eq_true_iff, htype, Option.some.injEq] at hplu
    have hitemType : row.itemType = value.itemType.getD .unit := by
      rw [hrow]
      simp only [CatalogService.newItem, htype, Option.getD_some]
    rw [hcatalog]
    exact hi.append ⟨by rw [hrow]; rfl, by rwa [hrow], by rwa [hitemType, hrow]⟩ hconstraints
  | updateItem itemId version value =>
    obtain ⟨row, h, -⟩ := commits_map.1 h
    obtain ⟨input, before, category, barcode, r, hu⟩ := CatalogService.updateItem_cases h
    exact ItemUpdated.barcoded hi hv hu
  | archiveItem itemId version =>
    obtain ⟨row, h, -⟩ := commits_map.1 h
    obtain ⟨input, before, category, barcode, r, hu⟩ := CatalogService.archiveItem_cases h
    exact ItemUpdated.barcoded hi hv hu
  | _ => exact hother (by simp [CatalogRequest.kind])

end Calls

/-! ## Lookups -/

section Lookups
variable {fetch : String → Option ExternalAnswer} {cache : List GlobalProduct} {t : CatalogTables} {row : ItemRow}

theorem lookup_unit (h : Barcoded t.items) (hrow : row ∈ t.items) (hunit : row.itemType = .unit) {barcode : String}
    (hbarcode : row.barcode = some barcode) (hscale : isScaleEan13Prefix barcode = false) :
    BarcodeLookupService.lookup fetch barcode t cache = (.tenant row.found, cache) := by
  obtain ⟨htrim, hne⟩ := (h.labelled row hrow).trimmed barcode hbarcode
  have hfound : findItemByBarcode barcode t = some row := by
    refine h.find?_eq hrow ?_ (by rw [hbarcode]; rfl) fun q hq => ?_
    · simp [hbarcode, (h.labelled row hrow).present]
    · rw [Bool.and_eq_true, decide_eq_true_iff] at hq
      rw [hq.1, hbarcode]
  have hlocal : (findItemByBarcode barcode t).filter (fun localItem => localItem.itemType ≠ .weighted) = some row := by
    rw [hfound, Option.filter_some, if_pos (by rw [hunit]; decide)]
  simp only [BarcodeLookupService.lookup, htrim, hlocal]
  rw [if_neg hne, if_neg (by rw [hscale]; decide)]

theorem lookup_weighted (h : Barcoded t.items) (hrow : row ∈ t.items) (hweighted : row.itemType = .weighted)
    (label : ScaleLabel) (hbarcode : row.barcode = some label.pluCode) :
    BarcodeLookupService.lookup fetch label.code t cache = (.tenant row.found, cache) := by
  have hfound : findWeightedItemByPlu label.pluCode t = some row := by
    refine h.find?_eq hrow ?_ (by rw [hbarcode]; rfl) fun q hq => ?_
    · simp [hweighted, hbarcode, (h.labelled row hrow).present]
    · rw [Bool.and_eq_true, Bool.and_eq_true, decide_eq_true_iff, decide_eq_true_iff] at hq
      rw [hq.1.2, hbarcode]
  have hscale : isScaleEan13Prefix label.code = true := by
    rw [isScaleEan13Prefix, label.trim_code, label.isScaleCode_code]
  have hne : label.code ≠ "" := by
    intro hempty
    have hlength := (isScaleCode_cases label.isScaleCode_code).1
    rw [hempty] at hlength
    exact absurd hlength (by decide)
  simp only [BarcodeLookupService.lookup, label.trim_code, label.parseScaleEan13_code, hfound]
  rw [if_neg hne, if_pos hscale, if_pos hweighted]

/-- Neither an item nor a suggestion comes of a label that does not check. -/
theorem lookup_misfit {barcode : String} (hscale : isScaleEan13Prefix barcode = true)
    (h : ¬ CheckDigitFits (Text.trim barcode).toList) :
    BarcodeLookupService.lookup fetch barcode t cache = (.none, cache) := by
  have hclean : isScaleEan13Prefix (Text.trim barcode) = true := by rw [isScaleEan13Prefix_trim, hscale]
  have hparse : parseScaleEan13 (Text.trim barcode) = none := parseScaleEan13_misfit hclean (by rwa [trim_trim])
  unfold BarcodeLookupService.lookup
  dsimp only
  by_cases hempty : Text.trim barcode = ""
  · rw [if_pos hempty]
  · rw [if_neg hempty, if_pos hclean, hparse]

end Lookups

theorem catalog_barcoded {locale : Locale} {shop : Shop} {es : List CatalogEvent} {s : CatalogSession}
    (hnew : shop.catalog.items = []) (hr : Runs.exec (catalogStep locale) ⟨shop, []⟩ es = some s) :
    Barcoded s.db.catalog.items := by
  have hrely : ReadCommitted.Rely (CatalogRequest.exec locale) rereadShop
      (fun s => Barcoded s.catalog.items) (fun v _ => ∀ r ∈ v.catalog.items, r.Labelled) (fun _ _ _ => True) :=
    { refl := fun db hi => hi.labelled
      reread := fun part v db hi hv => by
        cases part with
        | items => exact hi.labelled
        | _ => exact hv
      inv := fun q v s a s' hi hv _ hx => CatalogRequest.run_barcoded hi hv (toOption_eq.1 hx)
      stable := fun _ _ _ _ _ _ _ _ _ _ hw => hw }
  have h₀ : Barcoded shop.catalog.items := hnew ▸ Barcoded.nil
  exact (hrely.run_inv ⟨h₀, fun _ ho => absurd ho List.not_mem_nil⟩ hr).db

/-- Every stored item is found again, whatever its status, since no call sets `archived_at`: an item of which any
number is sold by its barcode, unless that has the form of a label, and a weighted item by every label that a scale
prints for it, which also gives the amount. A label whose check digit is wrong finds nothing. -/
theorem lookup_finds_stored {locale : Locale} {shop : Shop} {es : List CatalogEvent} {s : CatalogSession}
    (hnew : shop.catalog.items = []) (hr : Runs.exec (catalogStep locale) ⟨shop, []⟩ es = some s)
    (fetch : String → Option ExternalAnswer) (cache : List GlobalProduct) :
    (∀ row ∈ s.db.catalog.items, row.itemType = .unit → ∀ barcode ∈ row.barcode, isScaleEan13Prefix barcode = false →
      BarcodeLookupService.lookup fetch barcode s.db.catalog cache = (.tenant row.found, cache)) ∧
    (∀ row ∈ s.db.catalog.items, row.itemType = .weighted → ∃ pluCode ∈ row.barcode, isPluCode pluCode.toList = true ∧
      ∀ label : ScaleLabel, label.pluCode = pluCode →
        BarcodeLookupService.lookup fetch label.code s.db.catalog cache = (.tenant row.found, cache) ∧
        parseScaleEan13 label.code = some { pluCode, calculatedSubtotal := centsToMoney (label.amount * 100) }) ∧
    (∀ barcode, isScaleEan13Prefix barcode = true → ¬ CheckDigitFits (Text.trim barcode).toList →
      BarcodeLookupService.lookup fetch barcode s.db.catalog cache = (.none, cache)) := by
  have hstored := catalog_barcoded hnew hr
  refine ⟨fun row hrow hunit barcode hbarcode hscale => lookup_unit hstored hrow hunit hbarcode hscale,
    fun row hrow hweighted => ?_, fun barcode hscale hmisfit => lookup_misfit hscale hmisfit⟩
  obtain ⟨pluCode, hbarcode, hplu⟩ := (hstored.labelled row hrow).plu hweighted
  refine ⟨pluCode, hbarcode, hplu, fun label hlabel => ?_⟩
  subst hlabel
  exact ⟨lookup_weighted hstored hrow hweighted label hbarcode, label.parseScaleEan13_code⟩

namespace Demo

/-- A kitchen without items. -/
def emptyKitchen : Shop := { kitchen with catalog := { kitchen.catalog with items := [] } }

def tybo : CatalogItemInput :=
  { categoryId := "food", name := "Tybo", price := 1200000, currency := "ARS", itemType := some .weighted,
    barcode := some (some " 123 ") }

/-- The barcode of this soda looks like a label. -/
def soda : CatalogItemInput :=
  { categoryId := "food", name := "Soda", price := 90000, currency := "ARS", barcode := some (some "2000123024509") }

end Demo

open Demo

theorem lookup_finds_tybo : ∃ s, Runs.exec (catalogStep plain) ⟨emptyKitchen, []⟩
      [.start (.createItem tybo "tybo"), .commit 0] = some s ∧
    ∀ row ∈ s.db.catalog.items, row.itemType = .weighted → ∃ pluCode ∈ row.barcode, isPluCode pluCode.toList = true ∧
      ∀ label : ScaleLabel, label.pluCode = pluCode →
        BarcodeLookupService.lookup (fun _ => none) label.code s.db.catalog [] = (.tenant row.found, []) ∧
        parseScaleEan13 label.code = some { pluCode, calculatedSubtotal := centsToMoney (label.amount * 100) } := by
  have hruns : (Runs.exec (catalogStep plain) ⟨emptyKitchen, []⟩
      [.start (.createItem tybo "tybo"), .commit 0]).isSome = true := by decide +kernel
  obtain ⟨s, hr⟩ := Option.isSome_iff_exists.1 hruns
  exact ⟨s, hr, (lookup_finds_stored rfl hr (fun _ => none) []).2.1⟩

/-- A soda under a barcode that starts with 2 is not found by it. -/
theorem soda_not_found : ¬ ∀ (locale : Locale) (shop : Shop) (es : List CatalogEvent) (s : CatalogSession)
    (fetch : String → Option ExternalAnswer) (cache : List GlobalProduct), shop.catalog.items = [] →
    Runs.exec (catalogStep locale) ⟨shop, []⟩ es = some s →
    ∀ row ∈ s.db.catalog.items, row.status ≠ .archived → row.itemType = .unit → ∀ barcode ∈ row.barcode,
      (BarcodeLookupService.lookup fetch barcode s.db.catalog cache).1 = .tenant row.found := by
  intro hlaw
  have hlookup : (Runs.exec (catalogStep plain) ⟨emptyKitchen, []⟩ [.start (.createItem soda "soda"), .commit 0]).map
      (fun s => s.db.catalog.items.map fun row => (row.status, row.itemType, row.barcode,
        (BarcodeLookupService.lookup (fun _ => none) "2000123024509" s.db.catalog []).1)) =
      some [(.draft, .unit, some "2000123024509", .none)] := by decide +kernel
  obtain ⟨s, hr, hrows⟩ := Option.map_eq_some_iff.1 hlookup
  obtain ⟨row, hrow, hat⟩ := List.mem_map.1 (hrows ▸ List.mem_singleton_self
    (CatalogStatus.draft, ItemType.unit, some "2000123024509", BarcodeLookupResult.none))
  simp only [Prod.mk.injEq] at hat
  obtain ⟨hstatus, hunit, hbarcode, hnone⟩ := hat
  have hfound := hlaw plain emptyKitchen _ s (fun _ => none) [] rfl hr row hrow (by rw [hstatus]; decide) hunit _ hbarcode
  rw [hnone] at hfound
  cases hfound

end Komanda
