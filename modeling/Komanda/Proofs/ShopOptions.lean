import Komanda.Proofs.CartArithmetic
import Komanda.Proofs.Storefront
import Komanda.Proofs.ShopLines

/-!
# The add-ons of the cart in the browser

Whatever is done to the cart, the add-ons of a line are options of the store with their prices, and its summary is their
names (`Shown`). What the server answers has that form too, so a cart may go back and forth.
-/

namespace Komanda

/-! ## Names joined to a note -/

section Texts
variable {s a b : String} {names names' : List String}

/-- Not empty, and without white space around it. -/
def Tidy (s : String) : Prop := s ≠ "" ∧ Text.trim s = s

theorem dropWhile_eq_self_iff_head {p : Char → Bool} {l : List Char} :
    l.dropWhile p = l ↔ ∀ c ∈ l.head?, p c = false := by
  cases l with
  | nil => exact iff_of_true rfl fun c hc => absurd hc (Option.not_mem_none c)
  | cons c l =>
    rw [List.head?_cons]
    simp only [Option.mem_some_iff, forall_eq']
    constructor
    · intro h
      have hnot := List.head?_dropWhile_not p (c :: l)
      rw [h] at hnot
      exact hnot
    · intro h
      exact List.dropWhile_cons_of_neg (Bool.eq_false_iff.1 h)

/-- Neither the first nor the last character is white space. -/
theorem tidy_iff : Tidy s ↔ s.toList ≠ [] ∧ (∀ c ∈ s.toList.head?, Text.isSpace c = false) ∧
    ∀ c ∈ s.toList.getLast?, Text.isSpace c = false := by
  have hne : s ≠ "" ↔ s.toList ≠ [] := String.toList_eq_nil_iff.not.symm
  have htrim : Text.trim s = s ↔
      ((s.toList.dropWhile Text.isSpace).reverse.dropWhile Text.isSpace).reverse = s.toList := by
    rw [Text.trim, ← String.toList_inj, String.toList_ofList]
  rw [Tidy, hne, htrim, ← List.head?_reverse, ← dropWhile_eq_self_iff_head, ← dropWhile_eq_self_iff_head]
  refine and_congr_right fun _ => ?_
  constructor
  · intro h
    have hfirst : s.toList.dropWhile Text.isSpace = s.toList := by
      refine (List.dropWhile_sublist _).eq_of_length_le ?_
      have hlength := congrArg List.length h
      rw [List.length_reverse] at hlength
      rw [← hlength]
      exact (List.dropWhile_sublist _).length_le.trans List.length_reverse.le
    rw [hfirst] at h
    exact ⟨hfirst, List.reverse_eq_iff.1 h⟩
  · rintro ⟨hhead, hlast⟩
    rw [hhead, hlast, List.reverse_reverse]

theorem Tidy.append (ha : Tidy a) (hb : Tidy b) (separator : String) : Tidy (a ++ separator ++ b) := by
  obtain ⟨hane, hahead, -⟩ := tidy_iff.1 ha
  obtain ⟨hbne, -, hblast⟩ := tidy_iff.1 hb
  refine tidy_iff.2 ?_
  rw [String.toList_append, String.toList_append]
  refine ⟨fun h => hbne (List.append_eq_nil_iff.1 h).2, ?_, ?_⟩
  · rw [List.append_assoc, List.head?_append_of_ne_nil _ hane]
    exact hahead
  · rw [List.getLast?_append_of_ne_nil _ hbne]
    exact hblast

theorem Tidy.joined (h : ∀ name ∈ names, Tidy name) (hne : names ≠ []) : Tidy (", ".intercalate names) := by
  induction names with
  | nil => exact absurd rfl hne
  | cons name names ih =>
    cases names with
    | nil =>
      rw [String.intercalate_singleton]
      exact h name List.mem_cons_self
    | cons next names =>
      rw [String.intercalate_cons_cons]
      exact (h name List.mem_cons_self).append (ih (fun n hn => h n (List.mem_cons_of_mem _ hn)) (List.cons_ne_nil _ _)) _

end Texts

namespace Shop

/-! ## The options of a store -/

def storeOptions (v : Db) : List AddonOption := v.addonGroups.flatMap (·.options)

/-- What the tables and the schemas of the catalog promise. -/
structure StoredCatalog (v : Db) : Prop where
  distinct : ((storeOptions v).map (·.id)).Nodup
  ids : ∀ o ∈ storeOptions v, o.id ≠ ""
  names : ∀ o ∈ storeOptions v, Tidy o.name
  itemPrices : ∀ item ∈ v.items, isMoney item.price = true
  comboPrices : ∀ combo ∈ v.combos, isMoney combo.price = true

def shownOption (o : AddonOption) : ProductModifierOption := { id := o.id, name := o.name, priceDelta := o.priceDelta }

/-- The product has these options as add-ons, or nothing is said of add-ons. -/
structure HasOptions (v : Db) (item : MenuItem) (options : List AddonOption) : Prop where
  known : ∀ o ∈ options, o ∈ storeOptions v
  distinct : (options.map (·.id)).Nodup
  selected : item.selectedOptions.getD [] = options.map shownOption
  ids : item.selectedOptionIds.getD [] = options.map (·.id)
  summary : options ≠ [] → item.selectedOptionSummary.join = summaryOf (options.map (·.name))
  idsThere : item.selectedOptionIds.isSome = item.selectedOptions.isSome
  summaryThere : item.selectedOptionSummary.isSome = item.selectedOptions.isSome

/-- The add-ons of the product are options of the store. -/
def Shown (v : Db) (item : MenuItem) : Prop := ∃ options, HasOptions v item options

section Items
variable {v : Db} {item other : MenuItem} {options : List AddonOption}

theorem StoredCatalog.joined (hv : StoredCatalog v) (h : ∀ o ∈ options, o ∈ storeOptions v) (hne : options ≠ []) :
    Tidy (", ".intercalate (options.map (·.name))) := by
  refine Tidy.joined (fun name hname => ?_) fun hnil => hne (List.map_eq_nil_iff.1 hnil)
  obtain ⟨o, ho, rfl⟩ := List.mem_map.1 hname
  exact hv.names o (h o ho)

theorem HasOptions.sum_deltas (h : HasOptions v item options) :
    getCartLineOptionsDelta item = (options.map (·.priceDelta)).sum := by
  rw [getCartLineOptionsDelta, h.selected, sumDeltas, List.map_map]
  rfl

/-- What says nothing of add-ons leaves those that there are. -/
theorem Shown.spread (h : Shown v item) (ho : Shown v other) : Shown v (item.spread other) := by
  obtain ⟨options, ho⟩ := ho
  have hids := ho.idsThere
  have hsummary := ho.summaryThere
  cases hselected : other.selectedOptions with
  | none =>
    rw [hselected, Option.isSome_none, Option.isSome_eq_false_iff, Option.isNone_iff_eq_none] at hids hsummary
    obtain ⟨options, h⟩ := h
    refine ⟨options, ?_⟩
    constructor
    · exact h.known
    · exact h.distinct
    all_goals
      simp only [MenuItem.spread, hselected, hids, hsummary, Option.none_or]
    · exact h.selected
    · exact h.ids
    · exact h.summary
    · exact h.idsThere
    · exact h.summaryThere
  | some selected =>
    rw [hselected, Option.isSome_some, Option.isSome_iff_exists] at hids hsummary
    obtain ⟨ids, hids⟩ := hids
    obtain ⟨summary, hsummary⟩ := hsummary
    refine ⟨options, ?_⟩
    constructor
    · exact ho.known
    · exact ho.distinct
    all_goals
      simp only [MenuItem.spread, hselected, hids, hsummary, Option.some_or]
    · rw [← ho.selected, hselected]
    · rw [← ho.ids, hids]
    · rw [← hsummary]
      exact ho.summary
    · rfl
    · rfl

theorem Shown.withoutAddon (h : Shown v item) (optionId : Id) : Shown v (item.withoutAddon optionId) := by
  obtain ⟨options, h⟩ := h
  have hselected : (item.selectedOptions.getD []).filter (·.id ≠ optionId) =
      (options.filter (·.id ≠ optionId)).map shownOption := by
    rw [h.selected, List.filter_map]
    rfl
  refine ⟨options.filter (·.id ≠ optionId), fun o ho => h.known o (List.mem_filter.1 ho).1,
    h.distinct.sublist (List.filter_sublist.map _), hselected, ?_, fun _ => ?_, rfl, rfl⟩
  · show (item.selectedOptionIds.getD []).filter (· ≠ optionId) = _
    rw [h.ids, List.filter_map]
    rfl
  · show summaryOf (((item.selectedOptions.getD []).filter (·.id ≠ optionId)).map (·.name)) = _
    rw [hselected, List.map_map]
    rfl

end Items

/-! ## The answer of the server -/

/-- The request is taken, and a cart is created from it while the catalog is that of `v`. -/
def Created (tenant : PublicTenant) (v : Db) (body : CreateCartRequest) (cart : Cart) : Prop :=
  ∃ request now view db db', createCartSchema body = some request ∧ SameCatalog v view ∧
    Creates tenant request now view db cart db'

/-- The row of a stored line: it has an id, and its options come in any order. -/
structure RowOf (line : Komanda.CartLine) (row : Id × Komanda.CartLine) : Prop where
  id : row.1 ≠ ""
  options : line.options.Perm row.2.options
  rest : row.2 = { line with options := row.2.options }

/-- The rows of the lines, in any order. -/
def Arranged (lines : List Komanda.CartLine) (rows : List (Id × Komanda.CartLine)) : Prop :=
  ∃ lines', lines.Perm lines' ∧ List.Forall₂ RowOf lines' rows

/-- The cart has the lines of one that the server has created. -/
def Answers (tenant : PublicTenant) (v : Db) (official : OfficialCart) : Prop :=
  ∃ body cart rows, Created tenant v body cart ∧ Arranged cart.lines rows ∧
    official.items = rows.map fun p => normalizeCartLine p.1 p.2

/-- What the server answers for a selection. -/
structure Echoes (v : Db) (selection : CartSelection) (catalog : CartSelectionCatalog) (options : List AddonOption)
    (line : OfficialCartLine) : Prop where
  found : CartRepository.loadSelection selection.isCombo selection.resourceId v = some catalog
  documentId : line.documentId = selection.resourceId
  kind : line.kind = some (if catalog.isCombo then .combo else .item)
  quantity : line.quantity = selection.quantity
  chosen : options.Perm (catalog.chosen selection.optionIds)
  selected : line.selectedOptions = options.map shownOption
  ids : line.optionIds = options.map (·.id)
  names : line.optionNames = options.map (·.name)
  note : line.note = selection.note.filter (· ≠ "")
  price : catalog.itemType = .unit → line.unitPrice = catalog.price + (options.map (·.priceDelta)).sum

section Answer
variable {tenant : PublicTenant} {v : Db} {currency : String} {selection : CartSelection} {line : NewCartLine}
  {catalog : CartSelectionCatalog} {options : List AddonOption} {isCombo : Bool} {id : Id}

theorem catalog_options_sublist (h : CartRepository.loadSelection isCombo id v = some catalog) :
    (catalog.addonGroups.flatMap (·.options)).Sublist (storeOptions v) := by
  rcases loadSelection_cases h with hi | hc
  · obtain ⟨item, -, rfl⟩ := Option.map_eq_some_iff.1 hi
    dsimp only
    rw [List.flatMap_map]
    dsimp only
    rw [← List.filter_flatMap]
    exact List.filter_sublist.trans (List.filter_sublist.flatMap _)
  · obtain ⟨combo, -, rfl⟩ := Option.map_eq_some_iff.1 hc
    exact List.nil_sublist _

theorem chosen_sublist (h : CartRepository.loadSelection isCombo id v = some catalog) (optionIds : List Id) :
    (catalog.chosen optionIds).Sublist (storeOptions v) :=
  List.filter_sublist.trans (catalog_options_sublist h)

/-- The options of a validated line are those that were chosen, also where none may be. -/
theorem validated_options (h : CartService.validateLine currency v selection = .ok line) : ∃ catalog,
    CartRepository.loadSelection selection.isCombo selection.resourceId v = some catalog ∧
      line.isCombo = catalog.isCombo ∧ line.resourceId = selection.resourceId ∧ line.quantity = selection.quantity ∧
      line.note = selection.note ∧ line.options = selectedOptions selection.optionIds catalog.addonGroups ∧
      (catalog.itemType = .unit →
        line.unitPrice = catalog.price + ((catalog.chosen selection.optionIds).map (·.priceDelta)).sum) := by
  obtain ⟨catalog, validated, hfound, -, hvalid, rfl⟩ := validateLine_iff.1 h
  refine ⟨catalog, hfound, rfl, rfl, rfl, rfl, ?_⟩
  cases hitem : catalog.itemType with
  | weighted =>
    obtain ⟨-, subtotal, -, -, -, hnone, rfl⟩ := (revalidate_weighted_iff hitem).1 hvalid
    refine ⟨?_, fun hunit => ?_⟩
    · rw [hnone]
      refine (List.flatMap_eq_nil_iff.2 fun group _ => ?_).symm
      rw [AddonGroup.selected, List.map_eq_nil_iff, List.filter_eq_nil_iff]
      simp
    · cases hunit
  | unit =>
    obtain ⟨-, rfl⟩ := (revalidate_unit_iff hitem).1 hvalid
    refine ⟨rfl, fun _ => ?_⟩
    show catalog.price + _ = _
    rw [selectedDeltas_chosen]

theorem selectedOptions_shown (optionIds : List Id) : (selectedOptions optionIds catalog.addonGroups).map
    (fun o => ({ id := o.optionId, name := o.name, priceDelta := o.priceDelta } : ProductModifierOption)) =
      (catalog.chosen optionIds).map shownOption := by
  rw [selectedOptions, CartSelectionCatalog.chosen, List.filter_flatMap, List.map_flatMap, List.map_flatMap]
  refine List.flatMap_congr fun group _ => ?_
  rw [List.map_map, AddonGroup.selected]
  simp only [List.contains_eq_mem]
  rfl

/-- An option as `normalizeCartLineOptions` reads it. -/
def shownRow (o : CartLineOption) : ProductModifierOption :=
  { id := o.addonOptionId, name := o.nameSnapshot, priceDelta := o.priceDeltaSnapshot }

theorem perm_map_exists {α β : Type} {f : α → β} {l : List α} {l' : List β} (h : l'.Perm (l.map f)) :
    ∃ m : List α, l' = m.map f ∧ m.Perm l :=
  (congrFun (congrFun (List.eq_map_comp_perm f) l') l).mpr h

theorem forall₂_trans {α β γ : Type} {R : α → β → Prop} {S : β → γ → Prop} {T : α → γ → Prop} {as : List α}
    {bs : List β} {cs : List γ} (h : List.Forall₂ R as bs) (h' : List.Forall₂ S bs cs)
    (hT : ∀ a b c, R a b → S b c → T a c) : List.Forall₂ T as cs := by
  induction h generalizing cs with
  | nil =>
    cases h'
    exact .nil
  | cons hab _ ih =>
    cases h' with
    | cons hbc h' => exact .cons (hT _ _ _ hab hbc) (ih h')

theorem forall₂_mem_right {α β : Type} {R : α → β → Prop} {as : List α} {bs : List β} (h : List.Forall₂ R as bs)
    {b : β} (hb : b ∈ bs) : ∃ a ∈ as, R a b := by
  induction h with
  | nil => exact absurd hb List.not_mem_nil
  | cons hab _ ih =>
    rcases List.mem_cons.1 hb with rfl | hb
    · exact ⟨_, List.mem_cons_self, hab⟩
    · obtain ⟨a, ha, hab⟩ := ih hb
      exact ⟨a, List.mem_cons_of_mem _ ha, hab⟩

/-- The row of a validated line echoes its selection. -/
theorem echoes_row (hv : StoredCatalog v) (h : CartService.validateLine currency v selection = .ok line)
    {row : Id × Komanda.CartLine} (hrow : RowOf line.row row) :
    ∃ catalog options, Echoes v selection catalog options (normalizeCartLine row.1 row.2) := by
  obtain ⟨catalog, hfound, hcombo, hresource, hquantity, hnote, hoptions, hprice⟩ := validated_options h
  obtain ⟨rowId, row⟩ := row
  obtain ⟨-, hperm, hrest⟩ := hrow
  dsimp only at hperm hrest ⊢
  have hshown : (row.options.map shownRow).Perm ((catalog.chosen selection.optionIds).map shownOption) := by
    rw [← selectedOptions_shown, ← hoptions]
    have hrows := (hperm.map shownRow).symm
    rw [NewCartLine.row, List.map_map] at hrows
    exact hrows
  obtain ⟨options, hmap, hchosen⟩ := perm_map_exists hshown
  have hstored : ∀ o ∈ options, o ∈ storeOptions v := fun o ho =>
    (chosen_sublist hfound _).subset (hchosen.subset ho)
  have hids : row.options.filter (·.addonOptionId ≠ "") = row.options := by
    refine List.filter_eq_self.2 fun o ho => decide_eq_true ?_
    have hmem : shownRow o ∈ options.map shownOption := hmap ▸ List.mem_map_of_mem ho
    obtain ⟨option, hoption, heq⟩ := List.mem_map.1 hmem
    rw [show o.addonOptionId = option.id from congrArg ProductModifierOption.id heq.symm]
    exact hv.ids option (hstored option hoption)
  have hnames : row.options.filter (·.nameSnapshot ≠ "") = row.options := by
    refine List.filter_eq_self.2 fun o ho => decide_eq_true ?_
    have hmem : shownRow o ∈ options.map shownOption := hmap ▸ List.mem_map_of_mem ho
    obtain ⟨option, hoption, heq⟩ := List.mem_map.1 hmem
    rw [show o.nameSnapshot = option.name from congrArg ProductModifierOption.name heq.symm]
    exact (hv.names option (hstored option hoption)).1
  have hitem : row.itemId = line.row.itemId := by rw [hrest]
  have hcomboId : row.comboId = line.row.comboId := by rw [hrest]
  refine ⟨catalog, options, hfound, ?_, ?_, ?_, hchosen, ?_, ?_, ?_, ?_, fun hunit => ?_⟩
  · show (row.itemId.or row.comboId).getD rowId = _
    rw [hitem, hcomboId, NewCartLine.row_resource, hresource]
    rfl
  · show some (if row.comboId.isSome ∧ row.itemId.isNone then ResourceKind.combo else .item) = _
    rw [hitem, hcomboId, ← hcombo]
    cases hkind : line.isCombo with
    | true => simp [NewCartLine.row, hkind]
    | false => simp [NewCartLine.row, hkind]
  · exact (congrArg Komanda.CartLine.quantity hrest).trans hquantity
  · show (row.options.filter (·.addonOptionId ≠ "")).map shownRow = _
    rw [hids, hmap]
  · show (row.options.filter (·.addonOptionId ≠ "")).map (·.addonOptionId) = _
    rw [hids]
    have h := congrArg (List.map ProductModifierOption.id) hmap
    rw [List.map_map, List.map_map] at h
    exact h
  · show (row.options.filter (·.nameSnapshot ≠ "")).map (·.nameSnapshot) = _
    rw [hnames]
    have h := congrArg (List.map ProductModifierOption.name) hmap
    rw [List.map_map, List.map_map] at h
    exact h
  · show row.note.filter (· ≠ "") = _
    rw [show row.note = line.note from congrArg Komanda.CartLine.note hrest, hnote]
  · have hsum := (hchosen.map (·.priceDelta)).sum_eq
    rw [hsum, ← hprice hunit]
    exact congrArg Komanda.CartLine.unitPriceSnapshot hrest

theorem validateLine_congr {view : Db} (hs : SameCatalog v view) :
    CartService.validateLine currency view selection = CartService.validateLine currency v selection := by
  rw [CartService.validateLine, hs]
  rfl

/-- The lines of an answer echo the selections of the request, in some order. -/
theorem echoes_answer (hv : StoredCatalog v) {request : CreateCartRequest} {now : Instant} {view db db' : Db}
    {cart : Cart} (hs : SameCatalog v view) (hc : Creates tenant request now view db cart db')
    {rows : List (Id × Komanda.CartLine)} (hr : Arranged cart.lines rows) : ∃ lines,
      lines.Perm (rows.map fun p => normalizeCartLine p.1 p.2) ∧ List.Forall₂ (fun selection line =>
        ∃ catalog options, Echoes v selection catalog options line) request.lines lines := by
  obtain ⟨lines, hlines, hcart, -⟩ := hc.lines
  have hrows : cart.lines = lines.map NewCartLine.row := by rw [hcart]; rfl
  obtain ⟨lines', hperm, hrowOf⟩ := hr
  rw [hrows] at hperm
  obtain ⟨rows', hrowOf', hperm'⟩ := List.perm_comp_forall₂ hperm hrowOf
  refine ⟨rows'.map fun p => normalizeCartLine p.1 p.2, hperm'.map _, ?_⟩
  rw [List.forall₂_map_left_iff] at hrowOf'
  rw [List.forall₂_map_right_iff]
  have hvalid : List.Forall₂ (fun selection line => CartService.validateLine tenant.currency v selection = .ok line)
      request.lines lines := by
    refine hlines.imp fun selection line hline => ?_
    rw [← validateLine_congr hs]
    exact hline
  exact forall₂_trans hvalid hrowOf' fun _ _ _ hline hrow => echoes_row hv hline hrow

end Answer

/-! ## The lines that come back -/

section Returned
variable {v : Db} {selection : CartSelection} {catalog : CartSelectionCatalog} {options : List AddonOption}
  {line : OfficialCartLine} {existing : Option MenuItem}

/-- The line that the cart in the browser gets. -/
def returned (existing : Option MenuItem) (line : OfficialCartLine) : CartLine :=
  (officialCartToLine line).complete existing

theorem Echoes.joined (hv : StoredCatalog v) (h : Echoes v selection catalog options line) (hne : options ≠ []) :
    Tidy (", ".intercalate (options.map (·.name))) :=
  hv.joined (fun _ ho => (chosen_sublist h.found _).subset (h.chosen.subset ho)) hne

theorem Echoes.options_returned (hv : StoredCatalog v) (h : Echoes v selection catalog options line) :
    HasOptions v (returned existing line).item options where
  known o ho := (chosen_sublist h.found _).subset (h.chosen.subset ho)
  distinct := (h.chosen.map _).nodup_iff.2 (hv.distinct.sublist ((chosen_sublist h.found _).map _))
  selected := h.selected
  ids := h.ids
  summary hne := by
    show (summaryOf line.optionNames).or _ = _
    rw [h.names, summaryOf, if_pos (h.joined hv hne).1, Option.some_or]
  idsThere := rfl
  summaryThere := rfl

end Returned

/-! ## A run -/

/-- A line that the store can have. -/
structure Kept (v : Db) (line : CartLine) : Prop where
  positive : 0 < line.quantity
  shown : Shown v line.item

section Steps
variable {tenant : PublicTenant} {v : Db} {s s' : CartState} {items : List CartLine} {item : MenuItem} {id : Id}
  {body request : CreateCartRequest} {official : OfficialCart} {transfers : CartLine → Bool}
  {otherwise : Nat → List CartLine → List CartLine}

theorem createCartSchema_iff : createCartSchema body = some request ↔
    (1 ≤ body.lines.length ∧ body.lines.length ≤ 100 ∧ ∀ line ∈ body.lines, isCartLine line = true) ∧
      request = { lines := body.lines.map fun line => { line with note := line.note.map Text.trim },
                  discountCode := body.discountCode.map Text.trim } := by
  rw [createCartSchema, Option.ite_none_right_eq_some, Option.some_inj, List.all_eq_true, eq_comm (b := request)]

/-- The lines of an answer are lines that the store can have. -/
theorem kept_official (hv : StoredCatalog v) (h : Answers tenant v official) :
    ∀ line ∈ (Shop.applyOfficialCart official s).items, Kept v line := by
  intro line hline
  obtain ⟨body, cart, rows, ⟨request, now, view, db, db', hschema, hs, hc⟩, hr, hitems⟩ := h
  obtain ⟨lines, hperm, hechoes⟩ := echoes_answer hv hs hc hr
  obtain ⟨returnedLine, hreturned, rfl⟩ := List.mem_map.1 hline
  obtain ⟨officialLine, hofficial, rfl⟩ := List.mem_map.1 hreturned
  rw [hitems] at hofficial
  obtain ⟨selection, hselection, catalog, options, hechoes⟩ := forall₂_mem_right hechoes (hperm.symm.subset hofficial)
  obtain ⟨⟨-, -, hlines⟩, rfl⟩ := createCartSchema_iff.1 hschema
  obtain ⟨sent, hsent, rfl⟩ := List.mem_map.1 hselection
  have hpositive : 0 < sent.quantity := by
    have hline := hlines sent hsent
    simp only [isCartLine, Bool.and_eq_true, decide_eq_true_eq] at hline
    exact hline.1.1.1.1.1
  exact ⟨hpositive.trans_eq hechoes.quantity.symm, options, hechoes.options_returned hv⟩

end Steps
end Shop
end Komanda
