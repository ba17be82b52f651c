import Komanda.Storefront
import Komanda.Proofs.AddonGroups
import Komanda.Proofs.HeldCarts
import Mathlib.Data.List.Sort

/-!
# The menu and the cart

The menu lists what is active in an active category, the cart takes what is active and can be priced. A category that is
not active hides its items and does not keep them out of a cart; an item by weight, an item in another currency, and a
unit whose groups cannot be satisfied are listed and cannot be bought.
-/

namespace Komanda
open Transaction Idempotency PublicTenantService

/-! ## The law -/

/-- The constraints of the tables: keys, `combo_items_item_fk`, and the prices as `numeric(12, 2)`. -/
structure CatalogTables.Stored (t : CatalogTables) : Prop extends CatalogTables.Keyed t, CatalogTables.OptionsKeyed t where
  comboItems : ∀ line ∈ t.comboItems, ∃ item ∈ t.items, item.id = line.itemId
  itemPrices : ∀ item ∈ t.items, isMoney item.price = true
  comboPrices : ∀ combo ∈ t.combos, isMoney combo.price = true

def PublicCatalog.ListsItem (c : PublicCatalog) (id : Id) : Prop :=
  ∃ category ∈ c.categories, ∃ shown ∈ category.items, shown.item.id = id

def PublicCatalog.ListsCombo (c : PublicCatalog) (id : Id) : Prop :=
  ∃ category ∈ c.categories, ∃ shown ∈ category.combos, shown.combo.id = id

/-- A key and ids that no row has. -/
structure NewCall (key : String) (recordId cartId : Id) (db : Db) : Prop where
  valid : ¬ (Text.trim key = "" ∨ Text.length (Text.trim key) > 255)
  unused : ∀ r ∈ db.idempotency,
    r.id ≠ recordId ∧ recordIdentity (some db.tenantId) "create-cart" (Text.trim key) r = false
  free : ∀ cart ∈ db.carts, cart.id ≠ cartId

/-- A cart is created for the line. -/
def AcceptsLine (tenant : PublicTenant) (key : String) (recordId cartId : Id) (now : Instant) (s : Shop)
    (line : CartSelection) : Prop :=
  ∃ request cart db, createCartSchema { lines := [line] } = some request ∧
    Commits (CartService.create tenant request key recordId cartId now) s.face s.face cart db

/-- Some quantity with some of the options that are listed. -/
def ItemRow.Buyable (t : CatalogTables) (accepts : CartSelection → Prop) (row : ItemRow) : Prop :=
  ∃ quantity optionIds,
    (∀ id ∈ optionIds, ∃ group ∈ addonGroupsOf t row.id, ∃ option ∈ group.options, option.id = id) ∧
      accepts (storefrontLine false row.id row.price quantity optionIds)

/-- A combo has no options. -/
def ComboRow.Buyable (accepts : CartSelection → Prop) (row : ComboRow) : Prop :=
  ∃ quantity, accepts (storefrontLine true row.id row.price quantity [])

/-- What is listed is what can be bought. -/
structure StorefrontExact (c : PublicCatalog) (accepts : CartSelection → Prop) (t : CatalogTables) : Prop where
  items : ∀ row ∈ t.items, c.ListsItem row.id ↔ row.Buyable t accepts
  combos : ∀ row ∈ t.combos, c.ListsCombo row.id ↔ row.Buyable accepts

/-! ## The condition -/

def CatalogTables.activeCategory (t : CatalogTables) (id : Id) : Bool :=
  t.categories.any fun c => c.id = id && c.status = .active

/-- A unit in the currency of the tenant, whose groups can be satisfied by at most fifty options. -/
structure ItemRow.Sellable (t : CatalogTables) (currency : String) (row : ItemRow) : Prop where
  unit : row.itemType = .unit
  currency : row.currency = currency
  groups : ∀ group ∈ t.groupsOf row.id, group.minSelected ≤ group.maxSelected ∧
    group.minSelected ≤ (activeOptions group.id t.addonOptions).length
  few : ((t.groupsOf row.id).map (·.minSelected)).sum ≤ 50

def CatalogTables.componentsActive (t : CatalogTables) (comboId : Id) : Bool :=
  t.comboItems.any (·.comboId = comboId) &&
    t.comboItems.all fun line => line.comboId ≠ comboId || t.items.any fun i => i.id = line.itemId && i.status = .active

/-- What is active has an active category exactly when it can be sold. -/
structure CatalogTables.ShowsSellable (t : CatalogTables) (currency : String) : Prop where
  items : ∀ row ∈ t.items, row.status = .active → (t.activeCategory row.categoryId = true ↔ row.Sellable t currency)
  combos : ∀ row ∈ t.combos, row.status = .active → t.componentsActive row.id = true →
    (t.activeCategory row.categoryId = true ↔ row.currency = currency)

/-! ## The menu -/

section Menu
variable {collate : String → String → Bool} {tenant : PublicTenant} {s : Shop} {t : CatalogTables}

theorem mem_activeCategories {category : CategoryRow} :
    category ∈ activeCategories t ↔ category ∈ t.categories ∧ category.status = .active := by
  rw [activeCategories, List.mem_insertionSort, List.mem_filter, decide_eq_true_eq]

theorem mem_activeItems {item : ItemRow} : item ∈ activeItems t ↔ item ∈ t.items ∧ item.status = .active := by
  rw [activeItems, List.mem_insertionSort, List.mem_filter, decide_eq_true_eq]

theorem mem_activeCombos {combo : ComboRow} :
    combo ∈ activeCombos collate t ↔ combo ∈ t.combos ∧ combo.status = .active := by
  rw [activeCombos, List.mem_insertionSort, List.mem_filter, decide_eq_true_eq]

theorem activeCategory_iff {id : Id} :
    t.activeCategory id = true ↔ ∃ category ∈ activeCategories t, category.id = id := by
  simp only [CatalogTables.activeCategory, List.any_eq_true, Bool.and_eq_true, decide_eq_true_eq, mem_activeCategories]
  constructor
  · rintro ⟨c, hc, hid, hactive⟩
    exact ⟨c, ⟨hc, hactive⟩, hid⟩
  · rintro ⟨c, ⟨hc, hactive⟩, hid⟩
    exact ⟨c, hc, hid, hactive⟩

theorem listsItem_iff (hkeys : s.catalog.Keyed) {row : ItemRow} (hrow : row ∈ s.catalog.items) :
    (catalog collate tenant s).ListsItem row.id ↔
      row.status = .active ∧ s.catalog.activeCategory row.categoryId = true := by
  rw [activeCategory_iff]
  constructor
  · rintro ⟨_, hcategory, shown, hshown, hid⟩
    obtain ⟨category, hmem, rfl⟩ := List.mem_map.1 hcategory
    obtain ⟨item, hitem, rfl⟩ := List.mem_map.1 hshown
    obtain ⟨hitem, hin⟩ := List.mem_filter.1 hitem
    obtain ⟨hitem, hactive⟩ := mem_activeItems.1 hitem
    obtain rfl := hkeys.items.eq hitem hrow hid
    exact ⟨hactive, category, hmem, (of_decide_eq_true hin).symm⟩
  · rintro ⟨hactive, category, hcategory, hid⟩
    refine ⟨_, List.mem_map_of_mem hcategory, publicItem s.catalog row, List.mem_map_of_mem (List.mem_filter.2 ?_), rfl⟩
    exact ⟨mem_activeItems.2 ⟨hrow, hactive⟩, decide_eq_true hid.symm⟩

theorem mem_comboLines {line : ComboItemRow} : line ∈ comboLines t ↔ line ∈ t.comboItems :=
  List.mem_insertionSort _

/-- The lines of a combo are there, and their items are active. -/
theorem shownIn_iff {category : CategoryRow} {combo : ComboRow} : shownIn t category combo = true ↔
    combo.categoryId = category.id ∧ t.componentsActive combo.id = true := by
  have hlines : ∀ line, line ∈ (comboLines t).filter (·.comboId = combo.id) ↔
      line ∈ t.comboItems ∧ line.comboId = combo.id := fun line => by
    rw [List.mem_filter, mem_comboLines, decide_eq_true_eq]
  have hitems : ∀ id, (activeItems t).any (fun i => i.id = id) = t.items.any fun i => i.id = id && i.status = .active := by
    intro id
    rw [Bool.eq_iff_iff]
    simp only [List.any_eq_true, mem_activeItems, Bool.and_eq_true, decide_eq_true_eq]
    constructor
    · rintro ⟨i, ⟨hi, hactive⟩, hid⟩
      exact ⟨i, hi, hid, hactive⟩
    · rintro ⟨i, hi, hid, hactive⟩
      exact ⟨i, ⟨hi, hactive⟩, hid⟩
  rw [shownIn, CatalogTables.componentsActive]
  simp only [Bool.and_eq_true, decide_eq_true_eq, List.all_eq_true, List.any_eq_true, List.length_pos_iff_exists_mem,
    hlines, hitems, Bool.or_eq_true, and_imp, and_assoc, decide_not, Bool.not_eq_true', decide_eq_false_iff_not]
  refine and_congr_right fun _ => and_congr_right fun _ => forall₂_congr fun line _ => ?_
  exact Decidable.imp_iff_not_or

theorem listsCombo_iff (hkeys : s.catalog.Keyed) {row : ComboRow} (hrow : row ∈ s.catalog.combos) :
    (catalog collate tenant s).ListsCombo row.id ↔ row.status = .active ∧ s.catalog.componentsActive row.id = true ∧
      s.catalog.activeCategory row.categoryId = true := by
  rw [activeCategory_iff]
  constructor
  · rintro ⟨_, hcategory, shown, hshown, hid⟩
    obtain ⟨category, hmem, rfl⟩ := List.mem_map.1 hcategory
    obtain ⟨combo, hcombo, rfl⟩ := List.mem_map.1 hshown
    obtain ⟨hcombo, hin⟩ := List.mem_filter.1 hcombo
    obtain ⟨hcombo, hactive⟩ := mem_activeCombos.1 hcombo
    obtain rfl := hkeys.combos.eq hcombo hrow hid
    obtain ⟨hin, hcomponents⟩ := shownIn_iff.1 hin
    exact ⟨hactive, hcomponents, category, hmem, hin.symm⟩
  · rintro ⟨hactive, hcomponents, category, hcategory, hid⟩
    refine ⟨_, List.mem_map_of_mem hcategory, publicCombo s.catalog row, List.mem_map_of_mem (List.mem_filter.2 ?_), rfl⟩
    exact ⟨mem_activeCombos.2 ⟨hrow, hactive⟩, shownIn_iff.2 ⟨hid.symm, hcomponents⟩⟩

/-- The menu lists every option that the cart knows. -/
theorem listed_of_known (hkeys : t.Keyed) {itemId id : Id}
    (hid : id ∈ knownOptions ((t.groupsOf itemId).map (AddonGroupRow.offered t))) :
    ∃ group ∈ addonGroupsOf t itemId, ∃ option ∈ group.options, option.id = id := by
  obtain ⟨group, hgroup, hid⟩ := List.mem_flatMap.1 hid
  obtain ⟨row, hrow, rfl⟩ := List.mem_map.1 hgroup
  rw [offered_options] at hid
  obtain ⟨option, hoption, rfl⟩ := List.mem_map.1 hid
  obtain ⟨hoption, howner, hactive⟩ := mem_optionsIn.1 hoption
  obtain ⟨hrow, hlinked⟩ := List.mem_filter.1 hrow
  obtain ⟨hlinked, hrowActive⟩ := Bool.and_eq_true_iff.1 hlinked
  rw [List.contains_iff_mem, List.mem_map] at hlinked
  obtain ⟨pair, hpair, hgroupId⟩ := hlinked
  obtain ⟨hpair, hitem⟩ := List.mem_filter.1 hpair
  obtain ⟨link, hlink, rfl⟩ := List.mem_map.1 hpair
  have hfound : (t.addonGroups.filter (·.status = .active)).find? (·.id = link.addonGroupId) = some row := by
    have hactiveRow : row ∈ t.addonGroups.filter (·.status = .active) := List.mem_filter.2 ⟨hrow, hrowActive⟩
    have hunique : Table.UniqueOn AddonGroupRow.id (t.addonGroups.filter (·.status = .active)) :=
      hkeys.addonGroups.sublist (List.filter_sublist.map _)
    have hread := hunique.lookup hactiveRow
    rw [Table.lookup, ← hgroupId] at hread
    exact hread
  refine ⟨{ group := row, options := (t.addonOptions.filter (·.status = .active)).filter (·.groupId = row.id) }, ?_,
    option, ?_, rfl⟩
  · refine List.mem_flatMap.2 ⟨link, List.mem_filter.2 ⟨hlink, hitem⟩, ?_⟩
    rw [hfound]
    exact List.mem_singleton_self _
  · exact List.mem_filter.2 ⟨List.mem_filter.2 ⟨hoption, hactive⟩, decide_eq_true howner⟩

end Menu

/-! ## The request -/

section Requests
variable {tenant : PublicTenant} {key : String} {recordId cartId : Id} {now : Instant} {s : Shop} {db : Db}
  {price : Cents} {quantity : Nat} {optionIds : List Id} {isCombo : Bool} {resourceId : Id}

/-- The text of a stored price is one that the schema takes. -/
theorem isPriceText_centsToMoney (h : isMoney price = true) : isPriceText (centsToMoney price) = true := by
  have hprice : price / 100 < 10 ^ 10 := Nat.div_lt_of_lt_mul (of_decide_eq_true h)
  have hwhole : (Nat.toDigits 10 (price / 100)).length ≤ 10 :=
    (Nat.length_toDigits_le_iff (by omega) (by omega)).2 hprice
  have hpositive : 0 < (Nat.toDigits 10 (price / 100)).length := Nat.length_toDigits_pos
  obtain ⟨cents, htext, hlength, hcentDigits, -⟩ := centsToMoney_toList price
  have hlen : (centsToMoney price).toList.length - 3 = (Nat.toDigits 10 (price / 100)).length := by
    rw [htext, List.length_append, List.length_cons, hlength]
    omega
  have hdrop : (Nat.toDigits 10 (price / 100) ++ '.' :: cents).drop ((Nat.toDigits 10 (price / 100)).length + 1) =
      cents := by
    rw [← List.drop_drop, List.drop_left]
    rfl
  unfold isPriceText
  dsimp only
  rw [hlen, htext, List.take_left, hdrop]
  simp only [Bool.and_eq_true, decide_eq_true_eq, List.all_eq_true, List.getElem?_append_right le_rfl, Nat.sub_self,
    List.getElem?_cons_zero]
  exact ⟨⟨⟨⟨hpositive, hwhole⟩, isDigit_toDigits⟩, trivial⟩, hcentDigits⟩

theorem schema_storefrontLine (hprice : isMoney price = true) {request : CreateCartRequest} :
    createCartSchema { lines := [storefrontLine isCombo resourceId price quantity optionIds] } = some request ↔
      (0 < quantity ∧ quantity ≤ 50 ∧ optionIds.length ≤ 50) ∧
        request = { lines := [storefrontLine isCombo resourceId price quantity optionIds] } := by
  have htext := isPriceText_centsToMoney hprice
  simp only [createCartSchema, storefrontLine, isCartLine, List.length_singleton, List.all_cons, List.all_nil,
    Option.all_some, Option.all_none, htext, Bool.and_true, Bool.and_eq_true, decide_eq_true_eq, Option.map_none,
    List.map_cons, List.map_nil, Option.ite_none_right_eq_some, Option.some.injEq, le_refl, true_and, and_assoc]
  constructor
  · rintro ⟨-, hpos, hmax, hoptions, rfl⟩
    exact ⟨hpos, hmax, hoptions, rfl⟩
  · rintro ⟨hpos, hmax, hoptions, rfl⟩
    exact ⟨by omega, hpos, hmax, hoptions, rfl⟩

/-- A new key is claimed. -/
theorem claim_new (h : NewCall key recordId cartId db) (view : Db) (body : IdemRequest) (retention : Option Nat)
    (now : Instant) :
    ∃ rows, Commits (IdempotencyService.claim "create-cart" key body retention recordId now) view db
      (.claimed recordId body) { db with idempotency := rows } :=
  claim_granted h.valid h.unused view body retention now

theorem create_row (input : CartRepository.CreateInput) (view db : Db) (hfree : ∀ cart ∈ db.carts, cart.id ≠ cartId) :
    ∃ db', Commits (CartRepository.create input cartId) view db (input.row cartId) db' := by
  have hnew : ¬ (db.carts.any (·.id = cartId)) = true := by
    rw [List.any_eq_true]
    rintro ⟨cart, hcart, hid⟩
    exact hfree cart hcart (of_decide_eq_true hid)
  exact ⟨_, commits_current_bind.2 (commits_throwIf_bind.2 ⟨hnew, rfl⟩)⟩

/-- Under a new key a cart of valid lines is stored. -/
theorem create_new {tenant : PublicTenant} {request : CreateCartRequest} {lines : List NewCartLine} (now : Instant)
    (h : NewCall key recordId cartId db) (hopen : db.settings.orderingAvailable = true)
    (hlines : request.lines.mapM (CartService.validateLine tenant.currency db) = .ok lines) :
    ∃ cart db', cart.id = cartId ∧ Commits (CartService.create tenant request key recordId cartId now) db db cart db' ∧
      db'.carts = db.carts ++ [cart] := by
  obtain ⟨rows, hclaim⟩ := claim_new h db (.createCart request) (some 3600) now
  obtain ⟨db₂, hcreate⟩ := create_row (newCart tenant request.discountCode now db lines) db
    { db with idempotency := rows } h.free
  obtain ⟨-, -, hcore⟩ := create_core hcreate
  obtain ⟨db₃, hcomplete, hcarts⟩ : ∃ db₃,
      Commits (IdempotencyService.complete recordId 201 (.cart cartId)) db db₂ () db₃ ∧ db₃.carts = db₂.carts :=
    ⟨_, rfl, rfl⟩
  refine ⟨(newCart tenant request.discountCode now db lines).row cartId, db₃, rfl, commits_look_bind.2
    (commits_throwIf_bind.2 ⟨not_not.2 hopen, commits_bind.2 ⟨_, _, hclaim, ?_⟩⟩),
    hcarts.trans (congrArg Core.carts hcore)⟩
  exact commits_look_bind.2 (commits_fromExcept_bind.2 ⟨lines, hlines, commits_look_bind.2
    (commits_bind.2 ⟨_, db₂, hcreate, commits_bind.2 ⟨_, db₃, hcomplete, commits_pure.2 ⟨rfl, rfl⟩⟩⟩)⟩)

/-- Under a new key a cart is created when all its lines are valid. -/
theorem create_new_iff (tenant : PublicTenant) (request : CreateCartRequest) (now : Instant)
    (h : NewCall key recordId cartId db) (hopen : db.settings.orderingAvailable = true) :
    (∃ cart db', Commits (CartService.create tenant request key recordId cartId now) db db cart db') ↔
      ∃ lines, request.lines.mapM (CartService.validateLine tenant.currency db) = .ok lines := by
  constructor
  · rintro ⟨cart, db', hc⟩
    obtain ⟨rows, hclaim⟩ := claim_new h db (.createCart request) (some 3600) now
    rw [CartService.create, commits_look_bind, commits_throwIf_bind] at hc
    obtain ⟨answer, db₁, hanswer, hc⟩ := commits_bind.1 hc.2
    obtain ⟨rfl, rfl⟩ := Prod.mk.inj (Except.ok.inj (hclaim.symm.trans hanswer))
    dsimp only at hc
    rw [commits_look_bind, commits_fromExcept_bind] at hc
    obtain ⟨lines, hlines, -⟩ := hc
    exact ⟨lines, hlines⟩
  · rintro ⟨lines, hlines⟩
    obtain ⟨cart, db', -, hc, -⟩ := create_new now h hopen hlines
    exact ⟨cart, db', hc⟩

theorem acceptsLine_iff (h : NewCall key recordId cartId s.db) (hopen : s.db.settings.orderingAvailable = true)
    (hprice : isMoney price = true) :
    AcceptsLine tenant key recordId cartId now s (storefrontLine isCombo resourceId price quantity optionIds) ↔
      (0 < quantity ∧ quantity ≤ 50 ∧ optionIds.length ≤ 50) ∧ ∃ line, CartService.validateLine tenant.currency s.face
        (storefrontLine isCombo resourceId price quantity optionIds) = .ok line := by
  have hface : NewCall key recordId cartId s.face := ⟨h.valid, h.unused, h.free⟩
  have hsingle : (∃ lines, [storefrontLine isCombo resourceId price quantity optionIds].mapM
      (CartService.validateLine tenant.currency s.face) = .ok lines) ↔ ∃ line, CartService.validateLine tenant.currency
        s.face (storefrontLine isCombo resourceId price quantity optionIds) = .ok line := by
    constructor
    · rintro ⟨lines, hlines⟩
      cases mapM_ok_iff.1 hlines with
      | cons hline _ => exact ⟨_, hline⟩
    · rintro ⟨line, hline⟩
      exact ⟨[line], mapM_ok_iff.2 (.cons hline .nil)⟩
  have hcreate := create_new_iff tenant { lines := [storefrontLine isCombo resourceId price quantity optionIds] } now
    hface hopen
  rw [AcceptsLine, ← hsingle, ← hcreate]
  constructor
  · rintro ⟨request, cart, db, hschema, hc⟩
    obtain ⟨hbounds, rfl⟩ := (schema_storefrontLine hprice).1 hschema
    exact ⟨hbounds, cart, db, hc⟩
  · rintro ⟨hbounds, cart, db, hc⟩
    exact ⟨_, cart, db, (schema_storefrontLine hprice).2 ⟨hbounds, rfl⟩, hc⟩

end Requests

/-! ## Items -/

section Selections
variable {s : Shop} {groups : List AddonGroup} {optionIds : List Id}

/-- Options within the bounds of every group are at least as many as the groups ask for together. -/
theorem sum_minSelected_le (hids : (knownOptions groups).Nodup)
    (hbounded : ∀ group ∈ groups, group.withinBounds optionIds = true) :
    (groups.map (·.minSelected)).sum ≤ optionIds.length := by
  have hchosen : (groups.map (·.minSelected)).sum ≤ ((knownOptions groups).filter (· ∈ optionIds)).length := by
    clear hids
    induction groups with
    | nil => exact Nat.zero_le _
    | cons group groups ih =>
      have hhead := hbounded group (List.mem_cons_self ..)
      have htail := ih fun g hg => hbounded g (List.mem_cons_of_mem _ hg)
      have hselected : ((group.options.map (·.id)).filter (· ∈ optionIds)).length = (group.selected optionIds).length := by
        rw [AddonGroup.selected, List.filter_map, List.length_map]
        refine congrArg List.length (List.filter_congr fun option _ => ?_)
        rw [Function.comp_apply, List.contains_eq_mem]
      rw [AddonGroup.withinBounds] at hhead
      simp only [Bool.and_eq_true, decide_eq_true_eq] at hhead
      rw [List.map_cons, List.sum_cons, knownOptions, List.flatMap_cons, List.filter_append, List.length_append,
        hselected]
      exact Nat.add_le_add hhead.1 htail
  refine hchosen.trans (List.Subperm.length_le (List.Nodup.subperm (hids.filter _) fun id hid => ?_))
  exact of_decide_eq_true (List.mem_filter.1 hid).2

theorem length_firstOptions (h : ∀ group ∈ groups, group.minSelected ≤ group.options.length) :
    (firstOptions groups).length = (groups.map (·.minSelected)).sum := by
  induction groups with
  | nil => rfl
  | cons group groups ih =>
    have hhead := h group (List.mem_cons_self ..)
    rw [firstOptions, List.flatMap_cons, List.length_append, List.length_map, List.length_take, List.map_cons,
      List.sum_cons, Nat.min_eq_left hhead]
    exact congrArg _ (ih fun g hg => h g (List.mem_cons_of_mem _ hg))

/-- The groups of an item, as the cart reads them. -/
theorem mem_offered {itemId : Id} {group : AddonGroup}
    (h : group ∈ (s.catalog.groupsOf itemId).map (AddonGroupRow.offered s.catalog)) :
    ∃ row ∈ s.catalog.groupsOf itemId, row.minSelected = group.minSelected ∧ row.maxSelected = group.maxSelected ∧
      (activeOptions row.id s.catalog.addonOptions).length = group.options.length := by
  obtain ⟨row, hrow, rfl⟩ := List.mem_map.1 h
  have hlength := congrArg List.length (offered_options s.catalog row)
  rw [List.length_map, List.length_map] at hlength
  exact ⟨row, hrow, rfl, rfl, hlength.symm⟩

end Selections

section Buying
variable {tenant : PublicTenant} {key : String} {recordId cartId : Id} {now : Instant} {s : Shop}

/-- What `create` takes of an item. -/
theorem item_line_iff {row : ItemRow} (hkeys : s.catalog.Keyed) (hrow : row ∈ s.catalog.items) {currency : String}
    {quantity : Nat} {optionIds : List Id} :
    (∃ line, CartService.validateLine currency s.face
        (storefrontLine false row.id row.price quantity optionIds) = .ok line) ↔
      row.currency = currency ∧ row.status = .active ∧ row.itemType = .unit ∧
        (∀ id ∈ optionIds, id ∈ knownOptions ((s.catalog.groupsOf row.id).map (AddonGroupRow.offered s.catalog))) ∧
          ∀ group ∈ (s.catalog.groupsOf row.id).map (AddonGroupRow.offered s.catalog),
            group.withinBounds optionIds = true := by
  obtain ⟨catalog, hload, hstatus, htype, hgroups, hprice, hcurrency⟩ := loadItemSelection_eq hkeys hrow
  have hselection : CartRepository.loadSelection false row.id s.face = some catalog := by
    rw [CartRepository.loadSelection, hload]
    rfl
  rw [← hgroups, ← hcurrency, ← hstatus, ← htype]
  constructor
  · rintro ⟨line, hline⟩
    obtain ⟨catalog', validated, hload', hcurrency', hvalid, -⟩ := validateLine_iff.1 hline
    obtain rfl := Option.some.inj (hselection.symm.trans hload')
    cases htype' : catalog.itemType with
    | weighted =>
      obtain ⟨-, _, hsubtotal, -⟩ := (revalidate_weighted_iff htype').1 hvalid
      cases hsubtotal
    | unit =>
      obtain ⟨haccepted, -⟩ := (revalidate_unit_iff htype').1 hvalid
      exact ⟨hcurrency', haccepted.active, rfl, haccepted.known, haccepted.bounded⟩
  · rintro ⟨hcurrency', hactive, hunit, hknown, hbounded⟩
    refine ⟨_, validateLine_iff.2 ⟨catalog, _, hselection, hcurrency', (revalidate_unit_iff hunit).2 ⟨?_, rfl⟩, rfl⟩⟩
    refine ⟨hactive, rfl, fun price hconfirmed => ?_, hknown, hbounded⟩
    rw [hprice]
    exact (Option.some.inj hconfirmed).symm

theorem item_buyable_iff (tenant : PublicTenant) (now : Instant) {row : ItemRow} (ht : s.catalog.Stored)
    (hrow : row ∈ s.catalog.items)
    (h : NewCall key recordId cartId s.db) (hopen : s.db.settings.orderingAvailable = true) :
    row.Buyable s.catalog (AcceptsLine tenant key recordId cartId now s) ↔
      row.status = .active ∧ row.Sellable s.catalog tenant.currency := by
  have hnodup := knownOptions_nodup ht.toKeyed ht.toOptionsKeyed row.id
  have hsum : ((s.catalog.groupsOf row.id).map (AddonGroupRow.offered s.catalog)).map (·.minSelected) =
      (s.catalog.groupsOf row.id).map (·.minSelected) := List.map_map ..
  constructor
  · rintro ⟨quantity, optionIds, -, haccepts⟩
    obtain ⟨⟨-, -, hfew⟩, hline⟩ := (acceptsLine_iff h hopen (ht.itemPrices row hrow)).1 haccepts
    obtain ⟨hcurrency, hactive, hunit, -, hbounded⟩ := (item_line_iff ht.toKeyed hrow).1 hline
    refine ⟨hactive, hunit, hcurrency, fun group hgroup => ?_, ?_⟩
    · have hwithin := hbounded _ (List.mem_map_of_mem hgroup)
      have hlength := congrArg List.length (offered_options s.catalog group)
      rw [List.length_map, List.length_map] at hlength
      rw [AddonGroup.withinBounds] at hwithin
      simp only [Bool.and_eq_true, decide_eq_true_eq] at hwithin
      exact ⟨hwithin.1.trans hwithin.2, hlength ▸ hwithin.1.trans (List.length_filter_le ..)⟩
    · rw [← hsum]
      exact (sum_minSelected_le hnodup hbounded).trans hfew
  · rintro ⟨hactive, hunit, hcurrency, hgroups, hfew⟩
    have hoptions : ∀ group ∈ (s.catalog.groupsOf row.id).map (AddonGroupRow.offered s.catalog),
        group.minSelected ≤ group.maxSelected ∧ group.minSelected ≤ group.options.length := by
      intro group hgroup
      obtain ⟨groupRow, hgroupRow, hmin, hmax, hlength⟩ := mem_offered hgroup
      rw [← hmin, ← hmax, ← hlength]
      exact hgroups groupRow hgroupRow
    refine ⟨1, firstOptions ((s.catalog.groupsOf row.id).map (AddonGroupRow.offered s.catalog)), fun id hid => ?_, ?_⟩
    · exact listed_of_known ht.toKeyed (firstOptions_known id hid)
    · refine (acceptsLine_iff h hopen (ht.itemPrices row hrow)).2 ⟨⟨Nat.one_pos, by omega, ?_⟩, ?_⟩
      · rw [length_firstOptions fun group hgroup => (hoptions group hgroup).2, hsum]
        exact hfew
      · refine (item_line_iff ht.toKeyed hrow).2 ⟨hcurrency, hactive, hunit, firstOptions_known, fun group hgroup => ?_⟩
        exact firstOptions_within hnodup hgroup (hoptions group hgroup).1 (hoptions group hgroup).2

/-! ## Combos -/

/-- A combo that the cart finds is active when its components are there and active. -/
theorem loadComboSelection_eq {row : ComboRow} (ht : s.catalog.Stored) (hrow : row ∈ s.catalog.combos) :
    ∃ catalog, CartRepository.loadComboSelection row.id s.face = some catalog ∧ catalog.itemType = .unit ∧
      catalog.addonGroups = [] ∧ catalog.price = row.price ∧ catalog.currency = row.currency ∧
      (catalog.status = .active ↔ row.status = .active ∧ s.catalog.componentsActive row.id = true) := by
  have hread : Table.lookup CatalogCombo.id row.id (s.catalog.combos.map (ComboRow.face s.catalog)) =
      some (row.face s.catalog) := by
    have hid : ∀ r : ComboRow, CatalogCombo.id (ComboRow.face s.catalog r) = r.id := fun _ => rfl
    rw [Table.lookup_map hid, ht.combos.lookup hrow]
    rfl
  have hitem : ∀ item ∈ s.catalog.items, Table.lookup CatalogItem.id item.id (s.catalog.items.map (ItemRow.face s.catalog)) =
      some (item.face s.catalog) := by
    intro item hmem
    have hid : ∀ r : ItemRow, CatalogItem.id (ItemRow.face s.catalog r) = r.id := fun _ => rfl
    rw [Table.lookup_map hid, ht.items.lookup hmem]
    rfl
  have hlines : ∀ line, line ∈ CatalogRepository.findComboItems row.id s.catalog ↔
      line ∈ s.catalog.comboItems ∧ line.comboId = row.id := fun line => by
    rw [CatalogRepository.findComboItems, List.mem_insertionSort, List.mem_filter, decide_eq_true_eq]
  have hcomponents : ∀ c, c ∈ (row.face s.catalog).itemIds.filterMap
      (fun itemId => Table.lookup CatalogItem.id itemId (s.catalog.items.map (ItemRow.face s.catalog))) ↔
        ∃ line ∈ s.catalog.comboItems, line.comboId = row.id ∧ ∃ item ∈ s.catalog.items, item.id = line.itemId ∧
          c = item.face s.catalog := by
    intro c
    simp only [ComboRow.face, List.mem_filterMap, List.mem_map, hlines]
    constructor
    · rintro ⟨_, ⟨line, ⟨hline, hcombo⟩, rfl⟩, hfound⟩
      obtain ⟨item, hmem, hid⟩ := ht.comboItems line hline
      rw [← hid, hitem item hmem] at hfound
      exact ⟨line, hline, hcombo, item, hmem, hid, (Option.some.inj hfound).symm⟩
    · rintro ⟨line, hline, hcombo, item, hmem, hid, rfl⟩
      exact ⟨_, ⟨line, ⟨hline, hcombo⟩, rfl⟩, by rw [← hid, hitem item hmem]⟩
  have hactive : (((row.face s.catalog).itemIds.filterMap fun itemId => Table.lookup CatalogItem.id itemId
      (s.catalog.items.map (ItemRow.face s.catalog))) ≠ [] ∧ ((row.face s.catalog).itemIds.filterMap fun itemId =>
        Table.lookup CatalogItem.id itemId (s.catalog.items.map (ItemRow.face s.catalog))).all (·.status =
          .active) = true) ↔
      s.catalog.componentsActive row.id = true := by
    rw [← List.length_pos_iff, List.length_pos_iff_exists_mem, List.all_eq_true, CatalogTables.componentsActive]
    simp only [hcomponents, decide_eq_true_eq, Bool.and_eq_true, List.any_eq_true, List.all_eq_true, Bool.or_eq_true,
      decide_not, Bool.not_eq_true', decide_eq_false_iff_not]
    constructor
    · rintro ⟨⟨_, line, hline, hcombo, -⟩, hall⟩
      refine ⟨⟨line, hline, hcombo⟩, fun line' hline' => or_iff_not_imp_left.2 fun hcombo' => ?_⟩
      obtain ⟨item, hmem, hid⟩ := ht.comboItems line' hline'
      exact ⟨item, hmem, hid, hall _ ⟨line', hline', not_not.1 hcombo', item, hmem, hid, rfl⟩⟩
    · rintro ⟨⟨line, hline, hcombo⟩, hall⟩
      obtain ⟨item, hmem, hid⟩ := ht.comboItems line hline
      refine ⟨⟨_, line, hline, hcombo, item, hmem, hid, rfl⟩, ?_⟩
      rintro _ ⟨line', hline', hcombo', item', hmem', hid', rfl⟩
      obtain ⟨item'', hmem'', hid'', hstatus⟩ := (hall line' hline').resolve_left (not_not.2 hcombo')
      rw [ht.items.eq hmem' hmem'' (hid'.trans hid''.symm)]
      exact hstatus
  unfold CartRepository.loadComboSelection Shop.face
  rw [hread]
  refine ⟨_, rfl, rfl, rfl, rfl, rfl, ?_⟩
  dsimp only
  rw [← hactive]
  split
  · next hall => exact (and_iff_left hall).symm
  · next hnot => exact iff_of_false (by decide) fun hall => hnot hall.2

theorem combo_buyable_iff {row : ComboRow} (ht : s.catalog.Stored) (hrow : row ∈ s.catalog.combos)
    (h : NewCall key recordId cartId s.db) (hopen : s.db.settings.orderingAvailable = true) :
    row.Buyable (AcceptsLine tenant key recordId cartId now s) ↔
      row.status = .active ∧ s.catalog.componentsActive row.id = true ∧ row.currency = tenant.currency := by
  obtain ⟨catalog, hload, hunit, hgroups, hprice, hcurrency, hactive⟩ := loadComboSelection_eq ht hrow
  have hselection : CartRepository.loadSelection true row.id s.face = some catalog := by
    rw [CartRepository.loadSelection, hload]
    rfl
  rw [← and_assoc, ← hactive, ← hcurrency]
  constructor
  · rintro ⟨quantity, haccepts⟩
    obtain ⟨-, line, hline⟩ := (acceptsLine_iff h hopen (ht.comboPrices row hrow)).1 haccepts
    obtain ⟨catalog', validated, hload', hcurrency', hvalid, -⟩ := validateLine_iff.1 hline
    obtain rfl := Option.some.inj (hselection.symm.trans hload')
    exact ⟨((revalidate_unit_iff hunit).1 hvalid).1.active, hcurrency'⟩
  · rintro ⟨hstatus, hcurrency'⟩
    refine ⟨1, (acceptsLine_iff h hopen (ht.comboPrices row hrow)).2 ⟨⟨Nat.one_pos, by omega, Nat.zero_le _⟩, ?_⟩⟩
    refine ⟨_, validateLine_iff.2 ⟨catalog, _, hselection, hcurrency', (revalidate_unit_iff hunit).2 ⟨?_, rfl⟩, rfl⟩⟩
    refine ⟨hstatus, rfl, fun price hconfirmed => ?_, fun id hid => ?_, fun group hgroup => ?_⟩
    · rw [hprice]
      exact (Option.some.inj hconfirmed).symm
    · exact absurd hid List.not_mem_nil
    · rw [hgroups] at hgroup
      exact absurd hgroup List.not_mem_nil

end Buying

/-- In a store that takes orders, what the menu lists is what can be bought if and only if what is active belongs to an
active category exactly when it can be sold. -/
theorem storefront_exact_iff {collate : String → String → Bool} {tenant : PublicTenant} {s : Shop} {key : String}
    {recordId cartId : Id} {now : Instant} (ht : s.catalog.Stored) (hopen : s.db.settings.orderingAvailable = true)
    (h : NewCall key recordId cartId s.db) :
    StorefrontExact (catalog collate tenant s) (AcceptsLine tenant key recordId cartId now s) s.catalog ↔
      s.catalog.ShowsSellable tenant.currency := by
  have hitem : ∀ row ∈ s.catalog.items, ((catalog collate tenant s).ListsItem row.id ↔
      row.Buyable s.catalog (AcceptsLine tenant key recordId cartId now s)) ↔ (row.status = .active →
        (s.catalog.activeCategory row.categoryId = true ↔ row.Sellable s.catalog tenant.currency)) := fun row hrow => by
    rw [listsItem_iff ht.toKeyed hrow, item_buyable_iff tenant now ht hrow h hopen, and_congr_right_iff]
  have hcombo : ∀ row ∈ s.catalog.combos, ((catalog collate tenant s).ListsCombo row.id ↔
      row.Buyable (AcceptsLine tenant key recordId cartId now s)) ↔ (row.status = .active →
        s.catalog.componentsActive row.id = true →
          (s.catalog.activeCategory row.categoryId = true ↔ row.currency = tenant.currency)) := fun row hrow => by
    rw [listsCombo_iff ht.toKeyed hrow, combo_buyable_iff ht hrow h hopen, and_congr_right_iff, and_congr_right_iff]
  constructor
  · rintro ⟨hitems, hcombos⟩
    exact ⟨fun row hrow => (hitem row hrow).1 (hitems row hrow), fun row hrow => (hcombo row hrow).1 (hcombos row hrow)⟩
  · rintro ⟨hitems, hcombos⟩
    exact ⟨fun row hrow => (hitem row hrow).2 (hitems row hrow), fun row hrow => (hcombo row hrow).2 (hcombos row hrow)⟩

namespace Demo

theorem kitchen_stored : kitchen.catalog.Stored where
  categories := by decide
  items := by decide
  addonGroups := by decide
  combos := by decide
  unique := by decide
  owned := by decide
  comboItems := by decide
  itemPrices := by decide
  comboPrices := by decide

theorem kitchen_newCall : NewCall "key" "record" "cart" kitchen.db := ⟨by decide, by decide, by decide⟩

/-- The category has become a draft, and its burger is still active. -/
def draftKitchen : Shop :=
  { kitchen with
    catalog := { kitchen.catalog with categories := kitchen.catalog.categories.map fun c => { c with status := .draft } } }

theorem draftKitchen_stored : draftKitchen.catalog.Stored :=
  { kitchen_stored with categories := by decide }

end Demo

open Demo

theorem storefront_exact_kitchen :
    StorefrontExact (catalog (fun _ _ => true) tenant kitchen) (AcceptsLine tenant "key" "record" "cart" 0 kitchen)
        kitchen.catalog ↔ kitchen.catalog.ShowsSellable tenant.currency :=
  storefront_exact_iff kitchen_stored (by decide) kitchen_newCall

/-- The burger of the draft category is not listed, and can be bought. -/
theorem sells_unlisted_burger : ¬ ∀ (collate : String → String → Bool) (tenant : PublicTenant) (s : Shop) (key : String)
    (recordId cartId : Id) (now : Instant), s.catalog.Stored → s.db.settings.orderingAvailable = true →
    NewCall key recordId cartId s.db →
    StorefrontExact (catalog collate tenant s) (AcceptsLine tenant key recordId cartId now s) s.catalog := by
  intro hall
  have hexact := hall (fun _ _ => true) tenant draftKitchen "key" "record" "cart" 0 draftKitchen_stored (by decide)
    kitchen_newCall
  have hburger : ∃ row ∈ draftKitchen.catalog.items, row.status = .active ∧ row.itemType = .unit ∧
      row.currency = tenant.currency ∧ draftKitchen.catalog.groupsOf row.id = [] ∧
        draftKitchen.catalog.activeCategory row.categoryId = false := by decide
  obtain ⟨row, hrow, hactive, hunit, hcurrency, hgroups, hcategory⟩ := hburger
  have hbuyable := (item_buyable_iff tenant 0 draftKitchen_stored hrow kitchen_newCall (by decide)).2
    ⟨hactive, hunit, hcurrency, by simp [hgroups], by simp [hgroups]⟩
  have hlisted := (listsItem_iff draftKitchen_stored.toKeyed hrow).1 ((hexact.items row hrow).2 hbuyable)
  exact absurd (hcategory.symm.trans hlisted.2) Bool.false_ne_true

end Komanda
