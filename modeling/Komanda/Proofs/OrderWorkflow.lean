import Mathlib.Algebra.BigOperators.Group.List.Lemmas
import Mathlib.Data.List.Dedup
import Komanda.OrderWorkflow
import Komanda.Proofs.RequestHash

/-!
# What the kitchen's screen adds up

The nested loops go through `kitchenLines` (`entries_eq`), and through the named options of the lines of a product
(`addOptions_eq`), so an entry is what the lines of its product alone make of it (`KitchenEntry.lookup`).
-/

namespace Komanda.OrderWorkflow
open InsertionMap

section
variable (locale : Locale)

/-! ## The loops as one -/

/-- The lines that count for the kitchen: those with a name and a positive quantity, of the orders in its stage. -/
def kitchenLines (orders : List AdminDashboardOrder) : List (AdminDashboardOrder × AdminDashboardLine) :=
  (orders.filter (orderStage · = .kitchen)).flatMap fun order =>
    ((order.lines.getD []).filter fun line => ¬ (Text.trim line.name = "" ∨ line.quantity ≤ 0)).map fun line =>
      (order, line)

/-- The lines of a product. -/
def productLines (key : String) (orders : List AdminDashboardOrder) : List (AdminDashboardOrder × AdminDashboardLine) :=
  (kitchenLines orders).filter fun p => productKey locale p.2 = key

/-- The options that have a name, of some lines. -/
def namedOptions (lines : List (AdminDashboardOrder × AdminDashboardLine)) :
    List (AdminDashboardLine × AdminDashboardLineOption) :=
  lines.flatMap fun p => ((p.2.options.getD []).filter fun opt => ¬ Text.trim opt.name = "").map fun opt => (p.2, opt)

def entries (orders : List AdminDashboardOrder) : List (String × KitchenEntry) :=
  upsertAll (fun p => productKey locale p.2) (fun p => newEntry locale p.2) (fun p => countLine locale p.1 p.2)
    (kitchenLines orders) []

def optionEntries (options : List (AdminDashboardLine × AdminDashboardLineOption))
    (m : List (String × KitchenOptionSummary)) : List (String × KitchenOptionSummary) :=
  upsertAll (fun p => optionKey locale p.2) (fun p => { name := Text.trim p.2.name, quantity := 0 })
    (fun p existingOpt => { existingOpt with quantity := existingOpt.quantity + optionQuantity p.1 p.2 }) options m

end

variable {locale : Locale}

/-- A loop that passes over some elements. -/
theorem foldl_skip {α β : Type} {p : α → Prop} [DecidablePred p] {f : β → α → β} (l : List α) (b : β) :
    l.foldl (fun b a => if p a then b else f b a) b = (l.filter fun a => ¬ p a).foldl f b := by
  simp only [List.foldl_filter, decide_not, Bool.not_eq_true', decide_eq_false_iff_not, ite_not]

theorem entries_eq (orders : List AdminDashboardOrder) : orders.foldl (addOrder locale) [] = entries locale orders := by
  have hline (order : AdminDashboardOrder) (lines : List AdminDashboardLine) (m : List (String × KitchenEntry)) :
      lines.foldl (addLine locale order) m =
        (lines.filter fun line => ¬ (Text.trim line.name = "" ∨ line.quantity ≤ 0)).foldl (fun m line =>
          upsert (productKey locale line) (newEntry locale line) (countLine locale order line) m) m := foldl_skip lines m
  have horder : orders.foldl (addOrder locale) [] = (orders.filter fun order => ¬ orderStage order ≠ .kitchen).foldl
      (fun m order => (order.lines.getD []).foldl (addLine locale order) m) [] := foldl_skip orders []
  have hkitchen : (orders.filter fun order => ¬ orderStage order ≠ .kitchen) =
      orders.filter (orderStage · = .kitchen) := List.filter_congr fun order _ => by simp
  rw [horder, hkitchen, entries, upsertAll, kitchenLines, List.foldl_flatMap]
  congr 1
  funext m order
  rw [hline, List.foldl_map]

theorem addOptions_eq (lines : List (AdminDashboardOrder × AdminDashboardLine))
    (m : List (String × KitchenOptionSummary)) :
    lines.foldl (fun m p => (p.2.options.getD []).foldl (addOption locale p.2) m) m =
      optionEntries locale (namedOptions lines) m := by
  have hoption (line : AdminDashboardLine) (options : List AdminDashboardLineOption)
      (m : List (String × KitchenOptionSummary)) : options.foldl (addOption locale line) m =
      (options.filter fun opt => ¬ Text.trim opt.name = "").foldl (fun m opt =>
        upsert (optionKey locale opt) { name := Text.trim opt.name, quantity := 0 } (fun existingOpt =>
          { existingOpt with quantity := existingOpt.quantity + optionQuantity line opt }) m) m := foldl_skip options m
  rw [optionEntries, upsertAll, namedOptions, List.foldl_flatMap]
  congr 1
  funext m p
  rw [hoption, List.foldl_map]

/-! ## What an entry holds -/

section Entry
variable {lines : List (AdminDashboardOrder × AdminDashboardLine)}
  {options : List (AdminDashboardLine × AdminDashboardLineOption)}

/-- What some lines add to an entry. -/
def countLines (locale : Locale) (lines : List (AdminDashboardOrder × AdminDashboardLine)) (entry : KitchenEntry) :
    KitchenEntry :=
  { entry with
    totalQuantity := entry.totalQuantity + (lines.map (·.2.quantity)).sum
    orderIds := (lines.map (·.1.id)).foldl (fun ids id => add id ids) entry.orderIds
    notes := entry.notes ++ lines.filterMap fun p => noteOf p.1 p.2
    options := optionEntries locale (namedOptions lines) entry.options }

theorem foldl_countLine (e : KitchenEntry) :
    lines.foldl (fun e p => countLine locale p.1 p.2 e) e = countLines locale lines e := by
  induction lines generalizing e with
  | nil =>
    rw [countLines, List.map_nil, List.sum_nil, Int.add_zero, List.filterMap_nil, List.append_nil]
    rfl
  | cons p lines ih =>
    rw [List.foldl_cons, ih, countLines, countLine, countLines, ← addOptions_eq, ← addOptions_eq, List.map_cons,
      List.sum_cons, Int.add_assoc, List.filterMap_cons, List.append_assoc]
    cases noteOf p.1 p.2 <;> rfl

/-- The entry of a product is what its lines add to a new one. -/
theorem lookup_entries (orders : List AdminDashboardOrder) (key : String) :
    (entries locale orders).lookup key =
      (productLines locale key orders).head?.map fun p =>
        countLines locale (productLines locale key orders) (newEntry locale p.2) := by
  rw [entries, lookup_upsertAll, ← productLines]
  cases hlines : productLines locale key orders with
  | nil => rfl
  | cons p lines =>
    have hrun : ∀ (l : List (AdminDashboardOrder × AdminDashboardLine)) (e : KitchenEntry),
        entry (fun p => newEntry locale p.2) (fun p => countLine locale p.1 p.2) l (some e) =
          some (l.foldl (fun e p => countLine locale p.1 p.2 e) e) := fun l e => entry_some l e
    have hcount : (p :: lines).foldl (fun e p => countLine locale p.1 p.2 e) (newEntry locale p.2) =
        countLines locale (p :: lines) (newEntry locale p.2) := foldl_countLine _
    exact (hrun lines _).trans (congrArg some hcount)

/-- The option of a name has the quantities of its occurrences. -/
theorem lookup_optionEntries (key : String) : (optionEntries locale options []).lookup key =
    (options.filter (fun p => optionKey locale p.2 = key)).head?.map fun p =>
      { name := Text.trim p.2.name
        quantity := ((options.filter fun p => optionKey locale p.2 = key).map fun p => optionQuantity p.1 p.2).sum } := by
  have hrun : ∀ (l : List (AdminDashboardLine × AdminDashboardLineOption)) (o : KitchenOptionSummary),
      l.foldl (fun existingOpt p => { existingOpt with
        quantity := existingOpt.quantity + optionQuantity p.1 p.2 }) o =
        { o with quantity := o.quantity + (l.map fun p => optionQuantity p.1 p.2).sum } := by
    intro l
    induction l with
    | nil =>
      intro o
      rw [List.map_nil, List.sum_nil, Int.add_zero]
      rfl
    | cons p l ih =>
      intro o
      rw [List.foldl_cons, ih, List.map_cons, List.sum_cons, Int.add_assoc]
  rw [optionEntries, lookup_upsertAll]
  cases hoptions : options.filter fun p => optionKey locale p.2 = key with
  | nil => rfl
  | cons p l =>
    have htotal := hrun (p :: l) { name := Text.trim p.2.name, quantity := 0 }
    rw [Int.zero_add] at htotal
    exact (entry_some l _).trans (congrArg some htotal)

end Entry

/-! ## Sorting -/

theorem quantityLe_iff {a b : Int × String} :
    quantityLe locale a b = true ↔ b.1 < a.1 ∨ a.1 = b.1 ∧ locale.collation.le a.2 b.2 = true := by
  rw [quantityLe, Bool.or_eq_true, Bool.and_eq_true, decide_eq_true_iff, decide_eq_true_iff]

theorem quantityLe_preorder (locale : Locale) : StableSort.TotalPreorder (quantityLe locale) where
  trans a b c hab hbc := by
    rw [quantityLe_iff] at hab hbc ⊢
    rcases hab with hab | ⟨hab, hnames⟩
    · rcases hbc with hbc | ⟨hbc, -⟩
      · exact .inl (hbc.trans hab)
      · exact .inl (hbc ▸ hab)
    · rcases hbc with hbc | ⟨hbc, hnames'⟩
      · exact .inl (hab ▸ hbc)
      · exact .inr ⟨hab.trans hbc, locale.collation.preorder.trans _ _ _ hnames hnames'⟩
  total a b := by
    rw [Bool.or_eq_true, quantityLe_iff, quantityLe_iff]
    rcases Int.lt_trichotomy a.1 b.1 with h | h | h
    · exact .inr (.inl h)
    · rcases Bool.or_eq_true_iff.1 (locale.collation.preorder.total a.2 b.2) with hnames | hnames
      · exact .inl (.inr ⟨h, hnames⟩)
      · exact .inr (.inr ⟨h.symm, hnames⟩)
    · exact .inl (.inl h)

theorem decreasing_sortBy {α : Type} (quantity : α → Int) (name : α → String) (l : List α) :
    (StableSort.sortBy (quantityLe locale) (fun a => (quantity a, name a)) l).Pairwise fun a b =>
      quantity b ≤ quantity a := by
  refine (StableSort.sorted_sortBy (quantityLe_preorder locale)).imp fun {a b} h => ?_
  rcases quantityLe_iff.1 h with hlt | ⟨heq, -⟩
  · exact hlt.le
  · exact heq.ge

/-! ## The totals -/

/-- One summary for each named option, with its quantity, the larger ones first. -/
structure OptionTotals (locale : Locale) (options : List (AdminDashboardLine × AdminDashboardLineOption))
    (result : List KitchenOptionSummary) : Prop where
  nodup : (result.map fun o => locale.toLocaleLowerCase o.name).Nodup
  keys : ∀ key, key ∈ (result.map fun o => locale.toLocaleLowerCase o.name) ↔
    ∃ p ∈ options, optionKey locale p.2 = key
  quantity : ∀ o ∈ result, o.quantity =
    ((options.filter fun p => optionKey locale p.2 = locale.toLocaleLowerCase o.name).map fun p =>
      optionQuantity p.1 p.2).sum
  sorted : result.Pairwise fun a b => b.quantity ≤ a.quantity

/-- One summary for each product that the kitchen has to make, with what its lines add up to, the larger ones first. -/
structure KitchenTotals (locale : Locale) (orders : List AdminDashboardOrder) (result : List KitchenProductSummary) :
    Prop where
  nodup : (result.map (·.key)).Nodup
  keys : ∀ key, key ∈ result.map (·.key) ↔ ∃ p ∈ kitchenLines orders, productKey locale p.2 = key
  name : ∀ e ∈ result, locale.toLocaleLowerCase e.name = e.key
  totalQuantity : ∀ e ∈ result, e.totalQuantity = ((productLines locale e.key orders).map (·.2.quantity)).sum
  orderCount : ∀ e ∈ result, e.orderCount = ((productLines locale e.key orders).map (·.1.id)).dedup.length
  options : ∀ e ∈ result, OptionTotals locale (namedOptions (productLines locale e.key orders)) e.options
  notes : ∀ e ∈ result, e.notes = (productLines locale e.key orders).filterMap fun p => noteOf p.1 p.2
  sorted : result.Pairwise fun a b => b.totalQuantity ≤ a.totalQuantity

section Totals
variable {lines : List (AdminDashboardOrder × AdminDashboardLine)}
  {options : List (AdminDashboardLine × AdminDashboardLineOption)} {orders : List AdminDashboardOrder}

theorem mem_optionEntries {key : String} {o : KitchenOptionSummary} (h : (key, o) ∈ optionEntries locale options []) :
    locale.toLocaleLowerCase o.name = key ∧
    o.quantity = ((options.filter fun p => optionKey locale p.2 = key).map fun p => optionQuantity p.1 p.2).sum := by
  have hlookup := (mem_iff_lookup (nodup_keys_upsertAll options)).1 h
  rw [← optionEntries, lookup_optionEntries, Option.map_eq_some_iff] at hlookup
  obtain ⟨p, hp, rfl⟩ := hlookup
  have hkey := (List.mem_filter.1 (List.mem_of_mem_head? hp)).2
  exact ⟨of_decide_eq_true hkey, rfl⟩

theorem optionTotals : OptionTotals locale options
    (StableSort.sortBy (quantityLe locale) (fun o => (o.quantity, o.name)) ((optionEntries locale options []).map (·.2))) := by
  have hperm := StableSort.perm_sortBy (quantityLe locale) (fun o : KitchenOptionSummary => (o.quantity, o.name))
    ((optionEntries locale options []).map (·.2))
  have hkeys : ((optionEntries locale options []).map (·.2)).map (fun o => locale.toLocaleLowerCase o.name) =
      (optionEntries locale options []).map (·.1) := by
    rw [List.map_map]
    exact List.map_congr_left fun e he => (mem_optionEntries he).1
  refine ⟨?_, fun key => ?_, fun o ho => ?_, decreasing_sortBy _ _ _⟩
  · rw [(hperm.map _).nodup_iff, hkeys]
    exact nodup_keys_upsertAll options
  · rw [(hperm.map _).mem_iff, hkeys]
    exact mem_keys_upsertAll
  · obtain ⟨e, he, rfl⟩ := List.mem_map.1 (hperm.mem_iff.1 ho)
    obtain ⟨hname, hquantity⟩ := mem_optionEntries he
    rw [hname, hquantity]

theorem mem_entries {key : String} {e : KitchenEntry} (h : (key, e) ∈ entries locale orders) :
    e.key = key ∧ ∃ p : AdminDashboardOrder × AdminDashboardLine, productKey locale p.2 = key ∧
      e = countLines locale (productLines locale key orders) (newEntry locale p.2) := by
  have hlookup := (mem_iff_lookup (nodup_keys_upsertAll (kitchenLines orders))).1 h
  rw [← entries, lookup_entries, Option.map_eq_some_iff] at hlookup
  obtain ⟨p, hp, rfl⟩ := hlookup
  have hkey := of_decide_eq_true (List.mem_filter.1 (List.mem_of_mem_head? hp)).2
  exact ⟨hkey, p, hkey, rfl⟩

/-- A set of ids has as many members as there are different ones. -/
theorem length_addAll (ids : List Id) : (ids.foldl (fun s id => add id s) []).length = ids.dedup.length := by
  obtain ⟨hnodup, hmem⟩ := addAll_spec ids (List.nodup_nil (α := Id))
  refine ((List.perm_ext_iff_of_nodup hnodup (List.nodup_dedup ids)).2 fun id => ?_).length_eq
  rw [hmem, List.mem_dedup]
  exact or_iff_right List.not_mem_nil

theorem kitchenTotals (orders : List AdminDashboardOrder) :
    KitchenTotals locale orders (aggregateKitchenProducts locale orders) := by
  rw [aggregateKitchenProducts, entries_eq]
  have hperm := StableSort.perm_sortBy (quantityLe locale) (fun e : KitchenProductSummary => (e.totalQuantity, e.name))
    ((entries locale orders).map fun e => summary locale e.2)
  have hkeys : ((entries locale orders).map fun e => summary locale e.2).map (·.key) =
      (entries locale orders).map (·.1) := by
    rw [List.map_map]
    exact List.map_congr_left fun e he => (mem_entries he).1
  have hentry : ∀ s ∈ StableSort.sortBy (quantityLe locale) (fun e : KitchenProductSummary => (e.totalQuantity, e.name))
      ((entries locale orders).map fun e => summary locale e.2),
      ∃ p : AdminDashboardOrder × AdminDashboardLine, productKey locale p.2 = s.key ∧
        s = summary locale (countLines locale (productLines locale s.key orders) (newEntry locale p.2)) := by
    intro s hs
    obtain ⟨⟨key, e⟩, he, rfl⟩ := List.mem_map.1 (hperm.mem_iff.1 hs)
    obtain ⟨hkey, p, hp, heq⟩ := mem_entries he
    have hsummary : (summary locale e).key = key := hkey
    refine ⟨p, hp.trans hsummary.symm, ?_⟩
    rw [hsummary]
    exact congrArg (summary locale) heq
  refine ⟨?_, fun key => ?_, fun s hs => ?_, fun s hs => ?_, fun s hs => ?_, fun s hs => ?_, fun s hs => ?_,
    decreasing_sortBy _ _ _⟩
  · rw [(hperm.map _).nodup_iff, hkeys]
    exact nodup_keys_upsertAll _
  · rw [(hperm.map _).mem_iff, hkeys]
    exact mem_keys_upsertAll
  · obtain ⟨p, hp, heq⟩ := hentry s hs
    rw [← hp, heq]
    rfl
  · obtain ⟨p, -, heq⟩ := hentry s hs
    exact (congrArg KitchenProductSummary.totalQuantity heq).trans (Int.zero_add _)
  · obtain ⟨p, -, heq⟩ := hentry s hs
    exact (congrArg KitchenProductSummary.orderCount heq).trans (length_addAll _)
  · obtain ⟨p, -, heq⟩ := hentry s hs
    rw [congrArg KitchenProductSummary.options heq]
    exact optionTotals
  · obtain ⟨p, -, heq⟩ := hentry s hs
    exact (congrArg KitchenProductSummary.notes heq).trans (List.nil_append _)

end Totals

/-! ## Orders in another order -/

/-- The same options with the same quantities, where only equal quantities may change places. -/
structure SameOptions (locale : Locale) (r r' : List KitchenOptionSummary) : Prop where
  options : (r.map fun o => (locale.toLocaleLowerCase o.name, o.quantity)).Perm
    (r'.map fun o => (locale.toLocaleLowerCase o.name, o.quantity))
  quantities : r.map (·.quantity) = r'.map (·.quantity)

/-- The same product, but for its spelling and the order of its notes. -/
structure SameProduct (locale : Locale) (e e' : KitchenProductSummary) : Prop where
  totalQuantity : e.totalQuantity = e'.totalQuantity
  orderCount : e.orderCount = e'.orderCount
  options : SameOptions locale e.options e'.options
  notes : e.notes.Perm e'.notes

/-- The same products, where only equal quantities may change places. -/
structure SameTotals (locale : Locale) (r r' : List KitchenProductSummary) : Prop where
  keys : (r.map (·.key)).Perm (r'.map (·.key))
  quantities : r.map (·.totalQuantity) = r'.map (·.totalQuantity)
  products : ∀ e ∈ r, ∀ e' ∈ r', e.key = e'.key → SameProduct locale e e'

section Permutation
variable {orders orders' : List AdminDashboardOrder}

theorem kitchenLines_perm (h : orders.Perm orders') : (kitchenLines orders).Perm (kitchenLines orders') :=
  (h.filter _).flatMap_right _

theorem productLines_perm (h : orders.Perm orders') (key : String) :
    (productLines locale key orders).Perm (productLines locale key orders') := (kitchenLines_perm h).filter _

/-- Quantities that the keys determine are sorted into one list. -/
theorem quantities_eq {α : Type} {r r' : List α} {key : α → String} {quantity : α → Int} (total : String → Int)
    (hr : ∀ a ∈ r, quantity a = total (key a)) (hr' : ∀ a ∈ r', quantity a = total (key a))
    (hkeys : (r.map key).Perm (r'.map key)) (hsorted : r.Pairwise fun a b => quantity b ≤ quantity a)
    (hsorted' : r'.Pairwise fun a b => quantity b ≤ quantity a) : r.map quantity = r'.map quantity := by
  have htotals : ∀ l : List α, (∀ a ∈ l, quantity a = total (key a)) → l.map quantity = (l.map key).map total := by
    intro l hl
    rw [List.map_map]
    exact List.map_congr_left hl
  have hperm : (r.map quantity).Perm (r'.map quantity) := by
    rw [htotals r hr, htotals r' hr']
    exact hkeys.map total
  exact hperm.eq_of_pairwise (fun a b _ _ hba hab => le_antisymm hab hba) (List.pairwise_map.2 hsorted)
    (List.pairwise_map.2 hsorted')

theorem OptionTotals.same {options options' : List (AdminDashboardLine × AdminDashboardLineOption)}
    {r r' : List KitchenOptionSummary} (h : OptionTotals locale options r) (h' : OptionTotals locale options' r')
    (hperm : options.Perm options') : SameOptions locale r r' := by
  have hkeys : (r.map fun o => locale.toLocaleLowerCase o.name).Perm
      (r'.map fun o => locale.toLocaleLowerCase o.name) := by
    refine (List.perm_ext_iff_of_nodup h.nodup h'.nodup).2 fun key => ?_
    rw [h.keys, h'.keys]
    exact exists_congr fun p => and_congr_left' hperm.mem_iff
  have hquantity : ∀ o ∈ r', o.quantity =
      ((options.filter fun p => optionKey locale p.2 = locale.toLocaleLowerCase o.name).map fun p =>
        optionQuantity p.1 p.2).sum := by
    intro o ho
    rw [h'.quantity o ho]
    exact ((hperm.filter _).map _).sum_eq.symm
  let total (key : String) : Int :=
    ((options.filter fun p => optionKey locale p.2 = key).map fun p => optionQuantity p.1 p.2).sum
  constructor
  · have hpairs : ∀ l : List KitchenOptionSummary, (∀ o ∈ l, o.quantity = total (locale.toLocaleLowerCase o.name)) →
        l.map (fun o => (locale.toLocaleLowerCase o.name, o.quantity)) =
          (l.map fun o => locale.toLocaleLowerCase o.name).map fun key => (key, total key) := by
      intro l hl
      rw [List.map_map]
      exact List.map_congr_left fun o ho => Prod.ext rfl (hl o ho)
    rw [hpairs r h.quantity, hpairs r' hquantity]
    exact hkeys.map _
  · exact quantities_eq total h.quantity hquantity hkeys h.sorted h'.sorted

/-- The totals do not depend on the order of the orders. -/
theorem KitchenTotals.same {r r' : List KitchenProductSummary} (h : KitchenTotals locale orders r)
    (h' : KitchenTotals locale orders' r') (hperm : orders.Perm orders') : SameTotals locale r r' := by
  have hkeys : (r.map (·.key)).Perm (r'.map (·.key)) := by
    refine (List.perm_ext_iff_of_nodup h.nodup h'.nodup).2 fun key => ?_
    rw [h.keys, h'.keys]
    exact exists_congr fun p => and_congr_left' (kitchenLines_perm hperm).mem_iff
  have htotal : ∀ e ∈ r', e.totalQuantity = ((productLines locale e.key orders).map (·.2.quantity)).sum := by
    intro e he
    rw [h'.totalQuantity e he]
    exact ((productLines_perm hperm e.key).map _).sum_eq.symm
  refine ⟨hkeys, ?_, fun e he e' he' hkey => ?_⟩
  · exact quantities_eq (fun key => ((productLines locale key orders).map (·.2.quantity)).sum) h.totalQuantity htotal
      hkeys h.sorted h'.sorted
  · have hlines : (productLines locale e.key orders).Perm (productLines locale e'.key orders') := by
      rw [← hkey]
      exact productLines_perm hperm e.key
    refine ⟨?_, ?_, ?_, ?_⟩
    · rw [h.totalQuantity e he, htotal e' he', hkey]
    · rw [h.orderCount e he, h'.orderCount e' he']
      exact (hlines.map _).dedup.length_eq
    · exact (h.options e he).same (h'.options e' he') (hlines.flatMap_right _)
    · rw [h.notes e he, h'.notes e' he']
      exact hlines.filterMap _

/-- The kitchen's totals are those of its lines, in whatever order the orders come. -/
theorem aggregate_kitchen_totals (locale : Locale) (orders : List AdminDashboardOrder) :
    KitchenTotals locale orders (aggregateKitchenProducts locale orders) ∧
    ∀ orders', orders.Perm orders' →
      SameTotals locale (aggregateKitchenProducts locale orders) (aggregateKitchenProducts locale orders') :=
  ⟨kitchenTotals orders, fun orders' hperm => (kitchenTotals orders).same (kitchenTotals orders') hperm⟩

end Permutation

namespace Demo

def plainLocale : Locale := { toLocaleLowerCase := Text.toLowerCase, collation := Komanda.Demo.codePoints }

def namelessLine : AdminDashboardLine := { name := "  ", quantity := 1, note := none, options := some [] }

def namelessOrder : AdminDashboardOrder :=
  { id := "o1", purchaseNumber := "1", status := .approved, paymentStatus := some .paid, lines := some [namelessLine] }

end Demo

/-- A line without a name is of no product. -/
theorem nameless_line_is_left_out : ¬ ∀ key,
    key ∈ (aggregateKitchenProducts Demo.plainLocale [Demo.namelessOrder]).map (·.key) ↔
      ∃ order ∈ [Demo.namelessOrder], orderStage order = .kitchen ∧ ∃ line ∈ order.lines.getD [], 0 < line.quantity ∧
        productKey Demo.plainLocale line = key := by
  intro h
  have hkey := (h (productKey Demo.plainLocale Demo.namelessLine)).2 ⟨Demo.namelessOrder, List.mem_cons_self,
    by decide, Demo.namelessLine, List.mem_cons_self, by decide, rfl⟩
  exact absurd hkey (by decide +kernel)

end Komanda.OrderWorkflow
