import Komanda.CatalogEdits
import Komanda.Proofs.CatalogRows
import Komanda.Proofs.StockAccounts

/-!
# Edits and sales of an item

An order takes units from a row and leaves its version as it is (`traded_rows`), an edit overwrites the row that
still has the version of its reading (`edited_rows`). So the readings of a row stay `Versions.Valid` along every
run, and an edit that commits overwrites the row that was read exactly when no unit has been taken since.
-/

namespace Komanda
open Transaction

/-! ## What may go wrong -/

namespace OfficeRequest

/-- The reading that a request edits under. -/
def reading : OfficeRequest → Option Nat
  | save i _ => some i
  | archive i => some i
  | _ => none

/-- The quantity that it sets. -/
def quantity : OfficeRequest → Option Int
  | save _ value => value.quantity
  | _ => none

end OfficeRequest

/-- The stock of each item is the quantity last set less the units taken since the row was read for it. -/
def Office.Accounted (o : Office) : Prop := ∀ r ∈ o.shop.catalog.items,
  r.stockQuantity = (o.stockSet r.id).1 - ((o.taken r.id : Int) - (o.stockSet r.id).2)

/-- A request that commits overwrites the row that was read for it, and leaves the stock accounted for. -/
def UndoesNoSale (locale : Locale) (q : OfficeRequest) (v o : Office) : Prop :=
    ∀ o', q.exec locale v o = some ((), o') →
  (∀ i ∈ q.reading, ∀ g ∈ o.readings[i]?, CatalogRepository.findItem g.row.id o.shop.catalog = some g.row) ∧
  o'.Accounted

instance (o : Office) : Decidable o.Accounted :=
  inferInstanceAs (Decidable (∀ r ∈ o.shop.catalog.items, _))

instance (locale : Locale) (q : OfficeRequest) (v o : Office) : Decidable (UndoesNoSale locale q v o) :=
  decidable_of_iff (∀ p ∈ q.exec locale v o,
    (∀ i ∈ q.reading, ∀ g ∈ o.readings[i]?, CatalogRepository.findItem g.row.id o.shop.catalog = some g.row) ∧
      p.2.Accounted) ⟨fun h o' ho' => h ((), o') ho', fun h p hp => h p.2 hp⟩

/-- No unit has been taken since the row was read, and the edit sets a quantity or finds none in stock. -/
def Undisturbed (q : OfficeRequest) (_v o : Office) : Prop := ∀ i ∈ q.reading, ∀ g ∈ o.readings[i]?,
  o.taken g.row.id = g.total ∧ (q.quantity = none → Office.stock o.shop g.row.id = 0)

/-! ## Rows -/

theorem itemRow_drift : Versions.Drift ItemRow.version ItemRow.sell := by
  refine ⟨fun _ _ => rfl, fun r => ?_, fun m n r => ?_, fun n r h => ?_⟩
  · simp [ItemRow.sell]
  · simp only [ItemRow.sell]
    congr 1
    push_cast
    omega
  · have hstock : r.stockQuantity - n = r.stockQuantity := congrArg ItemRow.stockQuantity h
    omega

/-- The constraints on the items that the requests rely on. -/
structure Shelved (items : List ItemRow) : Prop where
  unique : Table.UniqueOn ItemRow.id items
  nonneg : ∀ r ∈ items, 0 ≤ r.stockQuantity

section Rows
variable {t : CatalogTables} {r : ItemRow} {items : List ItemRow}

theorem Shelved.findItem (h : Shelved t.items) (hr : r ∈ t.items) : CatalogRepository.findItem r.id t = some r :=
  h.unique.lookup hr

theorem Shelved.stock {s : Shop} (h : Shelved s.catalog.items) (hr : r ∈ s.catalog.items) :
    Office.stock s r.id = r.stockQuantity := by
  rw [Office.stock, h.findItem hr]
  rfl

theorem Shelved.stocked (h : Shelved t.items) : Stocked (t.items.map (ItemRow.face t)) := by
  refine ⟨?_, fun x hx => ?_⟩
  · have hunique := h.unique
    rw [Table.UniqueOn] at hunique
    rw [Table.UniqueOn, List.map_map]
    exact hunique
  · obtain ⟨r, hr, rfl⟩ := List.mem_map.1 hx
    exact h.nonneg r hr

theorem sell_less {n : Nat} : (r.face t).less n = (r.sell (if r.trackStock then n else 0)).face t := by
  unfold CatalogItem.less
  by_cases ht : r.trackStock
  · simp [ItemRow.face, ItemRow.sell, ht]
  · simp [ItemRow.face, ItemRow.sell, ht]

end Rows

/-- A request of the trade takes from each tracked item the units that the orders it adds name. -/
theorem traded_rows {q : Request} {v s s' : Shop} {a : Answer} (hq : q.trades) (h : Shelved s.catalog.items)
    (hc : Commits (onFace (q.action.run q.draw)) v s a s') : Shelved s'.catalog.items ∧ ∃ created : List Order,
    s'.db.orders.map Order.entry = s.db.orders.map Order.entry ++ created.map Order.entry ∧
    s'.catalog.items = s.catalog.items.map fun r => r.sell (if r.trackStock then sold created r.id else 0) := by
  unfold onFace at hc
  obtain ⟨db, hrun, rfl⟩ := commits_zoom.1 hc
  obtain ⟨hstocked, created, horders, hitems⟩ := (exec_sells hq (exec_eq.2 hrun)).stock h.stocked
  -- the row of an item among those that the service has left
  have hmem : ∀ r ∈ s.catalog.items,
      (r.sell (if r.trackStock then sold created r.id else 0)).face s.catalog ∈ db.items := by
    intro r hr
    rw [hitems, ← sell_less]
    exact List.mem_map.2 ⟨r.face s.catalog, List.mem_map_of_mem hr, rfl⟩
  have hrows : (Shop.absorb db s).catalog.items =
      s.catalog.items.map fun r => r.sell (if r.trackStock then sold created r.id else 0) := by
    refine List.map_congr_left fun r hr => ?_
    have hlookup : Table.lookup CatalogItem.id r.id db.items = _ := hstocked.unique.lookup (hmem r hr)
    rw [Shop.restock, hlookup]
    rfl
  refine ⟨⟨?_, fun r hr => ?_⟩, created, horders, hrows⟩
  · have hunique := h.unique
    rw [Table.UniqueOn] at hunique
    rw [hrows, Table.UniqueOn, List.map_map]
    exact hunique
  · rw [hrows] at hr
    obtain ⟨r', hr', rfl⟩ := List.mem_map.1 hr
    exact hstocked.nonneg _ (hmem r' hr')

/-- A call that edits no item leaves the items as they are, or adds one. -/
theorem managed_rows {locale : Locale} {q : CatalogRequest} {v s s' : Shop} {a : CatalogAnswer}
    (hq : q.leavesItems = true) (hc : Commits (q.run locale) v s a s') : s'.catalog.items = s.catalog.items ∨
      ∃ row, s'.catalog.items = s.catalog.items ++ [row] ∧ (∀ r ∈ s.catalog.items, r.id ≠ row.id) ∧
        0 ≤ row.stockQuantity := by
  cases q with
  | createItem value newId =>
    obtain ⟨row, h, -⟩ := commits_map.1 hc
    obtain ⟨input, category, barcode, -, -, -, -, -, hconstraints, hcatalog⟩ := CatalogService.createItem_cases h
    exact .inr ⟨row, by rw [hcatalog], CatalogRepository.itemConstraints_hold hconstraints⟩
  | updateItem itemId version value => cases hq
  | archiveItem itemId version => cases hq
  | _ => exact .inl ((CatalogRequest.run_written hc).items_eq (by simp [CatalogRequest.kind]))

/-- The quantity that an edit leaves: zero, when its patch names none. -/
theorem edited_quantity {locale : Locale} {itemId : Id} {version : Nat} {value input : CatalogItemPatch} {v s s' : Shop}
    {before r row : ItemRow} {category : CategoryRow} {barcode : Option String}
    (h : CatalogService.ItemUpdated locale itemId version value input v s before category barcode r row s') :
    row.stockQuantity = value.quantity.getD 0 := by
  have hinput := parsed_ok h.accepted
  rw [h.written]
  subst hinput
  simp only [CatalogService.setItem, CatalogItemPatch.quantity, Option.getD_some, Option.map_some]
  cases ht : value.itemType with
  | none => cases value.stockQuantity <;> simp
  | some itemType =>
    cases itemType with
    | unit => cases value.stockQuantity <;> simp
    | weighted => simp

/-! ## The invariant -/

/-- The state of an office whose edits have been undisturbed. -/
structure OfficeInv (o : Office) : Prop where
  shelved : Shelved o.shop.catalog.items
  accounted : o.Accounted
  readings : ∀ g ∈ o.readings, ∃ r ∈ o.shop.catalog.items, r.id = g.row.id ∧
    Versions.Valid ItemRow.version ItemRow.sell r (o.taken r.id) g

section Invariant
variable {locale : Locale} {o o' : Office} {v : Office}

/-- An edit that commits: the row it was made from, and what it leaves. -/
theorem exec_edit {q : OfficeRequest} {i : Nat} (hi : q.reading = some i)
    (h : q.exec locale v o = some ((), o')) : ∃ g input before category barcode r row shop, o.readings[i]? = some g ∧
      (∃ value, q.quantity = value.quantity ∧ CatalogService.ItemUpdated locale g.row.id g.row.version value input
        v.shop o.shop before category barcode r row shop) ∧ o' = o.edited g q.quantity shop := by
  cases q with
  | save j value =>
    obtain ⟨g, hg, h⟩ := Option.bind_eq_some_iff.1 h
    obtain ⟨shop, hc, hshop⟩ := Option.map_eq_some_iff.1 h
    obtain ⟨row, hc⟩ := afterwards_eq.1 hc
    obtain ⟨input, before, category, barcode, r, hupdated⟩ := CatalogService.updateItem_cases hc
    cases hi
    exact ⟨g, input, before, category, barcode, r, row, shop, hg, ⟨value, rfl, hupdated⟩,
      (congrArg Prod.snd hshop).symm⟩
  | archive j =>
    obtain ⟨g, hg, h⟩ := Option.bind_eq_some_iff.1 h
    obtain ⟨shop, hc, hshop⟩ := Option.map_eq_some_iff.1 h
    obtain ⟨row, hc⟩ := afterwards_eq.1 hc
    obtain ⟨input, before, category, barcode, r, hupdated⟩ := CatalogService.archiveItem_cases hc
    cases hi
    exact ⟨g, input, before, category, barcode, r, row, shop, hg, ⟨{ status := some .archived }, rfl, hupdated⟩,
      (congrArg Prod.snd hshop).symm⟩
  | trade q hq => exact nomatch hi
  | read itemId => exact nomatch hi
  | manage q hq => exact nomatch hi

/-- The row `row` has been written over `r`, which still had the version of the reading `g`. -/
structure Overwrites (o : Office) (g : ItemReading) (r row : ItemRow) (quantity : Option Int) (shop : Shop) : Prop where
  mem : r ∈ o.shop.catalog.items
  id_eq : r.id = g.row.id
  version_eq : g.row.version = r.version
  row_id : row.id = r.id
  row_version : row.version = r.version + 1
  row_stock : row.stockQuantity = quantity.getD 0
  nonneg : 0 ≤ row.stockQuantity
  items : shop.catalog.items = Table.updateWhere (·.id = r.id) (fun _ => row) o.shop.catalog.items

theorem edited_rows {q : OfficeRequest} {i : Nat} (hi : q.reading = some i) (h : q.exec locale v o = some ((), o')) :
    ∃ g r row shop, o.readings[i]? = some g ∧ Overwrites o g r row q.quantity shop ∧
      o' = o.edited g q.quantity shop := by
  obtain ⟨g, input, before, category, barcode, r, row, shop, hg, ⟨value, hvalue, hu⟩, ho'⟩ := exec_edit hi h
  have hmatch := List.find?_some hu.current
  simp only [Bool.and_eq_true, decide_eq_true_eq] at hmatch
  have hwritten := hu.written
  refine ⟨g, r, row, shop, hg, ⟨List.mem_of_find?_eq_some hu.current, hmatch.1, hmatch.2.symm, ?_, ?_, ?_,
    (CatalogRepository.itemConstraints_hold hu.constraints).2, ?_⟩, ho'⟩
  · rw [hwritten]
    rfl
  · rw [hwritten]
  · rw [hvalue]
    exact edited_quantity hu
  · rw [hu.catalog, hmatch.1]

namespace Overwrites
variable {g : ItemReading} {r row : ItemRow} {quantity : Option Int} {shop : Shop}

theorem mem_items (h : Overwrites o g r row quantity shop) {x : ItemRow} :
    x ∈ shop.catalog.items ↔ x = row ∨ (x ∈ o.shop.catalog.items ∧ x.id ≠ r.id) := by
  rw [h.items]
  constructor
  · intro hx
    rcases Table.mem_updateWhere_cases hx with ⟨hx, hne⟩ | ⟨y, -, -, rfl⟩
    · exact .inr ⟨hx, by simpa using hne⟩
    · exact .inl rfl
  · rintro (rfl | ⟨hx, hne⟩)
    · exact Table.mem_updateWhere_of (f := fun _ => x) h.mem (by simp)
    · exact Table.mem_updateWhere_of_not hx (by simpa using hne)

/-- The reading of the row that is overwritten. -/
theorem valid (h : Overwrites o g r row quantity shop) (hi : OfficeInv o) (hg : g ∈ o.readings) :
    Versions.Valid ItemRow.version ItemRow.sell r (o.taken r.id) g := by
  obtain ⟨x, hx, hid, hvalid⟩ := hi.readings g hg
  have hxr : x = r := hi.shelved.unique.eq hx h.mem (hid.trans h.id_eq.symm)
  rw [← hxr]
  exact hvalid

/-- The row was as read exactly when nothing has been taken since. -/
theorem read_iff (h : Overwrites o g r row quantity shop) (hi : OfficeInv o) (hg : g ∈ o.readings) :
    CatalogRepository.findItem g.row.id o.shop.catalog = some g.row ↔ o.taken g.row.id = g.total := by
  rw [← h.id_eq, hi.shelved.findItem h.mem, Option.some_inj]
  exact (h.valid hi hg).row_eq_iff itemRow_drift h.version_eq

/-- The stock is accounted for after an edit of the row as read exactly when the edit has set its quantity, or
there was nothing of it. -/
theorem accounted_iff (h : Overwrites o g r row quantity shop) (hi : OfficeInv o)
    (htaken : o.taken g.row.id = g.total) : (o.edited g quantity shop).Accounted ↔
      (quantity = none → Office.stock o.shop g.row.id = 0) := by
  have hr := hi.accounted r h.mem
  rw [← h.id_eq] at htaken ⊢
  rw [hi.shelved.stock h.mem]
  constructor
  · rintro hacc rfl
    have hrow := hacc row ((h.mem_items).2 (.inl rfl))
    rw [h.row_stock, h.row_id] at hrow
    simp only [Office.edited, h.id_eq, if_true, Option.map_none, Option.getD_none] at hrow hr ⊢
    omega
  · intro hnone x hx
    rcases (h.mem_items).1 hx with rfl | ⟨hx, hne⟩
    · rw [h.row_stock, h.row_id]
      cases quantity with
      | none =>
        have hzero := hnone rfl
        simp only [Office.edited, h.id_eq, if_true, Option.map_none, Option.getD_none] at hr ⊢
        omega
      | some n =>
        rw [h.id_eq] at htaken
        simp only [Office.edited, h.id_eq, if_true, Option.map_some, Option.getD_some]
        omega
    · rw [h.id_eq] at hne
      simp only [Office.edited, if_neg hne]
      exact hi.accounted x hx

/-- An undisturbed edit keeps the invariant. -/
theorem inv (h : Overwrites o g r row quantity shop) (hi : OfficeInv o)
    (hacc : (o.edited g quantity shop).Accounted) : OfficeInv (o.edited g quantity shop) := by
  refine ⟨⟨?_, fun x hx => ?_⟩, hacc, fun g' hg' => ?_⟩
  · show Table.UniqueOn ItemRow.id shop.catalog.items
    rw [h.items]
    refine hi.shelved.unique.updateWhere fun x hx => ?_
    rw [h.row_id]
    exact (of_decide_eq_true hx).symm
  · rcases (h.mem_items).1 hx with rfl | ⟨hx, -⟩
    · exact h.nonneg
    · exact hi.shelved.nonneg x hx
  · obtain ⟨x, hx, hid, hvalid⟩ := hi.readings g' hg'
    by_cases hxr : x.id = r.id
    · have hxr := hi.shelved.unique.eq hx h.mem hxr
      rw [hxr] at hid hvalid
      refine ⟨row, (h.mem_items).2 (.inl rfl), h.row_id.trans hid, ?_⟩
      rw [h.row_id]
      exact hvalid.write (by rw [h.row_version]; omega)
    · exact ⟨x, (h.mem_items).2 (.inr ⟨hx, hxr⟩), hid, hvalid⟩

end Overwrites

/-- Orders take units, and the accounts follow. -/
theorem traded_inv {q : Request} {a : Answer} {shop : Shop} (hq : q.trades) (hi : OfficeInv o)
    (hc : Commits (onFace (q.action.run q.draw)) v.shop o.shop a shop) : OfficeInv (o.traded shop) := by
  obtain ⟨hshelved, created, -, hrows⟩ := traded_rows hq hi.shelved hc
  have hrow : ∀ r ∈ o.shop.catalog.items, ∃ n : Nat, r.sell n ∈ shop.catalog.items ∧
      r.sell (if r.trackStock then sold created r.id else 0) = r.sell n ∧
      (o.traded shop).taken r.id = o.taken r.id + n := by
    intro r hr
    have hmem : r.sell (if r.trackStock then sold created r.id else 0) ∈ shop.catalog.items := by
      rw [hrows]
      exact List.mem_map.2 ⟨r, hr, rfl⟩
    refine ⟨_, hmem, rfl, ?_⟩
    have hstock : Office.stock shop r.id = r.stockQuantity - (if r.trackStock then sold created r.id else 0 : Nat) :=
      hshelved.stock hmem
    simp only [Office.traded, hi.shelved.stock hr, hstock]
    omega
  refine ⟨hshelved, fun x hx => ?_, fun g hg => ?_⟩
  · have hx : x ∈ shop.catalog.items := hx
    rw [hrows] at hx
    obtain ⟨r, hr, rfl⟩ := List.mem_map.1 hx
    obtain ⟨n, -, hsell, htaken⟩ := hrow r hr
    have hacc := hi.accounted r hr
    rw [hsell]
    show r.stockQuantity - n = (o.stockSet r.id).1 - (((o.traded shop).taken r.id : Int) - (o.stockSet r.id).2)
    rw [htaken]
    push_cast
    omega
  · obtain ⟨r, hr, hid, hvalid⟩ := hi.readings g hg
    obtain ⟨n, hmem, -, htaken⟩ := hrow r hr
    refine ⟨r.sell n, hmem, hid, ?_⟩
    show Versions.Valid _ _ _ ((o.traded shop).taken r.id) g
    rw [htaken]
    exact hvalid.drifts itemRow_drift n

theorem read_inv {itemId : Id} {row : ItemRow} (hi : OfficeInv o)
    (hrow : CatalogRepository.findItem itemId o.shop.catalog = some row) :
    OfficeInv { o with readings := o.readings ++ [⟨row, o.taken itemId⟩] } := by
  refine ⟨hi.shelved, hi.accounted, fun g hg => ?_⟩
  rcases List.mem_append.1 hg with hg | hg
  · exact hi.readings g hg
  · rw [List.mem_singleton.1 hg]
    have hid : row.id = itemId := Table.lookup_key hrow
    refine ⟨row, Table.lookup_mem hrow, rfl, ?_⟩
    rw [hid]
    exact Versions.Valid.now itemRow_drift

/-- What edits no item keeps every reading, and an item that it adds has been read by nobody. -/
theorem managed_inv {q : CatalogRequest} {a : CatalogAnswer} {shop : Shop} (hq : q.leavesItems = true)
    (hi : OfficeInv o)
    (hc : Commits (q.run locale) v.shop o.shop a shop) : OfficeInv (o.managed shop) := by
  have hset {r : ItemRow} (hr : r ∈ o.shop.catalog.items) : (o.managed shop).stockSet r.id = o.stockSet r.id := by
    show (if _ then _ else _) = _
    rw [hi.shelved.findItem hr]
    rfl
  rcases managed_rows hq hc with hsame | ⟨row, hadd, hfresh, hnonneg⟩
  · refine ⟨hsame ▸ hi.shelved, fun r hr => ?_, fun g hg => ?_⟩
    · have hr : r ∈ o.shop.catalog.items := hsame ▸ hr
      rw [hset hr]
      exact hi.accounted r hr
    · obtain ⟨r, hr, hvalid⟩ := hi.readings g hg
      exact ⟨r, hsame ▸ hr, hvalid⟩
  · have hshelved : Shelved shop.catalog.items := by
      rw [hadd]
      refine ⟨hi.shelved.unique.append hfresh, fun r hr => ?_⟩
      rcases List.mem_append.1 hr with hr | hr
      · exact hi.shelved.nonneg r hr
      · rw [List.mem_singleton.1 hr]
        exact hnonneg
    refine ⟨hshelved, fun r hr => ?_, fun g hg => ?_⟩
    · have hmem : r ∈ o.shop.catalog.items ++ [row] := hadd ▸ hr
      rcases List.mem_append.1 hmem with hmem | hmem
      · rw [hset hmem]
        exact hi.accounted r hmem
      · have hrow := List.mem_singleton.1 hmem
        have hnone : CatalogRepository.findItem r.id o.shop.catalog = none := by
          rw [hrow]
          exact Table.lookup_eq_none.2 hfresh
        have hstock : (o.managed shop).stockSet r.id = (r.stockQuantity, o.taken r.id) := by
          show (if _ then _ else _) = _
          rw [hnone, hshelved.stock hr]
          rfl
        rw [hstock]
        show r.stockQuantity = r.stockQuantity - ((o.taken r.id : Int) - (o.taken r.id : Nat))
        omega
    · obtain ⟨r, hr, hvalid⟩ := hi.readings g hg
      exact ⟨r, hadd ▸ List.mem_append_left _ hr, hvalid⟩

/-- A request that edits nothing keeps the invariant. -/
theorem exec_inv_of_no_edit {q : OfficeRequest} (hq : q.reading = none) (hi : OfficeInv o)
    (h : q.exec locale v o = some ((), o')) : OfficeInv o' := by
  cases q with
  | trade q htrades =>
    obtain ⟨shop, hc, heq⟩ := Option.map_eq_some_iff.1 h
    obtain ⟨a, hc⟩ := afterwards_eq.1 hc
    obtain rfl : o.traded shop = o' := congrArg Prod.snd heq
    exact traded_inv htrades hi hc
  | read itemId =>
    obtain ⟨row, hrow, heq⟩ := Option.map_eq_some_iff.1 h
    obtain rfl := congrArg Prod.snd heq
    exact read_inv hi hrow
  | manage q hleaves =>
    obtain ⟨shop, hc, heq⟩ := Option.map_eq_some_iff.1 h
    obtain ⟨a, hc⟩ := afterwards_eq.1 hc
    obtain rfl : o.managed shop = o' := congrArg Prod.snd heq
    exact managed_inv hleaves hi hc
  | save i value => exact nomatch hq
  | archive i => exact nomatch hq

/-- A request that commits undoes no sale exactly when it is undisturbed, and it keeps the invariant then. -/
theorem undoesNoSale_iff {q : OfficeRequest} (hi : OfficeInv o) (h : q.exec locale v o = some ((), o')) :
    (UndoesNoSale locale q v o ↔ Undisturbed q v o) ∧ (Undisturbed q v o → OfficeInv o') := by
  cases hq : q.reading with
  | none =>
    have hi' := exec_inv_of_no_edit hq hi h
    refine ⟨iff_of_true ?_ ?_, fun _ => hi'⟩
    · intro o'' ho''
      rw [h] at ho''
      obtain rfl : o' = o'' := congrArg Prod.snd (Option.some.inj ho'')
      refine ⟨fun i him => ?_, hi'.accounted⟩
      rw [hq] at him
      exact nomatch him
    · intro i him
      rw [hq] at him
      exact nomatch him
  | some i =>
    obtain ⟨g, r, row, shop, hg, hover, rfl⟩ := edited_rows hq h
    have hmem : g ∈ o.readings := List.mem_of_getElem? hg
    have hundisturbed : Undisturbed q v o ↔
        o.taken g.row.id = g.total ∧ (q.quantity = none → Office.stock o.shop g.row.id = 0) := by
      simp only [Undisturbed, hq, Option.mem_some_iff, forall_eq', hg]
    have hlaw : UndoesNoSale locale q v o ↔ CatalogRepository.findItem g.row.id o.shop.catalog = some g.row ∧
        (o.edited g q.quantity shop).Accounted := by
      simp only [UndoesNoSale, hq, Option.mem_some_iff, forall_eq', hg, h, Option.some_inj, Prod.mk.injEq, true_and]
    rw [hlaw, hundisturbed, hover.read_iff hi hmem]
    constructor
    · constructor
      · rintro ⟨htaken, hacc⟩
        exact ⟨htaken, (hover.accounted_iff hi htaken).1 hacc⟩
      · rintro ⟨htaken, hnone⟩
        exact ⟨htaken, (hover.accounted_iff hi htaken).2 hnone⟩
    · rintro ⟨htaken, hnone⟩
      exact hover.inv hi ((hover.accounted_iff hi htaken).2 hnone)

end Invariant

/-! ## Runs -/

section Runs
variable {locale : Locale} {shop : Shop} {es : List OfficeEvent} {s : OfficeSession}

theorem fresh_inv (h : Shelved shop.catalog.items) : OfficeInv (Office.fresh shop) := by
  refine ⟨h, fun r hr => ?_, fun g hg => (List.not_mem_nil hg).elim⟩
  show r.stockQuantity = ((CatalogRepository.findItem r.id shop.catalog).map (·.stockQuantity)).getD 0 - (0 - 0)
  rw [h.findItem hr]
  simp

theorem office_rely : ReadCommitted.Rely (OfficeRequest.exec locale) rereadOffice OfficeInv (fun _ _ => True)
    Undisturbed := by
  refine ⟨fun _ _ => trivial, fun _ _ _ _ _ => trivial, fun q v o u o' hi _ hc hx => ?_, fun _ _ _ _ _ _ _ _ _ _ _ =>
    trivial⟩
  exact (undoesNoSale_iff hi hx).2 hc

/-- Along every run, the edits undo no sale exactly when each of them is undisturbed. -/
theorem edits_undo_no_sale_iff (hunique : Table.UniqueOn ItemRow.id shop.catalog.items)
    (hstock : ∀ r ∈ shop.catalog.items, 0 ≤ r.stockQuantity)
    (hr : Runs.exec (officeStep locale) ⟨Office.fresh shop, []⟩ es = some s) :
    Runs.Along (officeStep locale) (ReadCommitted.AtCommit (UndoesNoSale locale)) ⟨Office.fresh shop, []⟩ es ↔
      Runs.Along (officeStep locale) (ReadCommitted.AtCommit Undisturbed) ⟨Office.fresh shop, []⟩ es := by
  have h₀ : ReadCommitted.Inv OfficeInv (fun _ _ => True) (⟨Office.fresh shop, []⟩ : OfficeSession) :=
    ⟨fresh_inv ⟨hunique, hstock⟩, fun _ _ => trivial⟩
  refine (ReadCommitted.along_commits_iff office_rely (fun q v o u o' hi _ hx => ?_) h₀ hr).symm
  exact (undoesNoSale_iff hi hx).1.symm

end Runs

namespace Demo

def kitchen : Shop where
  db := { Db.fresh "tenant" settings with accounts := [account] }
  catalog :=
    { entitled := true
      categories := [{ id := "food", name := "Food", normalizedName := "food", description := none, sortOrder := 0,
                       status := .active, version := 1, archivedAt := none }]
      items := [{ id := "burger", categoryId := "food", name := "Burger", normalizedName := "burger",
                  description := none, price := 1000, currency := "ARS", itemType := .unit, barcode := none,
                  isGeneric := false, genericIcon := none, trackStock := true, stockQuantity := 5,
                  imageAssetId := none, videoAssetId := none, status := .active, sortOrder := 0, version := 1,
                  archivedAt := none }] }

/-- A runtime on plain names. -/
def plain : Locale := { nfkc := id, toLocaleLowerCase := id }

/-- One transaction after the other. -/
def inOffice (qs : List OfficeRequest) : List OfficeEvent := qs.flatMap fun q => [.start q, .commit 0]

/-- The price of the burger goes up, and its stock is confirmed. -/
def raisePrice : OfficeRequest := .save 0 { price := some 1200, trackStock := some true, stockQuantity := some 5 }

/-- An editor has the burger on the screen while one is sold. -/
def soldDuringEdit : List OfficeEvent := inOffice
  [.read "burger", .trade (fillCart "1" "cart") (fun _ h => nomatch h),
    .trade (payInCash "4" "cart") (fun _ h => nomatch h), raisePrice]

def soldAfterEdit : List OfficeEvent := inOffice
  [.read "burger", raisePrice, .trade (fillCart "1" "cart") (fun _ h => nomatch h),
    .trade (payInCash "4" "cart") (fun _ h => nomatch h)]

end Demo

open Demo

theorem edits_undo_no_sale_afterwards :
    ∃ s, Runs.exec (officeStep plain) ⟨Office.fresh kitchen, []⟩ soldAfterEdit = some s ∧
      (Runs.Along (officeStep plain) (ReadCommitted.AtCommit (UndoesNoSale plain)) ⟨Office.fresh kitchen, []⟩
          soldAfterEdit ↔
        Runs.Along (officeStep plain) (ReadCommitted.AtCommit Undisturbed) ⟨Office.fresh kitchen, []⟩
          soldAfterEdit) := by
  have hs : (Runs.exec (officeStep plain) ⟨Office.fresh kitchen, []⟩ soldAfterEdit).isSome = true := by decide +kernel
  obtain ⟨s, hr⟩ := Option.isSome_iff_exists.1 hs
  exact ⟨s, hr, edits_undo_no_sale_iff (List.nodup_singleton _) (by decide) hr⟩

/-- A burger is sold between the reading and the edit: the edit is accepted, and puts the burger back. -/
theorem edit_restores_sold_unit : ¬ ∀ (locale : Locale) (shop : Shop) (es : List OfficeEvent) (s : OfficeSession),
    Table.UniqueOn ItemRow.id shop.catalog.items → (∀ r ∈ shop.catalog.items, 0 ≤ r.stockQuantity) →
    Runs.exec (officeStep locale) ⟨Office.fresh shop, []⟩ es = some s →
    Runs.Along (officeStep locale) (ReadCommitted.AtCommit (UndoesNoSale locale)) ⟨Office.fresh shop, []⟩ es := by
  intro h
  have hs : (Runs.exec (officeStep plain) ⟨Office.fresh kitchen, []⟩ soldDuringEdit).isSome = true := by decide +kernel
  obtain ⟨s, hr⟩ := Option.isSome_iff_exists.1 hs
  exact absurd (h plain kitchen soldDuringEdit s (List.nodup_singleton _) (by decide) hr) (by decide +kernel)

end Komanda
