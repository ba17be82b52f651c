import Komanda.Proofs.ApprovedPayments
import Komanda.Proofs.Footprints
import Mathlib.Algebra.Order.BigOperators.Group.List
import Mathlib.Algebra.Order.Group.Nat

/-!
# The stock of tracked items

An order takes from each tracked item what its unit lines name. The deduction of a line tests and
decrements one row (`deductStock_spec`), a line that finds too little rolls the sale back
(`deductStock_short`), and the lines together take their total (`each_deductStock`). `Sells` is what every
request may do to the stock beside the orders it adds; it is a preorder that each body goes along.
-/

namespace Komanda
open Transaction Komanda.Core

/-! ## Units -/

/-- The units of an item that a line takes from the stock. -/
def OrderLine.units (itemId : Id) (line : OrderLine) : Nat :=
  if line.sourceItemId = some itemId ∧ line.itemType = .unit then line.quantity else 0

/-- What an order keeps for good: its number and its lines. -/
def Order.entry (order : Order) : Id × Nat × List OrderLine := (order.id, order.purchaseNumber, order.lines)

def Order.units (itemId : Id) (order : Order) : Nat := (order.lines.map (·.units itemId)).sum

/-- The units of an item in the lines of a cart. -/
def unitsIn (lines : List CartLine) (itemId : Id) : Nat :=
  (lines.map fun line => (OrderRepository.orderLine line).units itemId).sum

/-- The units of an item that orders have taken. -/
def sold (orders : List Order) (itemId : Id) : Nat := (orders.map (·.units itemId)).sum

/-- The row with `n` units fewer, if its stock is tracked. -/
def CatalogItem.less (n : Nat) (item : CatalogItem) : CatalogItem :=
  if item.trackStock then { item with stockQuantity := item.stockQuantity - n } else item

/-- The primary key of the items, and the check on their stock. -/
structure Stocked (items : List CatalogItem) : Prop where
  unique : Table.UniqueOn CatalogItem.id items
  nonneg : ∀ x ∈ items, 0 ≤ x.stockQuantity

/-- A tracked item has fewer units in stock than the lines name. -/
def Short (lines : List CartLine) (items : List CatalogItem) : Prop :=
  ∃ x ∈ items, x.trackStock = true ∧ x.stockQuantity < unitsIn lines x.id

section Units
variable {line : CartLine} {lines : List CartLine} {items : List CatalogItem} {x : CatalogItem} {n m : Nat}

@[simp] theorem CatalogItem.less_id : (x.less n).id = x.id := by
  unfold less; split <;> rfl

@[simp] theorem CatalogItem.less_trackStock : (x.less n).trackStock = x.trackStock := by
  unfold less; split <;> rfl

@[simp] theorem CatalogItem.less_zero : x.less 0 = x := by
  unfold less; split <;> simp

theorem CatalogItem.less_of_not (h : x.trackStock = false) : x.less n = x := by
  rw [less, h]; rfl

theorem CatalogItem.less_less : (x.less n).less m = x.less (n + m) := by
  unfold less
  by_cases h : x.trackStock
  · simp only [h, if_true]
    congr 1
    push_cast
    omega
  · simp [h]

@[simp] theorem unitsIn_nil {itemId : Id} : unitsIn [] itemId = 0 := rfl

@[simp] theorem unitsIn_cons {itemId : Id} : unitsIn (line :: lines) itemId =
    (OrderRepository.orderLine line).units itemId + unitsIn lines itemId := by simp [unitsIn]

theorem sold_append {os os' : List Order} {itemId : Id} : sold (os ++ os') itemId = sold os itemId + sold os' itemId := by
  simp [sold]

theorem units_orderLine {itemId : Id} : (OrderRepository.orderLine line).units itemId =
    if line.itemId = some itemId ∧ line.itemType = .unit then line.quantity else 0 := rfl

theorem units_newOrder {input : SnapshotInput} {draw : Draw} {k active : Nat} {itemId : Id} :
    (OrderRepository.newOrder input draw k active).units itemId = unitsIn input.cart.lines itemId := by
  simp [Order.units, unitsIn, OrderRepository.newOrder, Function.comp_def]

end Units

/-! ## Deductions -/

section Deductions
variable {v s s' : Db} {u : Unit} {line : CartLine} {lines : List CartLine} {items : List CatalogItem}

theorem Stocked.less (h : Stocked items) {n : Id → Nat} (hn : ∀ x ∈ items, x.trackStock = true →
    (n x.id : Int) ≤ x.stockQuantity) : Stocked (items.map fun x => x.less (n x.id)) := by
  constructor
  · rw [Table.UniqueOn, List.map_map]
    have hid : CatalogItem.id ∘ (fun x : CatalogItem => x.less (n x.id)) = CatalogItem.id := by
      funext x
      exact CatalogItem.less_id
    rw [hid]
    exact h.unique
  · intro y hy
    obtain ⟨x, hx, rfl⟩ := List.mem_map.1 hy
    by_cases ht : x.trackStock = true
    · have hle := hn x hx ht
      simp only [CatalogItem.less, ht, if_true]
      omega
    · rw [CatalogItem.less_of_not (Bool.not_eq_true _ ▸ ht)]
      exact h.nonneg x hx

/-- Some row of the item lets a line take from it exactly when the item has the units. -/
theorem any_deductible {x : CatalogItem} {q : Nat} (h : Stocked items) (hx : x ∈ items)
    (ht : x.trackStock = true) :
    items.any (OrderRepository.deductible x.id q) = true ↔ (q : Int) ≤ x.stockQuantity := by
  rw [List.any_eq_true]
  constructor
  · rintro ⟨y, hy, hd⟩
    simp only [OrderRepository.deductible, Bool.and_eq_true, decide_eq_true_eq] at hd
    rw [h.unique.eq hx hy hd.1.1.symm]
    exact hd.2
  · intro hle
    exact ⟨x, hx, by simp [OrderRepository.deductible, ht, hle]⟩

/-- A line that names no unit item takes nothing. -/
theorem deductStock_other (h : ¬ (line.itemId.isSome ∧ line.itemType = .unit)) :
    OrderRepository.deductStock line = pure () ∧ ∀ itemId, unitsIn [line] itemId = 0 := by
  constructor
  · unfold OrderRepository.deductStock
    split
    · next hi ht => exact absurd ⟨by rw [hi]; rfl, ht⟩ h
    · rfl
  · intro itemId
    simp only [unitsIn_cons, unitsIn_nil, units_orderLine]
    rw [if_neg]
    rintro ⟨hi, ht⟩
    exact h ⟨by rw [hi]; rfl, ht⟩

/-- The rows that a deduction leaves, when the item has the units. -/
theorem rows_deducted {itemId : Id} {q : Nat}
    (hq : ∀ x ∈ items, x.trackStock = true → x.id = itemId → (q : Int) ≤ x.stockQuantity) :
    Table.updateWhere (OrderRepository.deductible itemId q)
        (fun item => { item with stockQuantity := item.stockQuantity - q }) items =
      items.map fun x => x.less (if itemId = x.id then q else 0) := by
  refine List.map_congr_left fun x hx => ?_
  by_cases ht : x.trackStock = true
  · by_cases hid : itemId = x.id
    · have hle := hq x hx ht hid.symm
      simp [OrderRepository.deductible, CatalogItem.less, ht, hid, hle]
    · have hne : x.id ≠ itemId := Ne.symm hid
      simp [OrderRepository.deductible, hid, hne]
  · rw [Bool.not_eq_true] at ht
    simp [OrderRepository.deductible, CatalogItem.less, ht]

/-- Whether the item's stock is tracked reads the same after the deduction. -/
theorem tracked_deducted {itemId : Id} {q : Nat} :
    (Table.lookup CatalogItem.id itemId (Table.updateWhere (OrderRepository.deductible itemId q)
      (fun item => { item with stockQuantity := item.stockQuantity - q }) items)).any (·.trackStock) =
      (Table.lookup CatalogItem.id itemId items).any (·.trackStock) := by
  rw [Table.lookup_updateWhere (f := fun item : CatalogItem => { item with stockQuantity := item.stockQuantity - q })
    fun _ _ => rfl]
  cases Table.lookup CatalogItem.id itemId items with
  | none => rfl
  | some x =>
    simp only [Option.map_some, Option.any_some]
    split <;> rfl

theorem unitsIn_unit {itemId id : Id} (hi : line.itemId = some itemId) (ht : line.itemType = .unit) :
    unitsIn [line] id = if itemId = id then line.quantity else 0 := by
  simp [units_orderLine, hi, ht]

/-- A line that finds too little rolls back. -/
theorem deductStock_short (h : Stocked s.items) (hs : Short [line] s.items) :
    OrderRepository.deductStock line v s = .error (.orderConflict ("INSUFFICIENT_STOCK: " ++ line.nameSnapshot)) := by
  obtain ⟨x, hx, ht, hlt⟩ := hs
  have hpos := h.nonneg x hx
  by_cases hline : line.itemId.isSome ∧ line.itemType = .unit
  · obtain ⟨itemId, hi⟩ := Option.isSome_iff_exists.1 hline.1
    rw [unitsIn_unit hi hline.2] at hlt
    split at hlt
    · next hid =>
      subst hid
      have hany : ¬ s.items.any (OrderRepository.deductible x.id line.quantity) = true := by
        rw [any_deductible h hx ht]
        omega
      have htracked : (Table.lookup CatalogItem.id x.id s.items).any (·.trackStock) = true := by
        rw [h.unique.lookup hx]
        exact ht
      unfold OrderRepository.deductStock
      rw [hi, hline.2]
      show throwIf (_ ∧ _) _ v _ = _
      rw [throwIf, if_pos ⟨tracked_deducted.trans htracked, hany⟩]
      rfl
    · omega
  · rw [(deductStock_other hline).2] at hlt
    omega

/-- A line that finds enough takes its units. -/
theorem deductStock_enough (h : Stocked s.items) (hs : ¬ Short [line] s.items) :
    Commits (OrderRepository.deductStock line) v s ()
      { s with items := s.items.map fun x => x.less (unitsIn [line] x.id) } := by
  by_cases hline : line.itemId.isSome ∧ line.itemType = .unit
  · obtain ⟨itemId, hi⟩ := Option.isSome_iff_exists.1 hline.1
    have hq (x : CatalogItem) (hx : x ∈ s.items) (ht : x.trackStock = true) (hid : x.id = itemId) :
        (line.quantity : Int) ≤ x.stockQuantity := by
      by_contra hlt
      refine hs ⟨x, hx, ht, ?_⟩
      rw [unitsIn_unit hi hline.2, if_pos hid.symm]
      omega
    have hrows : (fun x : CatalogItem => x.less (unitsIn [line] x.id)) =
        fun x => x.less (if itemId = x.id then line.quantity else 0) := by
      funext x
      rw [unitsIn_unit hi hline.2]
    unfold OrderRepository.deductStock
    rw [hi, hline.2, hrows, ← rows_deducted hq]
    rw [commits_current_bind, commits_write_bind, commits_current_bind, commits_throwIf]
    refine ⟨?_, rfl⟩
    rintro ⟨htracked, hany⟩
    rw [tracked_deducted] at htracked
    obtain ⟨x, hx, ht⟩ := (Option.any_eq_true _ _).1 htracked
    rw [← Table.lookup_key hx] at hany
    exact hany ((any_deductible h (Table.lookup_mem hx) ht).2 (hq x (Table.lookup_mem hx) ht (Table.lookup_key hx)))
  · obtain ⟨hpure, hzero⟩ := deductStock_other hline
    rw [hpure, commits_pure]
    refine ⟨rfl, ?_⟩
    simp [hzero]

/-- The lines of a cart together take what they name, or the first that finds too little rolls back. -/
theorem each_deductStock (h : Stocked s.items) : (Short lines s.items → ∃ line ∈ lines,
      each OrderRepository.deductStock lines v s = .error (.orderConflict ("INSUFFICIENT_STOCK: " ++ line.nameSnapshot))) ∧
    (¬ Short lines s.items → Commits (each OrderRepository.deductStock lines) v s ()
      { s with items := s.items.map fun x => x.less (unitsIn lines x.id) }) := by
  induction lines generalizing s with
  | nil =>
    constructor
    · rintro ⟨x, hx, -, hlt⟩
      have hpos := h.nonneg x hx
      simp at hlt
      omega
    · intro _
      simp [each]
  | cons line lines ih =>
    by_cases hline : Short [line] s.items
    · have herr := bind_error (f := fun _ => each OrderRepository.deductStock lines) (deductStock_short (v := v) h hline)
      constructor
      · intro _
        exact ⟨line, List.mem_cons_self, herr⟩
      · intro hs
        obtain ⟨x, hx, ht, hlt⟩ := hline
        refine absurd ⟨x, hx, ht, ?_⟩ hs
        simp only [unitsIn_cons, unitsIn_nil] at hlt ⊢
        omega
    · have hok := deductStock_enough (v := v) h hline
      have hstocked : Stocked (s.items.map fun x => x.less (unitsIn [line] x.id)) := by
        refine h.less (n := unitsIn [line]) fun x hx ht => ?_
        by_contra hlt
        exact hline ⟨x, hx, ht, by omega⟩
      have hshort : Short lines (s.items.map fun x => x.less (unitsIn [line] x.id)) ↔ Short (line :: lines) s.items := by
        constructor
        · rintro ⟨y, hy, ht, hlt⟩
          obtain ⟨x, hx, rfl⟩ := List.mem_map.1 hy
          simp only [CatalogItem.less_trackStock, CatalogItem.less_id] at ht hlt
          refine ⟨x, hx, ht, ?_⟩
          simp only [CatalogItem.less, ht, if_true, unitsIn_cons, unitsIn_nil] at hlt ⊢
          omega
        · rintro ⟨x, hx, ht, hlt⟩
          refine ⟨_, List.mem_map_of_mem hx, ?_, ?_⟩
          · simpa using ht
          · simp only [CatalogItem.less_id]
            simp only [CatalogItem.less, ht, if_true, unitsIn_cons, unitsIn_nil] at hlt ⊢
            omega
      obtain ⟨ihshort, ihenough⟩ := ih (s := { s with items := s.items.map fun x => x.less (unitsIn [line] x.id) }) hstocked
      constructor
      · intro hs
        obtain ⟨l, hl, herr⟩ := ihshort (hshort.2 hs)
        exact ⟨l, List.mem_cons_of_mem _ hl, (bind_ok hok).trans herr⟩
      · intro hs
        have hrest := ihenough fun hr => hs (hshort.1 hr)
        simp only [List.map_map, Function.comp_def, CatalogItem.less_less, CatalogItem.less_id] at hrest
        refine commits_bind.2 ⟨(), _, hok, ?_⟩
        simpa only [unitsIn_cons, unitsIn_nil, Nat.add_zero] using hrest

theorem each_deductStock_cases (h : Stocked s.items) (hc : Commits (each OrderRepository.deductStock lines) v s u s') :
    ¬ Short lines s.items ∧ s' = { s with items := s.items.map fun x => x.less (unitsIn lines x.id) } := by
  have hshort : ¬ Short lines s.items := by
    intro hs
    obtain ⟨line, -, herr⟩ := (each_deductStock h).1 hs
    rw [Commits, herr] at hc
    cases hc
  have henough := (each_deductStock (v := v) h).2 hshort
  rw [Commits, hc] at henough
  cases henough
  exact ⟨hshort, rfl⟩

end Deductions

/-! ## What a body does to the stock -/

/-- No order has a number that the counter has not given. -/
def Numbered (db : Db) : Prop := ∀ o ∈ db.orders, o.purchaseNumber ≤ db.purchaseNumber

/-- Orders are added under the counter's numbers, and each tracked item has fewer units in stock, by as many
as they name. -/
structure Sells (s s' : Db) : Prop where
  numbered : Numbered s → Numbered s'
  stock : Stocked s.items → Stocked s'.items ∧ ∃ created : List Order,
    s'.orders.map Order.entry = s.orders.map Order.entry ++ created.map Order.entry ∧
    s'.items = s.items.map fun x => x.less (sold created x.id)

/-- The body looks at the stock only to deduct from it: what commits on other items commits on these, or
finds too little of one. -/
def Spends {α : Type} (x : DbTx α) : Prop := ∀ v s items a s', Stocked s.items → Commits x v { s with items } a s' →
  (∃ name, x v s = .error (.orderConflict ("INSUFFICIENT_STOCK: " ++ name))) ∨
    ∃ items', Stocked items' ∧ Commits x v s a { s' with items := items' }

/-- A body whose changes to the stock are those of its orders. -/
structure Accounts {α : Type} (x : DbTx α) : Prop where
  sells : Within Sells x
  spends : Spends x

theorem Numbered.congr {s s' : Db} (horders : s'.orders.map Order.entry = s.orders.map Order.entry)
    (hcounter : s'.purchaseNumber = s.purchaseNumber) (h : Numbered s) : Numbered s' := by
  intro o ho
  have hentry : o.entry ∈ s.orders.map Order.entry := by
    rw [← horders]
    exact List.mem_map_of_mem ho
  obtain ⟨q, hq, he⟩ := List.mem_map.1 hentry
  have hnumber : q.purchaseNumber = o.purchaseNumber := congrArg (·.2.1) he
  rw [hcounter, ← hnumber]
  exact h q hq

theorem Sells.same {s s' : Db} (horders : s'.orders.map Order.entry = s.orders.map Order.entry)
    (hcounter : s'.purchaseNumber = s.purchaseNumber) (hitems : s'.items = s.items) : Sells s s' := by
  refine ⟨Numbered.congr horders hcounter, fun h => ?_⟩
  rw [hitems]
  refine ⟨h, [], by simpa using horders, ?_⟩
  simp [sold]

instance : Std.Refl Sells := ⟨fun _ => Sells.same rfl rfl rfl⟩

instance : Trans Sells Sells Sells where
  trans := by
    intro s₁ s₂ s₃ h h'
    refine ⟨fun hn => h'.numbered (h.numbered hn), fun hs => ?_⟩
    obtain ⟨hs₂, created, horders, hitems⟩ := h.stock hs
    obtain ⟨hs₃, created', horders', hitems'⟩ := h'.stock hs₂
    refine ⟨hs₃, created ++ created', ?_, ?_⟩
    · rw [horders', horders, List.map_append, List.append_assoc]
    · rw [hitems', hitems, List.map_map]
      refine List.map_congr_left fun x _ => ?_
      simp [CatalogItem.less_less, sold_append]

namespace Spends
variable {α β : Type}

theorem pure (a : α) : Spends (Pure.pure a : DbTx α) := by
  intro v s items b s' h hc
  obtain ⟨rfl, rfl⟩ := commits_pure.1 hc
  exact .inr ⟨s.items, h, commits_pure.2 ⟨rfl, rfl⟩⟩

theorem throw (e : AppError) : Spends (MonadExcept.throw e : DbTx α) := fun _ _ _ _ _ _ hc =>
  absurd (commits_throw.1 hc) id

theorem bind {x : DbTx β} {k : β → DbTx α} (hx : Spends x) (hk : ∀ b, Spends (k b)) : Spends (x >>= k) := by
  intro v s items a s' h hc
  obtain ⟨b, s₁, hb, hrest⟩ := commits_bind.1 hc
  rcases hx v s items b s₁ h hb with ⟨name, herr⟩ | ⟨items₁, h₁, hb⟩
  · exact .inl ⟨name, bind_error herr⟩
  · rcases hk b v { s₁ with items := items₁ } s₁.items a s' h₁ hrest with ⟨name, herr⟩ | ⟨items', h', hrest⟩
    · exact .inl ⟨name, (bind_ok hb).trans herr⟩
    · exact .inr ⟨items', h', commits_bind.2 ⟨b, _, hb, hrest⟩⟩

theorem look (f : Db → α) : Spends (Transaction.look f : DbTx α) := by
  intro v s items a s' h hc
  obtain ⟨rfl, rfl⟩ := commits_look.1 hc
  exact .inr ⟨s.items, h, commits_look.2 ⟨rfl, rfl⟩⟩

theorem current {f : Db → α} (hf : ∀ s items, f { s with items } = f s) : Spends (Transaction.current f : DbTx α) := by
  intro v s items a s' h hc
  obtain ⟨rfl, rfl⟩ := commits_current.1 hc
  exact .inr ⟨s.items, h, commits_current.2 ⟨(hf s items).symm, rfl⟩⟩

theorem write {g : Db → Db} (hg : ∀ s items, g { s with items } = { g s with items }) :
    Spends (Transaction.write g : DbTx Unit) := by
  intro v s items a s' h hc
  obtain rfl := commits_write.1 hc
  refine .inr ⟨s.items, h, commits_write.2 ?_⟩
  rw [hg s items]
  exact hg s s.items

theorem ite {c : Prop} [Decidable c] {x y : DbTx α} (hx : Spends x) (hy : Spends y) : Spends (if c then x else y) := by
  split <;> assumption

theorem each {k : β → DbTx Unit} (hk : ∀ b, Spends (k b)) (bs : List β) : Spends (Transaction.each k bs) := by
  induction bs with
  | nil => exact pure ()
  | cons b bs ih => exact bind (hk b) fun _ => ih

theorem zoom {τ ε : Type} {get : Db → τ} {set : τ → Db → Db} {wrap : ε → AppError} {x : Tx τ ε α}
    (hget : ∀ s items, get { s with items } = get s)
    (hset : ∀ t s items, set t { s with items } = { set t s with items }) : Spends (Transaction.zoom get set wrap x) := by
  intro v s items a s' h hc
  obtain ⟨t, ht, rfl⟩ := commits_zoom.1 hc
  rw [hget s items] at ht
  refine .inr ⟨s.items, h, commits_zoom.2 ⟨t, ht, ?_⟩⟩
  rw [hset t s items]
  exact hset t s s.items

theorem deductStock (line : CartLine) : Spends (OrderRepository.deductStock line) := by
  intro v s items a s' h hc
  by_cases hs : Short [line] s.items
  · exact .inl ⟨_, deductStock_short h hs⟩
  · refine .inr ⟨_, h.less (n := unitsIn [line]) fun x hx ht => ?_, ?_⟩
    · by_contra hlt
      exact hs ⟨x, hx, ht, by omega⟩
    · have hs' : ({ s with items := s'.items } : Db) = s' := by
        unfold OrderRepository.deductStock at hc
        split at hc
        · simp only [commits_current_bind, commits_write_bind, commits_throwIf] at hc
          rw [← hc.2]
        · rw [← (commits_pure.1 hc).2]
      have hrows := deductStock_enough (v := v) h hs
      rw [← hs']
      exact hrows

end Spends

namespace Accounts
variable {α β : Type}

@[grind ←] theorem pure (a : α) : Accounts (Pure.pure a : DbTx α) := ⟨Within.pure a, Spends.pure a⟩

@[grind ←] theorem throw (e : AppError) : Accounts (MonadExcept.throw e : DbTx α) :=
  ⟨Within.throw e, Spends.throw e⟩

@[grind ←] theorem bind {x : DbTx β} {k : β → DbTx α} (hx : Accounts x) (hk : ∀ b, Accounts (k b)) :
    Accounts (x >>= k) :=
  ⟨Within.bind hx.sells fun b => (hk b).sells, Spends.bind hx.spends fun b => (hk b).spends⟩

@[grind ←] theorem look (f : Db → α) : Accounts (Transaction.look f : DbTx α) := ⟨Within.look f, Spends.look f⟩

theorem current {f : Db → α} (hf : ∀ s items, f { s with items } = f s) : Accounts (Transaction.current f : DbTx α) :=
  ⟨Within.current f, Spends.current hf⟩

/-- A write that touches neither the stock nor the entries of the orders. -/
theorem write {g : Db → Db} (hg : ∀ s items, g { s with items } = { g s with items })
    (ho : ∀ s, (g s).orders.map Order.entry = s.orders.map Order.entry ∧ (g s).purchaseNumber = s.purchaseNumber) :
    Accounts (Transaction.write g : DbTx Unit) := by
  refine ⟨Within.write fun s => ?_, Spends.write hg⟩
  have hitems := congrArg Db.items (hg s s.items)
  exact Sells.same (ho s).1 (ho s).2 hitems

theorem ite {c : Prop} [Decidable c] {x y : DbTx α} (hx : Accounts x) (hy : Accounts y) :
    Accounts (if c then x else y) := by
  split <;> assumption

@[grind ←] theorem throwIf (c : Prop) [Decidable c] (e : AppError) : Accounts (Transaction.throwIf c e : DbTx Unit) :=
  ite (throw e) (pure ())

@[grind ←] theorem orThrow (o : Option α) (e : AppError) : Accounts (Transaction.orThrow o e : DbTx α) := by
  cases o with
  | none => exact throw e
  | some a => exact pure a

@[grind ←] theorem fromExcept (r : Except AppError α) : Accounts (Transaction.fromExcept r : DbTx α) := by
  cases r with
  | error e => exact throw e
  | ok a => exact pure a

@[grind ←] theorem runIf {c : Prop} [Decidable c] {x : DbTx Unit} (hx : Accounts x) :
    Accounts (Transaction.runIf c x) := ite hx (pure ())

@[grind ←] theorem forSome {o : Option β} {k : β → DbTx Unit} (hk : ∀ b, Accounts (k b)) :
    Accounts (Transaction.forSome o k) := by
  cases o with
  | none => exact pure ()
  | some b => exact hk b

theorem zoom {τ ε : Type} {get : Db → τ} {set : τ → Db → Db} {wrap : ε → AppError} {x : Tx τ ε α}
    (hget : ∀ s items, get { s with items } = get s)
    (hset : ∀ t s items, set t { s with items } = { set t s with items })
    (ho : ∀ t s, (set t s).orders = s.orders ∧ (set t s).purchaseNumber = s.purchaseNumber) : Accounts (Transaction.zoom get set wrap x) := by
  refine ⟨Within.zoom (Q := fun _ _ => True) (fun _ _ _ _ _ => trivial) fun s t _ => ?_, Spends.zoom hget hset⟩
  have hitems := congrArg Db.items (hset t s s.items)
  exact Sells.same (by rw [(ho t s).1]) (ho t s).2 hitems

/-! ### Repositories -/

variable {now : Instant} {draw : Draw}

@[grind ←] theorem onIdempotency (x : Tx (List (Idempotency.Record IdemRequest IdemResponse)) Idempotency.IdempotencyError α) :
    Accounts (Komanda.onIdempotency x) := zoom (fun _ _ => rfl) (fun _ _ _ => rfl) fun _ _ => ⟨rfl, rfl⟩

@[grind ←] theorem claim (scope key : String) (request : IdemRequest) (retention : Option Nat) (id : Id) :
    Accounts (IdempotencyService.claim scope key request retention id now) :=
  bind (current fun _ _ => rfl) fun _ => onIdempotency _

@[grind ←] theorem complete (id : Id) (status : Nat) (body : IdemResponse) :
    Accounts (IdempotencyService.complete id status body) := onIdempotency _

@[grind ←] theorem outbox (t : String) (i : Id) (e : String) (p : Payload) : Accounts (appendOutboxEvent t i e p) :=
  write (fun _ _ => rfl) fun _ => ⟨rfl, rfl⟩

@[grind ←] theorem audit (a t : String) (i : Id) (m : Payload) : Accounts (appendAuditEvent a t i m) :=
  write (fun _ _ => rfl) fun _ => ⟨rfl, rfl⟩

@[grind ←] theorem event (i : Id) (e : String) (s t : Option FulfillmentStatus) (m : Payload) :
    Accounts (OrderRepository.appendEvent i e s t m) := write (fun _ _ => rfl) fun _ => ⟨rfl, rfl⟩

@[grind ←] theorem ticket (order : Order) : Accounts (enqueueOrderTicket order draw) :=
  bind (current fun _ _ => rfl) fun _ =>
    bind (zoom (fun _ _ => rfl) (fun _ _ _ => rfl) fun _ _ => ⟨rfl, rfl⟩) fun _ => pure _

@[grind ←] theorem document (input : BillingRepository.IssueInput) :
    Accounts (BillingRepository.issueDocument input) :=
  bind (current fun _ _ => rfl) fun _ => bind (orThrow _ _) fun _ => bind (look _) fun _ => bind (throwIf _ _) fun _ =>
    bind (current fun _ _ => rfl) fun _ => bind (throwIf _ _) fun _ => write (fun _ _ => rfl) fun _ => ⟨rfl, rfl⟩

@[grind ←] theorem movement (m : CashMovement) (e : AppError) : Accounts (recordMovement m e) :=
  bind (current fun _ _ => rfl) fun _ => bind (throwIf _ _) fun _ => write (fun _ _ => rfl) fun _ => ⟨rfl, rfl⟩

@[grind ←] theorem redemption (o c d : Id) (amount : Cents) (code : String) :
    Accounts (DiscountRepository.recordRedemption o c d amount code) := by
  unfold DiscountRepository.recordRedemption
  refine bind (current fun _ _ => rfl) fun _ => bind (write (fun _ _ => rfl) fun _ => ⟨rfl, rfl⟩) fun _ =>
    bind (current fun _ _ => rfl) fun _ => bind (throwIf _ _) fun _ => bind ?_ fun _ => pure _
  refine write (fun s items => ?_) fun s => ?_
  · split <;> rfl
  · split <;> exact ⟨rfl, rfl⟩

@[grind ←] theorem redeemCoupon (cart : Cart) (i : Id) : Accounts (OrderRepository.redeemCoupon cart i) := by
  unfold OrderRepository.redeemCoupon
  grind

@[grind ←] theorem releaseCoupon (order : Order) : Accounts (Komanda.releaseCoupon order) := by
  have hcancel (i : Id) : Accounts (DiscountRepository.markRedemptionCancelled i) :=
    write (fun _ _ => rfl) fun _ => ⟨rfl, rfl⟩
  unfold Komanda.releaseCoupon
  grind

@[grind ←] theorem convertCart (cartId : Id) : Accounts (OrderRepository.convertCart cartId) :=
  write (fun _ _ => rfl) fun _ => ⟨rfl, rfl⟩

@[grind ←] theorem createCart (input : CartRepository.CreateInput) (id : Id) :
    Accounts (CartRepository.create input id) :=
  bind (current fun _ _ => rfl) fun _ => bind (throwIf _ _) fun _ =>
    bind (write (fun _ _ => rfl) fun _ => ⟨rfl, rfl⟩) fun _ => pure _

@[grind ←] theorem updateAttempt (id : Id) (f : PaymentAttempt → PaymentAttempt) :
    Accounts (IntegrationRepository.updateAttempt id f) := write (fun _ _ => rfl) fun _ => ⟨rfl, rfl⟩

@[grind ←] theorem route (r : ProviderResourceRoute) : Accounts (IntegrationRepository.insertRoute r) := by
  refine write (fun s items => ?_) fun s => ?_
  · split <;> rfl
  · split <;> exact ⟨rfl, rfl⟩

@[grind ←] theorem financialRecord (r : MpFinancialRecord) : Accounts (Webhook.upsertFinancialRecord r) := by
  refine write (fun s items => ?_) fun s => ?_
  · split <;> rfl
  · split <;> exact ⟨rfl, rfl⟩

@[grind ←] theorem webhookEvent (e : ReceivedMercadoPagoWebhook) (status : WebhookEventStatus) (i : Id) :
    Accounts (Webhook.persistEvent e status i) :=
  bind (current fun _ _ => rfl) fun _ => bind (runIf (write (fun _ _ => rfl) fun _ => ⟨rfl, rfl⟩)) fun _ => pure _

/-- An update of an order that leaves its lines alone. -/
theorem updateReturning {p : Order → Bool} {f : Order → Order} (hf : ∀ o, (f o).entry = o.entry) :
    Accounts (OrderRepository.updateReturning p f now) := by
  refine bind (current fun _ _ => rfl) fun _ => bind (write (fun _ _ => rfl) fun s => ?_) fun _ => pure _
  exact ⟨Table.map_updateWhere fun o _ => hf o, rfl⟩

@[grind ←] theorem transition (i : Id) (version : Nat) (next : FulfillmentStatus) (status : Option PaymentStatus) :
    Accounts (OrderRepository.transition i version next status now) := updateReturning fun _ => rfl

@[grind ←] theorem updatePaymentStatus (i : Id) (status : PaymentStatus) :
    Accounts (OrderRepository.updatePaymentStatus i status now) := updateReturning fun _ => rfl

/-! ### Orders -/

/-- What an inserted order leaves of the orders, and of the stock. -/
theorem insertSnapshot_cases {input : SnapshotInput} {v s s' : Db} {order : Order}
    (h : Commits (OrderRepository.insertSnapshot input draw) v s order s') :
    order.purchaseNumber = s.purchaseNumber + 1 ∧ s'.purchaseNumber = s.purchaseNumber + 1 ∧
      s'.orders = s.orders ++ [order] ∧ (Stocked s.items → ¬ Short input.cart.lines s.items ∧
        s'.items = s.items.map fun x => x.less (unitsIn input.cart.lines x.id)) := by
  simp only [OrderRepository.insertSnapshot, OrderRepository.nextPurchaseNumber, OrderRepository.insert, bind_assoc,
    commits_write_bind, commits_current_bind, commits_throwIf_bind] at h
  obtain ⟨-, h⟩ := h
  obtain ⟨u, s₁, hdeduct, hrest⟩ := commits_bind.1 h
  -- what follows the insertion leaves the orders alone, and what follows the deductions the stock
  let S : List TableName := [.items, .carts, .discounts, .redemptions, .orderEvents]
  let T : List TableName := [.carts, .discounts, .redemptions, .orderEvents]
  have hdeducted : TableName.orders.Same _ s₁ :=
    Within.each (fun line => writes_stock (S := S) line (by decide)) _ _ _ _ _ hdeduct .orders (by decide)
  have hframe : Writes T s₁ s' := by
    refine (Within.bind (writes_convertCart _ (by decide)) fun _ =>
      Within.bind (writes_redeemCoupon _ _ (by decide) (by decide)) fun _ =>
        Within.bind (writes_event _ _ _ _ _ (by decide)) fun _ => Within.pure _) _ _ _ _ hrest
  obtain ⟨horders, hcounter⟩ := Prod.mk.inj (hdeducted.trans (hframe .orders (by decide)))
  obtain ⟨_, _, _, hrest⟩ := commits_bind.1 hrest
  obtain ⟨_, _, _, hrest⟩ := commits_bind.1 hrest
  obtain ⟨_, _, _, hrest⟩ := commits_bind.1 hrest
  obtain ⟨rfl, -⟩ := commits_pure.1 hrest
  refine ⟨rfl, hcounter, horders, fun hs => ?_⟩
  obtain ⟨hshort, rfl⟩ := each_deductStock_cases (by exact hs) hdeduct
  exact ⟨hshort, hframe .items (by decide)⟩

/-- An inserted order takes the units of its lines. -/
theorem insertSnapshot_sells (input : SnapshotInput) : Within Sells (OrderRepository.insertSnapshot input draw) := by
  intro v s order s' h
  obtain ⟨⟨k, active, rfl⟩, -, -⟩ := insertSnapshot_core h
  obtain ⟨hnumber, hcounter, horders, hstock⟩ := insertSnapshot_cases h
  constructor
  · intro hn o ho
    rw [horders] at ho
    rcases List.mem_append.1 ho with ho | ho
    · have := hn o ho
      omega
    · rw [List.mem_singleton.1 ho]
      omega
  · intro hs
    obtain ⟨hshort, hitems⟩ := hstock hs
    have hunits : (fun x : CatalogItem => x.less (sold [OrderRepository.newOrder input draw k active] x.id)) =
        fun x => x.less (unitsIn input.cart.lines x.id) := by
      funext x
      simp [sold, units_newOrder]
    refine ⟨?_, [OrderRepository.newOrder input draw k active], by rw [horders, List.map_append], ?_⟩
    · rw [hitems]
      refine hs.less (n := unitsIn input.cart.lines) fun x hx ht => ?_
      by_contra hlt
      exact hshort ⟨x, hx, ht, by omega⟩
    · rw [hitems, hunits]

theorem insertSnapshot_spends (input : SnapshotInput) : Spends (OrderRepository.insertSnapshot input draw) := by
  have hnumber : Spends OrderRepository.nextPurchaseNumber :=
    Spends.bind (Spends.write fun _ _ => rfl) fun _ => Spends.current fun _ _ => rfl
  have hinsert (order : Order) : Spends (OrderRepository.insert order) :=
    Spends.bind (Spends.current fun _ _ => rfl) fun _ => Spends.bind (throwIf _ _).spends fun _ =>
      Spends.write fun _ _ => rfl
  unfold OrderRepository.insertSnapshot
  refine Spends.bind hnumber fun _ => Spends.bind (Spends.current fun _ _ => rfl) fun _ =>
    Spends.bind (hinsert _) fun _ => Spends.bind (Spends.each Spends.deductStock _) fun _ => ?_
  exact Spends.bind (convertCart _).spends fun _ => Spends.bind (redeemCoupon _ _).spends fun _ =>
    Spends.bind (event _ _ _ _ _).spends fun _ => Spends.pure _

@[grind ←] theorem insertSnapshot (input : SnapshotInput) : Accounts (OrderRepository.insertSnapshot input draw) :=
  ⟨insertSnapshot_sells input, insertSnapshot_spends input⟩

@[grind ←] theorem snapshotWith {readCart : DbTx (Option Cart)} (input : SnapshotInput) (hread : Accounts readCart) :
    Accounts (OrderRepository.createFromCartSnapshotWith readCart input draw) := by
  unfold OrderRepository.createFromCartSnapshotWith
  grind

@[grind ←] theorem snapshot (input : SnapshotInput) : Accounts (OrderRepository.createFromCartSnapshot input draw) :=
  snapshotWith input (look _)

@[grind ←] theorem announce (order : Order) (action : String) (m c : Payload) :
    Accounts (CreateOrderService.announce order action m c) := by
  unfold CreateOrderService.announce
  grind

@[grind ←] theorem orStale (updated : Option Order) : Accounts (Komanda.orStale updated) := orThrow _ _

@[grind ←] theorem announceCancellation (order updated : Order) (reason : String) :
    Accounts (Komanda.announceCancellation order updated reason) := by
  unfold Komanda.announceCancellation OrderRepository.appendTransitionEvent
  grind

@[grind ←] theorem toEffect {x : DbTx α} (h : Accounts x) : Accounts (effect x) := by
  unfold effect
  grind

/-! ### Services -/

theorem createCashOrder (tenant : PublicTenant) (cartId : Id) (request : CheckoutRequest) (key : String)
    (recordId : Id) : Accounts (CreateCashOrderService.create tenant cartId request key recordId draw) := by
  unfold CreateCashOrderService.create CreateCashOrderService.convert
  repeat refine bind (by grind) fun _ => ?_
  split
  · grind
  · repeat refine bind (by grind) fun _ => ?_
    grind

theorem createDirect (cartId : Id) (customer : Customer) (notes : Option String) (key : String) :
    Accounts (CreateOrderService.createDirect cartId customer notes key draw) := by
  unfold CreateOrderService.createDirect CreateOrderService.deposit CreateOrderService.announceDirect
  repeat refine bind (by grind) fun _ => ?_
  grind

theorem createDirectFromItems (request : CreateOrderService.DirectItemsRequest) (key : String) (cartId : Id) :
    Accounts (CreateOrderService.createDirectFromItems request key cartId draw) := by
  have hread (id : Id) : Accounts (Transaction.current (CartRepository.find id) : DbTx (Option Cart)) :=
    current fun _ _ => rfl
  unfold CreateOrderService.createDirectFromItems CreateOrderService.deposit CreateOrderService.announceDirect
  repeat refine bind (by grind) fun _ => ?_
  grind

theorem createPaid (attemptId : Id) (approvedAt : Option Instant) :
    Accounts (CreateOrderService.createPaidFromPaymentAttempt attemptId approvedAt draw) := by
  unfold CreateOrderService.createPaidFromPaymentAttempt
  repeat refine bind (by grind) fun _ => ?_
  grind

theorem webhook (event : ReceivedMercadoPagoWebhook) (payment : MercadoPagoPayment) (eventId : Id) :
    Accounts (Webhook.receive event payment eventId draw) := by
  have hread (id : Id) : Accounts (Transaction.current (OrderRepository.loadPaymentAttempt id) : DbTx _) :=
    current fun _ _ => rfl
  have horder (a : PaymentAttempt) : Accounts (Webhook.orderOfApproved a event draw) := by
    unfold Webhook.orderOfApproved
    refine bind (look _) fun _ => ?_
    split
    · repeat refine bind (by grind) fun _ => ?_
      grind
    · grind
  have hrecord (attempt : PaymentAttempt) : Accounts (Webhook.record attempt event payment draw) := by
    unfold Webhook.record
    repeat refine bind (by grind) fun _ => ?_
    grind
  unfold Webhook.receive
  repeat refine bind (by grind) fun _ => ?_
  grind

theorem reconcile (attemptId : Id) (lookup : Option MercadoPagoPayment) :
    Accounts (Reconciliation.reconcilePaymentAttempt attemptId lookup draw) := by
  have hcreate (attempt : PaymentAttempt) (approvedAt : Instant) :
      Accounts (Reconciliation.createOrder attempt approvedAt draw) := by
    unfold Reconciliation.createOrder
    refine bind (look _) fun _ => ?_
    split
    · grind
    · repeat refine bind (by grind) fun _ => ?_
      grind
  have hconfirm (attempt : PaymentAttempt) (order : Option Order) (approvedAt : Instant) :
      Accounts (Reconciliation.confirm attempt order approvedAt draw) := by
    unfold Reconciliation.confirm
    refine bind (updateAttempt _ _) fun _ => ?_
    split
    · exact hcreate _ _
    · refine bind (runIf ?_) fun _ => pure _
      exact bind (updatePaymentStatus _ _) fun _ => outbox _ _ _ _
  have hrefuse (attempt : PaymentAttempt) (order : Option Order) :
      Accounts (Reconciliation.refuse attempt order draw) := by
    unfold Reconciliation.refuse
    grind
  unfold Reconciliation.reconcilePaymentAttempt
  repeat refine bind (by grind) fun _ => ?_
  refine ite (by grind) (ite (by grind) ?_)
  repeat refine bind (by grind) fun _ => ?_
  split
  · grind
  · exact bind (look _) fun _ => ite (by grind) (ite (by grind) (by grind))

theorem transitionOrder (orderId : Id) (expectedVersion : Nat) (request : TransitionOrderService.Request) :
    Accounts (TransitionOrderService.transition orderId expectedVersion request draw) := by
  have hnotify (order : Order) (next : FulfillmentStatus) :
      Accounts (TransitionOrderService.notifyReady order next) :=
    runIf (bind (current fun _ _ => rfl) fun _ => runIf (outbox _ _ _ _))
  have happly (order : Order) :
      Accounts (TransitionOrderService.apply order expectedVersion request draw) := by
    unfold TransitionOrderService.apply OrderRepository.appendTransitionEvent
    repeat refine bind (by grind) fun _ => ?_
    grind
  unfold TransitionOrderService.transition
  grind

theorem collect (actor : Actor) (orderId : Id) (key : String) (request : CollectCashRequest) (recordId : Id) :
    Accounts (CollectCashService.collect actor orderId key request recordId draw) := by
  have hpay (p : Order → Bool) : Accounts (OrderRepository.updateReturning p CollectCashService.pay draw.now) :=
    updateReturning fun _ => rfl
  have happly (order : Order) (recordId : Id) :
      Accounts (CollectCashService.apply order recordId request draw) := by
    unfold CollectCashService.apply OrderRepository.appendTransitionEvent
    repeat refine bind (by grind) fun _ => ?_
    grind
  unfold CollectCashService.collect
  repeat refine bind (by grind) fun _ => ?_
  split
  · grind
  · repeat refine bind (by grind) fun _ => ?_
    refine ite ?_ ?_
    · repeat refine bind (by grind) fun _ => ?_
      grind
    · split <;> grind

theorem refund (actor : Actor) (orderId : Id) (key : String) (request : RefundCashRequest) (recordId : Id) :
    Accounts (RefundCashService.refund actor orderId key request recordId draw) := by
  have hgive (p : Order → Bool) : Accounts (OrderRepository.updateReturning p RefundCashService.giveBack draw.now) :=
    updateReturning fun _ => rfl
  have happly (order : Order) (recordId : Id) :
      Accounts (RefundCashService.apply order recordId request draw) := by
    unfold RefundCashService.apply OrderRepository.appendTransitionEvent
    repeat refine bind (by grind) fun _ => ?_
    grind
  unfold RefundCashService.refund
  repeat refine bind (by grind) fun _ => ?_
  split
  · grind
  · repeat refine bind (by grind) fun _ => ?_
    refine ite ?_ ?_
    · repeat refine bind (by grind) fun _ => ?_
      grind
    · split <;> grind

theorem cancelUnpaid (orderId : Id) (pin : String) : Accounts (CancelUnpaidOrderService.cancel orderId pin draw) := by
  have hcancel (p : Order → Bool) :
      Accounts (OrderRepository.updateReturning p CancelUnpaidOrderService.cancelOrder draw.now) :=
    updateReturning fun _ => rfl
  unfold CancelUnpaidOrderService.cancel
  grind

theorem expire (orderId : Id) : Accounts (ExpireUnpaidOrdersJob.run orderId draw) := by
  have hexpire (p : Order → Bool) :
      Accounts (OrderRepository.updateReturning p ExpireUnpaidOrdersJob.expireOrder draw.now) :=
    updateReturning fun _ => rfl
  unfold ExpireUnpaidOrdersJob.run
  grind

end Accounts

/-! ## Requests -/

/-- A request of the shop, not of its back office. -/
def Request.trades (q : Request) : Prop := ∀ c, q.action ≠ .configure c

section Requests
variable {q : Request} {v db db' : Db} {answer : Answer}

/-- The requests that may write the orders or the stock. -/
theorem run_accounts (hq : q.trades) (htables : .orders ∈ q.action.tables ∨ .items ∈ q.action.tables) :
    Accounts (q.action.run q.draw) := by
  unfold Request.trades at hq
  cases hact : q.action with
  | configure c => exact absurd hact (hq c)
  | createCashOrder tenant cartId request key recordId =>
    exact Accounts.bind (Accounts.createCashOrder _ _ _ _ _) fun _ => Accounts.pure _
  | webhook event payment eventId => exact Accounts.toEffect (Accounts.webhook _ _ _)
  | reconcile attemptId lookup => exact Accounts.toEffect (Accounts.reconcile _ _)
  | createDirect cartId customer notes key =>
    exact Accounts.bind (Accounts.createDirect _ _ _ _) fun _ => Accounts.pure _
  | createDirectFromItems request key cartId =>
    exact Accounts.bind (Accounts.createDirectFromItems _ _ _) fun _ => Accounts.pure _
  | createPaid attemptId approvedAt => exact Accounts.bind (Accounts.createPaid _ _) fun _ => Accounts.pure _
  | transition orderId expectedVersion request => exact Accounts.toEffect (Accounts.transitionOrder _ _ _)
  | collect actor orderId key request recordId => exact Accounts.toEffect (Accounts.collect _ _ _ _ _)
  | refund actor orderId key request recordId => exact Accounts.toEffect (Accounts.refund _ _ _ _ _)
  | cancelUnpaid orderId pin => exact Accounts.toEffect (Accounts.cancelUnpaid _ _)
  | expire orderId => exact Accounts.toEffect (Accounts.expire _)
  | _ =>
    rw [hact] at htables
    simp at htables

theorem exec_sells (hq : q.trades) (h : exec q v db = some (answer, db')) : Sells db db' := by
  by_cases htables : .orders ∈ q.action.tables ∨ .items ∈ q.action.tables
  · exact (run_accounts hq htables).sells _ _ _ _ (exec_eq.1 h)
  · obtain ⟨horders, hitems⟩ := not_or.1 htables
    have hsame := exec_frame h .orders horders
    exact Sells.same (by rw [(Prod.mk.inj hsame).1]) (Prod.mk.inj hsame).2 (exec_frame h .items hitems)

/-- A request adds one order at most. -/
theorem Effect.orders_length {c : Core} (h : Effect q v db c) : c.orders.length ≤ db.orders.length + 1 := by
  cases h with
  | sold _ _ _ _ _ _ _ _ => simp [Db.core]
  | revised _ _ _ _ _ _ _ _ => simp [Db.core]
  | _ => exact Nat.le_succ _

end Requests

/-! ## Runs -/

/-- The order names more units of a tracked item than there are. -/
def Lacks (order : Order) (items : List CatalogItem) : Prop :=
  ∃ x ∈ items, x.trackStock = true ∧ x.stockQuantity < order.units x.id

/-- The accounts of a session that began with the stock of `db₀`. -/
structure StockAccounts (db₀ : Db) (s : RcState) : Prop where
  stocked : Stocked s.db.items
  deducted : s.db.items = db₀.items.map fun x => x.less (sold (s.db.orders.drop db₀.orders.length) x.id)
  /-- The order that a commit creates, if any, takes what its lines name. -/
  commits : ∀ i s', rcStep s (.commit i) = some s' → ∃ created : Option Order,
    (s'.db.orders.map Order.entry) = (s.db.orders.map Order.entry) ++
      created.toList.map Order.entry ∧
    s'.db.items = s.db.items.map fun x => x.less (sold created.toList x.id)
  /-- An order that a request would create from another stock, but that this one lacks, is refused. -/
  refused : ∀ i o items a db' order, s.opens[i]? = some o →
    exec o.action o.view { s.db with items } = some (a, db') →
    order ∈ db'.orders.drop s.db.orders.length → Lacks order s.db.items →
    (∃ name, o.action.action.run o.action.draw o.view s.db =
      .error (.orderConflict ("INSUFFICIENT_STOCK: " ++ name))) ∧
    rcStep s (.commit i) = none ∧ ∀ s', rcStep s (.abort i) = some s' → s'.db = s.db

section Runs
variable {s₀ s s' : RcState} {es : List RcEvent}

theorem sold_congr {os os' : List Order} {itemId : Id}
    (h : (os.map Order.entry) = os'.map Order.entry) : sold os itemId = sold os' itemId := by
  have hsold (os : List Order) : sold os itemId =
      ((os.map Order.entry).map fun p => (p.2.2.map (·.units itemId)).sum).sum := by
    simp [sold, Order.units, Order.entry, Function.comp_def]
  rw [hsold, h, ← hsold]

/-- The orders that have been added are the last ones. -/
theorem sold_drop {os os' created : List Order} {itemId : Id}
    (h : (os'.map Order.entry) = (os.map Order.entry) ++
      created.map Order.entry) : sold (os'.drop os.length) itemId = sold created itemId := by
  refine sold_congr ?_
  rw [List.map_drop, h]
  exact List.drop_left' (by simp)

theorem units_le_sold {o : Order} {os : List Order} {itemId : Id} (h : o ∈ os) : o.units itemId ≤ sold os itemId :=
  List.le_sum_of_mem (List.mem_map_of_mem h)

/-- A session that began with the orders and the stock of `db₀`, and whose open requests trade. -/
structure Trading (db₀ : Db) (s : RcState) : Prop where
  trades : ∀ o ∈ s.opens, o.action.trades
  sells : Sells db₀ s.db

theorem Trading.step {db₀ : Db} {e : RcEvent} (h : Trading db₀ s) (hq : ∀ q, e = .start q → q.trades)
    (hs : rcStep s e = some s') : Trading db₀ s' := by
  cases e with
  | start q =>
    cases hs
    refine ⟨fun o ho => ?_, h.sells⟩
    rcases List.mem_append.1 ho with ho | ho
    · exact h.trades o ho
    · rw [List.mem_singleton.1 ho]
      exact hq q rfl
  | reread i r =>
    obtain ⟨o, ho, rfl⟩ := Option.map_eq_some_iff.1 hs
    refine ⟨fun o' ho' => ?_, h.sells⟩
    rcases List.mem_or_eq_of_mem_set ho' with ho' | rfl
    · exact h.trades o' ho'
    · exact h.trades o (List.mem_of_getElem? ho)
  | abort i =>
    obtain ⟨o, -, rfl⟩ := Option.map_eq_some_iff.1 hs
    exact ⟨fun o' ho' => h.trades o' (List.mem_of_mem_eraseIdx ho'), h.sells⟩
  | commit i =>
    obtain ⟨o, ho, hs⟩ := Option.bind_eq_some_iff.1 hs
    obtain ⟨⟨a, db'⟩, hx, rfl⟩ := Option.map_eq_some_iff.1 hs
    have hsells : Sells s.db db' := exec_sells (h.trades o (List.mem_of_getElem? ho)) hx
    exact ⟨fun o' ho' => h.trades o' (List.mem_of_mem_eraseIdx ho'), Trans.trans h.sells hsells⟩

theorem exec_trading {db₀ : Db} (hq : ∀ q, .start q ∈ es → q.trades)
    (hr : Runs.exec rcStep ⟨db₀, []⟩ es = some s) : Trading db₀ s := by
  have hC : Runs.Along rcStep (fun _ e => ∀ q, e = .start q → q.trades) ⟨db₀, []⟩ es :=
    Runs.Along.of_mem fun e he q heq => hq q (heq ▸ he)
  refine Runs.exec_inv (fun s e s' hi hc hs => Trading.step hi hc hs) ?_ hC hr
  exact ⟨fun o ho => (List.not_mem_nil ho).elim, Std.Refl.refl _⟩

/-- The order that a request creates takes what its lines name. -/
theorem exec_created {q : Request} {v db db' : Db} {a : Answer} (hs : Stocked db.items) (hq : q.trades)
    (h : exec q v db = some (a, db')) : ∃ created : Option Order,
      (db'.orders.map Order.entry) = (db.orders.map Order.entry) ++
        created.toList.map Order.entry ∧
      db'.items = db.items.map fun x => x.less (sold created.toList x.id) := by
  obtain ⟨-, created, horders, hitems⟩ := (exec_sells hq h).stock hs
  have hlength := congrArg List.length horders
  simp only [List.length_map, List.length_append] at hlength
  have hone : db'.orders.length ≤ db.orders.length + 1 := (exec_effect h).orders_length
  cases created with
  | nil => exact ⟨none, horders, hitems⟩
  | cons o rest =>
    cases rest with
    | nil => exact ⟨some o, horders, hitems⟩
    | cons o' rest =>
      simp only [List.length_cons] at hlength
      omega

/-- An order whose stock is lacking is refused. -/
theorem exec_lacking {q : Request} {v db db' : Db} {items : List CatalogItem} {a : Answer} {order : Order}
    (hs : Stocked db.items) (hq : q.trades) (h : exec q v { db with items } = some (a, db'))
    (ho : order ∈ db'.orders.drop db.orders.length) (hl : Lacks order db.items) :
    ∃ name, q.action.run q.draw v db = .error (.orderConflict ("INSUFFICIENT_STOCK: " ++ name)) := by
  by_cases htables : .orders ∈ q.action.tables ∨ .items ∈ q.action.tables
  · rcases (run_accounts hq htables).spends v db items a db' hs (exec_eq.1 h) with herr | ⟨items', hs', hc⟩
    · exact herr
    · -- it would commit, and leave less than nothing of the item
      obtain ⟨-, created, horders, hitems⟩ := (exec_sells hq (exec_eq.2 hc)).stock hs
      obtain ⟨x, hx, ht, hlt⟩ := hl
      have hle : order.units x.id ≤ sold _ x.id := units_le_sold ho
      rw [sold_drop horders] at hle
      have hmem : x.less (sold created x.id) ∈ items' := by
        rw [show items' = _ from hitems]
        exact List.mem_map_of_mem hx
      have hpos := hs'.nonneg _ hmem
      simp only [CatalogItem.less, ht, if_true] at hpos
      omega
  · have hsame : (db'.orders, db'.purchaseNumber) = (db.orders, db.purchaseNumber) :=
      exec_frame h .orders (not_or.1 htables).1
    rw [(Prod.mk.inj hsame).1, List.drop_length] at ho
    exact (List.not_mem_nil ho).elim

end Runs

/-- Whatever requests of the shop overlap, the stock is never negative, every order has taken what its lines
name, and an order whose stock is lacking is refused without a trace. -/
theorem stock_accounted {db₀ : Db} {es : List RcEvent} {s : RcState} (h₀ : Stocked db₀.items)
    (hq : ∀ q, .start q ∈ es → q.trades) (hr : Runs.exec rcStep ⟨db₀, []⟩ es = some s) : StockAccounts db₀ s := by
  obtain ⟨htrades, hsells⟩ := exec_trading hq hr
  obtain ⟨hs, created, horders, hitems⟩ := hsells.stock h₀
  refine ⟨hs, ?_, ?_, ?_⟩
  · rw [hitems]
    refine List.map_congr_left fun x _ => ?_
    rw [sold_drop horders]
  · intro i s' hs'
    obtain ⟨o, ho, hs'⟩ := Option.bind_eq_some_iff.1 hs'
    obtain ⟨⟨a, db'⟩, hx, rfl⟩ := Option.map_eq_some_iff.1 hs'
    exact exec_created hs (htrades o (List.mem_of_getElem? ho)) hx
  · intro i o items a db' order ho hx horder hl
    obtain ⟨name, herr⟩ := exec_lacking hs (htrades o (List.mem_of_getElem? ho)) hx horder hl
    refine ⟨⟨name, herr⟩, ?_, fun s' hs' => ?_⟩
    · have hnone : exec o.action o.view s.db = none := by rw [exec, herr]; rfl
      simp [rcStep, ReadCommitted.step, ho, hnone]
    · obtain ⟨o', -, rfl⟩ := Option.map_eq_some_iff.1 hs'
      rfl

namespace Demo

/-- One burger is left. -/
def lastBurger : Request := call 0 "0" (.configure
  { settings, accounts := [account], items := [{ burger with trackStock := true, stockQuantity := 1 }], combos := [],
    addonGroups := [], itemAddonGroups := [] })

/-- Two customers check out the last burger at once. -/
def rush : List RcEvent := [.start (payInCash "4" "cart"), .start (payInCash "5" "other"), .commit 0]

end Demo

open Demo

theorem stock_accounted_rush : ∃ db₀ s, Stocked db₀.items ∧ Runs.exec rcStep ⟨db₀, []⟩ rush = some s ∧
    s.db.items ≠ db₀.items ∧ StockAccounts db₀ s := by
  have hx : (Runs.exec step (Db.fresh "tenant" settings) [lastBurger, fillCart "1" "cart", fillCart "2" "other"]).any
      (fun db => db.items = [{ burger with trackStock := true, stockQuantity := 1 }] &&
        (Runs.exec rcStep ⟨db, []⟩ rush).any fun s => s.db.items ≠ db.items) = true := by decide +kernel
  obtain ⟨db₀, -, hdb⟩ := (Option.any_eq_true _ _).1 hx
  obtain ⟨hitems, hs⟩ := Bool.and_eq_true_iff.1 hdb
  obtain ⟨s, hr, hne⟩ := (Option.any_eq_true _ _).1 hs
  have hstocked : Stocked db₀.items := by
    rw [of_decide_eq_true hitems]
    exact ⟨List.nodup_singleton _, by decide⟩
  refine ⟨db₀, s, hstocked, hr, of_decide_eq_true hne, stock_accounted hstocked (fun q hq => ?_) hr⟩
  simp only [rush, List.mem_cons, List.not_mem_nil, or_false, ReadCommitted.Event.start.injEq, reduceCtorEq] at hq
  rcases hq with rfl | rfl
  · exact fun c hc => nomatch hc
  · exact fun c hc => nomatch hc

end Komanda
