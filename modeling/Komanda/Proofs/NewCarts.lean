import Komanda.Proofs.SoldCarts

/-!
# What a new cart costs

`CartService.create` validates every line of the request against the catalog and stores what it finds. A customer
may send prices along. The price of a unit is only compared with the catalog's; the subtotal of an item sold by
weight, which the catalog does not know, becomes the price of its line.
-/

namespace Komanda
open Transaction Idempotency

/-- The selection names an item that is sold by weight. -/
def CartSelection.Weighed (selection : CartSelection) (db : Db) : Prop :=
  ∃ catalog, CartRepository.loadSelection selection.isCombo selection.resourceId db = some catalog ∧
    catalog.itemType = .weighted

/-- The selection without the prices that the customer sends. -/
def CartSelection.unpriced (selection : CartSelection) : CartSelection :=
  { selection with confirmedUnitPrice := none, calculatedSubtotal := none }

def CreateCartRequest.unpriced (request : CreateCartRequest) : CreateCartRequest :=
  { request with lines := request.lines.map CartSelection.unpriced }

/-- The requests send the same subtotals for what is sold by weight. -/
def SameWeights (v : Db) (request request' : CreateCartRequest) : Prop :=
  List.Forall₂ (fun a b : CartSelection => a.Weighed v → a.calculatedSubtotal = b.calculatedSubtotal) request.lines
    request'.lines

structure Cart.SamePrice (c c' : Cart) : Prop where
  lineTotals : c.lines.map (·.lineTotal) = c'.lines.map (·.lineTotal)
  subtotal : c.subtotal = c'.subtotal
  discountTotal : c.discountTotal = c'.discountTotal
  total : c.total = c'.total

/-- A call of `CartService.create` that stores a new cart; a replay stores none. -/
def Creates (tenant : PublicTenant) (request : CreateCartRequest) (now : Instant) (v s : Db) (cart : Cart) (s' : Db) :
    Prop :=
  ∃ key recordId, Commits (CartService.create tenant request key recordId cart.id now) v s cart s' ∧
    s'.carts = s.carts ++ [cart]

/-- What is stored of the lines. -/
def newCart (tenant : PublicTenant) (discountCode : Option String) (now : Instant) (v : Db) (lines : List NewCartLine) :
    CartRepository.CreateInput :=
  let price := CartService.initialPrice lines discountCode now v
  { locationId := tenant.locationId, currency := tenant.currency, subtotal := (lines.map (·.lineTotal)).sum,
    discountTotal := price.discountTotal, total := price.total, appliedDiscountCodeId := price.appliedDiscountCodeId,
    discountMetadata := price.discountMetadata, expiresAt := now + 30 * 60 * 1000, lines }

/-! ## One line -/

section Selections
variable {selection : CartSelection} {catalog : CartSelectionCatalog} {validated : ValidatedSelection}

theorem revalidate_weighted_iff (hw : catalog.itemType = .weighted) :
    revalidateCartSelection selection catalog = .ok validated ↔ catalog.status = .active ∧
      ∃ subtotal, selection.calculatedSubtotal = some subtotal ∧ subtotal ≠ 0 ∧ selection.quantity = 1 ∧
        selection.optionIds = [] ∧ validated = { itemType := .weighted, options := [], unitPriceCents := subtotal } := by
  unfold revalidateCartSelection
  rw [hw]
  cases selection.calculatedSubtotal with
  | none => by_cases hs : catalog.status = .active <;> simp [hs]
  | some subtotal =>
    by_cases hs : catalog.status = .active
    · by_cases hzero : subtotal = 0
      · simp [hs, hzero]
      · by_cases hone : selection.quantity = 1
        · by_cases hnone : selection.optionIds = []
          · simp [hs, hzero, hone, hnone, eq_comm]
          · simp [hs, hzero, hone, hnone]
        · simp [hs, hzero, hone]
    · simp [hs]

/-- What a unit has to be to be accepted at the catalog's price. -/
structure UnitAccepted (selection : CartSelection) (catalog : CartSelectionCatalog) : Prop where
  active : catalog.status = .active
  unpriced : selection.calculatedSubtotal = none
  confirmed : ∀ price ∈ selection.confirmedUnitPrice, price = centsToMoney catalog.price
  known : ∀ id ∈ selection.optionIds, id ∈ knownOptions catalog.addonGroups
  bounded : ∀ group ∈ catalog.addonGroups, group.withinBounds selection.optionIds = true

/-- The price of a unit with its options. -/
def CartSelectionCatalog.priced (catalog : CartSelectionCatalog) (optionIds : List Id) : ValidatedSelection where
  itemType := .unit
  options := selectedOptions optionIds catalog.addonGroups
  unitPriceCents := catalog.price + ((selectedOptions optionIds catalog.addonGroups).map (·.priceDelta)).sum

theorem revalidate_unit_iff (hu : catalog.itemType = .unit) :
    revalidateCartSelection selection catalog = .ok validated ↔
      UnitAccepted selection catalog ∧ validated = catalog.priced selection.optionIds := by
  unfold revalidateCartSelection
  rw [hu]
  constructor
  · intro h
    split at h
    · cases h
    split at h
    · cases h
    dsimp only at h
    split at h
    · cases h
    split at h
    · cases h
    split at h
    · cases h
    rename_i hactive hweight hconfirmed hknown hbounded
    cases h
    refine ⟨⟨not_not.1 hactive, ?_, ?_, ?_, ?_⟩, rfl⟩
    · simpa using hweight
    · simpa [Option.any_eq_false] using hconfirmed
    · simpa using hknown
    · simpa using hbounded
  · rintro ⟨⟨hactive, hweight, hconfirmed, hknown, hbounded⟩, rfl⟩
    rw [if_neg (not_not.2 hactive), if_neg (by simp [hweight])]
    dsimp only
    rw [if_neg (by simpa [Option.any_eq_false] using hconfirmed), if_neg (by simpa using hknown),
      if_neg (by simpa using hbounded)]
    rfl

end Selections

section Lines
variable {currency : String} {v : Db} {selection selection' : CartSelection} {line line' : NewCartLine}

/-- The line that a validated selection becomes. -/
def newLine (selection : CartSelection) (catalog : CartSelectionCatalog) (validated : ValidatedSelection) :
    NewCartLine where
  isCombo := catalog.isCombo
  resourceId := selection.resourceId
  itemType := validated.itemType
  quantity := selection.quantity
  name := catalog.name
  unitPrice := validated.unitPriceCents
  lineTotal := validated.unitPriceCents * selection.quantity
  imageUrl := catalog.imageUrl
  note := selection.note
  options := validated.options

theorem validateLine_iff : CartService.validateLine currency v selection = .ok line ↔ ∃ catalog validated,
    CartRepository.loadSelection selection.isCombo selection.resourceId v = some catalog ∧
      catalog.currency = currency ∧ revalidateCartSelection selection catalog = .ok validated ∧
      line = newLine selection catalog validated := by
  unfold CartService.validateLine
  cases CartRepository.loadSelection selection.isCombo selection.resourceId v with
  | none => simp
  | some catalog =>
    dsimp only
    by_cases hc : catalog.currency = currency
    · rw [if_neg (not_not.2 hc)]
      cases hvalid : revalidateCartSelection selection catalog with
      | error message =>
        constructor
        · intro h; cases h
        · rintro ⟨_, _, h, -, hok, -⟩
          cases h
          cases hvalid.symm.trans hok
      | ok validated =>
        constructor
        · intro h; cases h
          exact ⟨catalog, validated, rfl, hc, hvalid, rfl⟩
        · rintro ⟨_, _, h, -, hok, rfl⟩
          cases h
          cases hvalid.symm.trans hok
          rfl
    · rw [if_pos hc]
      constructor
      · intro h; cases h
      · rintro ⟨_, _, h, hcurrency, -⟩
        cases h
        exact absurd hcurrency hc

/-- The prices that the customer sends are nowhere else in a selection. -/
theorem CartSelection.eq_of_unpriced (h : selection.unpriced = selection'.unpriced) :
    selection.isCombo = selection'.isCombo ∧ selection.resourceId = selection'.resourceId ∧
      selection.quantity = selection'.quantity ∧ selection.optionIds = selection'.optionIds ∧
      selection.note = selection'.note := by
  simp only [CartSelection.unpriced, CartSelection.mk.injEq] at h
  exact ⟨h.1, h.2.1, h.2.2.1, h.2.2.2.1, h.2.2.2.2.1⟩

/-- Selections of the same become lines of the same price exactly when they send the same subtotal for what is
sold by weight, and are then the same line. -/
theorem validateLine_same (hs : selection.unpriced = selection'.unpriced)
    (h : CartService.validateLine currency v selection = .ok line)
    (h' : CartService.validateLine currency v selection' = .ok line') :
    (line.lineTotal = line'.lineTotal ↔
        (selection.Weighed v → selection.calculatedSubtotal = selection'.calculatedSubtotal)) ∧
      (line.lineTotal = line'.lineTotal → line = line') := by
  obtain ⟨hcombo, hid, hquantity, hoptions, hnote⟩ := CartSelection.eq_of_unpriced hs
  obtain ⟨catalog, validated, hcatalog, -, hvalid, rfl⟩ := validateLine_iff.1 h
  obtain ⟨catalog', validated', hcatalog', -, hvalid', rfl⟩ := validateLine_iff.1 h'
  rw [← hcombo, ← hid, hcatalog] at hcatalog'
  cases hcatalog'
  have hline (hsame : validated = validated') :
      newLine selection catalog validated = newLine selection' catalog validated' := by
    rw [newLine, newLine, hsame, hid, hquantity, hnote]
  cases hitem : catalog.itemType with
  | weighted =>
    obtain ⟨-, subtotal, hsubtotal, -, hone, -, rfl⟩ := (revalidate_weighted_iff hitem).1 hvalid
    obtain ⟨-, subtotal', hsubtotal', -, hone', -, rfl⟩ := (revalidate_weighted_iff hitem).1 hvalid'
    have htotal : (newLine selection catalog ⟨.weighted, [], subtotal⟩).lineTotal =
        (newLine selection' catalog ⟨.weighted, [], subtotal'⟩).lineTotal ↔ subtotal = subtotal' := by
      show subtotal * selection.quantity = subtotal' * selection'.quantity ↔ _
      rw [hone, hone', Nat.mul_one, Nat.mul_one]
    constructor
    · rw [htotal, hsubtotal, hsubtotal', Option.some_inj]
      constructor
      · intro h _; exact h
      · intro h; exact h ⟨catalog, hcatalog, hitem⟩
    · intro h
      exact hline (by rw [htotal.1 h])
  | unit =>
    obtain ⟨-, rfl⟩ := (revalidate_unit_iff hitem).1 hvalid
    obtain ⟨-, rfl⟩ := (revalidate_unit_iff hitem).1 hvalid'
    have heq := hline (congrArg catalog.priced hoptions)
    constructor
    · refine iff_of_true (congrArg NewCartLine.lineTotal heq) ?_
      rintro ⟨_, hcatalog', hweighted⟩
      cases hcatalog.symm.trans hcatalog'
      rw [hitem] at hweighted
      cases hweighted
    · intro _; exact heq

end Lines

/-! ## The whole cart -/

section Carts
variable {tenant : PublicTenant} {request request' : CreateCartRequest} {now : Instant} {v s s' r r' : Db}
  {cart cart' : Cart}

/-- A new cart has the validated lines of its request, and an id of its own. -/
theorem Creates.lines (h : Creates tenant request now v s cart s') : ∃ lines,
    List.Forall₂ (fun selection line => CartService.validateLine tenant.currency v selection = .ok line) request.lines
      lines ∧ cart = (newCart tenant request.discountCode now v lines).row cart.id ∧
      ∀ x ∈ s.carts, x.id ≠ cart.id := by
  obtain ⟨key, recordId, h, hadded⟩ := h
  simp only [CartService.create, commits_look_bind, commits_throwIf_bind] at h
  obtain ⟨claim, s₁, hclaim, h⟩ := commits_bind.1 h.2
  have hcarts : s₁.carts = s.carts := congrArg Core.carts (keeps_claim _ _ _ _ _ _ _ _ _ _ hclaim)
  cases claim with
  | replay status body =>
    simp only [commits_look_bind, commits_orThrow] at h
    rw [← h.2, hcarts] at hadded
    exact absurd hadded (by simp)
  | claimed claimId hash =>
    simp only [commits_look_bind, commits_fromExcept_bind] at h
    obtain ⟨lines, hlines, h⟩ := h
    obtain ⟨created, s₂, hcreate, h⟩ := commits_bind.1 h
    obtain ⟨u, s₃, -, h⟩ := commits_bind.1 h
    obtain ⟨rfl, -⟩ := commits_pure.1 h
    obtain ⟨hrow, hid, -⟩ := create_core hcreate
    exact ⟨lines, mapM_ok_iff.1 hlines, hrow, hcarts ▸ hid⟩

/-- The lines of two requests for the same. -/
theorem validated_lines_same {ss ts : List CartSelection} {ls ms : List NewCartLine} {currency : String}
    (hs : ss.map CartSelection.unpriced = ts.map CartSelection.unpriced)
    (hl : List.Forall₂ (fun selection line => CartService.validateLine currency v selection = .ok line) ss ls)
    (hm : List.Forall₂ (fun selection line => CartService.validateLine currency v selection = .ok line) ts ms) :
    (ls.map (·.lineTotal) = ms.map (·.lineTotal) ↔ List.Forall₂
        (fun a b : CartSelection => a.Weighed v → a.calculatedSubtotal = b.calculatedSubtotal) ss ts) ∧
      (ls.map (·.lineTotal) = ms.map (·.lineTotal) → ls = ms) := by
  induction hl generalizing ts ms with
  | nil =>
    have hts : ts = [] := List.map_eq_nil_iff.1 hs.symm
    subst hts
    cases hm
    exact ⟨iff_of_true rfl .nil, fun _ => rfl⟩
  | @cons a l ss ls ha hl ih =>
    cases hm with
    | nil => cases hs
    | @cons b m ts ms hb hm =>
      simp only [List.map_cons, List.cons.injEq] at hs
      obtain ⟨hiff, heq⟩ := validateLine_same hs.1 ha hb
      obtain ⟨hiffs, heqs⟩ := ih hs.2 hm
      simp only [List.map_cons, List.cons.injEq, List.forall₂_cons]
      exact ⟨and_congr hiff hiffs, fun h => ⟨heq h.1, heqs h.2⟩⟩

/-- Two carts that are created for the same purchase, whatever prices are sent along, cost the same exactly when
the same subtotals are sent for what is sold by weight. -/
theorem new_carts_cost_the_same_iff (h : Creates tenant request now v s cart s')
    (h' : Creates tenant request' now v r cart' r') (hsame : request.unpriced = request'.unpriced) :
    cart.SamePrice cart' ↔ SameWeights v request request' := by
  simp only [CreateCartRequest.unpriced, CreateCartRequest.mk.injEq] at hsame
  obtain ⟨hselections, hcode⟩ := hsame
  obtain ⟨lines, hlines, hcart, -⟩ := h.lines
  obtain ⟨lines', hlines', hcart', -⟩ := h'.lines
  obtain ⟨hiff, heq⟩ := validated_lines_same hselections hlines hlines'
  have htotals : cart.lines.map (·.lineTotal) = lines.map (·.lineTotal) := by
    rw [hcart]
    simp [CartRepository.CreateInput.row, newCart, Function.comp_def, NewCartLine.row]
  have htotals' : cart'.lines.map (·.lineTotal) = lines'.map (·.lineTotal) := by
    rw [hcart']
    simp [CartRepository.CreateInput.row, newCart, Function.comp_def, NewCartLine.row]
  rw [SameWeights, ← hiff]
  constructor
  · intro hprice
    exact htotals.symm.trans (hprice.lineTotals.trans htotals')
  · intro hsame
    -- the lines are the same, and the price is computed from them
    have hprice := heq hsame
    subst hprice
    rw [hcart, hcart', hcode]
    exact ⟨rfl, rfl, rfl, rfl⟩

end Carts

namespace Demo

def cheese : CatalogItem := { burger with id := "cheese", name := "Cheese", itemType := .weighted }

/-- A store that also sells by weight. -/
def deli : Db := { Db.fresh "tenant" settings with accounts := [account], items := [burger, cheese] }

def buyCheese (subtotal : Cents) : CreateCartRequest where
  lines := [{ isCombo := false, resourceId := "cheese", quantity := 1, calculatedSubtotal := some subtotal }]

def buyBurger (confirmed : Option String) : CreateCartRequest where
  lines := [{ isCombo := false, resourceId := "burger", quantity := 2, confirmedUnitPrice := confirmed }]

/-- What `create` answers a request with, evaluated. -/
theorem creates_of (request : CreateCartRequest) (p : Cart → Db → Bool)
    (h : (CartService.create tenant request "key" "record" "cart" 1 deli deli).toOption.any (fun x =>
      x.1.id = "cart" && x.2.carts = [x.1] && p x.1 x.2) = true) :
    ∃ cart s', Creates tenant request 1 deli deli cart s' ∧ p cart s' = true := by
  obtain ⟨⟨cart, s'⟩, hx, h⟩ := (Option.any_eq_true _ _).1 h
  simp only [Bool.and_eq_true, decide_eq_true_eq] at h
  have hcommits : Commits (CartService.create tenant request "key" "record" cart.id 1) deli deli cart s' := by
    rw [h.1.1]
    unfold Commits
    cases hr : CartService.create tenant request "key" "record" "cart" 1 deli deli with
    | error e => rw [hr] at hx; cases hx
    | ok r => rw [hr] at hx; cases hx; rfl
  exact ⟨cart, s', ⟨"key", "record", hcommits, h.1.2⟩, h.2⟩

end Demo

open Demo

/-- The price of a burger may be sent along or left out. -/
theorem new_carts_cost_the_same_burger : ∃ cart cart' s' r', Creates tenant (buyBurger none) 1 deli deli cart s' ∧
    Creates tenant (buyBurger (some "10.00")) 1 deli deli cart' r' ∧
    (cart.SamePrice cart' ↔ SameWeights deli (buyBurger none) (buyBurger (some "10.00"))) := by
  obtain ⟨cart, s', h, -⟩ := creates_of (buyBurger none) (fun _ _ => true) (by decide +kernel)
  obtain ⟨cart', r', h', -⟩ := creates_of (buyBurger (some "10.00")) (fun _ _ => true) (by decide +kernel)
  exact ⟨cart, cart', s', r', h, h', new_carts_cost_the_same_iff h h' rfl⟩

/-- The same cheese is sold at 1.00 and at 2.50, as the customer says. -/
theorem customer_prices_weighed_item : ¬ ∀ (tenant : PublicTenant) (request request' : CreateCartRequest)
    (now : Instant) (v s s' r r' : Db) (cart cart' : Cart), Creates tenant request now v s cart s' →
    Creates tenant request' now v r cart' r' → request.unpriced = request'.unpriced → cart.SamePrice cart' := by
  intro hall
  obtain ⟨cart, s', h, htotal⟩ := creates_of (buyCheese 100) (fun c _ => c.total = 100) (by decide +kernel)
  obtain ⟨cart', r', h', htotal'⟩ := creates_of (buyCheese 250) (fun c _ => c.total = 250) (by decide +kernel)
  have hsame := (hall _ _ _ _ _ _ _ _ _ _ _ h h' rfl).total
  rw [of_decide_eq_true htotal, of_decide_eq_true htotal'] at hsame
  cases hsame

end Komanda
