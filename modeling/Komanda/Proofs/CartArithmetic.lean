import Komanda.Proofs.PayableCarts

/-!
# Every cart adds up

A cart is created from its lines and never gets others; its price is one of its subtotal. A request that prices a cart
has read it in its view, which may be old: there the cart has the same lines and the same subtotal.
-/

namespace Komanda
open Transaction Komanda.Core Table Runs ReadCommitted

/-- The carts have different ids, and each of them adds up. -/
structure CartsAddUp (db : Db) : Prop where
  unique : UniqueOn Cart.id db.carts
  adds : ∀ x ∈ db.carts, x.AddsUp

/-- The carts of the view are still there, with their lines. -/
def SeesContents (v db : Db) : Prop := ∀ x ∈ v.carts, ∃ y ∈ db.carts, y.content = x.content

section Invariant
variable {q : Request} {v db db' : Db} {c : Core} {x y : Cart}

theorem Cart.content_id (h : y.content = x.content) : y.id = x.id := congrArg (·.1) h

theorem Cart.content_lines (h : y.content = x.content) : y.lines = x.lines := congrArg (·.2.1) h

theorem Cart.content_subtotal (h : y.content = x.content) : y.subtotal = x.subtotal := congrArg (·.2.2) h

/-- A cart's id stays its own. -/
theorem Effect.carts_unique (h : Effect q v db c) (hu : UniqueOn Cart.id db.carts) : UniqueOn Cart.id c.carts := by
  cases h with
  | editCarts _ h =>
    cases h with
    | same => exact hu
    | add _ hid => exact hu.append hid
    | reprice => exact hu.updateWhere fun _ _ => rfl
  | kiosk _ _ _ _ _ _ _ _ _ _ _ _ _ hid => exact hu.append hid
  | sold _ _ _ _ cart _ _ _ _ _ _ _ hcart =>
    rw [book_carts, sell_carts]
    refine UniqueOn.updateWhere ?_ fun _ _ => rfl
    cases cart with
    | none => rw [Option.toList_none, List.append_nil]; exact hu
    | some new => exact hu.append (hcart new rfl)
  | revised =>
    rw [release_carts, book_carts, revise_carts]
    exact hu
  | _ => exact hu

theorem Effect.carts_add_up (h : Effect q v db db'.core) (hv : SeesContents v db) (hi : CartsAddUp db) :
    CartsAddUp db' := by
  refine ⟨h.carts_unique hi.unique, fun x hx => ?_⟩
  rcases h.cart_cases hx with ⟨y, hy, status, rfl⟩ | ⟨y, hy, r, hr, rfl⟩ | ⟨-, hadds⟩
  · have hadds := hi.adds y hy
    exact ⟨hadds.lines, hadds.subtotal, hadds.total⟩
  · have hadds := hi.adds y hy
    obtain ⟨found, hfound, hamounts⟩ := repricing_amounts hr
    -- the cart that was priced is the one that gets the price
    obtain ⟨z, hz, hcontent⟩ := hv found (lookup_mem hfound)
    have hzy : z = y := hi.unique.eq hz hy ((Cart.content_id hcontent).trans (lookup_key hfound))
    rw [hzy] at hcontent
    rw [← Cart.content_lines hcontent, ← Cart.content_subtotal hcontent] at hamounts
    exact ⟨hadds.lines, hadds.subtotal, hamounts hadds.subtotal⟩
  · exact hadds

theorem carts_rely : Rely Komanda.exec Komanda.reread CartsAddUp SeesContents fun _ _ _ => True where
  refl _ _ x hx := ⟨x, hx, rfl⟩
  reread part v db _ h := by
    cases part with
    | carts => exact fun x hx => ⟨x, hx, rfl⟩
    | _ => exact h
  inv _ _ _ _ _ hi hv _ hx := (exec_effect hx).carts_add_up hv hi
  stable _ _ _ _ _ _ _ _ hx w hw x hx' := by
    obtain ⟨y, hy, hcontent⟩ := hw x hx'
    obtain ⟨z, hz, hcontent'⟩ := (exec_effect hx).cartContents.exists_mem hy
    exact ⟨z, hz, hcontent'.trans hcontent⟩

theorem CartsAddUp.reached_inv {tenantId : Id} {settings : Settings} {es : List RcEvent} {s : RcState}
    (hr : Runs.exec rcStep (RcState.fresh tenantId settings) es = some s) : Inv CartsAddUp SeesContents s := by
  have hfresh : Inv CartsAddUp SeesContents (RcState.fresh tenantId settings) :=
    ⟨⟨.nil, fun x hx => (List.not_mem_nil hx).elim⟩, fun o ho => (List.not_mem_nil ho).elim⟩
  exact carts_rely.run_inv hfresh hr

theorem CartsAddUp.reached {tenantId : Id} {settings : Settings} {es : List RcEvent} {s : RcState}
    (hr : Runs.exec rcStep (RcState.fresh tenantId settings) es = some s) : CartsAddUp s.db :=
  (CartsAddUp.reached_inv hr).db

end Invariant

/-! ## Selections of units -/

/-- The options that are chosen, in the order of the catalog. -/
def CartSelectionCatalog.chosen (catalog : CartSelectionCatalog) (optionIds : List Id) : List AddonOption :=
  (catalog.addonGroups.flatMap (·.options)).filter (·.id ∈ optionIds)

/-- What the validation of a unit or a combo has to do. -/
structure RevalidatesUnits (revalidate : CartSelection → CartSelectionCatalog → Except String ValidatedSelection) :
    Prop where
  accepts : ∀ selection catalog, catalog.itemType = .unit → selection.calculatedSubtotal = none →
    ((∃ validated, revalidate selection catalog = .ok validated) ↔
      catalog.status = .active ∧ (∀ price ∈ selection.confirmedUnitPrice, price = centsToMoney catalog.price) ∧
        (∀ id ∈ selection.optionIds, ∃ group ∈ catalog.addonGroups, ∃ option ∈ group.options, option.id = id) ∧
        ∀ group ∈ catalog.addonGroups, group.minSelected ≤ group.options.countP (·.id ∈ selection.optionIds) ∧
          group.options.countP (·.id ∈ selection.optionIds) ≤ group.maxSelected)
  choice : ∀ selection optionIds catalog, (∀ id, id ∈ optionIds ↔ id ∈ selection.optionIds) →
    revalidate { selection with optionIds } catalog = revalidate selection catalog

section Selections
variable {selection : CartSelection} {catalog : CartSelectionCatalog} {group : AddonGroup}
  {optionIds optionIds' : List Id}

theorem mem_knownOptions {groups : List AddonGroup} {id : Id} :
    id ∈ knownOptions groups ↔ ∃ group ∈ groups, ∃ option ∈ group.options, option.id = id := by
  rw [knownOptions, List.mem_flatMap]
  simp only [List.mem_map]

theorem withinBounds_iff : group.withinBounds optionIds = true ↔
    group.minSelected ≤ group.options.countP (·.id ∈ optionIds) ∧
      group.options.countP (·.id ∈ optionIds) ≤ group.maxSelected := by
  have hcount : (group.selected optionIds).length = group.options.countP (·.id ∈ optionIds) := by
    rw [AddonGroup.selected, List.countP_eq_length_filter]
    simp only [List.contains_eq_mem]
  rw [AddonGroup.withinBounds, Bool.and_eq_true, decide_eq_true_eq, decide_eq_true_eq, hcount]

theorem accepts_unit_iff (hu : catalog.itemType = .unit) (hs : selection.calculatedSubtotal = none) :
    (∃ validated, revalidateCartSelection selection catalog = .ok validated) ↔
      catalog.status = .active ∧ (∀ price ∈ selection.confirmedUnitPrice, price = centsToMoney catalog.price) ∧
        (∀ id ∈ selection.optionIds, ∃ group ∈ catalog.addonGroups, ∃ option ∈ group.options, option.id = id) ∧
        ∀ group ∈ catalog.addonGroups, group.minSelected ≤ group.options.countP (·.id ∈ selection.optionIds) ∧
          group.options.countP (·.id ∈ selection.optionIds) ≤ group.maxSelected := by
  constructor
  · rintro ⟨validated, h⟩
    have haccepted := ((revalidate_unit_iff hu).1 h).1
    exact ⟨haccepted.active, haccepted.confirmed, fun id hid => mem_knownOptions.1 (haccepted.known id hid),
      fun group hg => withinBounds_iff.1 (haccepted.bounded group hg)⟩
  · rintro ⟨hactive, hconfirmed, hknown, hbounded⟩
    exact ⟨_, (revalidate_unit_iff hu).2 ⟨⟨hactive, hs, hconfirmed, fun id hid => mem_knownOptions.2 (hknown id hid),
      fun group hg => withinBounds_iff.2 (hbounded group hg)⟩, rfl⟩⟩

/-- The chosen options count as a set. -/
theorem selected_congr (h : ∀ id, id ∈ optionIds ↔ id ∈ optionIds') (group : AddonGroup) :
    group.selected optionIds = group.selected optionIds' := by
  unfold AddonGroup.selected
  refine List.filter_congr fun option _ => ?_
  rw [List.contains_eq_mem, List.contains_eq_mem, decide_eq_decide]
  exact h option.id

theorem any_congr {p : Id → Bool} (h : ∀ id, id ∈ optionIds ↔ id ∈ optionIds') : optionIds.any p = optionIds'.any p := by
  rw [Bool.eq_iff_iff, List.any_eq_true, List.any_eq_true]
  simp only [h]

theorem nil_congr (h : ∀ id, id ∈ optionIds ↔ id ∈ optionIds') : optionIds = [] ↔ optionIds' = [] := by
  rw [List.eq_nil_iff_forall_not_mem, List.eq_nil_iff_forall_not_mem]
  simp only [h]

theorem revalidate_choice (h : ∀ id, id ∈ optionIds ↔ id ∈ selection.optionIds) :
    revalidateCartSelection { selection with optionIds } catalog = revalidateCartSelection selection catalog := by
  have hbounds : catalog.addonGroups.any (!·.withinBounds optionIds) =
      catalog.addonGroups.any (!·.withinBounds selection.optionIds) := by
    refine congrArg catalog.addonGroups.any (funext fun group => ?_)
    rw [AddonGroup.withinBounds, AddonGroup.withinBounds, selected_congr h]
  have hoptions : selectedOptions optionIds catalog.addonGroups =
      selectedOptions selection.optionIds catalog.addonGroups := selectedOptions_congr fun group _ => selected_congr h group
  unfold revalidateCartSelection
  simp only [any_congr h, nil_congr h, ne_eq, hbounds, hoptions]

end Selections

/-! ## A cart from its creation on -/

/-- The line is one of the selection: it has the chosen options, and costs its quantity at the price with them. -/
structure CartLine.Costs (line : CartLine) (selection : CartSelection) (catalog : CartSelectionCatalog) : Prop where
  quantity : line.quantity = selection.quantity
  options : line.options.map (fun o => (o.addonOptionId, o.priceDeltaSnapshot)) =
    (catalog.chosen selection.optionIds).map fun o => (o.id, o.priceDelta)
  lineTotal : line.lineTotal =
    selection.quantity * (catalog.price + ((catalog.chosen selection.optionIds).map (·.priceDelta)).sum)

/-- The cart costs what was chosen from the catalog of `v`, less a discount that it can afford. -/
structure Cart.Arithmetic (cart : Cart) (selections : List CartSelection) (v : Db) : Prop where
  lines : List.Forall₂ (fun (selection : CartSelection) (line : CartLine) => selection.calculatedSubtotal = none →
    ∃ catalog, CartRepository.loadSelection selection.isCombo selection.resourceId v = some catalog ∧
      line.Costs selection catalog) selections cart.lines
  subtotal : cart.subtotal = (cart.lines.map (·.lineTotal)).sum
  total : cart.total = cart.subtotal - cart.discountTotal
  discount : cart.discountTotal ≤ cart.subtotal

section Created
variable {tenant : PublicTenant} {request : CreateCartRequest} {key : String} {recordId cartId : Id} {now : Instant}
  {v s s' : Db} {cart x : Cart} {currency : String} {selection : CartSelection} {line : NewCartLine}
  {catalog : CartSelectionCatalog} {optionIds : List Id}

/-- Group by group, the same options are chosen. -/
theorem selectedOptions_chosen : (selectedOptions optionIds catalog.addonGroups).map
    (fun o => (o.optionId, o.priceDelta)) =
    (catalog.chosen optionIds).map fun o => (o.id, o.priceDelta) := by
  rw [selectedOptions, CartSelectionCatalog.chosen, List.filter_flatMap, List.map_flatMap, List.map_flatMap]
  refine List.flatMap_congr fun group _ => ?_
  rw [List.map_map, AddonGroup.selected]
  simp only [List.contains_eq_mem]
  rfl

theorem selectedDeltas_chosen : ((selectedOptions optionIds catalog.addonGroups).map (·.priceDelta)).sum =
    ((catalog.chosen optionIds).map (·.priceDelta)).sum := by
  have h := congrArg (fun l => (l.map Prod.snd).sum) (@selectedOptions_chosen catalog optionIds)
  rw [List.map_map, List.map_map] at h
  exact h

/-- A line that comes without a subtotal of its own is one of a unit. -/
theorem validated_costs (h : CartService.validateLine currency v selection = .ok line)
    (hs : selection.calculatedSubtotal = none) : ∃ catalog,
      CartRepository.loadSelection selection.isCombo selection.resourceId v = some catalog ∧
        line.row.Costs selection catalog := by
  obtain ⟨catalog, validated, hfound, -, hvalid, rfl⟩ := validateLine_iff.1 h
  refine ⟨catalog, hfound, ?_⟩
  cases hitem : catalog.itemType with
  | weighted =>
    obtain ⟨-, subtotal, hsubtotal, -⟩ := (revalidate_weighted_iff hitem).1 hvalid
    rw [hs] at hsubtotal
    cases hsubtotal
  | unit =>
    obtain ⟨-, rfl⟩ := (revalidate_unit_iff hitem).1 hvalid
    refine ⟨rfl, ?_, ?_⟩
    · show ((selectedOptions _ _).map _).map _ = _
      rw [List.map_map, ← selectedOptions_chosen]
      rfl
    · show (catalog.price + ((selectedOptions _ _).map _).sum) * selection.quantity = _
      rw [selectedDeltas_chosen, Nat.mul_comm]

/-- A creation adds its cart, or is answered from an earlier one. -/
theorem create_carts (h : Commits (CartService.create tenant request key recordId cartId now) v s cart s') :
    s'.carts = s.carts ∨ cart.id = cartId ∧ s'.carts = s.carts ++ [cart] := by
  simp only [CartService.create, commits_look_bind, commits_throwIf_bind] at h
  obtain ⟨claim, s₁, hclaim, h⟩ := commits_bind.1 h.2
  have hcarts : s₁.carts = s.carts := congrArg Core.carts (keeps_claim _ _ _ _ _ _ _ _ _ _ hclaim)
  cases claim with
  | replay status body =>
    simp only [commits_look_bind, commits_orThrow] at h
    rw [← h.2]
    exact .inl hcarts
  | claimed claimId hash =>
    simp only [commits_look_bind, commits_fromExcept_bind] at h
    obtain ⟨lines, -, h⟩ := h
    obtain ⟨created, s₂, hcreate, h⟩ := commits_bind.1 h
    obtain ⟨u, s₃, hcomplete, h⟩ := commits_bind.1 h
    obtain ⟨rfl, rfl⟩ := commits_pure.1 h
    obtain ⟨hrow, -, hadded⟩ := create_core hcreate
    have hkept := keeps_onIdempotency _ _ _ _ _ hcomplete
    refine .inr ⟨congrArg Cart.id hrow, ?_⟩
    rw [← hcarts]
    exact congrArg Core.carts (hkept.trans hadded)

/-- A cart that a commit adds is the one that its request creates. -/
theorem created_of_new (h : Commits (CartService.create tenant request key recordId cartId now) v s cart s')
    (hx : x ∈ s'.carts) (hnew : x ∉ s.carts) : Creates tenant request now v s x s' := by
  rcases create_carts h with hsame | ⟨hid, hadded⟩
  · rw [hsame] at hx
    exact absurd hx hnew
  · rw [hadded] at hx
    have hxc : x = cart := List.mem_singleton.1 ((List.mem_append.1 hx).resolve_left hnew)
    rw [hxc]
    exact ⟨key, recordId, hid ▸ h, hadded⟩

theorem Creates.costs (h : Creates tenant request now v s cart s') :
    List.Forall₂ (fun (selection : CartSelection) (line : CartLine) => selection.calculatedSubtotal = none →
      ∃ catalog, CartRepository.loadSelection selection.isCombo selection.resourceId v = some catalog ∧
        line.Costs selection catalog) request.lines cart.lines := by
  obtain ⟨lines, hlines, hrow, -⟩ := h.lines
  have hrows : cart.lines = lines.map NewCartLine.row := by rw [hrow]; rfl
  rw [hrows, List.forall₂_map_right_iff]
  exact hlines.imp fun _ _ hvalid hs => validated_costs hvalid hs

/-- A cart keeps its lines in every later state. -/
theorem content_kept {session session' : RcState} {es : List RcEvent}
    (hi : Inv (α := Request) CartsAddUp SeesContents session) (hx : x ∈ session.db.carts)
    (hr : Runs.exec rcStep session es = some session') : ∃ y ∈ session'.db.carts, y.content = x.content := by
  have hrely := carts_rely.and (Q := fun db => ∃ y ∈ db.carts, y.content = x.content)
    fun _ _ _ _ _ _ _ _ hexec hq => by
      obtain ⟨y, hy, hcontent⟩ := hq
      obtain ⟨z, hz, hcontent'⟩ := (exec_effect hexec).cartContents.exists_mem hy
      exact ⟨z, hz, hcontent'.trans hcontent⟩
  have hstart : Inv (fun db => CartsAddUp db ∧ ∃ y ∈ db.carts, y.content = x.content) SeesContents session :=
    ⟨⟨hi.db, x, hx, rfl⟩, hi.views⟩
  exact (hrely.run_inv hstart hr).db.2

end Created

/-- Units and combos are validated as they have to be, in whatever order and how often their options are named. A cart
that a request creates in a run of overlapping transactions costs what the request has chosen from the catalog that it
read, then and in every later state. -/
theorem cart_arithmetic {tenantId : Id} {settings : Settings} {es es' : List RcEvent} {s s₁ s' : RcState} {i : Nat}
    {o : ReadCommitted.Open Db Request} {tenant : PublicTenant} {request : CreateCartRequest} {key : String}
    {recordId cartId : Id} {x cart : Cart} (hr : Runs.exec rcStep (RcState.fresh tenantId settings) es = some s)
    (ho : s.opens[i]? = some o) (hq : o.action.action = .createCart tenant request key recordId cartId)
    (hs : rcStep s (.commit i) = some s₁) (hx : x ∈ s₁.db.carts) (hnew : x ∉ s.db.carts)
    (hr' : Runs.exec rcStep s₁ es' = some s') (hc : cart ∈ s'.db.carts) (hid : cart.id = x.id) :
    RevalidatesUnits revalidateCartSelection ∧ cart.Arithmetic request.lines o.view := by
  refine ⟨⟨fun _ _ => accepts_unit_iff, fun _ _ _ => revalidate_choice⟩, ?_⟩
  have hrun : Runs.exec rcStep (RcState.fresh tenantId settings) (es ++ [.commit i]) = some s₁ :=
    exec_append.2 ⟨s, hr, exec_cons.2 ⟨s₁, hs, exec_nil.2 rfl⟩⟩
  have hinv := CartsAddUp.reached_inv hrun
  have hlater := CartsAddUp.reached (exec_append.2 ⟨s₁, hrun, hr'⟩)
  have hcreates : Creates tenant request o.action.draw.now o.view s.db x s₁.db := by
    obtain ⟨o', ho', hcommit⟩ := Option.bind_eq_some_iff.1 hs
    cases ho.symm.trans ho'
    obtain ⟨⟨answer, db⟩, hexec, rfl⟩ := Option.map_eq_some_iff.1 hcommit
    have hcommits := exec_eq.1 hexec
    rw [hq] at hcommits
    obtain ⟨created, hcommits⟩ := commits_effect hcommits
    exact created_of_new hcommits hx hnew
  obtain ⟨y, hy, hcontent⟩ := content_kept hinv hx hr'
  have hyc : y = cart := hlater.unique.eq hy hc ((Cart.content_id hcontent).trans hid.symm)
  rw [hyc] at hcontent
  have hadds := hlater.adds cart hc
  refine ⟨?_, hadds.subtotal.symm, ?_, ?_⟩
  · rw [Cart.content_lines hcontent]
    exact hcreates.costs
  · rw [← hadds.total]
    exact (Nat.add_sub_cancel_left ..).symm
  · rw [← hadds.total]
    exact Nat.le_add_right ..

open Demo

/-- A burger is put into a cart, and a coupon of ten percent is applied later. -/
theorem cart_arithmetic_burger : ∃ (s' : RcState) (v : Db) (cart : Cart), cart ∈ s'.db.carts ∧ cart.total = 900 ∧
    RevalidatesUnits revalidateCartSelection ∧
      cart.Arithmetic [{ isCombo := false, resourceId := "burger", quantity := 1 }] v := by
  have hx : (Runs.exec rcStep (RcState.fresh "tenant" settings) (inTurn [setUp, offer tenPercent])).any (fun s =>
      s.opens.isEmpty && s.db.carts.isEmpty && (exec (fillCart "1" "cart") s.db s.db).any fun r =>
        r.2.carts.any (·.id = "cart") && (Runs.exec rcStep ⟨r.2, []⟩ (inTurn [useCoupon 2 "cart"])).any fun s' =>
          s'.db.carts.any fun cart => cart.id = "cart" && cart.total = 900) = true := by decide +kernel
  obtain ⟨s, hr, h⟩ := (Option.any_eq_true _ _).1 hx
  obtain ⟨hs, h⟩ := Bool.and_eq_true_iff.1 h
  obtain ⟨hopens, hcarts⟩ := Bool.and_eq_true_iff.1 hs
  obtain ⟨⟨answer, db⟩, hexec, h⟩ := (Option.any_eq_true _ _).1 h
  obtain ⟨hadded, h⟩ := Bool.and_eq_true_iff.1 h
  obtain ⟨x, hx, hid⟩ := List.any_eq_true.1 hadded
  obtain ⟨s', hr', h⟩ := (Option.any_eq_true _ _).1 h
  obtain ⟨cart, hc, hcart⟩ := List.any_eq_true.1 h
  obtain ⟨hcid, htotal⟩ := Bool.and_eq_true_iff.1 hcart
  rw [List.isEmpty_iff] at hopens hcarts
  let o : ReadCommitted.Open Db Request := ⟨fillCart "1" "cart", s.db⟩
  have hstart : Runs.exec rcStep (RcState.fresh "tenant" settings)
      (inTurn [setUp, offer tenPercent] ++ [.start (fillCart "1" "cart")]) = some ⟨s.db, [o]⟩ := by
    refine exec_append.2 ⟨s, hr, exec_cons.2 ⟨_, rfl, ?_⟩⟩
    rw [hopens]
    rfl
  have hcommit : rcStep ⟨s.db, [o]⟩ (.commit 0) = some ⟨db, []⟩ := by
    rw [rcStep, ReadCommitted.step]
    exact Option.bind_eq_some_iff.2 ⟨o, rfl, Option.map_eq_some_iff.2 ⟨_, hexec, rfl⟩⟩
  refine ⟨s', s.db, cart, hc, of_decide_eq_true htotal, ?_⟩
  refine cart_arithmetic (x := x) hstart (i := 0) (o := o) rfl rfl hcommit hx ?_ hr' hc ?_
  · show x ∉ s.db.carts
    rw [hcarts]
    exact List.not_mem_nil
  · rw [of_decide_eq_true hcid, of_decide_eq_true hid]

end Komanda
