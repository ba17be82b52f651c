import Komanda.Proofs.CatalogPatches
import Komanda.Proofs.NewCarts
import Mathlib.Data.List.Pairwise

/-!
# Add-on groups that can be satisfied

A group asks for some of its options, between two bounds. The schema of a new group compares the upper bound with the
number of options, the patch of a group compares nothing, and neither asks how many of the options are active. A group
whose active options do not reach its lower bound blocks every unit it is linked to.
-/

namespace Komanda
open Transaction CatalogRepository

/-! ## The law -/

/-- The options of a group in certain states. -/
def optionsIn (p : CatalogStatus → Bool) (groupId : Id) (options : List AddonOptionRow) : List AddonOptionRow :=
  options.filter fun o => o.groupId = groupId && p o.status

/-- Those that have not been replaced. -/
abbrev optionsOf : Id → List AddonOptionRow → List AddonOptionRow := optionsIn (· ≠ .archived)

abbrev activeOptions : Id → List AddonOptionRow → List AddonOptionRow := optionsIn (· = .active)

structure AddonGroupRow.Satisfiable (options : List AddonOptionRow) (group : AddonGroupRow) : Prop where
  ordered : group.minSelected ≤ group.maxSelected
  bounded : group.maxSelected ≤ (optionsOf group.id options).length
  available : group.minSelected ≤ (activeOptions group.id options).length

/-- Active groups can be satisfied, so that every active unit can be selected. -/
structure GroupsSatisfiable (s : Shop) : Prop where
  groups : ∀ group ∈ s.catalog.addonGroups, group.status = .active → group.Satisfiable s.catalog.addonOptions
  selectable : ∀ item ∈ s.catalog.items, item.status = .active → item.itemType = .unit →
    ∃ selection catalog validated, CartRepository.loadItemSelection item.id s.face = some catalog ∧
      (∀ id ∈ selection.optionIds, ∃ option ∈ s.catalog.addonOptions, option.id = id ∧ option.status = .active) ∧
      revalidateCartSelection selection catalog = .ok validated

/-- `addon_options_pkey` and `addon_options_group_fk`. -/
structure CatalogTables.OptionsKeyed (t : CatalogTables) : Prop where
  unique : Table.UniqueOn AddonOptionRow.id t.addonOptions
  owned : ∀ option ∈ t.addonOptions, option.groupId ∈ t.addonGroups.map (·.id)

/-- The options of a request that it makes active. -/
def activeInputs (options : List AddonOptionInput) : Nat := options.countP fun o => o.status.getD .active = .active

/-- The bounds that a patch leaves, against the options that it leaves. -/
def AddonGroupPatch.Fits (value : AddonGroupPatch) (options : List AddonOptionRow) (group : AddonGroupRow) : Prop :=
  value.maxSelected.getD group.maxSelected ≤
      (value.options.map List.length).getD (optionsOf group.id options).length ∧
    value.minSelected.getD group.minSelected ≤
      (value.options.map activeInputs).getD (activeOptions group.id options).length

/-- A group that a call leaves active has bounds that fit its options. -/
def CatalogRequest.FitsOptions (q : CatalogRequest) (t : CatalogTables) : Prop :=
  match q with
  | createAddonGroup value _ _ => value.status = some .active → value.minSelected ≤ activeInputs value.options
  | updateAddonGroup groupId _ value _ =>
    ∀ group ∈ findAddonGroup groupId t, value.status.getD group.status = .active → value.Fits t.addonOptions group
  | _ => True

/-! ## A selection -/

section Selection

/-- Of rows with distinct keys, those whose keys are among the first `n` are the first `n`. -/
theorem filter_mem_take {α κ : Type} [DecidableEq κ] {k : α → κ} {rows : List α} (h : Table.UniqueOn k rows) (n : Nat) :
    rows.filter (fun r => k r ∈ (rows.take n).map k) = rows.take n := by
  have hsplit := List.take_append_drop n rows
  have htake : ((rows.take n).filter fun r => k r ∈ (rows.take n).map k) = rows.take n :=
    List.filter_eq_self.2 fun r hr => decide_eq_true (List.mem_map_of_mem hr)
  have hdrop : ((rows.drop n).filter fun r => k r ∈ (rows.take n).map k) = [] := by
    refine List.filter_eq_nil_iff.2 fun r hr hmem => ?_
    obtain ⟨q, hq, hk⟩ := List.mem_map.1 (of_decide_eq_true hmem)
    have hdisjoint : ((rows.take n).map k ++ (rows.drop n).map k).Nodup := by
      rw [← List.map_append, hsplit]
      exact h
    exact (List.nodup_append.1 hdisjoint).2.2 (k q) (List.mem_map_of_mem hq) (k r) (List.mem_map_of_mem hr) hk
  calc rows.filter (fun r => k r ∈ (rows.take n).map k)
      = (rows.take n ++ rows.drop n).filter fun r => k r ∈ (rows.take n).map k := by rw [hsplit]
    _ = rows.take n := by rw [List.filter_append, htake, hdrop, List.append_nil]

/-- The first options of each group, as many as it asks for. -/
def firstOptions (groups : List AddonGroup) : List Id :=
  groups.flatMap fun group => (group.options.take group.minSelected).map (·.id)

theorem firstOptions_known {groups : List AddonGroup} : ∀ id ∈ firstOptions groups, id ∈ knownOptions groups := by
  intro id hid
  obtain ⟨group, hgroup, hid⟩ := List.mem_flatMap.1 hid
  obtain ⟨option, hoption, rfl⟩ := List.mem_map.1 hid
  exact List.mem_flatMap.2 ⟨group, hgroup, List.mem_map_of_mem (List.mem_of_mem_take hoption)⟩

theorem firstOptions_within {groups : List AddonGroup} (hids : (knownOptions groups).Nodup) {group : AddonGroup}
    (hgroup : group ∈ groups) (hmax : group.minSelected ≤ group.maxSelected)
    (hoptions : group.minSelected ≤ group.options.length) : group.withinBounds (firstOptions groups) = true := by
  obtain ⟨hown, hothers⟩ := List.nodup_flatMap.1 hids
  have hselected : group.selected (firstOptions groups) = group.options.take group.minSelected := by
    rw [← filter_mem_take (hown group hgroup) group.minSelected]
    refine List.filter_congr fun option hoption => ?_
    rw [List.contains_eq_mem, decide_eq_decide]
    constructor
    · intro hid
      obtain ⟨other, hother, hid⟩ := List.mem_flatMap.1 hid
      by_cases heq : group = other
      · rw [heq]
        exact hid
      · -- an option of two groups would be known twice
        have : Std.Symm (Function.onFun List.Disjoint fun g : AddonGroup => g.options.map (·.id)) :=
          ⟨fun _ _ h _ ha hb => h hb ha⟩
        have hdisjoint := hothers.forall hgroup hother heq
        obtain ⟨option', hoption', hid'⟩ := List.mem_map.1 hid
        exact absurd (List.mem_map.2 ⟨option', List.mem_of_mem_take hoption', hid'⟩)
          (hdisjoint (List.mem_map_of_mem hoption))
    · exact fun hid => List.mem_flatMap.2 ⟨group, hgroup, hid⟩
  have hlength : (group.options.take group.minSelected).length = group.minSelected := by
    rw [List.length_take]
    omega
  simp [AddonGroup.withinBounds, hselected, hlength, hmax]

end Selection

/-! ## Options -/

section Options
variable {p : CatalogStatus → Bool} {options options' : List AddonOptionRow}

theorem mem_optionsIn {groupId : Id} {option : AddonOptionRow} :
    option ∈ optionsIn p groupId options ↔ option ∈ options ∧ option.groupId = groupId ∧ p option.status = true := by
  simp [optionsIn]

theorem optionsIn_append (groupId : Id) :
    optionsIn p groupId (options ++ options') = optionsIn p groupId options ++ optionsIn p groupId options' :=
  List.filter_append _ _

theorem optionsIn_eq_nil {groupId : Id} (h : ∀ option ∈ options, option.groupId ≠ groupId) :
    optionsIn p groupId options = [] :=
  List.filter_eq_nil_iff.2 fun option hoption => by simp [h option hoption]

/-- The options of one group are archived. -/
theorem optionsIn_archived (hp : p .archived = false) (id groupId : Id) :
    optionsIn p id (Table.updateWhere (·.groupId = groupId) (fun r => { r with status := .archived }) options) =
      if id = groupId then [] else optionsIn p id options := by
  unfold optionsIn Table.updateWhere
  rw [List.filter_map]
  split
  · next heq =>
    subst heq
    refine List.map_eq_nil_iff.2 (List.filter_eq_nil_iff.2 fun option _ => ?_)
    by_cases hgroup : option.groupId = id
    · simp [hgroup, hp]
    · simp [hgroup]
  · next hne =>
    have hothers : ∀ option ∈ options.filter fun o => o.groupId = id && p o.status,
        (if decide (option.groupId = groupId) = true then { option with status := .archived } else option) =
          option := by
      intro option hoption
      have hgroup := (mem_optionsIn.1 hoption).2.1
      simp [hgroup, hne]
    have hfilter : (options.filter ((fun o => decide (o.groupId = id) && p o.status) ∘ fun r =>
        if decide (r.groupId = groupId) = true then { r with status := .archived } else r)) =
        options.filter fun o => o.groupId = id && p o.status := by
      refine List.filter_congr fun option _ => ?_
      by_cases hgroup : option.groupId = groupId
      · simp [hgroup, Ne.symm hne]
      · simp [hgroup]
    rw [hfilter, List.map_congr_left hothers, List.map_id']

theorem addonOptionRows_groupId {groupId : Id} {inputs : List AddonOptionInput} {ids : List Id} :
    ∀ option ∈ addonOptionRows groupId inputs ids, option.groupId = groupId := by
  intro option hoption
  obtain ⟨i, hi, rfl⟩ := List.mem_mapIdx.1 hoption
  rfl

theorem addonOptionRows_statuses (groupId : Id) (inputs : List AddonOptionInput) (ids : List Id) :
    (addonOptionRows groupId (inputs.map addonOptionInputSchema) ids).map (·.status) =
      inputs.map fun o => o.status.getD .active := by
  refine List.ext_getElem (by simp [addonOptionRows]) fun i hi hi' => ?_
  simp [addonOptionRows, addonOptionInputSchema]

/-- The new options of a group, by the statuses that are asked for. -/
theorem length_optionsIn_rows (groupId : Id) (inputs : List AddonOptionInput) (ids : List Id) :
    (optionsIn p groupId (addonOptionRows groupId (inputs.map addonOptionInputSchema) ids)).length =
      inputs.countP fun o => p (o.status.getD .active) := by
  have hall : optionsIn p groupId (addonOptionRows groupId (inputs.map addonOptionInputSchema) ids) =
      (addonOptionRows groupId (inputs.map addonOptionInputSchema) ids).filter (p ·.status) :=
    List.filter_congr fun option hoption => by simp [addonOptionRows_groupId option hoption]
  have hstatuses := congrArg (List.countP p) (addonOptionRows_statuses groupId inputs ids)
  rw [List.countP_map, List.countP_map] at hstatuses
  rw [hall, ← List.countP_eq_length_filter]
  exact hstatuses

/-- No option is accepted archived. -/
theorem countP_unarchived {inputs : List AddonOptionInput} (h : addonOptionsValid inputs = true) :
    (inputs.countP fun o => (o.status.getD .active : CatalogStatus) ≠ .archived) = inputs.length := by
  rw [List.countP_eq_length]
  intro option hoption
  simp only [addonOptionsValid, Bool.and_eq_true, List.all_eq_true] at h
  have hvalid := h.2 option hoption
  simp only [addonOptionInputValid, Bool.and_eq_true] at hvalid
  cases hstatus : option.status with
  | none => simp
  | some status =>
    have hnamed := hvalid.2
    rw [hstatus] at hnamed
    cases status with
    | archived => exact absurd hnamed (by decide)
    | _ => simp

/-- The options that an update leaves. -/
def updatedOptions (groupId : Id) (value : Option (List AddonOptionInput)) (ids : List Id)
    (options : List AddonOptionRow) :
    List AddonOptionRow :=
  ((value.map (·.map addonOptionInputSchema)).map fun inputs =>
    Table.updateWhere (·.groupId = groupId) (fun r => { r with status := .archived }) options ++
      addonOptionRows groupId inputs ids).getD options

theorem optionsIn_updated_of_ne (hp : p .archived = false) {id groupId : Id} (hne : id ≠ groupId)
    (value : Option (List AddonOptionInput)) (ids : List Id) :
    optionsIn p id (updatedOptions groupId value ids options) = optionsIn p id options := by
  cases value with
  | none => rfl
  | some inputs =>
    have hnew : optionsIn p id (addonOptionRows groupId (inputs.map addonOptionInputSchema) ids) = [] :=
      optionsIn_eq_nil fun option hoption => by
        rw [addonOptionRows_groupId option hoption]
        exact Ne.symm hne
    rw [updatedOptions, Option.map_some, Option.map_some, Option.getD_some, optionsIn_append, optionsIn_archived hp,
      if_neg hne, hnew, List.append_nil]

theorem length_optionsIn_updated (hp : p .archived = false) (groupId : Id) (value : Option (List AddonOptionInput))
    (ids : List Id) : (optionsIn p groupId (updatedOptions groupId value ids options)).length =
      (value.map fun inputs => inputs.countP fun o => p (o.status.getD .active)).getD
        (optionsIn p groupId options).length := by
  cases value with
  | none => rfl
  | some inputs =>
    rw [updatedOptions, Option.map_some, Option.map_some, Option.getD_some, optionsIn_append, optionsIn_archived hp,
      if_pos rfl, List.nil_append, length_optionsIn_rows]
    rfl

end Options

/-! ## Units -/

section Units
variable {s : Shop}

/-- A group as a cart reads it. -/
def AddonGroupRow.offered (t : CatalogTables) (row : AddonGroupRow) : AddonGroup :=
  { row.face t with options := (row.face t).options.filter (·.active) }

/-- The active groups that an item is linked to. -/
def CatalogTables.groupsOf (t : CatalogTables) (itemId : Id) : List AddonGroupRow :=
  t.addonGroups.filter fun row =>
    (((t.itemAddonGroups.map fun link => (link.itemId, link.addonGroupId)).filter (·.1 = itemId)).map (·.2)).contains row.id
      && row.status = .active

theorem offered_options (t : CatalogTables) (row : AddonGroupRow) :
    (row.offered t).options.map (·.id) = (activeOptions row.id t.addonOptions).map (·.id) := by
  simp [AddonGroupRow.offered, AddonGroupRow.face, optionsIn, List.filter_map, Function.comp_def, Bool.and_comm]

theorem loadItemSelection_eq {item : ItemRow} (hkeys : s.catalog.Keyed) (hitem : item ∈ s.catalog.items) :
    ∃ catalog, CartRepository.loadItemSelection item.id s.face = some catalog ∧ catalog.status = item.status ∧
      catalog.itemType = item.itemType ∧
      catalog.addonGroups = (s.catalog.groupsOf item.id).map (AddonGroupRow.offered s.catalog) ∧
      catalog.price = item.price ∧ catalog.currency = item.currency := by
  have hread : Table.lookup CatalogItem.id item.id (s.catalog.items.map (ItemRow.face s.catalog)) =
      some (item.face s.catalog) := by
    have hid : ∀ r : ItemRow, CatalogItem.id (ItemRow.face s.catalog r) = r.id := fun _ => rfl
    rw [Table.lookup_map hid, hkeys.items.lookup hitem]
    rfl
  unfold CartRepository.loadItemSelection Shop.face
  rw [hread]
  refine ⟨_, rfl, rfl, rfl, ?_, rfl, rfl⟩
  dsimp only
  rw [List.filter_map, List.map_map]
  rfl

theorem knownOptions_nodup {t : CatalogTables} (hkeys : t.Keyed) (hoptions : t.OptionsKeyed) (itemId : Id) :
    (knownOptions ((t.groupsOf itemId).map (AddonGroupRow.offered t))).Nodup := by
  have hids : knownOptions ((t.groupsOf itemId).map (AddonGroupRow.offered t)) =
      (t.groupsOf itemId).flatMap fun row => (activeOptions row.id t.addonOptions).map (·.id) := by
    rw [knownOptions, List.flatMap_map]
    exact congrArg (fun f => List.flatMap f _) (funext fun row => offered_options t row)
  rw [hids, List.nodup_flatMap]
  refine ⟨fun row _ => hoptions.unique.sublist (List.filter_sublist.map _), ?_⟩
  have hgroups : ((t.groupsOf itemId).map (·.id)).Nodup := hkeys.addonGroups.sublist (List.filter_sublist.map _)
  refine (List.pairwise_map.1 hgroups).imp fun {row row'} hne id hid hid' => hne ?_
  obtain ⟨option, hoption, rfl⟩ := List.mem_map.1 hid
  obtain ⟨option', hoption', heq⟩ := List.mem_map.1 hid'
  obtain ⟨hmem, hgroup, -⟩ := mem_optionsIn.1 hoption
  obtain ⟨hmem', hgroup', -⟩ := mem_optionsIn.1 hoption'
  rw [← hgroup, ← hgroup', hoptions.unique.eq hmem' hmem heq]

/-- Groups that can be satisfied each can be satisfied together. -/
theorem GroupsSatisfiable.of_groups (hkeys : s.catalog.Keyed) (hoptions : s.catalog.OptionsKeyed)
    (h : ∀ group ∈ s.catalog.addonGroups, group.status = .active → group.Satisfiable s.catalog.addonOptions) :
    GroupsSatisfiable s := by
  refine ⟨h, fun item hitem hactive hunit => ?_⟩
  obtain ⟨catalog, hload, hstatus, htype, hgroups, -, -⟩ := loadItemSelection_eq hkeys hitem
  have hnodup := knownOptions_nodup hkeys hoptions item.id
  rw [← hgroups] at hnodup
  refine ⟨{ isCombo := false, resourceId := item.id, quantity := 1, optionIds := firstOptions catalog.addonGroups },
    catalog, catalog.priced (firstOptions catalog.addonGroups), hload, fun id hid => ?_, ?_⟩
  · have hknown := firstOptions_known id hid
    rw [hgroups, knownOptions, List.mem_flatMap] at hknown
    obtain ⟨group, hgroup, hid⟩ := hknown
    obtain ⟨row, -, rfl⟩ := List.mem_map.1 hgroup
    rw [offered_options] at hid
    obtain ⟨option, hoption, rfl⟩ := List.mem_map.1 hid
    obtain ⟨hmem, -, hstate⟩ := mem_optionsIn.1 hoption
    exact ⟨option, hmem, rfl, of_decide_eq_true hstate⟩
  · refine (revalidate_unit_iff (htype.trans hunit)).2 ⟨⟨hstatus.trans hactive, rfl, ?_, firstOptions_known, ?_⟩, rfl⟩
    · intro price hprice
      cases hprice
    · intro group hgroup
      have hmem := hgroup
      rw [hgroups] at hmem
      obtain ⟨row, hrow, rfl⟩ := List.mem_map.1 hmem
      obtain ⟨hrow, hlinked⟩ := List.mem_filter.1 hrow
      rw [Bool.and_eq_true, decide_eq_true_eq] at hlinked
      obtain ⟨hordered, -, havailable⟩ := h row hrow hlinked.2
      have hlength := congrArg List.length (offered_options s.catalog row)
      rw [List.length_map, List.length_map] at hlength
      exact firstOptions_within hnodup hgroup hordered (hlength ▸ havailable)

end Units

/-! ## Calls -/

section Calls
variable {locale : Locale} {v s s' : Shop}

theorem addonOptionConstraints_hold {options others : List AddonOptionRow}
    (h : ∀ c ∈ addonOptionConstraints options others, c.2 = true) :
    Table.UniqueOn AddonOptionRow.id (others ++ options) := by
  simp only [addonOptionConstraints, List.forall_mem_cons, decide_eq_true_eq] at h
  exact h.2.1

theorem AddonGroupUpdated.optionsKeyed {groupId : Id} {version : Nat} {value input : AddonGroupPatch}
    {optionIds : List Id}
    {r row : AddonGroupRow} (ho : s.catalog.OptionsKeyed)
    (h : CatalogService.AddonGroupUpdated groupId version value input optionIds s r row s') : s'.catalog.OptionsKeyed := by
  obtain ⟨hmem, rfl, -⟩ := Table.find?_versioned h.current
  have hgroups : (Table.updateWhere (·.id = r.id) (fun _ => row) s.catalog.addonGroups).map (·.id) =
      s.catalog.addonGroups.map (·.id) :=
    Table.map_updateWhere fun x hx => by
      rw [of_decide_eq_true hx, h.written]
      rfl
  have hconstraints := h.optionConstraints
  rw [h.catalog]
  cases hoptions : input.options with
  | none => exact ⟨ho.unique, fun option hoption => hgroups ▸ ho.owned option hoption⟩
  | some inputs =>
    have hids : (Table.updateWhere (·.groupId = r.id) (fun r => { r with status := .archived })
        s.catalog.addonOptions).map AddonOptionRow.id = s.catalog.addonOptions.map (·.id) :=
      Table.map_updateWhere fun _ _ => rfl
    refine ⟨?_, fun option hoption => hgroups ▸ ?_⟩
    · have hunique := addonOptionConstraints_hold (hconstraints inputs hoptions)
      rw [Table.UniqueOn, List.map_append] at hunique
      show ((Table.updateWhere _ _ _ ++ _).map AddonOptionRow.id).Nodup
      rw [List.map_append, hids]
      exact hunique
    · rcases List.mem_append.1 hoption with hoption | hoption
      · rcases Table.mem_updateWhere_cases hoption with ⟨hoption, -⟩ | ⟨option', hoption', -, rfl⟩
        · exact ho.owned option hoption
        · exact ho.owned option' hoption'
      · rw [addonOptionRows_groupId option hoption]
        exact List.mem_map_of_mem hmem

theorem CatalogTables.Written.optionsKeyed {t t' : CatalogTables} {kind : CatalogKind} (h : t.Written kind t')
    (hkind : kind ≠ .addonGroup) (ho : t.OptionsKeyed) : t'.OptionsKeyed := by
  cases h with
  | addonGroups rows options => exact absurd rfl hkind
  | _ => exact ⟨ho.unique, ho.owned⟩

theorem run_optionsKeyed {q : CatalogRequest} {a : CatalogAnswer} (ho : s.catalog.OptionsKeyed)
    (h : Commits (q.run locale) v s a s') : s'.catalog.OptionsKeyed := by
  cases q with
  | createAddonGroup value newId optionIds =>
    obtain ⟨row, h, -⟩ := commits_map.1 h
    obtain ⟨input, -, hrow, -, hconstraints, hcatalog⟩ := CatalogService.createAddonGroup_cases h
    rw [hcatalog]
    refine ⟨addonOptionConstraints_hold hconstraints, fun option hoption => ?_⟩
    show option.groupId ∈ (s.catalog.addonGroups ++ [row]).map _
    rw [List.map_append]
    rcases List.mem_append.1 hoption with hoption | hoption
    · exact List.mem_append_left _ (ho.owned option hoption)
    · rw [addonOptionRows_groupId option hoption, hrow]
      exact List.mem_append_right _ List.mem_cons_self
  | updateAddonGroup groupId version value optionIds =>
    obtain ⟨row, h, -⟩ := commits_map.1 h
    obtain ⟨input, r, hu⟩ := CatalogService.updateAddonGroup_cases h
    exact AddonGroupUpdated.optionsKeyed ho hu
  | archiveAddonGroup groupId version =>
    obtain ⟨row, h, -⟩ := commits_map.1 h
    obtain ⟨input, r, hu⟩ := CatalogService.archiveAddonGroup_cases h
    exact AddonGroupUpdated.optionsKeyed ho hu
  | _ => exact (CatalogRequest.run_written h).optionsKeyed (by simp [CatalogRequest.kind]) ho

/-- Every active group can be satisfied. -/
def CatalogTables.GroupsFit (t : CatalogTables) : Prop :=
  ∀ group ∈ t.addonGroups, group.status = .active → group.Satisfiable t.addonOptions

theorem AddonGroupUpdated.fit_iff {groupId : Id} {version : Nat} {value input : AddonGroupPatch} {optionIds : List Id}
    {r row : AddonGroupRow} (hfit : s.catalog.GroupsFit)
    (h : CatalogService.AddonGroupUpdated groupId version value input optionIds s r row s') :
    s'.catalog.GroupsFit ↔ (value.status.getD r.status = .active → value.Fits s.catalog.addonOptions r) := by
  obtain ⟨hmem, rfl, -⟩ := Table.find?_versioned h.current
  obtain ⟨-, hordered⟩ := addonGroupConstraints_hold h.constraints
  have haccepted := parsed_checks h.accepted ("options", value.options.all addonOptionsValid) (by simp)
  obtain rfl := parsed_ok h.accepted
  have hrow := h.written
  -- what the row needs of the options that are left
  have hsatisfiable : row.Satisfiable (updatedOptions r.id value.options optionIds s.catalog.addonOptions) ↔
      value.Fits s.catalog.addonOptions r := by
    have hof : (optionsOf r.id (updatedOptions r.id value.options optionIds s.catalog.addonOptions)).length =
        (value.options.map List.length).getD (optionsOf r.id s.catalog.addonOptions).length := by
      rw [length_optionsIn_updated (by decide)]
      cases hoptions : value.options with
      | none => rfl
      | some inputs =>
        rw [hoptions] at haccepted
        exact countP_unarchived haccepted
    have hactives : (activeOptions r.id (updatedOptions r.id value.options optionIds s.catalog.addonOptions)).length =
        (value.options.map activeInputs).getD (activeOptions r.id s.catalog.addonOptions).length :=
      length_optionsIn_updated (by decide) _ _ _
    have hid : row.id = r.id := by rw [hrow]; rfl
    have hmin : row.minSelected = value.minSelected.getD r.minSelected := by rw [hrow]; rfl
    have hmax : row.maxSelected = value.maxSelected.getD r.maxSelected := by rw [hrow]; rfl
    constructor
    · rintro ⟨-, hbounded, havailable⟩
      rw [hid, hof, hmax] at hbounded
      rw [hid, hactives, hmin] at havailable
      exact ⟨hbounded, havailable⟩
    · rintro ⟨hbounded, havailable⟩
      refine ⟨hordered, ?_, ?_⟩
      · rw [hid, hof, hmax]
        exact hbounded
      · rw [hid, hactives, hmin]
        exact havailable
  rw [h.catalog]
  constructor
  · intro hfit' hactive
    refine hsatisfiable.1 (hfit' row (Table.mem_updateWhere_of (f := fun _ => row) hmem (by simp)) ?_)
    rw [hrow]
    exact hactive
  · intro hfits group hgroup hactive
    rcases Table.mem_updateWhere_cases hgroup with ⟨hgroup, hne⟩ | ⟨_, -, -, rfl⟩
    · obtain ⟨hmin, hmax, havailable⟩ := hfit group hgroup hactive
      have hne := of_decide_eq_false hne
      have hof : optionsOf group.id (updatedOptions r.id value.options optionIds s.catalog.addonOptions) =
          optionsOf group.id s.catalog.addonOptions := optionsIn_updated_of_ne (by decide) hne _ _
      have hactives : activeOptions group.id (updatedOptions r.id value.options optionIds s.catalog.addonOptions) =
          activeOptions group.id s.catalog.addonOptions := optionsIn_updated_of_ne (by decide) hne _ _
      exact ⟨hmin, hof ▸ hmax, hactives ▸ havailable⟩
    · refine hsatisfiable.2 (hfits ?_)
      rw [hrow] at hactive
      exact hactive

theorem CatalogTables.Written.groupsFit {t t' : CatalogTables} {kind : CatalogKind} (h : t.Written kind t')
    (hkind : kind ≠ .addonGroup) (hfit : t.GroupsFit) : t'.GroupsFit := by
  cases h with
  | addonGroups rows options => exact absurd rfl hkind
  | _ => exact hfit

/-- The groups can all be satisfied after a call exactly when the bounds that it leaves fit the options. -/
theorem run_fit_iff {q : CatalogRequest} {a : CatalogAnswer} (hkeys : s.catalog.Keyed) (ho : s.catalog.OptionsKeyed)
    (hfit : s.catalog.GroupsFit) (h : Commits (q.run locale) v s a s') :
    s'.catalog.GroupsFit ↔ q.FitsOptions s.catalog := by
  cases q with
  | createAddonGroup value newId optionIds =>
    obtain ⟨row, h, -⟩ := commits_map.1 h
    obtain ⟨input, haccepted, hrow, hconstraints, -, hcatalog⟩ := CatalogService.createAddonGroup_cases h
    obtain ⟨rfl, -, hvalid, hordered, hbounded⟩ := addonGroupInputSchema_eq haccepted
    have hfresh := (addonGroupConstraints_hold hconstraints).1
    have hid : row.id = newId := by rw [hrow]; rfl
    have hactive : row.status = .active ↔ value.status = some .active := by
      rw [hrow]
      exact defaulted_eq .draft (by decide)
    -- no option has been left under the id that is drawn
    have hnone {p : CatalogStatus → Bool} : optionsIn p newId s.catalog.addonOptions = [] := by
      refine optionsIn_eq_nil fun option hoption heq => ?_
      obtain ⟨group, hgroup, hgid⟩ := List.mem_map.1 (ho.owned option hoption)
      exact hfresh group hgroup (hgid.trans (heq.trans hid.symm))
    have hlength {p : CatalogStatus → Bool} : (optionsIn p newId (s.catalog.addonOptions ++
        addonOptionRows newId (value.options.map addonOptionInputSchema) optionIds)).length =
        value.options.countP fun o => p (o.status.getD .active) := by
      rw [optionsIn_append, hnone, List.nil_append, length_optionsIn_rows]
    have hothers {p : CatalogStatus → Bool} {id : Id} (hne : id ≠ newId) : optionsIn p id (s.catalog.addonOptions ++
        addonOptionRows newId (value.options.map addonOptionInputSchema) optionIds) =
        optionsIn p id s.catalog.addonOptions := by
      have hnew : optionsIn p id (addonOptionRows newId (value.options.map addonOptionInputSchema) optionIds) = [] :=
        optionsIn_eq_nil fun option hoption => by
          rw [addonOptionRows_groupId option hoption]
          exact Ne.symm hne
      rw [optionsIn_append, hnew, List.append_nil]
    rw [hcatalog]
    constructor
    · intro hfit' hnamed
      have havailable := (hfit' row (by simp) (hactive.2 hnamed)).available
      rw [hid] at havailable
      have hmin : row.minSelected = value.minSelected := by rw [hrow]; rfl
      rw [hmin] at havailable
      exact havailable.trans_eq hlength
    · intro hfits group hgroup hstatus
      rcases List.mem_append.1 hgroup with hgroup | hgroup
      · obtain ⟨hmin, hmax, havailable⟩ := hfit group hgroup hstatus
        have hne : group.id ≠ newId := fun heq => hfresh group hgroup (heq.trans hid.symm)
        exact ⟨hmin, hmax.trans_eq (congrArg List.length (hothers hne).symm),
          havailable.trans_eq (congrArg List.length (hothers hne).symm)⟩
      · obtain rfl := List.mem_singleton.1 hgroup
        have hnamed := hfits (hactive.1 hstatus)
        have hcount := countP_unarchived hvalid
        refine ⟨?_, ?_, ?_⟩
        · rw [hrow]
          exact hordered
        · rw [hid]
          refine le_of_le_of_eq ?_ hlength.symm
          rw [hrow]
          exact hbounded.trans_eq hcount.symm
        · rw [hid]
          refine le_of_le_of_eq ?_ hlength.symm
          rw [hrow]
          exact hnamed
  | updateAddonGroup groupId version value optionIds =>
    obtain ⟨row, h, -⟩ := commits_map.1 h
    obtain ⟨input, r, hu⟩ := CatalogService.updateAddonGroup_cases h
    obtain ⟨hmem, hid, -⟩ := Table.find?_versioned hu.current
    have hread : findAddonGroup groupId s.catalog = some r := hid ▸ hkeys.addonGroups.lookup hmem
    rw [AddonGroupUpdated.fit_iff hfit hu]
    simp [CatalogRequest.FitsOptions, hread]
  | archiveAddonGroup groupId version =>
    obtain ⟨row, h, -⟩ := commits_map.1 h
    obtain ⟨input, r, hu⟩ := CatalogService.archiveAddonGroup_cases h
    rw [AddonGroupUpdated.fit_iff hfit hu]
    simp [CatalogRequest.FitsOptions]
  | _ => exact iff_of_true ((CatalogRequest.run_written h).groupsFit (by simp [CatalogRequest.kind]) hfit) trivial

end Calls

/-! ## Runs -/

/-- Along a run, every group can be satisfied and every unit selected exactly when each call leaves bounds that fit. -/
theorem groups_satisfiable_iff {locale : Locale} {shop : Shop} {es : List CatalogEvent} {s : CatalogSession}
    (hkeys : shop.catalog.Keyed) (hoptions : shop.catalog.OptionsKeyed) (hstart : GroupsSatisfiable shop)
    (hr : Runs.exec (catalogStep locale) ⟨shop, []⟩ es = some s) :
    Runs.Along (catalogStep locale) (fun s e => ∀ s' ∈ catalogStep locale s e, GroupsSatisfiable s'.db) ⟨shop, []⟩ es ↔
    Runs.Along (catalogStep locale) (ReadCommitted.AtCommit fun q _ s => q.FitsOptions s.catalog) ⟨shop, []⟩ es := by
  refine ReadCommitted.along_law_iff (I := fun s : Shop => s.catalog.Keyed ∧ s.catalog.OptionsKeyed)
    (L := GroupsSatisfiable) ?_ ?_ ⟨hkeys, hoptions⟩ hstart hr
  · rintro q v s a s' ⟨hk, ho⟩ hx
    exact ⟨CatalogRequest.run_keyed hk (toOption_eq.1 hx), run_optionsKeyed ho (toOption_eq.1 hx)⟩
  · rintro q v s a s' ⟨hk, ho⟩ hl hx
    have hc := toOption_eq.1 hx
    rw [← run_fit_iff hk ho hl.groups hc]
    exact ⟨fun h => h.groups, .of_groups (CatalogRequest.run_keyed hk hc) (run_optionsKeyed ho hc)⟩

namespace Demo

/-- The burger comes with a sauce, if one is wanted. -/
def saucyKitchen : Shop :=
  { kitchen with catalog :=
      { kitchen.catalog with
        addonGroups := [{ id := "sauces", name := "Sauces", minSelected := 0, maxSelected := 1, sortOrder := 0,
                          status := .active, version := 1, archivedAt := none }]
        addonOptions := [{ id := "mayo", groupId := "sauces", name := "Mayo", description := none, priceDelta := 50,
                           status := .active, sortOrder := 0 }]
        itemAddonGroups := [{ itemId := "burger", addonGroupId := "sauces", sortOrder := 0 }] } }

theorem saucyKitchen_keyed : saucyKitchen.catalog.Keyed := ⟨by decide, by decide, by decide, by decide⟩

theorem saucyKitchen_optionsKeyed : saucyKitchen.catalog.OptionsKeyed := ⟨by decide, by decide⟩

theorem saucyKitchen_satisfiable : GroupsSatisfiable saucyKitchen := by
  refine .of_groups saucyKitchen_keyed saucyKitchen_optionsKeyed fun group hgroup _ => ?_
  obtain rfl := List.mem_singleton.1 hgroup
  exact ⟨by decide, by decide, by decide⟩

def renameSauces : List CatalogEvent := [.start (.updateAddonGroup "sauces" 1 { name := some "Dips" } []), .commit 0]

/-- A sauce becomes mandatory on the day that there is none. -/
def requireSauce : List CatalogEvent :=
  [.start (.updateAddonGroup "sauces" 1
    { minSelected := some 1, options := some [{ name := "Mayo", priceDelta := 50, status := some .unavailable }] }
    ["mayo2"]), .commit 0]

end Demo

open Demo

theorem groups_satisfiable_renamed : ∃ s, Runs.exec (catalogStep plain) ⟨saucyKitchen, []⟩ renameSauces = some s ∧
    (Runs.Along (catalogStep plain) (fun s e => ∀ s' ∈ catalogStep plain s e, GroupsSatisfiable s'.db)
        ⟨saucyKitchen, []⟩ renameSauces ↔
      Runs.Along (catalogStep plain) (ReadCommitted.AtCommit fun q _ s => q.FitsOptions s.catalog) ⟨saucyKitchen, []⟩
        renameSauces) := by
  have hruns : (Runs.exec (catalogStep plain) ⟨saucyKitchen, []⟩ renameSauces).isSome = true := by decide +kernel
  obtain ⟨s, hr⟩ := Option.isSome_iff_exists.1 hruns
  exact ⟨s, hr, groups_satisfiable_iff saucyKitchen_keyed saucyKitchen_optionsKeyed saucyKitchen_satisfiable hr⟩

/-- Nobody can order the burger any more. -/
theorem required_sauce_unavailable : ¬ ∀ (locale : Locale) (shop : Shop) (es : List CatalogEvent) (s : CatalogSession),
    shop.catalog.Keyed → shop.catalog.OptionsKeyed → GroupsSatisfiable shop →
    Runs.exec (catalogStep locale) ⟨shop, []⟩ es = some s → GroupsSatisfiable s.db := by
  intro hlaw
  have hgroups : ((Runs.exec (catalogStep plain) ⟨saucyKitchen, []⟩ requireSauce).map fun s =>
      s.db.catalog.addonGroups.map fun g =>
        (g.status, g.minSelected, (activeOptions g.id s.db.catalog.addonOptions).length)) = some [(.active, 1, 0)] := by
    decide +kernel
  obtain ⟨s, hr, hrows⟩ := Option.map_eq_some_iff.1 hgroups
  have hend := hlaw plain saucyKitchen _ s saucyKitchen_keyed saucyKitchen_optionsKeyed saucyKitchen_satisfiable hr
  obtain ⟨group, hgroup, hrow⟩ := List.mem_map.1
    (hrows ▸ List.mem_singleton_self ((CategoryStatus.active, 1, 0) : CategoryStatus × Nat × Nat))
  rw [Prod.mk.injEq, Prod.mk.injEq] at hrow
  obtain ⟨hactive, hmin, hcount⟩ := hrow
  have havailable := (hend.groups group hgroup hactive).available
  rw [hmin, hcount] at havailable
  exact absurd havailable (by decide)

end Komanda
