import Komanda.Proofs.SearchOperations
import Komanda.Proofs.VersionedEdits

/-!
# The search projection over runs

The reconciliation job rebuilds every tenant and then deletes all that it has built: the policies of the catalog hide
every item from its last statement. Otherwise a run keeps the projection of every tenant as long as its operations do.
-/

namespace Komanda
open Transaction

/-! ## Reconciliation -/

section Reconciliation
open Directory SearchReconciliation
variable {d d' v : Directory} {t : Tenancy} {report report' : ReconciliationReport} {u : Unit}
  {settings : TxSettings}

theorem Directory.Sound.recordItems {items : List ItemRow} (h : d.Sound) (ht : t ∈ d.platform.tenants)
    (hs : settings.tenantId = some t.row.id) (hitems : ∀ i ∈ items, i ∈ t.shop.catalog.items) :
    (recordItems t items d).Sound := by
  induction items generalizing d with
  | nil => exact h
  | cons i items ih =>
    have hi := hitems i List.mem_cons_self
    exact ih (h.recordItem ht hs hi) (by simpa using ht) fun j hj => hitems j (List.mem_cons_of_mem _ hj)

/-- The flags of all tenants are right. -/
def Directory.Lit (d : Directory) : Prop :=
  d.Sound ∧ ∀ t ∈ d.platform.tenants, d.isPubliclyEligible t.row.id = t.publiclyEligible

/-- A turn of a tenant succeeds, and leaves the flags of all tenants right. -/
theorem tryTenant_lit (h : d.Lit) (ht : t ∈ d.platform.tenants)
    (hc : Commits (tryTenant t.row.id report) v d report' d') : d'.platform = d.platform ∧ d'.Lit := by
  have hplace : (SearchReconciliation.settings.setTenant t.row.id).tenantId = some t.row.id := by
    rw [TxSettings.setTenant, nullif, if_neg (h.1.tenantIds t ht)]
  obtain ⟨n, hturn⟩ := reconcileTenant_own (v := v) (h.1.seated ht hplace)
  rw [Commits] at hturn
  rw [Commits, tryTenant, hturn] at hc
  obtain ⟨-, rfl⟩ := Prod.mk.inj (Except.ok.inj hc)
  have hsound : (reconciled t d).Sound :=
    h.1.showTenant.recordItems ht hplace fun i hi => (List.mem_filter.1 hi).1
  refine ⟨reconciled_platform, hsound, fun u hu => ?_⟩
  rw [reconciled_platform] at hu
  rw [isPubliclyEligible_reconciled]
  split
  · next hid => rw [h.1.tenantKey.eq hu ht hid]
  · exact h.2 u hu

theorem tryTenants_lit {ids : List Id} (h : d.Lit) (hids : ∀ id ∈ ids, ∃ t ∈ d.platform.tenants, t.row.id = id)
    (hc : Commits (tryTenants ids report) v d report' d') : d'.platform = d.platform ∧ d'.Lit := by
  induction ids generalizing d report with
  | nil =>
    obtain ⟨-, rfl⟩ := commits_pure.1 hc
    exact ⟨rfl, h⟩
  | cons id ids ih =>
    obtain ⟨t, ht, rfl⟩ := hids id List.mem_cons_self
    obtain ⟨_, d₁, hturn, hc⟩ := commits_bind.1 hc
    obtain ⟨hplatform, hlit⟩ := tryTenant_lit h ht hturn
    obtain ⟨hplatform', hlit'⟩ := ih hlit
      (fun id hid => hplatform ▸ hids id (List.mem_cons_of_mem _ hid)) hc
    exact ⟨hplatform'.trans hplatform, hlit'⟩

/-- The service may delete every entry and sees no item, so it deletes every entry. -/
theorem deleteOrphans_eq (hc : Commits (deleteOrphans (SearchReconciliation.settings.setTenant "")) v d u d') :
    d' = { d with catalogSearchEntries := [] } := by
  rw [deleteOrphans, commits_current_bind, select_eq_nil rfl rfl] at hc
  have hall : ∀ rows : List (Id × SearchEntryRow),
      RowSecurity.delete RlsTable.catalogSearchEntries.policy (SearchReconciliation.settings.setTenant "")
        (fun r => ([] : List (Id × ItemRow)).all fun item => item.2.id ≠ r.2.itemId) rows = [] := by
    intro rows
    rw [RowSecurity.delete_of_visible fun _ _ => rfl]
    exact List.filter_eq_nil_iff.2 fun _ _ => Bool.false_ne_true
  rw [commits_write, hall] at hc
  exact hc.symm

theorem reconcileAll_cases (h : d.Lit) (hc : Commits reconcileAll v d report d') :
    d'.platform = d.platform ∧ d'.Lit ∧ d'.catalogSearchEntries = [] := by
  rw [reconcileAll, commits_current_bind] at hc
  obtain ⟨_, d₁, hturns, hc⟩ := commits_bind.1 hc
  obtain ⟨_, d₂, hdelete, hc⟩ := commits_bind.1 hc
  obtain ⟨-, rfl⟩ := commits_pure.1 hc
  have hids : ∀ id ∈ d.platform.tenants.map (fun t => t.row.id), ∃ t ∈ d.platform.tenants, t.row.id = id := by
    intro id hid
    obtain ⟨t, ht, rfl⟩ := List.mem_map.1 hid
    exact ⟨t, ht, rfl⟩
  obtain ⟨hplatform, hlit⟩ := tryTenants_lit h hids hturns
  rw [deleteOrphans_eq hdelete]
  exact ⟨hplatform, ⟨⟨hlit.1.tenantKey, hlit.1.tenantIds, hlit.1.keyed, List.nodup_nil,
    fun r hr => (List.not_mem_nil hr).elim⟩, hlit.2⟩, rfl⟩

/-- Nothing is on sale. -/
theorem listings_eq_nil {p : Platform} : p.table Tenancy.listing = [] ↔
    ∀ t ∈ p.tenants, ∀ i ∈ t.shop.catalog.items, isActive i = true → t.activeCategory i.categoryId = none := by
  simp only [List.eq_nil_iff_forall_not_mem, mem_table, Prod.forall, not_exists, not_and, Tenancy.mem_listing,
    Tenancy.entry_eq_some]
  constructor
  · intro hall t ht i hi hactive
    rw [Option.eq_none_iff_forall_ne_some]
    exact fun c hc => hall t.row.id _ t ht rfl i hi hactive c hc rfl
  · intro hall id e t ht hid i hi hactive c hc _
    rw [hall t ht i hi hactive] at hc
    exact nomatch hc

end Reconciliation

/-! ## Runs -/

/-- The search shows every tenant as it is. -/
structure Directory.InSync (d : Directory) : Prop where
  sound : d.Sound
  shows : ∀ t ∈ d.platform.tenants, Directory.Shows t d

section Runs
open Directory
variable {locale : Locale} {d d' : Directory} {q : DirectoryRequest} {tenantId : Id}

theorem alone_eq {ε α : Type} {x : Tx Directory ε α} : d.alone x = some d' ↔ ∃ a, Commits x d d a d' := by
  unfold alone Commits
  cases x d d <;> simp [Prod.ext_iff]

theorem outcome_step (h : d.InSync) (hq : q.tenantId = some tenantId) (hstep : directoryStep locale d q = some d') :
    Outcome tenantId d d' (KeepsProjection d q) := by
  rw [directoryStep, Option.ite_none_right_eq_some] at hstep
  obtain ⟨hverified, hstep⟩ := hstep
  obtain ⟨row, hrow⟩ : ∃ row, d.platform.findTenant tenantId = some row := by
    rw [DirectoryRequest.verified, hq] at hverified
    exact Option.isSome_iff_exists.1 hverified
  obtain ⟨t, ht, -⟩ := Option.map_eq_some_iff.1 hrow
  have hmem := Table.lookup_mem ht
  obtain rfl := Table.lookup_key ht
  cases q with
  | catalog id actor q =>
    obtain rfl := Option.some.inj hq
    exact outcome_call h.sound h.shows hstep
  | updateSettings id actor version value =>
    obtain rfl := Option.some.inj hq
    obtain ⟨answer, hc⟩ := alone_eq.1 hstep
    exact outcome_update h.sound hmem (h.shows t hmem) hc
  | activate id actor idempotencyKey newId now =>
    obtain rfl := Option.some.inj hq
    obtain ⟨answer, hc⟩ := alone_eq.1 hstep
    exact outcome_activate h.sound hmem (h.shows t hmem) hc
  | reconcileAll => exact nomatch hq

theorem Directory.Outcome.fresh_iff {C : Prop} (h : Outcome tenantId d d' C) : d'.Fresh tenantId ↔ C := by
  obtain ⟨t, ht, rfl, hshows⟩ := h.shows
  exact (Komanda.fresh_iff h.sound ht).trans hshows

theorem Directory.InSync.lit (h : d.InSync) : d.Lit := ⟨h.sound, fun t ht => (h.shows t ht).eligible⟩

/-- A step pays what it owes if and only if it meets the condition. -/
theorem projects_iff (h : d.InSync) (hstep : directoryStep locale d q = some d') :
    q.Projects d' ↔ KeepsProjection d q := by
  cases hq : q.tenantId with
  | some tenantId =>
    rw [DirectoryRequest.Projects, hq]
    exact (outcome_step h hq hstep).fresh_iff
  | none =>
    cases q with
    | reconcileAll =>
      rw [directoryStep, Option.ite_none_right_eq_some] at hstep
      obtain ⟨report, hc⟩ := alone_eq.1 hstep.2
      obtain ⟨hplatform, -, hentries⟩ := reconcileAll_cases h.lit hc
      rw [DirectoryRequest.Projects, hq, KeepsProjection, ← listings_eq_nil, ← hplatform]
      dsimp only
      rw [hentries, List.nil_perm]
    | _ => cases hq

/-- A step that pays what it owes keeps the projection of every tenant. -/
theorem inSync_step (h : d.InSync) (hstep : directoryStep locale d q = some d') (hprojects : q.Projects d') :
    d'.InSync := by
  cases hq : q.tenantId with
  | some tenantId =>
    have hout := outcome_step h hq hstep
    obtain ⟨t, ht, hid, hshows⟩ := hout.shows
    refine ⟨hout.sound, fun u hu => ?_⟩
    by_cases hut : u.row.id = tenantId
    · rw [hout.sound.tenantKey.eq hu ht (hut.trans hid.symm)]
      exact hshows.2 ((projects_iff h hstep).1 hprojects)
    · exact hout.apart.shows hut (h.shows u (hout.apart.tenants u hu hut))
  | none =>
    cases q with
    | reconcileAll =>
      rw [directoryStep, Option.ite_none_right_eq_some] at hstep
      obtain ⟨report, hc⟩ := alone_eq.1 hstep.2
      obtain ⟨hplatform, hlit, hentries⟩ := reconcileAll_cases h.lit hc
      have hnil : d'.platform.table Tenancy.listing = [] := by
        rw [DirectoryRequest.Projects, hq] at hprojects
        dsimp only at hprojects
        rwa [hentries, List.nil_perm] at hprojects
      refine ⟨hlit.1, fun t ht => ⟨fun e => ?_, hlit.2 t ht⟩⟩
      rw [hentries]
      refine iff_of_false List.not_mem_nil fun he => ?_
      have hmem : (t.row.id, e) ∈ d'.platform.table Tenancy.listing := mem_table.2 ⟨t, ht, rfl, he⟩
      rw [hnil] at hmem
      exact List.not_mem_nil hmem
    | _ => cases hq

end Runs

/-- The operations of a run that starts from fresh projections all pay what they owe to the search if and only if each
of them meets the condition. -/
theorem search_projection_faithful_iff {locale : Locale} {d₀ d : Directory} {qs : List DirectoryRequest}
    (hsound : d₀.Sound) (hfresh : ∀ t ∈ d₀.platform.tenants, d₀.Fresh t.row.id)
    (hrun : Runs.exec (directoryStep locale) d₀ qs = some d) :
    Runs.Along (directoryStep locale) (fun d q => ∀ d' ∈ directoryStep locale d q, q.Projects d') d₀ qs ↔
      Runs.Along (directoryStep locale) KeepsProjection d₀ qs := by
  have hsync : d₀.InSync := ⟨hsound, fun t ht => (fresh_iff hsound ht).1 (hfresh t ht)⟩
  refine Runs.Along.congr (I := Directory.InSync) ?_ ?_ hsync hrun
  · intro d q d' h hprojects hstep
    exact inSync_step h hstep (hprojects d' hstep)
  · intro d q d' h hstep
    rw [hstep]
    simp only [Option.mem_some_iff, forall_eq']
    exact projects_iff h hstep

namespace Demo

/-- A tenant that sells burgers. -/
def burgerBar : Tenancy where
  row := { id := "tenant", name := "Burger bar", slug := "burger-bar", normalizedSlug := "burger-bar",
           defaultCurrency := "ARS", status := .active, version := 1 }
  settings := some { salesEnabled := true, printingEnabled := false, contactPhone := none, version := 1 }
  locations := [{ id := "location", name := "Bar", active := true, isPrimary := true,
                  address := some { lat := some (-34603700), lng := some (-58381600), formattedAddress := none } }]
  snapshots := []
  pairings := []
  agents := []
  shop := kitchen
  attemptCreatedAt := fun _ => 0

/-- The search has been built for it. -/
def searchedBar : Directory :=
  { platform := { tenants := [burgerBar] }, users := [], publicSearchTenants := [], catalogSearchEntries := [],
    activations := [] : Directory }.rebuild "tenant"

theorem searchedBar_sound : searchedBar.Sound where
  tenantKey := by decide +kernel
  tenantIds := by decide +kernel
  keyed := by decide +kernel
  entryKey := by decide +kernel
  entryItem := by decide +kernel

theorem searchedBar_fresh : ∀ t ∈ searchedBar.platform.tenants, searchedBar.Fresh t.row.id := by decide +kernel

/-- The burger gets a price. -/
def dearerBurger : List DirectoryRequest :=
  [.catalog "tenant" (.user "owner" .owner) (.updateItem "burger" 1 { price := some 1200, status := some .active })]

end Demo

open Demo

theorem search_projection_faithful_repriced : ∃ d, Runs.exec (directoryStep plain) searchedBar dearerBurger = some d ∧
    (Runs.Along (directoryStep plain) (fun d q => ∀ d' ∈ directoryStep plain d q, q.Projects d') searchedBar dearerBurger ↔
      Runs.Along (directoryStep plain) KeepsProjection searchedBar dearerBurger) := by
  have hs : (Runs.exec (directoryStep plain) searchedBar dearerBurger).isSome = true := by decide +kernel
  obtain ⟨d, hd⟩ := Option.isSome_iff_exists.1 hs
  exact ⟨d, hd, search_projection_faithful_iff searchedBar_sound searchedBar_fresh hd⟩

/-- The job deletes the entry of the burger. -/
theorem reconcileAll_empties_search : ¬ ∀ (locale : Locale) (d₀ d : Directory) (qs : List DirectoryRequest),
    d₀.Sound → (∀ t ∈ d₀.platform.tenants, d₀.Fresh t.row.id) →
    Runs.exec (directoryStep locale) d₀ qs = some d →
    Runs.Along (directoryStep locale) (fun d q => ∀ d' ∈ directoryStep locale d q, q.Projects d') d₀ qs := by
  intro h
  have hs : (Runs.exec (directoryStep plain) searchedBar [.reconcileAll]).isSome = true := by decide +kernel
  obtain ⟨d, hd⟩ := Option.isSome_iff_exists.1 hs
  exact absurd (h plain searchedBar d [.reconcileAll] searchedBar_sound searchedBar_fresh hd) (by decide +kernel)

end Komanda
