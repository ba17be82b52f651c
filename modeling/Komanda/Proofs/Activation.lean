import Komanda.Proofs.SearchProjection

/-!
# The gate of the activation and the list of the readiness

`TenantSettingsService.activationReady` lets a tenant open its sales, `fetchTenantReadiness` reports what it still
lacks. Both ask for a slug, a primary location, an active item and a payment account, but only the report asks for the
coordinates of the location.
-/

namespace Komanda
open Transaction

/-- The readiness report of the tenant, as an actor of the tenant reads it: ready, and nothing incomplete. -/
def Directory.ReportsReady (tenantId : Id) (reader : Actor) (d : Directory) : Prop :=
  ∃ report, fetchTenantReadiness (tenantSettings tenantId reader) tenantId d.platform = .ok report ∧
    report.ready = true ∧ ∀ check ∈ report.checks, check.complete = true

def Directory.locationConfirmed (tenantId : Id) (reader : Actor) (d : Directory) : Bool :=
  (parseConfirmedLocation
    ((findPrimaryLocation (tenantSettings tenantId reader) tenantId d.platform).bind (·.address))).isSome

namespace DirectoryRequest

/-- The service lets the tenant sell: an update enables sales, or an activation claims its key and is no replay. -/
def OpensSales (d : Directory) : DirectoryRequest → Prop
  | updateSettings _ _ _ value => value.salesEnabled = some true
  | activate tenantId _ idempotencyKey newId now => ∃ recordId hash rows,
      Commits (Idempotency.claim id (TenantSettingsService.activation tenantId idempotencyKey) newId now)
        d.activations d.activations (.claimed recordId hash) rows
  | _ => False

def setsLocation : DirectoryRequest → Bool
  | updateSettings _ _ _ value => value.location.isSome
  | _ => false

end DirectoryRequest

section Readiness
open TenantSettingsService
variable {settings : TxSettings} {d d' : Directory} {t t' : Tenancy} {actor reader : Actor}
  {location : Option LocationRow}

theorem tenantEligibility_complete {tenant : TenantRow} {publishedItem paymentIntegration : Bool}
    {row : Option SettingsRow}
    {report : TenantEligibilityResult}
    (h : report = tenantEligibility tenant location publishedItem paymentIntegration row) :
    (report.ready = true ∧ ∀ check ∈ report.checks, check.complete = true) ↔
      (tenant.normalizedSlug ≠ "" ∧ publishedItem = true ∧ paymentIntegration = true) ∧
        (parseConfirmedLocation (location.bind (·.address))).isSome = true := by
  subst h
  have hlocated : (parseConfirmedLocation (location.bind (·.address))).isSome = true → location.isSome = true := by
    cases location
    · exact id
    · exact fun _ => rfl
  simp only [tenantEligibility, readinessChecks, List.filter_cons, if_true, List.filter_nil, List.all_cons,
    List.all_nil,
    Bool.and_true, Bool.and_eq_true, decide_eq_true_eq, List.forall_mem_cons, List.not_mem_nil, false_implies,
    implies_true, and_true]
  constructor
  · rintro ⟨⟨hslug, ⟨-, hparsed⟩, hitem, haccount⟩, -⟩
    exact ⟨⟨hslug, hitem, haccount⟩, hparsed⟩
  · rintro ⟨⟨hslug, hitem, haccount⟩, hparsed⟩
    exact ⟨⟨hslug, ⟨hlocated hparsed, hparsed⟩, hitem, haccount⟩, hslug, ⟨hlocated hparsed, hparsed⟩, hitem, haccount⟩

theorem reportsReady_iff (h : d.Sound) (ht : t ∈ d.platform.tenants) : d.ReportsReady t.row.id reader ↔
    (t.row.normalizedSlug ≠ "" ∧ t.published = true ∧ t.connected = true) ∧
      (parseConfirmedLocation (t.primaryLocation.bind (·.address))).isSome = true := by
  rw [Directory.ReportsReady, fetchTenantReadiness_own h.tenantKey ht (tenantSettings_place (h.tenantIds t ht))]
  constructor
  · rintro ⟨report, hreport, hcomplete⟩
    exact (tenantEligibility_complete (Except.ok.inj hreport).symm).1 hcomplete
  · intro hready
    exact ⟨_, rfl, (tenantEligibility_complete rfl).2 hready⟩

theorem locationConfirmed_own (h : d.Sound) (ht : t ∈ d.platform.tenants) :
    d.locationConfirmed t.row.id reader = (parseConfirmedLocation (t.primaryLocation.bind (·.address))).isSome := by
  rw [Directory.locationConfirmed, findPrimaryLocation, Platform.tenantLocations,
    findIn_own h.tenantKey ht (tenantSettings_place (h.tenantIds t ht))]
  rfl

/-- What the gate has asked. -/
theorem activationReady_own (h : d.Sound) (ht : t ∈ d.platform.tenants)
    (hready : activationReady (tenantSettings t.row.id actor) t.row.id actor d = true) :
    (t.row.normalizedSlug ≠ "" ∧ t.published = true ∧ t.connected = true) ∧ t.primaryLocation.isSome = true := by
  have hplace : (tenantSettings t.row.id actor).tenantId = some t.row.id := tenantSettings_place (h.tenantIds t ht)
  rw [activationReady, findTenant_own h.tenantKey ht, findPrimaryLocation, Platform.tenantLocations,
    findIn_own h.tenantKey ht hplace, findPublishedItem, Platform.catalogItems, findIn_own h.tenantKey ht hplace,
    findPaymentIntegration, Platform.integrationAccounts, findIn_own h.tenantKey ht hplace, List.isSome_find?,
    List.isSome_find?, List.isSome_find?] at hready
  simp only [Option.any_some, Bool.and_eq_true, decide_eq_true_eq] at hready
  obtain ⟨⟨⟨⟨⟨hslug, -⟩, hlocation⟩, hitem⟩, haccount⟩, -⟩ := hready
  rw [Tenancy.primaryLocation, List.isSome_find?]
  exact ⟨⟨hslug, hitem, haccount⟩, hlocation⟩

/-! ## The location that a patch sets -/

theorem settingsPatchSchema_ok {value patch : SettingsPatch} (h : settingsPatchSchema value = .ok patch) :
    patch.salesEnabled = value.salesEnabled ∧ value.location.all isValidLocation = true ∧
      patch.location = value.location.map fun l => { l with formattedAddress := l.formattedAddress.map Text.trim } := by
  rw [settingsPatchSchema] at h
  split at h
  · next hnone =>
    obtain rfl := Except.ok.inj h
    refine ⟨rfl, ?_, rfl⟩
    by_contra hinvalid
    simp [issues, hinvalid] at hnone
  · cases h

/-- An address out of a patch is a confirmed one. -/
theorem parseConfirmedLocation_setLocation {value patch : SettingsPatch} {row : LocationRow}
    (h : settingsPatchSchema value = .ok patch) (hlocation : value.location.isSome = true) :
    (parseConfirmedLocation (setLocation patch row).address).isSome = true := by
  obtain ⟨-, hvalid, hpatch⟩ := settingsPatchSchema_ok h
  obtain ⟨l, hl⟩ := Option.isSome_iff_exists.1 hlocation
  rw [hl, Option.all_some, isValidLocation] at hvalid
  simp only [Bool.and_eq_true, decide_eq_true_eq] at hvalid
  rw [setLocation, hpatch, hl]
  simpa [parseConfirmedLocation] using hvalid.1

/-- The primary location stays the primary one, with its new address. -/
theorem primaryLocation_setLocation {patch : SettingsPatch} (hlocations : t'.locations =
    Table.updateWhere (fun l => l.isPrimary && l.active) (setLocation patch) t.locations) :
    t'.primaryLocation = t.primaryLocation.map (setLocation patch) := by
  rw [Tenancy.primaryLocation, Tenancy.primaryLocation, hlocations]
  induction t.locations with
  | nil => rfl
  | cons l ls ih =>
    rw [Table.updateWhere, List.map_cons, List.find?_cons, List.find?_cons]
    by_cases hl : (l.isPrimary && l.active) = true
    · simp only [hl, if_true, setLocation, Option.map_some]
    · rw [Bool.not_eq_true] at hl
      simp only [hl, Bool.false_eq_true, if_false]
      exact ih

end Readiness

/-! ## The two requests -/

section Requests
open TenantSettingsService
variable {d d' : Directory} {t : Tenancy} {actor reader : Actor}

theorem update_ready_iff {version : Nat} {value : SettingsPatch} {answer : SettingsRow × TenantRow × Option LocationRow}
    (h : d.Sound) (ht : t ∈ d.platform.tenants) (hsales : value.salesEnabled = some true)
    (hc : Commits (update t.row.id actor version value) d d answer d') :
    d'.ReportsReady t.row.id reader ↔ value.location.isSome = true ∨ d.locationConfirmed t.row.id reader = true := by
  obtain ⟨patch, t', d₁, hpatch, hupdated⟩ := update_cases h ht hc
  have hsales' := (settingsPatchSchema_ok hpatch).1.trans hsales
  obtain ⟨⟨hslug, hitem, haccount⟩, hlocation⟩ := activationReady_own h ht (hupdated.ready hsales')
  have hd' : d' = d₁.showTenant t' := by rw [hupdated.synchronized, if_pos (.inl (by rw [hsales']; rfl))]
  have hsound : d'.Sound := hd' ▸ hupdated.sound.showTenant
  have hmem : t' ∈ d'.platform.tenants := hd' ▸ hupdated.mem
  rw [← hupdated.id, reportsReady_iff hsound hmem, hupdated.id, locationConfirmed_own h ht, hupdated.normalizedSlug,
    Tenancy.published, Tenancy.connected, hupdated.shop, primaryLocation_setLocation hupdated.locations]
  rw [Tenancy.published] at hitem
  rw [Tenancy.connected] at haccount
  rw [and_iff_right ⟨hslug, hitem, haccount⟩]
  obtain ⟨row, hrow⟩ := Option.isSome_iff_exists.1 hlocation
  rw [hrow, Option.map_some, Option.bind_some, Option.bind_some]
  by_cases hset : value.location.isSome = true
  · simp only [parseConfirmedLocation_setLocation hpatch hset, hset, true_or]
  · have hnone : patch.location = none := by
      rw [(settingsPatchSchema_ok hpatch).2.2, Option.not_isSome_iff_eq_none.1 hset, Option.map_none]
    rw [setLocation_of_none hnone, or_iff_right hset]
    rfl

theorem activate_ready_iff {idempotencyKey : String} {newId : Id} {now : Instant} {answer : Option ActivationResponse}
    (h : d.Sound) (ht : t ∈ d.platform.tenants)
    (hclaims : (DirectoryRequest.activate t.row.id actor idempotencyKey newId now).OpensSales d)
    (hc : Commits (activate t.row.id actor idempotencyKey newId now) d d answer d') :
    d'.ReportsReady t.row.id reader ↔ d.locationConfirmed t.row.id reader = true := by
  obtain ⟨recordId, hash, rows, hclaimed⟩ := hclaims
  rw [activate, commits_bind] at hc
  obtain ⟨claim, d₁, hclaim, hc⟩ := hc
  obtain ⟨rows', hrecord, rfl⟩ := commits_zoom.1 hclaim
  obtain ⟨rfl, rfl⟩ := Prod.mk.inj (Except.ok.inj (hclaimed.symm.trans hrecord))
  obtain ⟨response, hc, -⟩ := commits_map.1 hc
  have ht₁ := h.activations ht rows
  obtain ⟨hready, d₂, rows', ht₂, rfl⟩ := activateClaimed_cases ht₁.sound ht₁.mem hc
  obtain ⟨⟨hslug, hitem, haccount⟩, -⟩ := activationReady_own ht₁.sound ht₁.mem hready
  have hshown : (d₂.showTenant t.activated).Sound := ht₂.sound.showTenant
  have hrecords := hshown.activations ht₂.mem rows'
  have hid : t.activated.row.id = t.row.id := rfl
  rw [← hid, reportsReady_iff hrecords.sound hrecords.mem, hid, locationConfirmed_own h ht]
  exact and_iff_right ⟨hslug, hitem, haccount⟩

end Requests

/-- A request that opens the sales of a tenant leaves it ready in the report if and only if it sets a location, or the
primary location had its coordinates before. -/
theorem activation_ready_iff {locale : Locale} {d d' : Directory} {q : DirectoryRequest} {tenantId : Id}
    {reader : Actor}
    (h : d.Sound) (hq : q.tenantId = some tenantId) (hopens : q.OpensSales d)
    (hstep : directoryStep locale d q = some d') :
    d'.ReportsReady tenantId reader ↔ q.setsLocation = true ∨ d.locationConfirmed tenantId reader = true := by
  rw [directoryStep, Option.ite_none_right_eq_some] at hstep
  obtain ⟨hverified, hexec⟩ := hstep
  have hthere : ∃ t ∈ d.platform.tenants, t.row.id = tenantId := by
    rw [DirectoryRequest.verified, hq, Option.all_some, Platform.findTenant, Option.isSome_map] at hverified
    obtain ⟨t, ht⟩ := Option.isSome_iff_exists.1 hverified
    exact ⟨t, Table.lookup_mem ht, Table.lookup_key (k := fun t : Tenancy => t.row.id) ht⟩
  obtain ⟨t, ht, rfl⟩ := hthere
  cases q with
  | catalog _ _ _ => exact absurd hopens id
  | reconcileAll => exact absurd hopens id
  | updateSettings id actor version value =>
    obtain rfl := Option.some.inj hq
    obtain ⟨answer, hc⟩ := alone_eq.1 hexec
    exact update_ready_iff h ht hopens hc
  | activate id actor idempotencyKey newId now =>
    obtain rfl := Option.some.inj hq
    obtain ⟨answer, hc⟩ := alone_eq.1 hexec
    exact (activate_ready_iff h ht hopens hc).trans (or_iff_right Bool.false_ne_true).symm

namespace Demo

/-- The burger bar before its activation: its location has no address. -/
def unmappedBar : Tenancy :=
  { burgerBar with
    row := { burgerBar.row with status := .onboarding }
    settings := some { salesEnabled := false, printingEnabled := false, contactPhone := none, version := 1 }
    locations := [{ id := "location", name := "Bar", active := true, isPrimary := true, address := none }] }

def unmapped : Directory where
  platform := { tenants := [unmappedBar] }
  users := [{ id := "owner", active := true }]
  publicSearchTenants := []
  catalogSearchEntries := []
  activations := []

theorem unmapped_sound : unmapped.Sound where
  tenantKey := by decide +kernel
  tenantIds := by decide +kernel
  keyed := by decide +kernel
  entryKey := by decide +kernel
  entryItem := by decide +kernel

def activateBar : DirectoryRequest := .activate "tenant" (.user "owner" .owner) "key" "record" 0

theorem activateBar_opensSales : activateBar.OpensSales unmapped := ⟨_, _, _, rfl⟩

end Demo

open Demo

theorem activation_ready_unmapped : ∃ d', directoryStep plain unmapped activateBar = some d' ∧
    (d'.ReportsReady "tenant" .anonymous ↔
      activateBar.setsLocation = true ∨ unmapped.locationConfirmed "tenant" .anonymous = true) := by
  have hs : (directoryStep plain unmapped activateBar).isSome = true := by decide +kernel
  obtain ⟨d', hd'⟩ := Option.isSome_iff_exists.1 hs
  exact ⟨d', hd', activation_ready_iff unmapped_sound rfl activateBar_opensSales hd'⟩

/-- The bar without an address is activated, and the report still asks for its location. -/
theorem activates_unmapped_bar : ¬ ∀ (locale : Locale) (d d' : Directory) (q : DirectoryRequest) (tenantId : Id)
    (reader : Actor), d.Sound → q.tenantId = some tenantId → q.OpensSales d → directoryStep locale d q = some d' →
    d'.ReportsReady tenantId reader := by
  intro h
  have hs : (directoryStep plain unmapped activateBar).isSome = true := by decide +kernel
  obtain ⟨d', hd'⟩ := Option.isSome_iff_exists.1 hs
  obtain ⟨report, hreport, hready, -⟩ := h plain unmapped d' activateBar "tenant" .anonymous unmapped_sound rfl
    activateBar_opensSales hd'
  have hlocation : (directoryStep plain unmapped activateBar).map (fun d =>
      (fetchTenantReadiness (tenantSettings "tenant" .anonymous) "tenant" d.platform).toOption.map (·.ready)) =
        some (some false) := by decide +kernel
  rw [hd', Option.map_some, hreport] at hlocation
  exact absurd (hready.symm.trans (Option.some.inj (Option.some.inj hlocation))) (by decide)

end Komanda
