import Komanda.FinancialSummary
import Komanda.Lib.Table
import Komanda.Proofs.AnalyticsMoney
import Mathlib.Algebra.BigOperators.Group.List.Basic
import Mathlib.Algebra.Order.Group.Int

/-!
# What the net collections of a source count

The net collections are the cash that has come in, or what Mercado Pago has paid out, or both, as the source is asked
for (`netCollections_eq`), and neither is selected by the source of the order. So a movement counts unless it is outside
the period or moves nothing, whichever order it belongs to.
-/

namespace Komanda.Analytics

/-- The source of the order that a movement or a record belongs to. -/
def FinancialRows.sourceOf (rows : FinancialRows) (orderId : Option Id) : Option OrderSource :=
  orderId.bind fun id => (Table.lookup (·.id) id rows.orders).map (·.source)

/-- The net collections reported, in cents. -/
def netCollections (input : FinancialInput) (rows : FinancialRows) : Option Int :=
  (AnalyticsRepository.getFinancialSummary input rows).bind fun summary => parseMoneyToCents summary.netCollections

/-- The report is another one without the movement. -/
def CountsMovement (input : FinancialInput) (rows : FinancialRows) (m : CashMovement) : Prop :=
  netCollections input { rows with movements := rows.movements.erase m } ≠ netCollections input rows

def CountsRecord (input : FinancialInput) (rows : FinancialRows) (r : MpFinancialRecord) : Prop :=
  netCollections input { rows with records := rows.records.erase r } ≠ netCollections input rows

/-- What is asked for is one source. -/
def FinancialInput.only (input : FinancialInput) (source : OrderSource) : FinancialInput :=
  { input with source := some source.text }

/-- What is counted for a source belongs to its orders, and what is reported for the sources adds up to what is
reported for all. -/
structure RespectsSources (sources : List OrderSource) (input : FinancialInput) (rows : FinancialRows) : Prop where
  movements : ∀ s ∈ sources, ∀ m ∈ rows.movements, CountsMovement (input.only s) rows m →
    rows.sourceOf m.orderId = some s
  records : ∀ s ∈ sources, ∀ r ∈ rows.records, CountsRecord (input.only s) rows r →
    rows.sourceOf (some r.orderId) = some s
  additive : ∃ amounts : List Int, sources.mapM (fun s => netCollections (input.only s) rows) = some amounts ∧
    netCollections { input with source := some "all" } rows = some amounts.sum

/-- The sources that `analyticsDateFilterSchema` lets one ask for. -/
def offeredSources : List OrderSource := [.mercadopagoWebhook, .adminDirect]

def allSources : List OrderSource := [.mercadopagoWebhook, .adminDirect, .storefrontCash]

/-! ## The amounts -/

/-- The cash of the period. -/
def cashOf (input : FinancialInput) (movements : List CashMovement) : Int :=
  ((movements.filter (movementIn input.fromDate input.toDate input.locationId)).map netCashOf).sum

def payoutOf (input : FinancialInput) (records : List MpFinancialRecord) : Int :=
  ((records.filter (recordIn input.fromDate input.toDate input.locationId)).map (·.netReceivedAmount)).sum

theorem netCollections_eq (input : FinancialInput) (rows : FinancialRows) : netCollections input rows = some
    (if input.source = some "admin_direct" then cashOf input rows.movements
      else if input.source = some "mercadopago_webhook" then payoutOf input rows.records
      else payoutOf input rows.records + cashOf input rows.movements) := by
  have hread (l : List Int) : parseMoneyToCents (sumText l) = some l.sum := parse_sumText l
  have hadd (l l' : List Int) : addMoneyStrings [sumText l, sumText l'] = some (centsToMoneyString (l.sum + l'.sum)) := by
    have hsum := addMoneyStrings_texts (l := [l, l']) (fun l _ => hread l)
    simpa using hsum
  simp only [netCollections, AnalyticsRepository.getFinancialSummary, AnalyticsRepository.getMpFinancialSummary, hread,
    AnalyticsRepository.getCashLedgerSummary, hadd, Option.bind_eq_bind, Option.bind_some, Option.pure_def, cashOf, payoutOf]
  split
  · simp [hread]
  · split
    · simp [hread]
    · simp [parseMoneyToCents_centsToMoneyString]

/-! ## What counts -/

/-- An element leaves the sum with what it adds to it. -/
theorem sum_filter_erase {α : Type} [DecidableEq α] {l : List α} {a : α} (p : α → Bool) (f : α → Int) (h : a ∈ l) :
    ((l.filter p).map f).sum = (if p a then f a else 0) + (((l.erase a).filter p).map f).sum := by
  rw [(((List.perm_cons_erase h).filter p).map f).sum_eq]
  cases hp : p a with
  | true => rw [List.filter_cons_of_pos hp, List.map_cons, List.sum_cons, if_pos rfl]
  | false => rw [List.filter_cons_of_neg (Bool.eq_false_iff.1 hp), if_neg Bool.false_ne_true, zero_add]

section Counts
variable (input : FinancialInput) (rows : FinancialRows) (s : OrderSource)

/-- What is reported for a source. -/
def collected : OrderSource → Int
  | .mercadopagoWebhook => payoutOf input rows.records
  | .adminDirect => cashOf input rows.movements
  | .storefrontCash => payoutOf input rows.records + cashOf input rows.movements

theorem netCollections_only : netCollections (input.only s) rows = some (collected input rows s) := by
  rw [netCollections_eq]
  cases s <;> rfl

theorem netCollections_sources (sources : List OrderSource) :
    sources.mapM (fun s => netCollections (input.only s) rows) = some (sources.map (collected input rows)) := by
  simp only [netCollections_only]
  exact List.mapM_pure

theorem netCollections_all : netCollections { input with source := some "all" } rows =
    some (payoutOf input rows.records + cashOf input rows.movements) := by
  rw [netCollections_eq]
  rfl

/-- The movement lies in the period and moves something. -/
def Moves (m : CashMovement) : Prop :=
  movementIn input.fromDate input.toDate input.locationId m = true ∧ netCashOf m ≠ 0

instance (m : CashMovement) : Decidable (Moves input m) := inferInstanceAs (Decidable (_ ∧ _))

def PaysOut (r : MpFinancialRecord) : Prop :=
  recordIn input.fromDate input.toDate input.locationId r = true ∧ r.netReceivedAmount ≠ 0

theorem cashOf_erase {m : CashMovement} (h : m ∈ rows.movements) :
    cashOf input (rows.movements.erase m) ≠ cashOf input rows.movements ↔ Moves input m := by
  have hsum := sum_filter_erase (movementIn input.fromDate input.toDate input.locationId) netCashOf h
  rw [← cashOf, ← cashOf] at hsum
  rw [hsum, Moves]
  cases movementIn input.fromDate input.toDate input.locationId m <;> simp

theorem payoutOf_erase {r : MpFinancialRecord} (h : r ∈ rows.records) :
    payoutOf input (rows.records.erase r) ≠ payoutOf input rows.records ↔ PaysOut input r := by
  have hsum := sum_filter_erase (recordIn input.fromDate input.toDate input.locationId) (·.netReceivedAmount) h
  rw [← payoutOf, ← payoutOf] at hsum
  rw [hsum, PaysOut]
  cases recordIn input.fromDate input.toDate input.locationId r <;> simp

theorem countsMovement_iff {m : CashMovement} (h : m ∈ rows.movements) :
    CountsMovement (input.only s) rows m ↔ s ≠ .mercadopagoWebhook ∧ Moves input m := by
  rw [CountsMovement, netCollections_only, netCollections_only, ← cashOf_erase input rows h]
  cases s <;> simp [collected]

theorem countsRecord_iff {r : MpFinancialRecord} (h : r ∈ rows.records) :
    CountsRecord (input.only s) rows r ↔ s ≠ .adminDirect ∧ PaysOut input r := by
  rw [CountsRecord, netCollections_only, netCollections_only, ← payoutOf_erase input rows h]
  cases s <;> simp [collected]

/-- Nothing outside the period, and nothing that moves no money, is in the sums. -/
theorem cashOf_eq_zero (h : ∀ m ∈ rows.movements, ¬ Moves input m) : cashOf input rows.movements = 0 := by
  refine List.sum_eq_zero fun n hn => ?_
  obtain ⟨m, hm, rfl⟩ := List.mem_map.1 hn
  obtain ⟨hm, hin⟩ := List.mem_filter.1 hm
  exact not_not.1 fun hne => h m hm ⟨hin, hne⟩

theorem payoutOf_eq_zero (h : ∀ r ∈ rows.records, ¬ PaysOut input r) : payoutOf input rows.records = 0 := by
  refine List.sum_eq_zero fun n hn => ?_
  obtain ⟨r, hr, rfl⟩ := List.mem_map.1 hn
  obtain ⟨hr, hin⟩ := List.mem_filter.1 hr
  exact not_not.1 fun hne => h r hr ⟨hin, hne⟩

end Counts

/-! ## The condition -/

/-- All cash of the period has come in for orders that were entered by hand, and all that Mercado Pago has paid out
for orders that it has reported. -/
def Separate (input : FinancialInput) (rows : FinancialRows) : Prop :=
  (∀ m ∈ rows.movements, Moves input m → rows.sourceOf m.orderId = some .adminDirect) ∧
    ∀ r ∈ rows.records, PaysOut input r → rows.sourceOf (some r.orderId) = some .mercadopagoWebhook

/-- Nothing has come in. -/
def Idle (input : FinancialInput) (rows : FinancialRows) : Prop :=
  (∀ m ∈ rows.movements, ¬ Moves input m) ∧ ∀ r ∈ rows.records, ¬ PaysOut input r

theorem offered_iff (input : FinancialInput) (rows : FinancialRows) :
    RespectsSources offeredSources input rows ↔ Separate input rows := by
  constructor
  · intro h
    refine ⟨fun m hm hmoves => ?_, fun r hr hpays => ?_⟩
    · exact h.movements .adminDirect (by decide) m hm ((countsMovement_iff input rows _ hm).2 ⟨by decide, hmoves⟩)
    · exact h.records .mercadopagoWebhook (by decide) r hr ((countsRecord_iff input rows _ hr).2 ⟨by decide, hpays⟩)
  · rintro ⟨hmovements, hrecords⟩
    refine ⟨fun s hs m hm hcounts => ?_, fun s hs r hr hcounts => ?_, _, netCollections_sources input rows _, ?_⟩
    · obtain ⟨hne, hmoves⟩ := (countsMovement_iff input rows s hm).1 hcounts
      have hsource : s = .adminDirect := by
        rcases List.mem_pair.1 hs with rfl | rfl
        · exact absurd rfl hne
        · rfl
      rw [hsource, hmovements m hm hmoves]
    · obtain ⟨hne, hpays⟩ := (countsRecord_iff input rows s hr).1 hcounts
      have hsource : s = .mercadopagoWebhook := by
        rcases List.mem_pair.1 hs with rfl | rfl
        · rfl
        · exact absurd rfl hne
      rw [hsource, hrecords r hr hpays]
    · rw [netCollections_all]
      simp [offeredSources, collected]

theorem all_iff (input : FinancialInput) (rows : FinancialRows) :
    RespectsSources allSources input rows ↔ Idle input rows := by
  constructor
  · intro h
    refine ⟨fun m hm hmoves => ?_, fun r hr hpays => ?_⟩
    · have hadmin := h.movements .adminDirect (by decide) m hm ((countsMovement_iff input rows _ hm).2 ⟨by decide, hmoves⟩)
      have hcash := h.movements .storefrontCash (by decide) m hm
        ((countsMovement_iff input rows _ hm).2 ⟨by decide, hmoves⟩)
      cases hadmin.symm.trans hcash
    · have hweb := h.records .mercadopagoWebhook (by decide) r hr
        ((countsRecord_iff input rows _ hr).2 ⟨by decide, hpays⟩)
      have hcash := h.records .storefrontCash (by decide) r hr ((countsRecord_iff input rows _ hr).2 ⟨by decide, hpays⟩)
      cases hweb.symm.trans hcash
  · rintro ⟨hmovements, hrecords⟩
    refine ⟨fun s _ m hm hcounts => ?_, fun s _ r hr hcounts => ?_, _, netCollections_sources input rows _, ?_⟩
    · exact absurd ((countsMovement_iff input rows s hm).1 hcounts).2 (hmovements m hm)
    · exact absurd ((countsRecord_iff input rows s hr).1 hcounts).2 (hrecords r hr)
    · rw [netCollections_all]
      simp [allSources, collected, cashOf_eq_zero input rows hmovements, payoutOf_eq_zero input rows hrecords]

theorem netCollections_respect_sources (input : FinancialInput) (rows : FinancialRows) :
    (RespectsSources offeredSources input rows ↔ Separate input rows) ∧
      (RespectsSources allSources input rows ↔ Idle input rows) :=
  ⟨offered_iff input rows, all_iff input rows⟩

/-! ## An order of the storefront that is paid at the counter -/

namespace Demo

def pickupOrder : TenantOrder where
  id := "order"
  locationId := "counter"
  source := .storefrontCash
  fulfillmentStatus := .delivered
  paymentStatus := .paid
  customerSnapshot := .object [("name", some (.string "Ana"))]
  subtotal := 1000
  discountTotal := 0
  total := 1000
  createdAt := 10

def pickupDeposit : CashMovement where
  id := "movement"
  locationId := "counter"
  shiftId := none
  orderId := some "order"
  type := .saleDeposit
  amount := 1000
  occurredAt := 20
  reason := none
  idempotencyKey := none

def pickupRows : FinancialRows where
  orders := [pickupOrder]
  movements := [pickupDeposit]
  records := []

def wholeDay : FinancialInput where
  fromDate := 0
  toDate := 100

end Demo

open Demo in
/-- The cash of the order is reported for the orders that were entered by hand, of which there are none. -/
theorem pickup_in_admin_direct : (∀ o ∈ pickupRows.orders, o.source ≠ .adminDirect) ∧
    netCollections (wholeDay.only .adminDirect) pickupRows = some 1000 ∧
    ¬ RespectsSources offeredSources wholeDay pickupRows ∧ ¬ RespectsSources allSources wholeDay pickupRows := by
  have hmoves : Moves wholeDay pickupDeposit := by decide +kernel
  have hmem : pickupDeposit ∈ pickupRows.movements := List.mem_singleton.2 rfl
  refine ⟨List.forall_mem_singleton.2 (by decide), ?_, fun h => ?_, fun h => ?_⟩
  · rw [netCollections_only]
    decide +kernel
  · exact absurd (((offered_iff wholeDay pickupRows).1 h).1 pickupDeposit hmem hmoves) (by decide +kernel)
  · exact ((all_iff wholeDay pickupRows).1 h).1 pickupDeposit hmem hmoves

end Komanda.Analytics
