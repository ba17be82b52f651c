import Komanda.Lib.Buckets
import Komanda.PeakHours
import Komanda.Proofs.AnalyticsMoney
import Mathlib.Algebra.Order.Group.Int
import Mathlib.Algebra.Order.Group.Nat

/-!
# The heatmap counts every order once

After the orders `l` have been counted the cells are `cellsOf l`: the cell of a weekday and an hour holds the number of
the orders of that slot and the text of their sum (`countOrder_cellsOf`). The slots are all there, each once, so the
counts and sums add up to those of all orders.
-/

namespace Komanda.Analytics

/-- Where the order counts. -/
def slotOf (zonedParts : Instant → Weekday × Fin 24) (o : TenantOrder) : Nat :=
  weekdays.idxOf (zonedParts o.createdAt).1 * 24 + (zonedParts o.createdAt).2

/-- What the orders come to. -/
def revenueOf (orders : List TenantOrder) : Int := (orders.map fun o => (o.total : Int)).sum

section Cells
variable (zonedParts : Instant → Weekday × Fin 24)

def inSlot (l : List TenantOrder) (i : Nat) : List TenantOrder := l.filter (slotOf zonedParts · = i)

def cellOf (l : List TenantOrder) (i : Nat) : PeakHoursHeatmapCell where
  dayOfWeek := i / 24
  dayName := heatmapDays.getD (i / 24) ""
  hour := i % 24
  orderCount := (inSlot zonedParts l i).length
  revenue := centsToMoneyString (revenueOf (inSlot zonedParts l i))
  isPeak := false

/-- The cells when the orders have been counted. -/
def cellsOf (l : List TenantOrder) : List PeakHoursHeatmapCell := (List.range 168).map (cellOf zonedParts l)

theorem emptyCells_eq : emptyCells = cellsOf zonedParts [] := by
  have hzero : centsToMoneyString 0 = "0.00" := by decide
  have hcell (i : Nat) : cellOf zonedParts [] i =
      { dayOfWeek := i / 24, dayName := heatmapDays.getD (i / 24) "", hour := i % 24, orderCount := 0,
        revenue := "0.00", isPeak := false } := by
    simp [cellOf, inSlot, revenueOf, hzero]
  rw [cellsOf, List.map_congr_left fun i _ => hcell i]
  rfl

theorem cellIndex_formatToParts (weekday : Weekday) (hour : Fin 24) :
    cellIndex (formatToParts weekday hour) = some (weekdays.idxOf weekday * 24 + hour) := by
  revert hour
  cases weekday <;> decide

theorem slotOf_lt (o : TenantOrder) : slotOf zonedParts o < 168 := by
  have hday : weekdays.idxOf (zonedParts o.createdAt).1 < 7 := by
    cases (zonedParts o.createdAt).1 <;> decide
  have hhour := (zonedParts o.createdAt).2.isLt
  rw [slotOf]
  omega

theorem revenueOf_append (l l' : List TenantOrder) : revenueOf (l ++ l') = revenueOf l + revenueOf l' := by
  rw [revenueOf, List.map_append, List.sum_append, revenueOf, revenueOf]

theorem inSlot_concat_self (l : List TenantOrder) (o : TenantOrder) :
    inSlot zonedParts (l ++ [o]) (slotOf zonedParts o) = inSlot zonedParts l (slotOf zonedParts o) ++ [o] := by
  simp [inSlot]

theorem inSlot_concat_of_ne {o : TenantOrder} {i : Nat} (l : List TenantOrder) (h : i ≠ slotOf zonedParts o) :
    inSlot zonedParts (l ++ [o]) i = inSlot zonedParts l i := by
  simp [inSlot, h.symm]

/-- The sum of a cell and one more order. -/
theorem addMoneyStrings_pair (n : Int) (o : TenantOrder) :
    addMoneyStrings [centsToMoneyString n, centsToMoney o.total] = some (centsToMoneyString (n + o.total)) := by
  have hsum := addMoneyStrings_map [n, (o.total : Int)]
  rw [centsToMoney_eq]
  simpa using hsum

theorem addToCell_cellOf (l : List TenantOrder) (o : TenantOrder) :
    addToCell (centsToMoney o.total) (cellOf zonedParts l (slotOf zonedParts o)) =
      some (cellOf zonedParts (l ++ [o]) (slotOf zonedParts o)) := by
  have hrevenue := addMoneyStrings_pair (revenueOf (inSlot zonedParts l (slotOf zonedParts o))) o
  have hsum : revenueOf (inSlot zonedParts l (slotOf zonedParts o) ++ [o]) =
      revenueOf (inSlot zonedParts l (slotOf zonedParts o)) + o.total := by
    rw [revenueOf_append]
    simp [revenueOf]
  simp only [addToCell, cellOf, hrevenue, inSlot_concat_self, hsum, List.length_append, List.length_singleton]
  rfl

theorem set_cellsOf (l : List TenantOrder) (o : TenantOrder) :
    (cellsOf zonedParts l).set (slotOf zonedParts o) (cellOf zonedParts (l ++ [o]) (slotOf zonedParts o)) =
      cellsOf zonedParts (l ++ [o]) := by
  apply List.ext_getElem
  · simp [cellsOf]
  intro i hi hi'
  rw [List.getElem_set]
  by_cases h : slotOf zonedParts o = i
  · subst h
    simp [cellsOf]
  · simp [h, cellsOf, cellOf, inSlot_concat_of_ne zonedParts l (Ne.symm h)]

/-- One turn of the loop. -/
theorem countOrder_cellsOf (l : List TenantOrder) (o : TenantOrder) :
    countOrder zonedParts (cellsOf zonedParts l) o = some (cellsOf zonedParts (l ++ [o])) := by
  have hindex : cellIndex (formatToParts (zonedParts o.createdAt).1 (zonedParts o.createdAt).2) =
      some (slotOf zonedParts o) := cellIndex_formatToParts _ _
  have hget : (cellsOf zonedParts l)[slotOf zonedParts o]? = some (cellOf zonedParts l (slotOf zonedParts o)) := by
    rw [cellsOf, List.getElem?_map, List.getElem?_range (slotOf_lt zonedParts o), Option.map_some]
  simp only [countOrder, hindex, hget, addToCell_cellOf, Option.map_some, set_cellsOf]

/-- The whole loop. -/
theorem foldlM_countOrder (l l' : List TenantOrder) :
    l'.foldlM (countOrder zonedParts) (cellsOf zonedParts l) = some (cellsOf zonedParts (l ++ l')) := by
  induction l' generalizing l with
  | nil => rw [List.append_nil]; rfl
  | cons o l' ih =>
    rw [List.foldlM_cons, countOrder_cellsOf, Option.bind_eq_bind, Option.bind_some, ih, List.append_assoc]
    rfl

/-! ## The report -/

/-- The order was made on the weekday and in the hour of the cell. -/
def PeakHoursHeatmapCell.holds (cell : PeakHoursHeatmapCell) (o : TenantOrder) : Bool :=
  weekdays[cell.dayOfWeek]? = some (zonedParts o.createdAt).1 ∧ cell.hour = (zonedParts o.createdAt).2

theorem weekday_iff (d : Nat) (weekday : Weekday) : weekdays[d]? = some weekday ↔ weekdays.idxOf weekday = d := by
  constructor
  · intro h
    obtain ⟨hd, rfl⟩ := List.getElem?_eq_some_iff.1 h
    exact List.Nodup.idxOf_getElem (by decide) d hd
  · rintro rfl
    exact List.getElem?_idxOf (by cases weekday <;> decide)

theorem holds_cellOf {l : List TenantOrder} (i : Nat) (o : TenantOrder) :
    (cellOf zonedParts l i).holds zonedParts o = decide (slotOf zonedParts o = i) := by
  have hhour := (zonedParts o.createdAt).2.isLt
  rw [PeakHoursHeatmapCell.holds, decide_eq_decide, cellOf, weekday_iff, slotOf]
  dsimp only
  omega

/-- Marking the peaks changes nothing else. -/
theorem markPeaks_eq (n : Nat) (cells : List PeakHoursHeatmapCell) :
    ∃ peak : PeakHoursHeatmapCell → Bool, markPeaks n cells = cells.map fun c => { c with isPeak := peak c } := by
  by_cases hn : n > 0
  · refine ⟨fun c => decide (c.orderCount = n) || c.isPeak, ?_⟩
    rw [markPeaks, if_pos hn]
    refine List.map_congr_left fun c _ => ?_
    by_cases hc : c.orderCount = n <;> simp [hc]
  · exact ⟨(·.isPeak), by rw [markPeaks, if_neg hn, List.map_id'']; exact fun _ => rfl⟩

section Report
variable (fromDate toDate : Instant) (locationId : Option Id) (orders : List TenantOrder)

theorem getPeakHoursHeatmap_cells : ∃ heatmap,
    AnalyticsRepository.getPeakHoursHeatmap zonedParts fromDate toDate locationId orders = some heatmap ∧
      ∃ peak : PeakHoursHeatmapCell → Bool, heatmap.cells =
        (cellsOf zonedParts (periodOrders fromDate toDate locationId orders)).map fun c =>
          { c with isPeak := peak c } := by
  rw [AnalyticsRepository.getPeakHoursHeatmap, emptyCells_eq zonedParts, foldlM_countOrder, List.nil_append]
  generalize cellsOf zonedParts (periodOrders fromDate toDate locationId orders) = cells
  exact ⟨_, rfl, markPeaks_eq _ _⟩

end Report

/-- The counts of the cells. -/
theorem counts_cellsOf (l : List TenantOrder) : ((cellsOf zonedParts l).map (·.orderCount)).sum = l.length := by
  rw [cellsOf, List.map_map]
  exact Buckets.length_keys List.nodup_range fun o _ => List.mem_range.2 (slotOf_lt zonedParts o)

theorem revenues_cellsOf (l : List TenantOrder) :
    addMoneyStrings ((cellsOf zonedParts l).map (·.revenue)) = some (centsToMoneyString (revenueOf l)) := by
  have hsum : ((List.range 168).map fun i => revenueOf (inSlot zonedParts l i)).sum = revenueOf l :=
    Buckets.sum_keys List.nodup_range fun o _ => List.mem_range.2 (slotOf_lt zonedParts o)
  have hread : ∀ i ∈ List.range 168, parseMoneyToCents (cellOf zonedParts l i).revenue =
      some (revenueOf (inSlot zonedParts l i)) := fun _ _ => parseMoneyToCents_centsToMoneyString _
  rw [cellsOf, List.map_map, ← hsum]
  exact addMoneyStrings_texts hread

theorem countP_holds (l : List TenantOrder) (o : TenantOrder) :
    (cellsOf zonedParts l).countP (·.holds zonedParts o) = 1 := by
  have hslot : ∀ i ∈ List.range 168,
      ((cellOf zonedParts l i).holds zonedParts o = true ↔ (i == slotOf zonedParts o) = true) := by
    intro i _
    rw [holds_cellOf, decide_eq_true_iff, beq_iff_eq, eq_comm]
  rw [cellsOf, List.countP_map, ← List.count_eq_one_of_mem List.nodup_range (List.mem_range.2 (slotOf_lt zonedParts o))]
  exact List.countP_congr hslot

end Cells

/-- What is printed is read again, as what it was; and the cells of the heatmap divide the orders of the period among
themselves. -/
theorem reports_lossless :
    (∀ n : Int, parseMoneyToCents (centsToMoneyString n) = some n) ∧
    (∀ d : DecimalText, ∃ n, parseMoneyToCents d.text = some n ∧
      ∃ d' : DecimalText, d'.text = centsToMoneyString n ∧ d'.value = d.value) ∧
    ∀ (zonedParts : Instant → Weekday × Fin 24) (fromDate toDate : Instant) (locationId : Option Id)
      (orders : List TenantOrder),
      let period := periodOrders fromDate toDate locationId orders
      ∃ heatmap, AnalyticsRepository.getPeakHoursHeatmap zonedParts fromDate toDate locationId orders = some heatmap ∧
        (heatmap.cells.map (·.orderCount)).sum = period.length ∧
        addMoneyStrings (heatmap.cells.map (·.revenue)) = some (centsToMoneyString (revenueOf period)) ∧
        (∀ o ∈ period, heatmap.cells.countP (·.holds zonedParts o) = 1) ∧
        ∀ cell ∈ heatmap.cells, cell.orderCount = (period.filter (cell.holds zonedParts)).length ∧
          parseMoneyToCents cell.revenue = some (revenueOf (period.filter (cell.holds zonedParts))) := by
  refine ⟨parseMoneyToCents_centsToMoneyString, ?_, ?_⟩
  · intro d
    obtain ⟨d', htext, hcents⟩ := exists_decimalText d.cents
    exact ⟨d.cents, parseMoneyToCents_text d, d', htext, by rw [← d'.cents_value, hcents, d.cents_value]⟩
  intro zonedParts fromDate toDate locationId orders period
  obtain ⟨heatmap, hreport, peak, hcells⟩ := getPeakHoursHeatmap_cells zonedParts fromDate toDate locationId orders
  refine ⟨heatmap, hreport, ?_, ?_, fun o _ => ?_, ?_⟩
  · rw [hcells, List.map_map]
    exact counts_cellsOf zonedParts period
  · rw [hcells, List.map_map]
    exact revenues_cellsOf zonedParts period
  · rw [hcells, List.countP_map]
    exact countP_holds zonedParts period o
  · rw [hcells, List.forall_mem_map, cellsOf, List.forall_mem_map]
    intro i _
    have hholds : ∀ o ∈ period, (cellOf zonedParts period i).holds zonedParts o = decide (slotOf zonedParts o = i) :=
      fun o _ => holds_cellOf zonedParts i o
    have hfilter : period.filter ((cellOf zonedParts period i).holds zonedParts) = inSlot zonedParts period i :=
      List.filter_congr hholds
    refine ⟨congrArg List.length hfilter.symm, ?_⟩
    exact (parseMoneyToCents_centsToMoneyString _).trans (congrArg (some <| revenueOf ·) hfilter.symm)

end Komanda.Analytics
