import Komanda.OpeningHoursText
import Komanda.Proofs.OpeningHours
import Mathlib.Data.List.SplitBy

/-!
# The lines of the opening hours

The two loops split the week into runs of days with the same text (`linesFrom_eq`). The texts of two days are the same
exactly when their ranges are (`scheduleOf_eq_iff`): every range that the schema accepts has thirteen characters.
-/

namespace Komanda

/-! ## The law -/

/-- The week in runs of days with equal ranges, each as long as possible. -/
structure WeekRuns (hours : Weekday → List RangeInput) (runs : List (List Weekday)) : Prop where
  cover : runs.flatten = weekdays
  nonempty : [] ∉ runs
  equal : ∀ run ∈ runs, ∀ d ∈ run, ∀ d' ∈ run, hours d = hours d'
  maximal : runs.IsChain fun a b => ∀ d ∈ a, ∀ d' ∈ b, hours d ≠ hours d'

/-- The line names the first day of the run, and the last if it is another, and has the ranges of every day of it. -/
structure ShowsRun (hours : Weekday → List RangeInput) (run : List Weekday) (line : OpeningHoursLine) : Prop where
  days : ∃ first last, run.head? = some first ∧ run.getLast? = some last ∧
    line.days = if run.length = 1 then first.shortLabel else first.shortLabel ++ " a " ++ last.shortLabel
  schedule : ∀ day ∈ run, line.schedule = scheduleOf hours day

/-- The lines are the runs of the week, in order, and a schedule tells the ranges. -/
structure CoversWeek (hours : Weekday → List RangeInput) (lines : List OpeningHoursLine) : Prop where
  runs : ∃ runs, (∀ runs', WeekRuns hours runs' ↔ runs' = runs) ∧ List.Forall₂ (ShowsRun hours) runs lines
  exact : ∀ d d', scheduleOf hours d = scheduleOf hours d' ↔ hours d = hours d'

/-! ## Runs of equal keys -/

section Runs
variable {α β : Type} [DecidableEq β] {key : α → β}

/-- A chain of equal keys has one key. -/
theorem chain_equal_iff {run : List α} : (run.IsChain fun x y => decide (key x = key y) = true) ↔
    ∀ x ∈ run, ∀ y ∈ run, key x = key y := by
  have htrans : Trans (fun x y => decide (key x = key y) = true) (fun x y => decide (key x = key y) = true)
      (fun x y => decide (key x = key y) = true) :=
    ⟨fun h h' => decide_eq_true ((of_decide_eq_true h).trans (of_decide_eq_true h'))⟩
  have hsymm : Std.Symm (fun x y => decide (key x = key y) = true) :=
    ⟨fun _ _ h => decide_eq_true (of_decide_eq_true h).symm⟩
  rw [List.isChain_iff_pairwise]
  constructor
  · intro h x hx y hy
    have heq := h.forall_of_forall (fun _ _ => decide_eq_true rfl) hx hy
    exact of_decide_eq_true heq
  · intro h
    refine List.pairwise_iff_forall_sublist.2 fun {x y} hsub => decide_eq_true (h x ?_ y ?_)
    · exact hsub.subset List.mem_cons_self
    · exact hsub.subset (List.mem_cons_of_mem _ List.mem_cons_self)

theorem splitBy_cons (a : α) (l : List α) :
    (a :: l).splitBy (fun x y => key x = key y) =
      (a :: l.takeWhile (key · = key a)) :: (l.dropWhile (key · = key a)).splitBy (fun x y => key x = key y) := by
  have hrun : ∀ x ∈ a :: l.takeWhile (key · = key a), key x = key a := by
    intro x hx
    rcases List.mem_cons.1 hx with rfl | hx
    · rfl
    · have hsame := List.mem_takeWhile_imp hx
      exact of_decide_eq_true hsame
  have hsplit : a :: l = (a :: l.takeWhile (key · = key a)) ++ l.dropWhile (key · = key a) := by
    rw [List.cons_append, List.takeWhile_append_dropWhile]
  have hchain := chain_equal_iff.2 fun x hx y hy => (hrun x hx).trans (hrun y hy).symm
  rw [hsplit, List.splitBy_append, List.splitBy_of_isChain (List.cons_ne_nil _ _) hchain]
  · rfl
  · intro x hx y hy
    have hother : decide (key y = key a) = false := by
      have hhead := List.head?_dropWhile_not (key · = key a) l
      rw [Option.mem_def.1 hy] at hhead
      exact hhead
    rw [hrun x (List.mem_of_getLast? hx)]
    exact decide_eq_false fun heq => of_decide_eq_false hother heq.symm

theorem drop_takeWhile (p : α → Bool) (l : List α) : l.drop (l.takeWhile p).length = l.dropWhile p := by
  have h : (l.takeWhile p ++ l.dropWhile p).drop (l.takeWhile p).length = l.dropWhile p := List.drop_left
  rwa [List.takeWhile_append_dropWhile] at h

/-- The last element that a prefix takes. -/
theorem getLast?_takeWhile (p : α → Bool) (l : List α) (h : (l.takeWhile p).length ≠ 0) :
    (l.takeWhile p).getLast? = l[(l.takeWhile p).length - 1]? := by
  have hprefix := List.prefix_iff_getElem?.1 (List.takeWhile_prefix p (l := l)) ((l.takeWhile p).length - 1) (by omega)
  rw [List.getLast?_eq_getElem?, hprefix]
  exact List.getElem?_eq_getElem _

end Runs

/-! ## The loops -/

section Loops
variable {hours : Weekday → List RangeInput}

theorem drop_weekdays {i : ℕ} (h : i < weekdays.length) : weekdays.drop i = weekdays[i] :: weekdays.drop (i + 1) :=
  List.drop_eq_getElem_cons h

/-- The inner loop passes the days with the same schedule. -/
theorem lastDay_eq (schedule : String) (last : ℕ) :
    lastDay hours schedule last =
      last + ((weekdays.drop (last + 1)).takeWhile (scheduleOf hours · = schedule)).length := by
  induction last using lastDay.induct hours schedule with
  | case1 last h hsame ih =>
    rw [lastDay, dif_pos h, if_pos hsame, ih, drop_weekdays h, List.takeWhile_cons,
      if_pos (decide_eq_true hsame), List.length_cons]
    omega
  | case2 last h hother =>
    have hstop : ¬ decide (scheduleOf hours weekdays[last + 1] = schedule) = true := fun hsame =>
      hother (of_decide_eq_true hsame)
    rw [lastDay, dif_pos h, if_neg hother, drop_weekdays h, List.takeWhile_cons, if_neg hstop]
    rfl
  | case3 last h =>
    rw [lastDay, dif_neg h, List.drop_eq_nil_of_le (Nat.le_of_not_lt h)]
    rfl

/-- The line of a run. -/
def lineOf (hours : Weekday → List RangeInput) : List Weekday → OpeningHoursLine
  | [] => { days := "", schedule := "" }
  | first :: rest =>
    { days := match rest.getLast? with
        | none => first.shortLabel
        | some last => first.shortLabel ++ " a " ++ last.shortLabel
      schedule := scheduleOf hours first }

/-- The outer loop writes a line for every run. -/
theorem linesFrom_eq (index : ℕ) : linesFrom hours index =
    ((weekdays.drop index).splitBy fun x y => scheduleOf hours x = scheduleOf hours y).map (lineOf hours) := by
  induction index using linesFrom.induct hours with
  | case1 index h schedule last ih =>
    have hlast : last = index + ((weekdays.drop (index + 1)).takeWhile (scheduleOf hours · = schedule)).length :=
      lastDay_eq schedule index
    have hrest : weekdays.drop (last + 1) =
        (weekdays.drop (index + 1)).dropWhile (scheduleOf hours · = schedule) := by
      rw [← drop_takeWhile, List.drop_drop, hlast]
      congr 1
      omega
    rw [linesFrom, dif_pos h]
    dsimp only
    rw [drop_weekdays h, splitBy_cons, List.map_cons, ih, hrest]
    refine congrArg (· :: _) ?_
    rw [lineOf]
    by_cases hone : ((weekdays.drop (index + 1)).takeWhile (scheduleOf hours · = schedule)).length = 0
    · have hsame : index = lastDay hours schedule index := by
        rw [lastDay_eq, hone, Nat.add_zero]
      rw [if_pos hsame, List.eq_nil_of_length_eq_zero hone]
      rfl
    · have hother : ¬ index = lastDay hours schedule index := by
        rw [lastDay_eq]
        omega
      have hindex : lastDay hours schedule index = index + 1 +
          (((weekdays.drop (index + 1)).takeWhile (scheduleOf hours · = schedule)).length - 1) := by
        rw [lastDay_eq]
        omega
      have hlastDay := getLast?_takeWhile (scheduleOf hours · = schedule) (weekdays.drop (index + 1)) hone
      rw [List.getElem?_drop, ← hindex] at hlastDay
      obtain ⟨day, hday⟩ : ∃ day, weekdays[lastDay hours schedule index]? = some day := by
        rw [← hlastDay, ← Option.isSome_iff_exists, List.getLast?_isSome]
        exact fun hnil => hone (congrArg List.length hnil)
      rw [if_neg hother, hlastDay, hday]
      rfl
  | case2 index h =>
    rw [linesFrom, dif_neg h, List.drop_eq_nil_of_le (Nat.le_of_not_lt h)]
    rfl

end Loops

/-! ## The texts -/

section Texts
variable {r r' : RangeInput} {rs rs' : List RangeInput}

theorem length_of_timePattern {text : String} (h : timePattern text = true) : text.toList.length = 5 := by
  obtain ⟨_, _, _, _, ht⟩ := timeText_of_timePattern h
  rw [ht.toList]
  rfl

theorem toList_formatRange (r : RangeInput) : (formatRange r).toList = r.1.toList ++
    (' ' :: 'a' :: ' ' :: r.2.toList) := by
  rw [formatRange, String.toList_append, String.toList_append, List.append_assoc]
  rfl

theorem length_formatRange (h : openingHoursRangeSchema r = true) : (formatRange r).toList.length = 13 := by
  obtain ⟨hopen, hclose⟩ := Bool.and_eq_true_iff.1 h
  rw [toList_formatRange, List.length_append, length_of_timePattern hopen, List.length_cons, List.length_cons,
    List.length_cons, length_of_timePattern hclose]

theorem formatRange_inj (h : openingHoursRangeSchema r = true) (h' : openingHoursRangeSchema r' = true)
    (heq : (formatRange r).toList = (formatRange r').toList) : r = r' := by
  obtain ⟨hopen, -⟩ := Bool.and_eq_true_iff.1 h
  obtain ⟨hopen', -⟩ := Bool.and_eq_true_iff.1 h'
  rw [toList_formatRange, toList_formatRange] at heq
  obtain ⟨hopens, hcloses⟩ := List.append_inj heq ((length_of_timePattern hopen).trans (length_of_timePattern hopen').symm)
  simp only [List.cons.injEq, true_and] at hcloses
  exact Prod.ext (String.toList_inj.1 hopens) (String.toList_inj.1 hcloses)

/-- The characters of the ranges of a day. -/
theorem toList_join (r : RangeInput) (rs : List RangeInput) :
    (" · ".intercalate ((r :: rs).map formatRange)).toList =
      (formatRange r).toList ++ rs.flatMap fun r => ' ' :: '·' :: ' ' :: (formatRange r).toList := by
  induction rs generalizing r with
  | nil => rw [List.map_singleton, String.intercalate_singleton, List.flatMap_nil, List.append_nil]
  | cons r' rs ih =>
    rw [List.map_cons, List.map_cons, String.intercalate_cons_cons, ← List.map_cons, String.toList_append, ih,
      String.toList_append, List.flatMap_cons, List.append_assoc]
    rfl

theorem flatMap_inj (h : ∀ r ∈ rs, openingHoursRangeSchema r = true) (h' : ∀ r ∈ rs', openingHoursRangeSchema r = true)
    (heq : (rs.flatMap fun r => ' ' :: '·' :: ' ' :: (formatRange r).toList) =
      rs'.flatMap fun r => ' ' :: '·' :: ' ' :: (formatRange r).toList) : rs = rs' := by
  induction rs generalizing rs' with
  | nil =>
    cases rs' with
    | nil => rfl
    | cons r' rs' => cases heq
  | cons r rs ih =>
    cases rs' with
    | nil => cases heq
    | cons r' rs' =>
      obtain ⟨hr, hrs⟩ := List.forall_mem_cons.1 h
      obtain ⟨hr', hrs'⟩ := List.forall_mem_cons.1 h'
      rw [List.flatMap_cons, List.flatMap_cons] at heq
      simp only [List.cons_append, List.cons.injEq, true_and] at heq
      obtain ⟨hfirst, hrest⟩ := List.append_inj heq ((length_formatRange hr).trans (length_formatRange hr').symm)
      rw [formatRange_inj hr hr' hfirst, ih hrs hrs' hrest]

/-- The schedule of a day tells its ranges. -/
theorem scheduleOf_eq_iff {hours : Weekday → List RangeInput}
    (h : ∀ day, ∀ r ∈ hours day, openingHoursRangeSchema r = true) {d d' : Weekday} :
    scheduleOf hours d = scheduleOf hours d' ↔ hours d = hours d' := by
  refine ⟨fun heq => ?_, fun heq => by rw [scheduleOf, scheduleOf, heq]⟩
  have hopen : ∀ day r rs, hours day = r :: rs → (scheduleOf hours day).toList =
      (formatRange r).toList ++ rs.flatMap fun r => ' ' :: '·' :: ' ' :: (formatRange r).toList := by
    intro day r rs hday
    rw [scheduleOf, hday, if_pos (show (r :: rs).length > 0 from Nat.succ_pos _), toList_join]
  have hclosed : ∀ day, hours day = [] → (scheduleOf hours day).toList.length = 7 := by
    intro day hday
    rw [scheduleOf, hday, if_neg (show ¬ ([] : List RangeInput).length > 0 from Nat.lt_irrefl 0)]
    rfl
  have hlong : ∀ day r rs, hours day = r :: rs → 13 ≤ (scheduleOf hours day).toList.length := by
    intro day r rs hday
    have hr := h day r (hday ▸ List.mem_cons_self)
    rw [hopen day r rs hday, List.length_append, length_formatRange hr]
    exact Nat.le_add_right _ _
  cases hd : hours d with
  | nil =>
    cases hd' : hours d' with
    | nil => rfl
    | cons r' rs' =>
      have hlen := hlong d' r' rs' hd'
      rw [← heq, hclosed d hd] at hlen
      omega
  | cons r rs =>
    cases hd' : hours d' with
    | nil =>
      have hlen := hlong d r rs hd
      rw [heq, hclosed d' hd'] at hlen
      omega
    | cons r' rs' =>
      obtain ⟨hr, hrs⟩ := List.forall_mem_cons.1 (hd ▸ h d)
      obtain ⟨hr', hrs'⟩ := List.forall_mem_cons.1 (hd' ▸ h d')
      have hlists := congrArg String.toList heq
      rw [hopen d r rs hd, hopen d' r' rs' hd'] at hlists
      obtain ⟨hfirst, hrest⟩ := List.append_inj hlists ((length_formatRange hr).trans (length_formatRange hr').symm)
      rw [formatRange_inj hr hr' hfirst, flatMap_inj hrs hrs' hrest]

end Texts

/-! ## The week -/

section Week
variable {δ : Type} {hours : Weekday → List RangeInput}

/-- The ranges of a day are those of an accepted value, in the order of their opening. -/
theorem normalizedRanges_accepted (value : Json.Value δ) (day : Weekday) :
    ∀ r ∈ normalizedRanges value day, openingHoursRangeSchema r = true := by
  intro r hr
  rw [normalizedRanges] at hr
  split at hr
  · exact absurd hr List.not_mem_nil
  · next input _ =>
    split at hr
    · next haccepted =>
      have hmem : r ∈ (input day).getD [] := List.mem_mergeSort.1 hr
      have hday := List.all_eq_true.1 haccepted day (by cases day <;> decide)
      cases hranges : input day with
      | none => rw [hranges] at hmem; exact absurd hmem List.not_mem_nil
      | some ranges =>
        rw [hranges] at hmem hday
        exact List.all_eq_true.1 (Bool.and_eq_true_iff.1 hday).2 r hmem
    · exact absurd hr List.not_mem_nil

/-- The minutes that the scheduler keeps are those of the texts. -/
theorem normalizeOpeningHours_eq {value : Json.Value δ} {input : HoursInput} (h : readHours value = some input)
    (day : Weekday) : normalizeOpeningHours input day =
      (normalizedRanges value day).map fun range => (minuteOf range.1, minuteOf range.2) := by
  rw [normalizeOpeningHours, normalizedRanges, h]
  dsimp only
  split
  · rfl
  · rfl

/-- The runs of the week are what `splitBy` makes of it. -/
theorem weekRuns_iff {runs : List (List Weekday)} :
    WeekRuns hours runs ↔ runs = weekdays.splitBy fun x y => hours x = hours y := by
  rw [eq_comm, List.splitBy_eq_iff]
  constructor
  · rintro ⟨hcover, hnonempty, hequal, hmaximal⟩
    refine ⟨hcover.symm, hnonempty, fun run hrun => chain_equal_iff.2 (hequal run hrun), ?_⟩
    refine hmaximal.imp_of_mem_imp fun a b ha hb hne => ?_
    have hane : a ≠ [] := fun hnil => hnonempty (hnil ▸ ha)
    have hbne : b ≠ [] := fun hnil => hnonempty (hnil ▸ hb)
    exact ⟨hane, hbne, decide_eq_false (hne _ (List.getLast_mem hane) _ (List.head_mem hbne))⟩
  · rintro ⟨hcover, hnonempty, hchains, hmaximal⟩
    have hequal : ∀ run ∈ runs, ∀ d ∈ run, ∀ d' ∈ run, hours d = hours d' := fun run hrun =>
      chain_equal_iff.1 (hchains run hrun)
    refine ⟨hcover.symm, hnonempty, hequal, hmaximal.imp_of_mem_imp fun a b ha hb hne d hd d' hd' heq => ?_⟩
    obtain ⟨hane, hbne, hother⟩ := hne
    have hlast := hequal a ha _ (List.getLast_mem hane) d hd
    have hhead := hequal b hb d' hd' _ (List.head_mem hbne)
    exact of_decide_eq_false hother (hlast.trans (heq.trans hhead))

/-- The line of a run shows it. -/
theorem showsRun_lineOf {run : List Weekday} (hne : run ≠ []) (hequal : ∀ d ∈ run, ∀ d' ∈ run, hours d = hours d') :
    ShowsRun hours run (lineOf hours run) := by
  cases run with
  | nil => exact absurd rfl hne
  | cons first rest =>
    constructor
    · cases hlast : rest.getLast? with
      | none =>
        have hnil := List.getLast?_eq_none_iff.1 hlast
        subst hnil
        exact ⟨first, first, rfl, rfl, rfl⟩
      | some last =>
        have hrest : rest ≠ [] := fun hnil => by rw [hnil] at hlast; cases hlast
        refine ⟨first, last, rfl, ?_, ?_⟩
        · rw [List.getLast?_cons, hlast]
          rfl
        · have hlong : ¬ (first :: rest).length = 1 := fun hone =>
            hrest (List.eq_nil_of_length_eq_zero (Nat.succ.inj hone))
          rw [if_neg hlong, lineOf, hlast]
    · intro day hday
      show scheduleOf hours first = _
      rw [scheduleOf, scheduleOf, hequal first List.mem_cons_self day hday]

end Week

/-- The text of the opening hours has a line for every run of days with equal ranges. -/
theorem opening_hours_cover_week {δ : Type} (value : Json.Value δ) :
    CoversWeek (normalizedRanges value) (formatOpeningHoursLines value) := by
  have hexact : ∀ {d d'}, scheduleOf (normalizedRanges value) d = scheduleOf (normalizedRanges value) d' ↔
      normalizedRanges value d = normalizedRanges value d' := scheduleOf_eq_iff (normalizedRanges_accepted value)
  refine ⟨⟨_, fun runs => weekRuns_iff, ?_⟩, fun _ _ => hexact⟩
  have hlines : formatOpeningHoursLines value = (weekdays.splitBy fun x y =>
      normalizedRanges value x = normalizedRanges value y).map (lineOf (normalizedRanges value)) := by
    rw [formatOpeningHoursLines, linesFrom_eq, List.drop_zero]
    simp only [hexact]
  rw [hlines, List.forall₂_map_right_iff, List.forall₂_same]
  intro run hrun
  have hruns := weekRuns_iff.2 (rfl : _ = weekdays.splitBy fun x y => normalizedRanges value x = normalizedRanges value y)
  exact showsRun_lineOf (fun hnil => hruns.nonempty (hnil ▸ hrun)) (hruns.equal run hrun)

end Komanda
