import Komanda.Proofs.Scheduling

/-!
# Opening ranges that close after midnight

`openingHoursSchema` accepts a range that closes before it opens, and the directory publishes it. The scheduler asks
`open ≤ hhmm ≤ close`, which no time meets there, so that such a range takes effect only where other ranges happen to
cover what it promises. The texts `HH:mm` compare as the minutes that they stand for (`le_iff_minuteOf_le`).
-/

namespace Komanda

/-! ## Texts of the time of day -/

/-- The characters of a text `HH:mm`. -/
structure TimeText (text : String) (h h' m m' : Char) : Prop where
  toList : text.toList = [h, h', ':', m, m']
  hours : 48 ≤ h.toNat ∧ 48 ≤ h'.toNat ∧ h'.toNat ≤ 57
  minutes : 48 ≤ m.toNat ∧ m.toNat ≤ 53 ∧ 48 ≤ m'.toNat ∧ m'.toNat ≤ 57

theorem timeText_of_timePattern {text : String} (h : timePattern text) : ∃ h h' m m', TimeText text h h' m m' := by
  unfold timePattern at h
  split at h
  · next h₁ h₂ colon m₁ m₂ htext =>
    simp only [Bool.and_eq_true, Bool.or_eq_true, beq_iff_eq, decide_eq_true_eq,
      Char.isDigit_iff_toNat] at h
    obtain ⟨⟨⟨hhours, rfl⟩, hm₁, hm₁'⟩, hm₂, hm₂'⟩ := h
    refine ⟨h₁, h₂, m₁, m₂, htext, ?_, hm₁, hm₁', hm₂, hm₂'⟩
    rcases hhours with ⟨rfl | rfl, hdigit⟩ | ⟨⟨rfl, hlow⟩, hhigh⟩
    · exact ⟨by decide, hdigit⟩
    · exact ⟨by decide, hdigit⟩
    · exact ⟨by decide, hlow, Nat.le_trans hhigh (by decide)⟩
  · cases h

theorem TimeText.minuteOf_eq {text : String} {h h' m m' : Char} (ht : TimeText text h h' m m') :
    minuteOf text = (digitOf h * 10 + digitOf h') * 60 + (digitOf m * 10 + digitOf m') := by
  rw [minuteOf, ht.toList]

/-- Four digits compare in turn as the minutes that they stand for. -/
theorem digits_lt_iff {a b c d a' b' c' d' : ℕ} (h : 48 ≤ a ∧ 48 ≤ b ∧ b ≤ 57) (h' : 48 ≤ a' ∧ 48 ≤ b' ∧ b' ≤ 57)
    (hm : 48 ≤ c ∧ c ≤ 53 ∧ 48 ≤ d ∧ d ≤ 57) (hm' : 48 ≤ c' ∧ c' ≤ 53 ∧ 48 ≤ d' ∧ d' ≤ 57) :
    a < a' ∨ a = a' ∧ (b < b' ∨ b = b' ∧ (c < c' ∨ c = c' ∧ d < d')) ↔
      ((a - 48) * 10 + (b - 48)) * 60 + ((c - 48) * 10 + (d - 48)) <
        ((a' - 48) * 10 + (b' - 48)) * 60 + ((c' - 48) * 10 + (d' - 48)) := by
  omega

theorem lt_iff_minuteOf_lt {a b : String} (ha : timePattern a) (hb : timePattern b) :
    a < b ↔ minuteOf a < minuteOf b := by
  obtain ⟨_, _, _, _, ta⟩ := timeText_of_timePattern ha
  obtain ⟨_, _, _, _, tb⟩ := timeText_of_timePattern hb
  have hlt (c d : Char) : c < d ↔ c.toNat < d.toNat := Iff.rfl
  rw [String.lt_iff, ta.toList, tb.toList, ta.minuteOf_eq, tb.minuteOf_eq]
  simp only [List.cons_lt_cons_iff, List.lt_irrefl, hlt, ← Char.toNat_inj, Nat.lt_irrefl, false_or, true_and,
    and_false, or_false]
  exact digits_lt_iff ta.hours tb.hours ta.minutes tb.minutes

theorem le_iff_minuteOf_le {a b : String} (ha : timePattern a) (hb : timePattern b) :
    a ≤ b ↔ minuteOf a ≤ minuteOf b := by
  rw [← String.not_lt, lt_iff_minuteOf_lt hb ha]
  exact Nat.not_lt

/-! ## What a saved range promises -/

/-- A time of the day that the range is saved for: until midnight when it closes before it opens. -/
def RangeInput.covers (range : RangeInput) (hhmm : String) : Prop :=
  range.1 ≤ hhmm ∧ (hhmm ≤ range.2 ∨ range.2 < range.1)

/-- A time after midnight. -/
def RangeInput.coversNextDay (range : RangeInput) (hhmm : String) : Prop := range.2 < range.1 ∧ hhmm ≤ range.2

def OpenAt (value : HoursInput) (day : Weekday) (hhmm : String) : Prop :=
  (∃ range ∈ value.ranges day, range.covers hhmm) ∨
    ∃ yesterday, yesterday.next = day ∧ ∃ range ∈ value.ranges yesterday, range.coversNextDay hhmm

/-- An instant within reach of `now`, at `hhmm` of `day` in a store that has saved `value`. -/
structure WithinReach (value : HoursInput) (day : Weekday) (hhmm : String) (tenant : PublicTenant) (now t : Instant) :
    Prop where
  saved : tenant.openingHours = some (normalizeOpeningHours value)
  localTime : tenant.zonedParts t = (day, minuteOf hhmm)
  near : now + 10 * 60 * 1000 ≤ t
  far : t ≤ now + 7 * dayMs

/-- A time of a weekday at which every instant within reach is accepted. -/
def Schedulable (value : HoursInput) (day : Weekday) (hhmm : String) : Prop :=
  ∀ tenant now t, WithinReach value day hhmm tenant now t →
    validateScheduledPickupTime (some t) now tenant = .ok (some t)

structure TakesEffect (value : HoursInput) : Prop where
  accepts : ∀ day hhmm, timePattern hhmm → ∀ tenant now t, WithinReach value day hhmm tenant now t →
    (validateScheduledPickupTime (some t) now tenant = .ok (some t) ↔ OpenAt value day hhmm)
  schedulable : ∀ day, ∀ range ∈ value.ranges day, ∃ hhmm, timePattern hhmm ∧
    (range.covers hhmm ∧ Schedulable value day hhmm ∨ range.coversNextDay hhmm ∧ Schedulable value day.next hhmm)

/-- A time between the opening and the closing of a range of the day, as texts. -/
def Between (value : HoursInput) (day : Weekday) (hhmm : String) : Prop :=
  ∃ range ∈ value.ranges day, range.1 ≤ hhmm ∧ hhmm ≤ range.2

/-- Where a range closes before it opens, other ranges cover it: on its own day from its opening on, and on the next
day up to its closing. -/
def CoveredPastMidnight (value : HoursInput) : Prop :=
  ∀ day, ∀ range ∈ value.ranges day, range.2 < range.1 → ∀ hhmm, timePattern hhmm →
    (range.1 ≤ hhmm → Between value day hhmm) ∧ (hhmm ≤ range.2 → Between value day.next hhmm)

section Effect
variable {value : HoursInput} {day : Weekday} {hhmm : String} {tenant : PublicTenant} {now t : Instant}

theorem timePattern_of_mem (h : openingHoursSchema value) {range : RangeInput} (hr : range ∈ value.ranges day) :
    timePattern range.1 ∧ timePattern range.2 := by
  have hday := List.all_eq_true.1 h day (by cases day <;> decide)
  unfold HoursInput.ranges at hr
  cases hv : value day with
  | none =>
    rw [hv] at hr
    exact absurd hr List.not_mem_nil
  | some ranges =>
    rw [hv] at hday hr
    have hranges := (Bool.and_eq_true _ _).mp hday
    exact (Bool.and_eq_true _ _).mp (List.all_eq_true.1 hranges.2 range hr)

theorem mem_normalizeOpeningHours (h : openingHoursSchema value) {range : MinuteOfDay × MinuteOfDay} :
    range ∈ normalizeOpeningHours value day ↔ ∃ r ∈ value.ranges day, (minuteOf r.1, minuteOf r.2) = range := by
  rw [normalizeOpeningHours, if_pos h, List.mem_map]
  simp only [List.mem_mergeSort]

/-- The scheduler accepts a time between the opening and the closing of a range of its own day. -/
theorem validate_iff_between (h : openingHoursSchema value) (ht : timePattern hhmm)
    (hr : WithinReach value day hhmm tenant now t) :
    validateScheduledPickupTime (some t) now tenant = .ok (some t) ↔ Between value day hhmm := by
  rw [validate_ok_iff, and_iff_right ⟨hr.near, hr.far⟩, hr.saved, hr.localTime, matchesHours_some]
  constructor
  · rintro ⟨range, hrange, hopen, hclose⟩
    obtain ⟨r, hr, rfl⟩ := (mem_normalizeOpeningHours h).1 hrange
    obtain ⟨h₁, h₂⟩ := timePattern_of_mem h hr
    exact ⟨r, hr, (le_iff_minuteOf_le h₁ ht).2 hopen, (le_iff_minuteOf_le ht h₂).2 hclose⟩
  · rintro ⟨r, hr, hopen, hclose⟩
    obtain ⟨h₁, h₂⟩ := timePattern_of_mem h hr
    exact ⟨_, (mem_normalizeOpeningHours h).2 ⟨r, hr, rfl⟩, (le_iff_minuteOf_le h₁ ht).1 hopen,
      (le_iff_minuteOf_le ht h₂).1 hclose⟩

theorem OpenAt.of_between (h : Between value day hhmm) : OpenAt value day hhmm := by
  obtain ⟨range, hrange, hopen, hclose⟩ := h
  exact .inl ⟨range, hrange, hopen, .inl hclose⟩

theorem CoveredPastMidnight.between (h : CoveredPastMidnight value) (ht : timePattern hhmm)
    (hopen : OpenAt value day hhmm) : Between value day hhmm := by
  rcases hopen with ⟨range, hrange, hle, hclose | hwraps⟩ | ⟨yesterday, rfl, range, hrange, hwraps, hle⟩
  · exact ⟨range, hrange, hle, hclose⟩
  · exact (h day range hrange hwraps hhmm ht).1 hle
  · exact (h yesterday range hrange hwraps hhmm ht).2 hle

theorem CoveredPastMidnight.takesEffect (h : openingHoursSchema value) (hcovered : CoveredPastMidnight value) :
    TakesEffect value := by
  refine ⟨fun day hhmm ht tenant now t hr => ?_, fun day range hrange => ?_⟩
  · rw [validate_iff_between h ht hr]
    exact ⟨OpenAt.of_between, hcovered.between ht⟩
  · obtain ⟨ht, -⟩ := timePattern_of_mem h hrange
    have hcovers : range.covers range.1 := by
      refine ⟨String.le_refl _, ?_⟩
      by_cases hwraps : range.2 < range.1
      · exact .inr hwraps
      · exact .inl (String.not_lt.1 hwraps)
    refine ⟨range.1, ht, .inl ⟨hcovers, fun tenant now t hr => ?_⟩⟩
    exact (validate_iff_between h ht hr).2 (hcovered.between ht (.inl ⟨range, hrange, hcovers⟩))

/-- Some store and some instant have any local time. -/
theorem exists_withinReach (value : HoursInput) (day : Weekday) (hhmm : String) :
    ∃ tenant now t, WithinReach value day hhmm tenant now t := by
  refine ⟨{ locationId := "", currency := "", expressRetail := false,
            openingHours := some (normalizeOpeningHours value), zonedParts := fun _ => (day, minuteOf hhmm) },
    0, 10 * 60 * 1000, rfl, rfl, ?_, ?_⟩
  · decide
  · decide

theorem TakesEffect.between (h : openingHoursSchema value) (heffect : TakesEffect value) (ht : timePattern hhmm)
    (hopen : OpenAt value day hhmm) : Between value day hhmm := by
  obtain ⟨tenant, now, t, hr⟩ := exists_withinReach value day hhmm
  exact (validate_iff_between h ht hr).1 ((heffect.accepts day hhmm ht tenant now t hr).2 hopen)

theorem takesEffect_iff (h : openingHoursSchema value) : TakesEffect value ↔ CoveredPastMidnight value := by
  refine ⟨fun heffect day range hrange hwraps hhmm ht => ⟨fun hopen => ?_, fun hclose => ?_⟩,
    fun hcovered => hcovered.takesEffect h⟩
  · exact heffect.between h ht (.inl ⟨range, hrange, hopen, .inr hwraps⟩)
  · exact heffect.between h ht (.inr ⟨day, rfl, range, hrange, hwraps, hclose⟩)

end Effect

/-- Mondays from 20:00 to 02:00. -/
def lateMondays : HoursInput := fun day => if day = .monday then some [("20:00", "02:00")] else none

/-- A range past midnight beside two that cover it. -/
def coveredMondays : HoursInput
  | .monday => some [("20:00", "02:00"), ("20:00", "23:59")]
  | .tuesday => some [("00:00", "02:00")]
  | _ => none

theorem takesEffect_coveredMondays :
    openingHoursSchema coveredMondays ∧ (TakesEffect coveredMondays ↔ CoveredPastMidnight coveredMondays) := by
  have h : openingHoursSchema coveredMondays := by decide +kernel
  exact ⟨h, takesEffect_iff h⟩

/-- The store is closed at 21:00 of a Monday that it has saved as open from 20:00 on. -/
theorem lateMondays_closed : openingHoursSchema lateMondays ∧ ¬ TakesEffect lateMondays := by
  refine ⟨by decide +kernel, fun heffect => ?_⟩
  let tenant : PublicTenant :=
    { locationId := "location", currency := "ARS", expressRetail := false,
      openingHours := some (normalizeOpeningHours lateMondays), zonedParts := fun _ => (.monday, 21 * 60) }
  have hr : WithinReach lateMondays .monday "21:00" tenant 0 (20 * 60 * 1000) :=
    ⟨rfl, by decide +kernel, by decide, by decide⟩
  have haccepted := (heffect.accepts .monday "21:00" (by decide +kernel) tenant 0 (20 * 60 * 1000) hr).2
    (.inl ⟨("20:00", "02:00"), by decide +kernel, by decide +kernel, .inr (by decide +kernel)⟩)
  exact absurd haccepted (by decide +kernel)

end Komanda
