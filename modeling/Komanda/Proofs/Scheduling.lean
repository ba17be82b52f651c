import Mathlib.Data.List.Nodup
import Komanda.Lib.Grouping
import Komanda.Scheduling

/-!
# The pickup slots that the checkout offers

The generator walks the grid, the validator tests one instant; both come down to `matchesHours`. The groups of the loop
are those of `Grouping` (`toGroup_addSlot`), so an instant is offered when the loop visits it, the hours match and its
local date is one of the first that have such an instant.
-/

namespace Komanda
open Grouping

/-! ## The validator -/

theorem hasOpeningHours_of_mem {hours : OpeningHours} {day : Weekday} {range : MinuteOfDay × MinuteOfDay}
    (h : range ∈ hours day) : hasOpeningHours hours := by
  refine List.any_eq_true.2 ⟨day, by cases day <;> decide, ?_⟩
  rw [List.isEmpty_eq_false_iff.2 (List.ne_nil_of_mem h)]
  rfl

theorem matchesHours_some {hours : OpeningHours} {day : Weekday} {m : MinuteOfDay} :
    matchesHours (some hours) day m ↔ ∃ range ∈ hours day, range.1 ≤ m ∧ m ≤ range.2 := by
  simp [matchesHours]

/-- An instant is accepted when it is neither too near nor too far, and the hours match. -/
theorem validate_ok_iff {tenant : PublicTenant} {now t : Instant} :
    validateScheduledPickupTime (some t) now tenant = .ok (some t) ↔
      (now + 10 * 60 * 1000 ≤ t ∧ t ≤ now + 7 * dayMs) ∧
        matchesHours tenant.openingHours (tenant.zonedParts t).1 (tenant.zonedParts t).2 := by
  have hweek : 7 * dayMs = 7 * 24 * 60 * 60 * 1000 := by decide
  rw [hweek]
  unfold validateScheduledPickupTime
  dsimp only
  by_cases hnear : t < now + 10 * 60 * 1000
  · rw [if_pos hnear]
    refine ⟨fun h => ?_, fun h => absurd h.1.1 (Nat.not_le.2 hnear)⟩
    cases h
  by_cases hfar : t > now + 7 * 24 * 60 * 60 * 1000
  · rw [if_neg hnear, if_pos hfar]
    refine ⟨fun h => ?_, fun h => absurd h.1.2 (Nat.not_le.2 hfar)⟩
    cases h
  rw [if_neg hnear, if_neg hfar, and_iff_right ⟨Nat.not_lt.1 hnear, Nat.not_lt.1 hfar⟩]
  cases tenant.openingHours with
  | none =>
    dsimp only [matchesHours]
    split
    · next hclosed => simp [hclosed]
    · next hopen => simp [hopen]
  | some hours =>
    by_cases hmatch : matchesHours (some hours) (tenant.zonedParts t).1 (tenant.zonedParts t).2
    · obtain ⟨range, hrange, -⟩ := matchesHours_some.1 hmatch
      dsimp only [matchesHours] at hmatch ⊢
      rw [if_neg (not_not_intro (hasOpeningHours_of_mem hrange)), if_pos hmatch]
      exact ⟨fun _ => hmatch, fun _ => rfl⟩
    · refine ⟨fun h => ?_, fun h => absurd h hmatch⟩
      dsimp only [matchesHours] at hmatch h
      rw [if_neg hmatch] at h
      split at h
      · cases h
      · cases h

/-! ## The grid -/

/-- Rounding up to a multiple of `q` gives the least one that is not below. -/
theorem roundUp_le_iff {a t q : ℕ} (hq : 0 < q) (h : t % q = 0) : (a + (q - 1)) / q * q ≤ t ↔ a ≤ t := by
  obtain ⟨k, rfl⟩ := Nat.dvd_of_mod_eq_zero h
  rw [Nat.mul_comm q k, Nat.mul_le_mul_right_iff hq, ← Nat.lt_succ_iff, Nat.div_lt_iff_lt_mul hq, Nat.succ_mul]
  omega

/-- The multiples of `q` from one of them up to `last`. -/
theorem mem_grid {first last t q : ℕ} (hq : 0 < q) (h : first % q = 0) :
    t ∈ List.range' first ((last + q - first) / q) q ↔ t % q = 0 ∧ first ≤ t ∧ t ≤ last := by
  rw [List.mem_range']
  constructor
  · rintro ⟨i, hi, rfl⟩
    have hlast : q * (i + 1) ≤ last + q - first := by
      rw [Nat.mul_comm]
      exact (Nat.le_div_iff_mul_le hq).1 hi
    refine ⟨by rw [Nat.add_mul_mod_self_left, h], Nat.le_add_right _ _, ?_⟩
    rw [Nat.mul_succ] at hlast
    omega
  · rintro ⟨hgrid, hfirst, hlast⟩
    have hsteps : q * ((t - first) / q) = t - first :=
      Nat.mul_div_cancel' (Nat.dvd_of_mod_eq_zero (Nat.sub_mod_eq_zero_of_mod_eq (hgrid.trans h.symm)))
    refine ⟨(t - first) / q, (Nat.le_div_iff_mul_le hq).2 ?_, ?_⟩
    · rw [Nat.succ_mul, Nat.mul_comm, hsteps]
      omega
    · rw [hsteps]
      omega

section Grid
variable {now t : Instant} {maxDays : Nat}

theorem mem_visited :
    t ∈ visited now maxDays ↔ t % quarterMs = 0 ∧ now + leadMs ≤ t ∧ t ≤ endMs now maxDays := by
  have hq : 0 < quarterMs := by decide
  have hstart : startMs now % quarterMs = 0 := Nat.mul_mod_left _ _
  rw [visited, mem_grid hq hstart]
  refine and_congr_right fun hgrid => and_congr_left fun _ => ?_
  exact roundUp_le_iff hq hgrid

theorem visited_increasing : (visited now maxDays).Pairwise (· < ·) := by
  have hq : 0 < quarterMs := by decide
  exact List.pairwise_lt_range' quarterMs hq

end Grid

/-! ## The groups -/

/-- A group of the loop as a group of instants. -/
def ScheduledDayGroup.toGroup (group : ScheduledDayGroup) : String × List Instant :=
  (group.dateKey, group.slots.map (·.iso))

section Groups
variable {tenant : PublicTenant} {localDate : Instant → LocalDate} {now : Instant} {maxDays : Nat}

theorem toGroup_addSlot (groups : List ScheduledDayGroup) (ms : Instant) :
    (addSlot tenant localDate now maxDays groups ms).map (·.toGroup) =
      add (fun t => (localDate t).dateKey) maxDays (groups.map (·.toGroup)) ms := by
  have hany : (groups.map (·.toGroup)).any (·.1 = (localDate ms).dateKey) =
      groups.any (·.dateKey = (localDate ms).dateKey) := by
    rw [List.any_map]
    rfl
  rw [addSlot, add, hany, List.length_map]
  split
  · rw [List.map_map, List.map_map]
    refine List.map_congr_left fun group _ => ?_
    dsimp only [Function.comp_apply, ScheduledDayGroup.toGroup]
    split
    · rw [List.map_append, List.map_singleton]
    · rfl
  · split
    · rfl
    · rw [List.map_append]
      rfl

theorem toGroup_foldl (l : List Instant) (groups : List ScheduledDayGroup) :
    (l.foldl (addSlot tenant localDate now maxDays) groups).map (·.toGroup) =
      l.foldl (add (fun t => (localDate t).dateKey) maxDays) (groups.map (·.toGroup)) := by
  induction l generalizing groups with
  | nil => rfl
  | cons ms l ih => rw [List.foldl_cons, List.foldl_cons, ih, toGroup_addSlot]

/-- A group is labelled by its first slot, and each slot by its own local time. -/
def ScheduledDayGroup.Labelled (tenant : PublicTenant) (localDate : Instant → LocalDate) (now : Instant)
    (group : ScheduledDayGroup) : Prop :=
  (∃ slot, group.slots.head? = some slot ∧ group.label = dayLabel tenant localDate now slot.iso) ∧
    ∀ slot ∈ group.slots, slot.label = (tenant.zonedParts slot.iso).2

theorem labelled_addSlot {groups : List ScheduledDayGroup} {ms : Instant}
    (h : ∀ group ∈ groups, group.Labelled tenant localDate now) :
    ∀ group ∈ addSlot tenant localDate now maxDays groups ms, group.Labelled tenant localDate now := by
  intro group hgroup
  dsimp only [addSlot] at hgroup
  split at hgroup
  · obtain ⟨g, hg, rfl⟩ := List.mem_map.1 hgroup
    obtain ⟨⟨first, hfirst, hlabel⟩, hslots⟩ := h g hg
    split
    · refine ⟨⟨first, ?_, hlabel⟩, fun slot hslot => ?_⟩
      · rw [List.head?_append, hfirst]
        rfl
      · rcases List.mem_append.1 hslot with hslot | hslot
        · exact hslots slot hslot
        · rw [List.mem_singleton.1 hslot]
    · exact h g hg
  · split at hgroup
    · exact h group hgroup
    · rcases List.mem_append.1 hgroup with hgroup | hgroup
      · exact h group hgroup
      · rw [List.mem_singleton.1 hgroup]
        refine ⟨⟨_, rfl, rfl⟩, fun slot hslot => ?_⟩
        rw [List.mem_singleton.1 hslot]

theorem labelled_foldl (l : List Instant) {groups : List ScheduledDayGroup}
    (h : ∀ group ∈ groups, group.Labelled tenant localDate now) :
    ∀ group ∈ l.foldl (addSlot tenant localDate now maxDays) groups, group.Labelled tenant localDate now := by
  induction l generalizing groups with
  | nil => exact h
  | cons ms l ih => exact ih (labelled_addSlot h)

end Groups

/-! ## What is offered -/

/-- The instants that the loop visits and the hours match. -/
def openInstants (tenant : PublicTenant) (now : Instant) (maxDays : Nat) : List Instant :=
  (visited now maxDays).filter fun t => matchesHours tenant.openingHours (tenant.zonedParts t).1 (tenant.zonedParts t).2

/-- An instant that may be offered: on the grid, with the lead time, and accepted as a pickup time. -/
def Offerable (tenant : PublicTenant) (now t : Instant) : Prop :=
  t % quarterMs = 0 ∧ now + leadMs ≤ t ∧ validateScheduledPickupTime (some t) now tenant = .ok (some t)

def ScheduledDayGroup.instants (group : ScheduledDayGroup) : List Instant := group.slots.map (·.iso)

/-- The groups offer what is offerable on the first `daysAhead` local dates, each instant once and in order, in the one
group of its local date. -/
structure OffersExactly (tenant : PublicTenant) (localDate : Instant → LocalDate) (now : Instant) (daysAhead : Nat)
    (groups : List ScheduledDayGroup) : Prop where
  slots : ∀ t, t ∈ groups.flatMap (·.instants) ↔
    Offerable tenant now t ∧
      AmongFirst (Offerable tenant now) (fun t => (localDate t).dateKey) daysAhead (localDate t).dateKey
  once : (groups.flatMap (·.instants)).Nodup
  increasing : ∀ group ∈ groups, group.instants.Pairwise (· < ·)
  dates : (groups.map (·.dateKey)).Nodup
  dated : ∀ group ∈ groups, ∀ t ∈ group.instants, (localDate t).dateKey = group.dateKey
  labelled : ∀ group ∈ groups, group.Labelled tenant localDate now

section Offers
variable {tenant : PublicTenant} {localDate : Instant → LocalDate} {now : Instant} {daysAhead : Nat}

theorem mem_openInstants (h : daysAhead ≤ 7) {t : Instant} :
    t ∈ openInstants tenant now daysAhead ↔ Offerable tenant now t := by
  have hend : endMs now daysAhead = now + 7 * dayMs := by rw [endMs, Nat.max_eq_right h]
  have hlead : now + leadMs ≤ t → now + 10 * 60 * 1000 ≤ t := fun hle =>
    Nat.le_trans (Nat.add_le_add_left (by decide) now) hle
  rw [openInstants, List.mem_filter, mem_visited, Offerable, validate_ok_iff, hend]
  constructor
  · rintro ⟨⟨hgrid, hle, hlast⟩, hmatch⟩
    exact ⟨hgrid, hle, ⟨hlead hle, hlast⟩, hmatch⟩
  · rintro ⟨hgrid, hle, ⟨-, hlast⟩, hmatch⟩
    exact ⟨⟨hgrid, hle, hlast⟩, hmatch⟩

theorem openInstants_increasing : (openInstants tenant now daysAhead).Pairwise (· < ·) := visited_increasing.filter _

theorem openInstants_of_closed {hours : OpeningHours} (h : tenant.openingHours = some hours)
    (hclosed : ¬ hasOpeningHours hours) : openInstants tenant now daysAhead = [] := by
  refine List.filter_eq_nil_iff.2 fun t _ hmatch => ?_
  rw [h] at hmatch
  obtain ⟨range, hrange, -⟩ := matchesHours_some.1 hmatch
  exact hclosed (hasOpeningHours_of_mem hrange)

theorem labelled_openInstants :
    ∀ group ∈ (openInstants tenant now daysAhead).foldl (addSlot tenant localDate now daysAhead) [],
      group.Labelled tenant localDate now :=
  labelled_foldl _ fun _ hgroup => absurd hgroup List.not_mem_nil

/-- The loop adds what is offered, and leaves no group empty. -/
theorem generate_eq : generateScheduledDaysAndSlots tenant localDate now daysAhead =
    (openInstants tenant now daysAhead).foldl (addSlot tenant localDate now daysAhead) [] := by
  have hfilter : ((openInstants tenant now daysAhead).foldl (addSlot tenant localDate now daysAhead) []).filter
      (fun group => !group.slots.isEmpty) =
      (openInstants tenant now daysAhead).foldl (addSlot tenant localDate now daysAhead) [] := by
    refine List.filter_eq_self.2 fun group hgroup => ?_
    obtain ⟨⟨slot, hslot, -⟩, -⟩ := labelled_openInstants group hgroup
    cases hslots : group.slots with
    | nil =>
      rw [hslots] at hslot
      cases hslot
    | cons first rest => rfl
  rw [generateScheduledDaysAndSlots]
  split
  · next hnone =>
    obtain ⟨hours, hhours, hclosed⟩ := (Option.any_eq_true _ _).1 hnone
    rw [openInstants_of_closed hhours (of_decide_eq_true hclosed)]
    rfl
  · rw [← hfilter, openInstants, List.foldl_filter]

theorem generated : Grouped (fun t => (localDate t).dateKey) daysAhead (openInstants tenant now daysAhead)
    ((generateScheduledDaysAndSlots tenant localDate now daysAhead).map (·.toGroup)) := by
  rw [generate_eq, toGroup_foldl]
  exact grouped openInstants_increasing

theorem mem_instants {groups : List ScheduledDayGroup} {t : Instant} :
    t ∈ groups.flatMap (·.instants) ↔ ∃ g ∈ groups.map (·.toGroup), t ∈ g.2 := by
  rw [List.mem_flatMap]
  constructor
  · rintro ⟨group, hgroup, ht⟩
    exact ⟨group.toGroup, List.mem_map_of_mem hgroup, ht⟩
  · rintro ⟨g, hg, ht⟩
    obtain ⟨group, hgroup, rfl⟩ := List.mem_map.1 hg
    exact ⟨group, hgroup, ht⟩

theorem OffersExactly.of_grouped {groups : List ScheduledDayGroup} (h : daysAhead ≤ 7)
    (hgrouped : Grouped (fun t => (localDate t).dateKey) daysAhead (openInstants tenant now daysAhead)
      (groups.map (·.toGroup)))
    (hlabelled : ∀ group ∈ groups, group.Labelled tenant localDate now) :
    OffersExactly tenant localDate now daysAhead groups := by
  have helements (group) (hgroup : group ∈ groups) :
      group.instants = (openInstants tenant now daysAhead).filter fun t => (localDate t).dateKey = group.dateKey :=
    hgrouped.elements group.toGroup (List.mem_map_of_mem hgroup)
  have hdated (group) (hgroup : group ∈ groups) (t) (ht : t ∈ group.instants) :
      (localDate t).dateKey = group.dateKey := by
    rw [helements group hgroup] at ht
    exact of_decide_eq_true (List.mem_filter.1 ht).2
  have hincreasing (group) (hgroup : group ∈ groups) : group.instants.Pairwise (· < ·) := by
    rw [helements group hgroup]
    exact openInstants_increasing.filter _
  have hdates : (groups.map (·.dateKey)).Nodup := by
    have hkeys := hgrouped.keys
    rwa [List.map_map] at hkeys
  refine ⟨fun t => ?_, ?_, hincreasing, hdates, hdated, hlabelled⟩
  · have hopen : (· ∈ openInstants tenant now daysAhead) = Offerable tenant now :=
      funext fun t => propext (mem_openInstants h)
    rw [mem_instants, hgrouped.mem_iff, hopen, mem_openInstants h]
  · refine List.nodup_flatMap.2 ⟨fun group hgroup => (hincreasing group hgroup).imp Nat.ne_of_lt, ?_⟩
    refine (List.pairwise_map.1 hdates).imp_of_mem fun ha hb hne t hta htb => ?_
    exact hne ((hdated _ ha t hta).symm.trans (hdated _ hb t htb))

theorem offers_exactly (h : daysAhead ≤ 7) : OffersExactly tenant localDate now daysAhead
    (generateScheduledDaysAndSlots tenant localDate now daysAhead) := by
  refine .of_grouped h generated ?_
  rw [generate_eq]
  exact labelled_openInstants

end Offers

/-- A store that opens on Thursdays from 13:00 to 14:00, with the days of the epoch as its local dates. -/
def thursdays : PublicTenant where
  locationId := "location"
  currency := "ARS"
  expressRetail := false
  openingHours := some fun day => if day = .thursday then [(13 * 60, 14 * 60)] else []
  zonedParts t := (if t / dayMs % 7 = 0 then .thursday else .friday, t / 60000 % 1440)

def epochDate (t : Instant) : LocalDate :=
  if t / dayMs = 0 then { dateKey := "1970-01-01", dayMonth := "01/01" }
  else { dateKey := "1970-01-08", dayMonth := "08/01" }

theorem offers_exactly_thursday : 7 ≤ 7 ∧ OffersExactly thursdays epochDate 0 7
    [{ dateKey := "1970-01-01", label := "Hoy", slots :=
      [⟨780, 46800000⟩, ⟨795, 47700000⟩, ⟨810, 48600000⟩, ⟨825, 49500000⟩, ⟨840, 50400000⟩] }] := by
  have hgenerated : generateScheduledDaysAndSlots thursdays epochDate 0 7 =
      [{ dateKey := "1970-01-01", label := "Hoy", slots :=
        [⟨780, 46800000⟩, ⟨795, 47700000⟩, ⟨810, 48600000⟩, ⟨825, 49500000⟩, ⟨840, 50400000⟩] }] := by
    decide +kernel
  exact ⟨Nat.le_refl 7, hgenerated ▸ offers_exactly (Nat.le_refl 7)⟩

end Komanda
