import Komanda.Lib.JsonValue
import Komanda.Scheduling

/-!
# The text of the opening hours (`features/tenancy/domain/opening-hours.ts`)

`formatOpeningHoursLines` takes whatever is stored. What the strict schema does not read is a week without hours; the
ranges of a day are sorted by their opening and kept as texts here, which `Scheduling` turns into minutes.
-/

namespace Komanda
open Json

/-! ## Reading -/

/-- The `key` of `WEEKDAYS`. -/
def Weekday.key : Weekday → String
  | monday => "monday"
  | tuesday => "tuesday"
  | wednesday => "wednesday"
  | thursday => "thursday"
  | friday => "friday"
  | saturday => "saturday"
  | sunday => "sunday"

def Weekday.shortLabel : Weekday → String
  | monday => "Lun"
  | tuesday => "Mar"
  | wednesday => "Mié"
  | thursday => "Jue"
  | friday => "Vie"
  | saturday => "Sáb"
  | sunday => "Dom"

section Reading
variable {δ : Type}

/-- `z.object(..).strict()`: an object without other keys, which a date is too. -/
def strictFields (keys : List String) : Value δ → Option (List (String × Option (Value δ)))
  | .object fields => if fields.all (keys.contains ·.1) then some fields else none
  | .date _ => some []
  | _ => none

def fieldOf (key : String) (fields : List (String × Option (Value δ))) : Option (Value δ) := (fields.lookup key).join

def readText : Option (Value δ) → Option String
  | some (.string s) => some s
  | _ => none

/-- The shape of `openingHoursRangeSchema`. -/
def readRange (value : Value δ) : Option RangeInput := do
  let fields ← strictFields ["open", "close"] value
  let opens ← readText (fieldOf "open" fields)
  let closes ← readText (fieldOf "close" fields)
  return (opens, closes)

/-- `dayRangeListSchema.optional()` -/
def readDay : Option (Value δ) → Option (Option (List RangeInput))
  | none => some none
  | some (.array ranges) => (ranges.mapM readRange).map some
  | some _ => none

/-- The shape of `openingHoursSchema`. -/
def readHours (value : Value δ) : Option HoursInput := do
  let fields ← strictFields (weekdays.map Weekday.key) value
  if weekdays.all fun day => (readDay (fieldOf day.key fields)).isSome then
    some fun day => (readDay (fieldOf day.key fields)).join
  else none

/-- `normalizeOpeningHours(value)[day] ?? []` -/
def normalizedRanges (value : Value δ) (day : Weekday) : List RangeInput :=
  match readHours value with
  | none => []
  | some hours => if openingHoursSchema hours then (hours.ranges day).mergeSort opensBefore else []

end Reading

/-! ## Writing -/

def formatRange (range : RangeInput) : String := range.1 ++ " a " ++ range.2

structure OpeningHoursLine where
  days : String
  schedule : String
deriving DecidableEq, Repr

def scheduleOf (hours : Weekday → List RangeInput) (day : Weekday) : String :=
  if (hours day).length > 0 then " · ".intercalate ((hours day).map formatRange) else "Cerrado"

/-- The inner loop: the last day up to which the schedule stays the same. -/
def lastDay (hours : Weekday → List RangeInput) (schedule : String) (last : Nat) : Nat :=
  if h : last + 1 < weekdays.length then
    if scheduleOf hours weekdays[last + 1] = schedule then lastDay hours schedule (last + 1) else last
  else last
termination_by weekdays.length - last

theorem le_lastDay (hours : Weekday → List RangeInput) (schedule : String) (last : Nat) :
    last ≤ lastDay hours schedule last := by
  induction last using lastDay.induct hours schedule with
  | case1 last h hsame ih =>
    rw [lastDay, dif_pos h, if_pos hsame]
    exact (Nat.le_succ last).trans ih
  | case2 last h hother => rw [lastDay, dif_pos h, if_neg hother]
  | case3 last h => rw [lastDay, dif_neg h]

/-- The outer loop, from the day at `index` on. -/
def linesFrom (hours : Weekday → List RangeInput) (index : Nat) : List OpeningHoursLine :=
  if h : index < weekdays.length then
    let schedule := scheduleOf hours weekdays[index]
    let last := lastDay hours schedule index
    let firstLabel := weekdays[index].shortLabel
    let lastLabel := (weekdays[last]?.map Weekday.shortLabel).getD ""
    { days := if index = last then firstLabel else firstLabel ++ " a " ++ lastLabel, schedule } ::
      linesFrom hours (last + 1)
  else []
termination_by weekdays.length - index
decreasing_by
  have := le_lastDay hours (scheduleOf hours weekdays[index]) index
  omega

def formatOpeningHoursLines {δ : Type} (value : Value δ) : List OpeningHoursLine := linesFrom (normalizedRanges value) 0

end Komanda
