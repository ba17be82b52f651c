import Komanda.Orders

/-!
# Opening hours and pickup slots

`openingHoursSchema` and `normalizeOpeningHours` (`features/tenancy/domain/opening-hours.ts`), and the slots that the
checkout offers (`generateScheduledDaysAndSlots` of `features/orders/domain/order-scheduling.ts`). What is saved are
texts `HH:mm`, which the scheduler compares as texts; they are kept as minutes of the day once normalized.
-/

namespace Komanda

/-! ## Opening hours -/

/-- An `OpeningHoursRange` as it is sent: the texts of `open` and `close`. -/
abbrev RangeInput := String × String

/-- What `openingHoursSchema` reads; `none` is an absent day. -/
abbrev HoursInput := Weekday → Option (List RangeInput)

/-- `TIME_PATTERN`: `([01]\d|2[0-3]):[0-5]\d` -/
def timePattern (text : String) : Bool :=
  match text.toList with
  | [h, h', colon, m, m'] =>
    ((h == '0' || h == '1') && h'.isDigit || h == '2' && '0' ≤ h' && h' ≤ '3') && colon == ':' &&
      ('0' ≤ m && m ≤ '5') && m'.isDigit
  | _ => false

def openingHoursRangeSchema (range : RangeInput) : Bool := timePattern range.1 && timePattern range.2

/-- Whether `openingHoursSchema` accepts the value. -/
def openingHoursSchema (value : HoursInput) : Bool :=
  weekdays.all fun day => (value day).all fun ranges => ranges.length ≤ 8 && ranges.all openingHoursRangeSchema

/-- The ranges of a day; an absent day has none. -/
def HoursInput.ranges (value : HoursInput) (day : Weekday) : List RangeInput := (value day).getD []

def Weekday.next : Weekday → Weekday
  | monday => tuesday
  | tuesday => wednesday
  | wednesday => thursday
  | thursday => friday
  | friday => saturday
  | saturday => sunday
  | sunday => monday

def digitOf (c : Char) : Nat := c.toNat - '0'.toNat

/-- The minute of the day of a text `HH:mm`. -/
def minuteOf (text : String) : MinuteOfDay :=
  match text.toList with
  | [h, h', _, m, m'] => (digitOf h * 10 + digitOf h') * 60 + (digitOf m * 10 + digitOf m')
  | _ => 0

/-- `localeCompare` of two texts `HH:mm` compares their characters in turn. -/
def opensBefore (a b : RangeInput) : Bool := a.1 ≤ b.1

def normalizeOpeningHours (value : HoursInput) : OpeningHours := fun day =>
  if openingHoursSchema value then
    ((value.ranges day).mergeSort opensBefore).map fun range => (minuteOf range.1, minuteOf range.2)
  else []

/-! ## Pickup slots -/

/-- The date that `getZonedParts` reads off an instant. -/
structure LocalDate where
  dateKey : String
  dayMonth : String
deriving DecidableEq, Repr

structure ScheduledSlot where
  label : MinuteOfDay
  iso : Instant
deriving DecidableEq, Repr

structure ScheduledDayGroup where
  dateKey : String
  label : String
  slots : List ScheduledSlot
deriving DecidableEq, Repr

def weekdayLabelEs : Weekday → String
  | .monday => "Lun"
  | .tuesday => "Mar"
  | .wednesday => "Mié"
  | .thursday => "Jue"
  | .friday => "Vie"
  | .saturday => "Sáb"
  | .sunday => "Dom"

def quarterMs : Nat := 15 * 60 * 1000

def leadMs : Nat := 20 * 60 * 1000

def dayMs : Nat := 24 * 60 * 60 * 1000

/-- The hours test of `generateScheduledDaysAndSlots`. -/
def matchesHours (openingHours : Option OpeningHours) (weekday : Weekday) (hhmm : MinuteOfDay) : Bool :=
  match openingHours with
  | some hours => (hours weekday).any fun range => range.1 ≤ hhmm && hhmm ≤ range.2
  | none => ¬ (hhmm < 9 * 60 ∨ hhmm > 23 * 60 + 30)

section Generator
variable (tenant : PublicTenant) (localDate : Instant → LocalDate) (now : Instant) (maxDays : Nat)

def dayLabel (ms : Instant) : String :=
  if (localDate ms).dateKey = (localDate now).dateKey then "Hoy"
  else if (localDate ms).dateKey = (localDate (now + dayMs)).dateKey then "Mañana"
  else weekdayLabelEs (tenant.zonedParts ms).1 ++ " " ++ (localDate ms).dayMonth

/-- One turn of the loop, for an instant that matches the hours. -/
def addSlot (groups : List ScheduledDayGroup) (ms : Instant) : List ScheduledDayGroup :=
  let dateKey := (localDate ms).dateKey
  let slot : ScheduledSlot := { label := (tenant.zonedParts ms).2, iso := ms }
  if groups.any (·.dateKey = dateKey) then
    groups.map fun group => if group.dateKey = dateKey then { group with slots := group.slots ++ [slot] } else group
  else if groups.length ≥ maxDays then groups
  else groups ++ [{ dateKey, label := dayLabel tenant localDate now ms, slots := [slot] }]

/-- The first instant of the loop: `now` with the lead time, rounded up to the grid. -/
def startMs : Instant := (now + leadMs + (quarterMs - 1)) / quarterMs * quarterMs

def endMs : Instant := now + max maxDays 7 * dayMs

/-- The instants that the loop visits. -/
def visited : List Instant :=
  List.range' (startMs now) ((endMs now maxDays + quarterMs - startMs now) / quarterMs) quarterMs

def generateScheduledDaysAndSlots : List ScheduledDayGroup :=
  if tenant.openingHours.any (¬ hasOpeningHours ·) then []
  else
    let turn (groups : List ScheduledDayGroup) (ms : Instant) : List ScheduledDayGroup :=
      let (weekday, hhmm) := tenant.zonedParts ms
      if matchesHours tenant.openingHours weekday hhmm then addSlot tenant localDate now maxDays groups ms else groups
    ((visited now maxDays).foldl turn []).filter fun group => !group.slots.isEmpty

end Generator
end Komanda
