import Mathlib.Algebra.Order.Ring.Int
import Mathlib.Data.Nat.Find
import Mathlib.Algebra.BigOperators.Group.List.Basic

/-!
# Civil dates

The instants of `Date`, in milliseconds from 1970 on, as dates of the Gregorian calendar and as texts: a date tells its
day (`toDay_ofDay`), and until the year 10000 the text of an instant tells its second (`secondOf_dateTimeText`).
-/

namespace CivilDate

/-! ## Years -/

def isLeap (y : Nat) : Bool := y % 4 = 0 && (y % 100 ≠ 0 || y % 400 = 0)

def daysInYear (y : Nat) : Nat := if isLeap y then 366 else 365

def monthLengths (y : Nat) : List Nat := [31, if isLeap y then 29 else 28, 31, 30, 31, 30, 31, 31, 30, 31, 30, 31]

/-- The days from 1970 to the start of a year. -/
def dayFromYear (y : Nat) : Nat := 365 * (y - 1970) + (y - 1969) / 4 - (y - 1901) / 100 + (y - 1601) / 400

/-- The last year that has started. -/
def yearFromDay (day : Nat) : Nat := Nat.findGreatest (fun y => dayFromYear y ≤ day) (1970 + day / 365)

theorem sum_monthLengths (y : Nat) : (monthLengths y).sum = daysInYear y := by
  unfold monthLengths daysInYear
  split <;> rfl

/-- From one year to the next another cycle of `n` years ends, if the year is a multiple. -/
theorem cycles_succ {n c y : Nat} (hc : n ∣ c) (h : c < y) :
    (y - c) / n = (y - (c + 1)) / n + if y % n = 0 then 1 else 0 := by
  obtain ⟨x, rfl⟩ := Nat.exists_eq_add_of_lt h
  have hpast : c + x + 1 - c = x + 1 := by omega
  have hnext : c + x + 1 - (c + 1) = x := by omega
  rw [hpast, hnext, Nat.succ_div, Nat.add_assoc]
  simp only [← Nat.dvd_iff_mod_eq_zero, Nat.dvd_add_right hc]

theorem dayFromYear_succ {y : Nat} (h : 1970 ≤ y) : dayFromYear (y + 1) = dayFromYear y + daysInYear y := by
  have h4 := cycles_succ (n := 4) (c := 1968) (by decide) (show 1968 < y by omega)
  have h100 := cycles_succ (n := 100) (c := 1900) (by decide) (show 1900 < y by omega)
  have h400 := cycles_succ (n := 400) (c := 1600) (by decide) (show 1600 < y by omega)
  have hstart : dayFromYear (y + 1) = 365 * (y - 1969) + (y - 1968) / 4 - (y - 1900) / 100 + (y - 1600) / 400 := by
    simp only [dayFromYear, Nat.add_sub_add_right y 1]
  have hcentury : (y - 1901) / 100 ≤ (y - 1969) / 4 + 365 * (y - 1970) := by clear h4 h100 h400; omega
  rw [hstart, dayFromYear, daysInYear, isLeap, h4, h100, h400]
  by_cases hfour : y % 4 = 0
  · by_cases hhundred : y % 100 = 0
    · by_cases hcycle : y % 400 = 0
      · simp only [hfour, hhundred, hcycle]
        simp
        omega
      · simp [hfour, hhundred, hcycle]
        omega
    · have hcycle : y % 400 ≠ 0 := by clear h4 h100 h400; omega
      simp [hfour, hhundred, hcycle]
      omega
  · have hhundred : y % 100 ≠ 0 := by clear h4 h100 h400; omega
    have hcycle : y % 400 ≠ 0 := by clear h4 h100 h400; omega
    simp [hfour, hhundred, hcycle]
    omega

theorem le_dayFromYear {y : Nat} (h : 1970 ≤ y) : 365 * (y - 1970) ≤ dayFromYear y := by
  unfold dayFromYear
  omega

section Year
variable {day : Nat}

theorem dayFromYear_yearFromDay (day : Nat) : dayFromYear (yearFromDay day) ≤ day :=
  Nat.findGreatest_spec (P := fun y => dayFromYear y ≤ day) (Nat.le_add_right 1970 _) (Nat.zero_le day)

theorem le_yearFromDay (day : Nat) : 1970 ≤ yearFromDay day :=
  Nat.le_findGreatest (Nat.le_add_right 1970 _) (Nat.zero_le day)

theorem lt_dayFromYear_succ (day : Nat) : day < dayFromYear (yearFromDay day + 1) := by
  by_contra hle
  rw [Nat.not_lt] at hle
  have hyear := le_yearFromDay day
  have hbound := le_dayFromYear (y := yearFromDay day + 1) (by omega)
  have hgreatest := Nat.findGreatest_is_greatest (P := fun y => dayFromYear y ≤ day) (n := 1970 + day / 365)
    (k := yearFromDay day + 1) (Nat.lt_succ_self _) (by omega)
  exact hgreatest hle

end Year

/-! ## Dates -/

structure Date where
  year : Nat
  month : Nat
  day : Nat
deriving DecidableEq, Repr

/-- The part that a position falls into, when parts of these lengths follow each other, and the position in it. -/
def locate : List Nat → Nat → Nat × Nat
  | [], d => (0, d)
  | l :: ls, d => if d < l then (0, d) else ((locate ls (d - l)).1 + 1, (locate ls (d - l)).2)

def ofDay (day : Nat) : Date :=
  let y := yearFromDay day
  let p := locate (monthLengths y) (day - dayFromYear y)
  ⟨y, p.1 + 1, p.2 + 1⟩

def Date.toDay (x : Date) : Nat :=
  dayFromYear x.year + ((monthLengths x.year).take (x.month - 1)).sum + (x.day - 1)

section Dates
variable {d day : Nat} {ls : List Nat}

theorem sum_take_locate (ls : List Nat) (d : Nat) : (ls.take (locate ls d).1).sum + (locate ls d).2 = d := by
  induction ls generalizing d with
  | nil => simp [locate]
  | cons l ls ih =>
    by_cases hd : d < l
    · simp [locate, hd]
    · have hrest := ih (d - l)
      simp only [locate, if_neg hd, List.take_succ_cons, List.sum_cons]
      omega

theorem locate_lt (ls : List Nat) (h : d < ls.sum) : (locate ls d).1 < ls.length ∧ ∃ l ∈ ls, (locate ls d).2 < l := by
  induction ls generalizing d with
  | nil => exact absurd h (Nat.not_lt_zero d)
  | cons l ls ih =>
    by_cases hd : d < l
    · simp [locate, hd]
    · obtain ⟨hlt, l', hl', hlt'⟩ := ih (d := d - l) (by rw [List.sum_cons] at h; omega)
      simp only [locate, if_neg hd, List.length_cons]
      exact ⟨Nat.succ_lt_succ hlt, l', List.mem_cons_of_mem l hl', hlt'⟩

theorem toDay_ofDay (day : Nat) : (ofDay day).toDay = day := by
  have hle := dayFromYear_yearFromDay day
  have hsum := sum_take_locate (monthLengths (yearFromDay day)) (day - dayFromYear (yearFromDay day))
  simp only [ofDay, Date.toDay, Nat.add_sub_cancel]
  omega

theorem ofDay_lt (day : Nat) : (ofDay day).month < 100 ∧ (ofDay day).day < 100 := by
  have hle := dayFromYear_yearFromDay day
  have hlt := lt_dayFromYear_succ day
  rw [dayFromYear_succ (le_yearFromDay day), ← sum_monthLengths] at hlt
  obtain ⟨hmonth, l, hl, hday⟩ := locate_lt (monthLengths (yearFromDay day))
    (d := day - dayFromYear (yearFromDay day)) (by omega)
  have hlength : l ≤ 31 := by
    have hall : ∀ l ∈ monthLengths (yearFromDay day), l ≤ 31 := by
      unfold monthLengths
      split <;> decide
    exact hall l hl
  have hmonths : (monthLengths (yearFromDay day)).length = 12 := rfl
  simp only [ofDay]
  omega

end Dates

/-! ## Texts -/

/-- `padStart` with zeros. -/
def padded (width n : Nat) : List Char :=
  List.replicate (width - (Nat.toDigits 10 n).length) '0' ++ Nat.toDigits 10 n

def yearText (y : Nat) : List Char := if y < 10000 then padded 4 y else '+' :: padded 6 y

/-- A time from 1970 on, to the second. -/
def dateTimeText (separator : Char) (t : Nat) : List Char :=
  let x := ofDay (t / 86400000)
  yearText x.year ++ '-' :: (padded 2 x.month ++ '-' :: (padded 2 x.day ++ separator ::
    (padded 2 (t / 3600000 % 24) ++ ':' :: (padded 2 (t / 60000 % 60) ++ ':' :: padded 2 (t / 1000 % 60)))))

/-- `toISOString` -/
def isoText (t : Nat) : List Char := dateTimeText 'T' t ++ '.' :: (padded 3 (t % 1000) ++ ['Z'])

def number (digits : List Char) : Nat := Nat.ofDigitChars 10 digits 0

/-- The second that is written, whatever separates the fields. -/
def secondOf (text : List Char) : Nat :=
  let field (start length : Nat) := number ((text.drop start).take length)
  (Date.mk (field 0 4) (field 5 2) (field 8 2)).toDay * 86400 + field 11 2 * 3600 + field 14 2 * 60 + field 17 2

section Texts
variable {width n t : Nat} {separator : Char}

theorem number_padded (width n : Nat) : number (padded width n) = n := by
  rw [number, padded, Nat.ofDigitChars_append, Nat.ofDigitChars_replicate_zero, Nat.mul_zero,
    Nat.ofDigitChars_ten_toDigits]

theorem length_padded (width : Nat) (hn : n < 10 ^ width) (hwidth : 0 < width) : (padded width n).length = width := by
  have hle : (Nat.toDigits 10 n).length ≤ width := (Nat.length_toDigits_le_iff (by omega) hwidth).2 hn
  rw [padded, List.length_append, List.length_replicate, Nat.sub_add_cancel hle]

theorem padded_two (hn : n < 100) : ∃ a b, padded 2 n = [a, b] ∧ number [a, b] = n := by
  obtain ⟨a, b, h⟩ := List.length_eq_two.1 (length_padded 2 hn (by omega))
  exact ⟨a, b, h, h ▸ number_padded 2 n⟩

theorem padded_four (hn : n < 10000) : ∃ a b c d, padded 4 n = [a, b, c, d] ∧ number [a, b, c, d] = n := by
  have hlength := length_padded 4 hn (by omega)
  match h : padded 4 n, hlength with
  | [a, b, c, d], _ => exact ⟨a, b, c, d, rfl, h ▸ number_padded 4 n⟩

/-- The fields of a text before the year 10000, two digits each but the year. -/
theorem secondOf_dateTimeText (separator : Char) (h : (ofDay (t / 86400000)).year < 10000) :
    (dateTimeText separator t).length = 19 ∧ secondOf (dateTimeText separator t) = t / 1000 := by
  obtain ⟨hmonth, hday⟩ := ofDay_lt (t / 86400000)
  obtain ⟨y₁, y₂, y₃, y₄, hy, hyear⟩ := padded_four h
  obtain ⟨m₁, m₂, hm, hmonth⟩ := padded_two hmonth
  obtain ⟨d₁, d₂, hd, hday⟩ := padded_two hday
  obtain ⟨h₁, h₂, hh, hhour⟩ := padded_two (n := t / 3600000 % 24) (by omega)
  obtain ⟨n₁, n₂, hn, hminute⟩ := padded_two (n := t / 60000 % 60) (by omega)
  obtain ⟨s₁, s₂, hs, hsecond⟩ := padded_two (n := t / 1000 % 60) (by omega)
  have htext : dateTimeText separator t = [y₁, y₂, y₃, y₄, '-', m₁, m₂, '-', d₁, d₂, separator, h₁, h₂, ':', n₁, n₂,
      ':', s₁, s₂] := by
    simp only [dateTimeText, yearText, if_pos h, hy, hm, hd, hh, hn, hs]
    rfl
  have hdate : (Date.mk (number [y₁, y₂, y₃, y₄]) (number [m₁, m₂]) (number [d₁, d₂])).toDay = t / 86400000 := by
    rw [hyear, hmonth, hday]
    exact toDay_ofDay _
  refine ⟨by rw [htext]; rfl, ?_⟩
  rw [htext]
  change (Date.mk (number [y₁, y₂, y₃, y₄]) (number [m₁, m₂]) (number [d₁, d₂])).toDay * 86400 +
    number [h₁, h₂] * 3600 + number [n₁, n₂] * 60 + number [s₁, s₂] = t / 1000
  rw [hdate, hhour, hminute, hsecond]
  omega

theorem isDigit_padded : ∀ c ∈ padded width n, c.isDigit = true := by
  intro c hc
  rcases List.mem_append.1 hc with hc | hc
  · rw [List.eq_of_mem_replicate hc]
    rfl
  · exact Nat.isDigit_of_mem_toDigits (by omega) (by omega) hc

/-- A character of a text, beside what separates the date from the time. -/
def IsDateChar (c : Char) : Prop := c.isDigit = true ∨ c = '+' ∨ c = '-' ∨ c = ':'

theorem dateTimeText_parts (t : Nat) : ∃ date time,
    (∀ separator, dateTimeText separator t = date ++ separator :: time) ∧ ∀ c ∈ date ++ time, IsDateChar c := by
  have hyear : ∀ c ∈ yearText (ofDay (t / 86400000)).year, IsDateChar c := by
    intro c hc
    rw [yearText] at hc
    split at hc
    · exact .inl (isDigit_padded c hc)
    · rcases List.mem_cons.1 hc with rfl | hc
      · exact .inr (.inl rfl)
      · exact .inl (isDigit_padded c hc)
  have hpadded {width n} : ∀ c ∈ padded width n, IsDateChar c := fun c hc => .inl (isDigit_padded c hc)
  have hdash : IsDateChar '-' := .inr (.inr (.inl rfl))
  have hcolon : IsDateChar ':' := .inr (.inr (.inr rfl))
  refine ⟨yearText (ofDay (t / 86400000)).year ++ '-' :: (padded 2 (ofDay (t / 86400000)).month ++ '-' ::
      padded 2 (ofDay (t / 86400000)).day),
    padded 2 (t / 3600000 % 24) ++ ':' :: (padded 2 (t / 60000 % 60) ++ ':' :: padded 2 (t / 1000 % 60)),
    fun separator => by simp [dateTimeText], ?_⟩
  simp only [List.forall_mem_append, List.forall_mem_cons]
  exact ⟨⟨hyear, hdash, hpadded, hdash, hpadded⟩, hpadded, hcolon, hpadded, hcolon, hpadded⟩

/-- The characters of a text. -/
theorem isoText_chars (t : Nat) : ∀ c ∈ isoText t, IsDateChar c ∨ c = 'T' ∨ c = '.' ∨ c = 'Z' := by
  obtain ⟨date, time, htext, hchars⟩ := dateTimeText_parts t
  rw [List.forall_mem_append] at hchars
  simp only [isoText, htext, List.forall_mem_append, List.forall_mem_cons]
  refine ⟨⟨fun c hc => .inl (hchars.1 c hc), .inr (.inl trivial), fun c hc => .inl (hchars.2 c hc)⟩,
    .inr (.inr (.inl trivial)), fun c hc => .inl (.inl (isDigit_padded c hc)), .inr (.inr (.inr trivial)),
    fun c hc => ?_⟩
  exact absurd hc List.not_mem_nil

/-- The text with a blank, to the second. -/
theorem isoText_replace (h : (ofDay (t / 86400000)).year < 10000) :
    ((isoText t).replace 'T' separator).take 19 = dateTimeText separator t := by
  obtain ⟨date, time, htext, hchars⟩ := dateTimeText_parts t
  have hT : 'T' ∉ date := by
    intro hT
    rcases hchars 'T' (List.mem_append_left _ hT) with h | h | h | h <;> cases h
  have hlength := (secondOf_dateTimeText separator h).1
  rw [isoText, htext, List.append_assoc, List.replace_append_right hT, List.cons_append, List.replace_cons_self,
    ← List.cons_append, ← List.append_assoc, ← htext, List.take_left' hlength]

end Texts

end CivilDate
