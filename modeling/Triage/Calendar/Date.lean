import Triage.Text.Basic

/-! Dates of the Gregorian calendar.

The calendar runs over all years from `firstYear` to `lastYear`, also before it
was introduced and with a year zero. A date is a year, a month and a day that
exist; its number counts days from 1 January 1970. Numbering and reading a number
as a date undo each other (`ofNumber_number`, `number_ofNumber`), which is what
the arithmetic on dates rests on. -/
namespace Triage

/-! ### Years and months -/

namespace Calendar

/-- The first year of the calendar. -/
def firstYear : Int := -262143
/-- The last year of the calendar. -/
def lastYear : Int := 262142

/-- Every fourth year is a leap year, of the full centuries only every fourth. -/
def isLeap (year : Int) : Bool := year % 4 = 0 && (year % 100 ≠ 0 || year % 400 = 0)

/-- The lengths of the months of a year. -/
def monthLengths (year : Int) : List Nat :=
  [31, if isLeap year then 29 else 28, 31, 30, 31, 30, 31, 31, 30, 31, 30, 31]

/-- The days of a month counted from 1, none if there is no such month. -/
def daysInMonth (year : Int) (month : Nat) : Nat :=
  if month = 0 then 0 else (monthLengths year).getD (month - 1) 0

/-- The number of the first of January. The three quotients count the leap days before it. -/
def yearStart (year : Int) : Int :=
  365 * year + (year - 1) / 4 - (year - 1) / 100 + (year - 1) / 400 - 719527

/-- The year in which a day falls. The mean length of a year gives it up to one year. -/
def yearOf (number : Int) : Int :=
  let guess := (number + 719528) * 400 / 146097
  if yearStart (guess + 1) ≤ number then guess + 1
  else if number < yearStart guess then guess - 1
  else guess

/-- The days of some months together. -/
def totalDays : List Nat → Nat
  | [] => 0
  | length :: more => length + totalDays more

/-- Divides the days since the start of a year into the full months and the days after them. -/
def splitMonths : List Nat → Nat → Nat × Nat
  | [], day => (0, day)
  | length :: more, day =>
    if day < length then (0, day)
    else ((splitMonths more (day - length)).1 + 1, (splitMonths more (day - length)).2)

theorem yearStart_succ (year : Int) :
    yearStart (year + 1) = yearStart year + totalDays (monthLengths year) := by
  unfold yearStart monthLengths isLeap
  by_cases h4 : year % 4 = 0 <;> by_cases h100 : year % 100 = 0 <;>
    by_cases h400 : year % 400 = 0 <;> simp [totalDays, h4, h100, h400] <;> omega

theorem yearStart_lt_succ (year : Int) : yearStart year < yearStart (year + 1) := by
  rw [yearStart_succ]
  simp only [monthLengths, totalDays]
  omega

theorem yearStart_mono {a b : Int} (h : a ≤ b) : yearStart a ≤ yearStart b := by
  obtain ⟨k, rfl⟩ := Int.le.dest h
  induction k with
  | zero => simp
  | succ k ih =>
    have := yearStart_lt_succ (a + k)
    have := ih (by omega)
    rw [show a + ((k + 1 : Nat) : Int) = a + k + 1 by omega]
    omega

/-- The year of a day is the one that starts no later and whose successor starts later. -/
theorem yearOf_spec (number : Int) :
    yearStart (yearOf number) ≤ number ∧ number < yearStart (yearOf number + 1) := by
  simp only [yearOf]
  generalize hg : (number + 719528) * 400 / 146097 = guess
  split
  · next h => refine ⟨h, ?_⟩; unfold yearStart; omega
  · next h =>
    split
    · next h' =>
      refine ⟨?_, by rwa [show guess - 1 + 1 = guess by omega]⟩
      unfold yearStart
      omega
    · next h' => exact ⟨by omega, by omega⟩

theorem yearOf_eq {number year : Int} (h : yearStart year ≤ number)
    (h' : number < yearStart (year + 1)) : yearOf number = year := by
  obtain ⟨h1, h2⟩ := yearOf_spec number
  rcases Int.lt_trichotomy (yearOf number) year with hlt | heq | hgt
  · have := yearStart_mono (show yearOf number + 1 ≤ year by omega)
    omega
  · exact heq
  · have := yearStart_mono (show year + 1 ≤ yearOf number by omega)
    omega

/-- The days of the months before the `n`-th. -/
def daysBefore (lengths : List Nat) (n : Nat) : Nat := totalDays (lengths.take n)

theorem splitMonths_spec {lengths : List Nat} {day : Nat} (h : day < totalDays lengths) :
    (splitMonths lengths day).1 < lengths.length ∧
    (splitMonths lengths day).2 < lengths.getD (splitMonths lengths day).1 0 ∧
    daysBefore lengths (splitMonths lengths day).1 + (splitMonths lengths day).2 = day := by
  induction lengths generalizing day with
  | nil => simp [totalDays] at h
  | cons l more ih =>
    simp only [splitMonths]
    split
    · next hd => simp [daysBefore, totalDays, hd]
    · next hd =>
      simp only [totalDays] at h
      obtain ⟨h1, h2, h3⟩ := @ih (day - l) (by omega)
      refine ⟨by simpa using h1, by simpa using h2, ?_⟩
      simp only [daysBefore, List.take_succ_cons, totalDays] at h3 ⊢
      omega

theorem splitMonths_daysBefore {lengths : List Nat} {n day : Nat} (hn : n < lengths.length)
    (hd : day < lengths.getD n 0) :
    splitMonths lengths (daysBefore lengths n + day) = (n, day) := by
  induction lengths generalizing n with
  | nil => simp at hn
  | cons l more ih =>
    cases n with
    | zero =>
      have hd : day < l := by simpa using hd
      simp [splitMonths, daysBefore, totalDays, hd]
    | succ n =>
      have := ih (n := n) (by simpa using hn) (by simpa using hd)
      have hl : ¬ daysBefore (l :: more) (n + 1) + day < l := by
        simp only [daysBefore, List.take_succ_cons, totalDays]
        omega
      have hs : daysBefore (l :: more) (n + 1) + day - l = daysBefore more n + day := by
        simp only [daysBefore, List.take_succ_cons, totalDays]; omega
      simp [splitMonths, hl, hs, this]

theorem daysBefore_add_lt {lengths : List Nat} {n day : Nat} (hn : n < lengths.length)
    (hd : day < lengths.getD n 0) : daysBefore lengths n + day < totalDays lengths := by
  induction lengths generalizing n with
  | nil => simp at hn
  | cons l more ih =>
    cases n with
    | zero =>
      have hd : day < l := by simpa using hd
      simp only [daysBefore, List.take_zero, totalDays]; omega
    | succ n =>
      have := ih (n := n) (by simpa using hn) (by simpa using hd)
      simp only [daysBefore, List.take_succ_cons, totalDays] at this ⊢
      omega

/-- The number of the first day of the calendar. -/
def firstDay : Int := yearStart firstYear
/-- The number of the last day of the calendar. -/
def lastDay : Int := yearStart (lastYear + 1) - 1

end Calendar
open Calendar

/-! ### Dates -/

/-- A year, month and day that exist and lie in the calendar. -/
structure Date where
  year : Int
  month : Nat
  day : Nat
  exists_year : firstYear ≤ year ∧ year ≤ lastYear
  exists_month : 1 ≤ month ∧ month ≤ 12
  exists_day : 1 ≤ day ∧ day ≤ daysInMonth year month
deriving DecidableEq

namespace Date

/-- The date of a year, month and day, if there is one. -/
def of? (year : Int) (month day : Nat) : Option Date :=
  if h : (firstYear ≤ year ∧ year ≤ lastYear) ∧ (1 ≤ month ∧ month ≤ 12) ∧
      (1 ≤ day ∧ day ≤ daysInMonth year month) then
    some ⟨year, month, day, h.1, h.2.1, h.2.2⟩
  else none

/-- The days from 1 January 1970, negative before it. -/
def number (date : Date) : Int :=
  yearStart date.year + daysBefore (monthLengths date.year) (date.month - 1) + (date.day - 1)

/-- The days since the start of the year in which a day falls. -/
def dayOfYear (number : Int) : Nat := (number - yearStart (yearOf number)).toNat

theorem dayOfYear_lt (number : Int) :
    dayOfYear number < totalDays (monthLengths (yearOf number)) := by
  obtain ⟨h1, h2⟩ := yearOf_spec number
  rw [yearStart_succ] at h2
  unfold dayOfYear
  omega

/-- The date of a day number within the calendar. -/
def ofNumber (number : Int) (h : firstDay ≤ number ∧ number ≤ lastDay) : Date where
  year := yearOf number
  month := (splitMonths (monthLengths (yearOf number)) (dayOfYear number)).1 + 1
  day := (splitMonths (monthLengths (yearOf number)) (dayOfYear number)).2 + 1
  exists_year := by
    obtain ⟨h1, h2⟩ := yearOf_spec number
    unfold firstDay lastDay at h
    constructor
    · apply Int.not_lt.1
      intro hlt
      have := yearStart_mono (show yearOf number + 1 ≤ firstYear by omega)
      omega
    · apply Int.not_lt.1
      intro hlt
      have := yearStart_mono (show lastYear + 1 ≤ yearOf number by omega)
      omega
  exists_month := by
    have := (splitMonths_spec (dayOfYear_lt number)).1
    simp only [monthLengths, List.length_cons, List.length_nil] at this ⊢
    omega
  exists_day := by
    have := (splitMonths_spec (dayOfYear_lt number)).2.1
    simp only [daysInMonth, Nat.add_eq_zero_iff, Nat.one_ne_zero, and_false, if_false,
      Nat.add_sub_cancel]
    omega

/-- The date of a day number, if it lies in the calendar. -/
def ofNumber? (number : Int) : Option Date :=
  if h : firstDay ≤ number ∧ number ≤ lastDay then some (ofNumber number h) else none

/-- The date a number of days later, or earlier if the number is negative. -/
def addDays (date : Date) (days : Int) : Option Date := ofNumber? (date.number + days)

/-- The days since the last Monday, none on a Monday. -/
def daysSinceMonday (date : Date) : Int := (date.number + 3) % 7

/-- The first day of the month that comes a number of months later. -/
def startOfMonth (date : Date) (later : Int) : Option Date :=
  let months := date.year * 12 + (date.month - 1) + later
  of? (months / 12) ((months % 12).toNat + 1) 1

/-! ### Numbers and dates -/

theorem day_lt (date : Date) :
    date.month - 1 < (monthLengths date.year).length ∧
    date.day - 1 < (monthLengths date.year).getD (date.month - 1) 0 := by
  have hm := date.exists_month
  have hd := date.exists_day
  have h0 : date.month ≠ 0 := by omega
  rw [daysInMonth, if_neg h0] at hd
  refine ⟨?_, by omega⟩
  simp only [monthLengths, List.length_cons, List.length_nil]
  omega

theorem yearOf_number (date : Date) : yearOf date.number = date.year := by
  obtain ⟨hm, hd⟩ := date.day_lt
  have hlt := daysBefore_add_lt hm hd
  have h1 := date.exists_day.1
  apply yearOf_eq
  · unfold number; omega
  · rw [yearStart_succ]; unfold number; omega

/-- A date lies in its year. -/
theorem number_mem_year (date : Date) :
    yearStart date.year ≤ date.number ∧ date.number < yearStart (date.year + 1) := by
  have h := yearOf_spec date.number
  rwa [yearOf_number] at h

theorem number_mem (date : Date) : firstDay ≤ date.number ∧ date.number ≤ lastDay := by
  obtain ⟨h1, h2⟩ := date.number_mem_year
  have hf := yearStart_mono date.exists_year.1
  have hl := yearStart_mono (show date.year + 1 ≤ lastYear + 1 by have := date.exists_year; omega)
  unfold firstDay lastDay
  omega

/-- A date is the date of its number. -/
theorem ofNumber_number (date : Date) : ofNumber date.number date.number_mem = date := by
  have hs : splitMonths (monthLengths date.year) (dayOfYear date.number) =
      (date.month - 1, date.day - 1) := by
    obtain ⟨hm, hd⟩ := date.day_lt
    rw [← splitMonths_daysBefore hm hd]
    congr 1
    have := date.exists_day.1
    rw [dayOfYear, yearOf_number]
    unfold number
    omega
  have hm := date.exists_month
  have hd := date.exists_day
  have hy := yearOf_number date
  cases date with
  | mk year month day _ _ _ =>
    simp only [ofNumber, mk.injEq] at *
    refine ⟨hy, ?_, ?_⟩ <;> rw [hy, hs] <;> simp only <;> omega

/-- A number in the calendar is the number of its date. -/
theorem number_ofNumber (number : Int) (h : firstDay ≤ number ∧ number ≤ lastDay) :
    (ofNumber number h).number = number := by
  have h3 := (splitMonths_spec (dayOfYear_lt number)).2.2
  have h1 := (yearOf_spec number).1
  simp only [Date.number, ofNumber, Nat.add_sub_cancel]
  unfold dayOfYear at *
  omega

theorem ofNumber?_number (date : Date) : ofNumber? date.number = some date := by
  rw [ofNumber?, dif_pos date.number_mem, ofNumber_number]

theorem number_inj {a b : Date} : a.number = b.number ↔ a = b := by
  constructor
  · intro h
    have hb := b.ofNumber?_number
    rw [← h, ofNumber?_number] at hb
    exact Option.some.inj hb
  · rintro rfl
    rfl

/-- A number of days later there is a date as long as the calendar goes on. -/
theorem exists_addDays (date : Date) (days : Int)
    (h : firstDay ≤ date.number + days ∧ date.number + days ≤ lastDay) :
    ∃ later, date.addDays days = some later ∧ later.number = date.number + days :=
  ⟨_, dif_pos h, number_ofNumber _ h⟩

theorem number_of_addDays {date later : Date} {days : Int} (h : date.addDays days = some later) :
    later.number = date.number + days := by
  unfold addDays ofNumber? at h
  split at h
  · next hmem =>
    obtain rfl := Option.some.inj h
    exact number_ofNumber _ hmem
  · exact absurd h.symm (Option.some_ne_none _)

theorem eq_of_of? {year : Int} {month day : Nat} {date : Date}
    (h : of? year month day = some date) :
    date.year = year ∧ date.month = month ∧ date.day = day := by
  unfold of? at h
  split at h
  · exact Option.some.inj h ▸ ⟨rfl, rfl, rfl⟩
  · exact absurd h.symm (Option.some_ne_none _)

end Date
end Triage
