import Triage.Proofs.Spans
import Triage.Value

/-! Intervals at the edges of the calendar.

What a value means does not end where the calendar does: days are numbered on in both
directions, and so are the first days of months (`Calendar.monthStart`). So every date, instant
and relative date has a span of seconds (`Value.span?`), and its interval should be missing only
if an end of the span is no instant. Intervals are found by way of dates, though, and the calendar
may lack a date on the way: the date behind a span that ends with the last date of all, and the
Monday before now, from which weeks are counted, but which every relative date looks up. The values
that lose their interval so are the `Missed` ones, and all others have exactly their span
(`Value.interval_eq_span`). -/
namespace Triage
open Calendar

/-! ### Days beyond the calendar -/

namespace Calendar

/-- The number of the first day of a month. Months are numbered through from the first one of the
year 0. -/
def monthStart (month : Int) : Int :=
  yearStart (month / 12) + daysBefore (monthLengths (month / 12)) (month % 12).toNat

theorem monthStart_mem_year (month : Int) :
    yearStart (month / 12) ≤ monthStart month ∧ monthStart month < yearStart (month / 12 + 1) := by
  have hlength : (month % 12).toNat < (monthLengths (month / 12)).length := by
    rw [show (monthLengths (month / 12)).length = 12 from rfl]
    omega
  have hday : 0 < (monthLengths (month / 12)).getD (month % 12).toNat 0 := by
    have hone := Date.one_le_daysInMonth (month / 12)
      (show 1 ≤ (month % 12).toNat + 1 ∧ (month % 12).toNat + 1 ≤ 12 by omega)
    rwa [daysInMonth, if_neg (Nat.succ_ne_zero _), Nat.add_sub_cancel] at hone
  have hbefore := daysBefore_add_lt hlength hday
  rw [yearStart_succ, monthStart]
  omega

/-- Every month has a day. -/
theorem monthStart_lt_succ (month : Int) : monthStart month < monthStart (month + 1) := by
  by_cases hyear : (month + 1) / 12 = month / 12
  · have hmonth : ((month + 1) % 12).toNat = (month % 12).toNat + 1 := by omega
    have hone := Date.one_le_daysInMonth (month / 12)
      (show 1 ≤ (month % 12).toNat + 1 ∧ (month % 12).toNat + 1 ≤ 12 by omega)
    rw [daysInMonth, if_neg (Nat.succ_ne_zero _), Nat.add_sub_cancel] at hone
    rw [monthStart, monthStart, hyear, hmonth, daysBefore_succ]
    omega
  · have hlast := (monthStart_mem_year month).2
    have hfirst := (monthStart_mem_year (month + 1)).1
    rw [show (month + 1) / 12 = month / 12 + 1 by omega] at hfirst
    omega

/-- No day but those of the calendar and the one behind it begins in the calendar, at any place. -/
theorem of?_midnightSecond_eq_none {day offset : Int} (ho : -86400 < offset ∧ offset < 86400)
    (h : day < firstDay ∨ lastDay + 1 < day) :
    Instant.of? (midnightSecond day offset) 0 = none := by
  refine dif_neg fun hmem => ?_
  unfold firstSecond lastSecond midnightSecond at hmem
  omega

end Calendar

namespace Date

/-- The number of the last Monday, which is the day itself on a Monday. -/
def lastMonday (d : Date) : Int := d.number - d.daysSinceMonday

/-- The number of the month of a date. -/
def monthNumber (d : Date) : Int := d.year * 12 + (d.month - 1)

theorem lastMonday_le (d : Date) : d.lastMonday ≤ d.number := by
  unfold lastMonday daysSinceMonday
  omega

theorem ofNumber?_eq_some_iff {n : Int} {d : Date} : ofNumber? n = some d ↔ d.number = n := by
  constructor
  · intro h
    unfold ofNumber? at h
    split at h
    · next hmem => rw [← Option.some.inj h, number_ofNumber]
    · exact absurd h.symm (Option.some_ne_none d)
  · rintro rfl
    exact ofNumber?_number d

theorem ofNumber?_eq_none_iff {n : Int} : ofNumber? n = none ↔ n < firstDay ∨ lastDay < n := by
  by_cases hmem : firstDay ≤ n ∧ n ≤ lastDay
  · rw [ofNumber?, dif_pos hmem]
    exact iff_of_false (Option.some_ne_none _) (by omega)
  · rw [ofNumber?, dif_neg hmem]
    exact iff_of_true rfl (by omega)

/-- The first day of a month is the date of its number, as far as the calendar goes. -/
theorem of?_eq_ofNumber?_monthStart (month : Int) :
    of? (month / 12) ((month % 12).toNat + 1) 1 = ofNumber? (monthStart month) := by
  have hyear := monthStart_mem_year month
  have hmonth : 1 ≤ (month % 12).toNat + 1 ∧ (month % 12).toNat + 1 ≤ 12 := by omega
  by_cases hmem : firstYear ≤ month / 12 ∧ month / 12 ≤ lastYear
  · have hday : 1 ≤ 1 ∧ 1 ≤ daysInMonth (month / 12) ((month % 12).toNat + 1) :=
      ⟨Nat.le_refl 1, one_le_daysInMonth _ hmonth⟩
    rw [of?, dif_pos ⟨hmem, hmonth, hday⟩, eq_comm, ofNumber?_eq_some_iff]
    exact Int.add_zero _
  · rw [of?, dif_neg fun h => hmem h.1, eq_comm, ofNumber?_eq_none_iff]
    unfold firstDay lastDay
    by_cases hfirst : month / 12 < firstYear
    · have hmono := yearStart_mono (show month / 12 + 1 ≤ firstYear by omega)
      omega
    · have hmono := yearStart_mono (show lastYear + 1 ≤ month / 12 by omega)
      omega

theorem startOfMonth_eq (d : Date) (later : Int) :
    d.startOfMonth later = ofNumber? (monthStart (d.monthNumber + later)) :=
  of?_eq_ofNumber?_monthStart _

end Date

/-! ### Spans -/

/-- The interval between two seconds, if both are instants. -/
def Interval.ofSeconds (span : Int × Int) : Option Interval := do
  return ⟨← Instant.of? span.1 0, ← Instant.of? span.2 0⟩

/-- Between the dates of two days lies what lies between their midnights, unless the second day is
the one behind the calendar, which has no date. -/
theorem Interval.between_ofNumber? {first next offset : Int}
    (ho : -86400 < offset ∧ offset < 86400) (hlt : first < next) :
    ((Date.ofNumber? first).bind fun d => (Date.ofNumber? next).bind (between d · offset)) =
      if next = lastDay + 1 then none
      else ofSeconds (midnightSecond first offset, midnightSecond next offset) := by
  by_cases hmem : firstDay ≤ first ∧ next ≤ lastDay
  · rw [Date.ofNumber?, dif_pos ⟨hmem.1, by omega⟩, Date.ofNumber?, dif_pos ⟨by omega, hmem.2⟩,
      if_neg (by omega)]
    simp only [Option.bind_some, between, Date.midnight, Date.number_ofNumber]
    rfl
  · have hdates : ((Date.ofNumber? first).bind fun d =>
        (Date.ofNumber? next).bind (between d · offset)) = none := by
      by_cases hfirst : first < firstDay
      · rw [Date.ofNumber?_eq_none_iff.2 (.inl hfirst), Option.bind_none]
      · rw [Date.ofNumber?_eq_none_iff.2 (.inr (by omega : lastDay < next))]
        exact Option.bind_fun_none _
    rw [hdates, eq_comm, ite_eq_left_iff]
    intro hbehind
    by_cases hfirst : first < firstDay
    · rw [ofSeconds, of?_midnightSecond_eq_none ho (.inl hfirst)]
      rfl
    · simp only [ofSeconds, of?_midnightSecond_eq_none ho (.inr (by omega : lastDay + 1 < next))]
      exact Option.bind_fun_none _

namespace RelativeDate

/-- The numbers of the first day of a span and of the day behind it, counted from `today`. -/
def days (today : Date) : RelativeDate → Int × Int
  | .today => (today.number, today.number + 1)
  | yesterday => (today.number - 1, today.number)
  | tomorrow => (today.number + 1, today.number + 2)
  | thisWeek => (today.lastMonday, today.lastMonday + 7)
  | lastWeek => (today.lastMonday - 7, today.lastMonday)
  | nextWeek => (today.lastMonday + 7, today.lastMonday + 14)
  | thisMonth => (monthStart today.monthNumber, monthStart (today.monthNumber + 1))
  | lastMonth => (monthStart (today.monthNumber - 1), monthStart today.monthNumber)
  | nextMonth => (monthStart (today.monthNumber + 1), monthStart (today.monthNumber + 2))

/-- A span has a day. -/
theorem days_lt (today : Date) (relative : RelativeDate) :
    (relative.days today).1 < (relative.days today).2 := by
  cases relative with
  | thisMonth => exact monthStart_lt_succ _
  | lastMonth =>
    have h := monthStart_lt_succ (today.monthNumber - 1)
    rwa [Int.sub_add_cancel] at h
  | nextMonth =>
    have h := monthStart_lt_succ (today.monthNumber + 1)
    rwa [Int.add_assoc] at h
  | _ =>
    simp only [days]
    omega

/-- The dates of a span are those of its days, and there are none without the last Monday. -/
theorem dates_eq (relative : RelativeDate) (today : Date) :
    relative.dates today = (Date.ofNumber? today.lastMonday).bind fun _ =>
      (Date.ofNumber? (relative.days today).1).bind fun first =>
        (Date.ofNumber? (relative.days today).2).bind fun next => some (first, next) := by
  have hmonday : today.addDays (-today.daysSinceMonday) = Date.ofNumber? today.lastMonday := rfl
  rw [dates, hmonday]
  cases h : Date.ofNumber? today.lastMonday with
  | none => rfl
  | some monday =>
    have hnumber := Date.ofNumber?_eq_some_iff.1 h
    cases relative <;>
      simp [days, Date.addDays, Date.startOfMonth_eq, hnumber, h, Date.ofNumber?_number,
        Int.sub_eq_add_neg]

end RelativeDate

namespace Value

/-- The seconds of universal time at which the span of a value begins and has ended, seen from
`now`, whether these are instants or not. -/
def span? (now : Moment) : Value → Option (Int × Int)
  | date d =>
    some (midnightSecond d.number now.offset, midnightSecond (d.number + 1) now.offset)
  | instant i => some (i.second, i.second + 1)
  | relative r =>
    let days := r.days now.localDate
    some (midnightSecond days.1 now.offset, midnightSecond days.2 now.offset)
  | _ => none

/-- Whether the calendar lacks a date on the way to the span of a value: the one behind its last
day, or the Monday before now. -/
def Missed (now : Moment) : Value → Prop
  | date d => d.number = lastDay
  | relative r => now.localDate.lastMonday < firstDay ∨ (r.days now.localDate).2 = lastDay + 1
  | _ => False

instance (now : Moment) : (value : Value) → Decidable (value.Missed now)
  | date d => inferInstanceAs (Decidable (d.number = lastDay))
  | relative r => inferInstanceAs
      (Decidable (now.localDate.lastMonday < firstDay ∨ (r.days now.localDate).2 = lastDay + 1))
  | text _ | integer _ | instant _ | null => inferInstanceAs (Decidable False)

end Value

theorem Date.interval_eq (d : Date) {offset : Int} (ho : -86400 < offset ∧ offset < 86400) :
    d.interval offset =
      if d.number = lastDay then none
      else Interval.ofSeconds
        (midnightSecond d.number offset, midnightSecond (d.number + 1) offset) := by
  have hbetween := Interval.between_ofNumber? ho (Int.lt_succ d.number)
  simp only [ofNumber?_number, Option.bind_some, Int.add_left_inj] at hbetween
  rw [← hbetween, interval, addDays]
  -- Without a next date the midnight of this one does not help.
  cases ofNumber? (d.number + 1) with
  | none => exact Option.bind_fun_none _
  | some next => rfl

theorem RelativeDate.interval_eq (relative : RelativeDate) (now : Moment) :
    relative.interval now =
      if now.localDate.lastMonday < firstDay ∨ (relative.days now.localDate).2 = lastDay + 1 then
        none
      else Interval.ofSeconds (midnightSecond (relative.days now.localDate).1 now.offset,
        midnightSecond (relative.days now.localDate).2 now.offset) := by
  rw [interval, dates_eq]
  by_cases hmonday : now.localDate.lastMonday < firstDay
  · rw [if_pos (.inl hmonday), Date.ofNumber?_eq_none_iff.2 (.inl hmonday)]
    rfl
  · have hmem := now.localDate.number_mem.2
    have hle := now.localDate.lastMonday_le
    rw [Date.ofNumber?, dif_pos ⟨by omega, by omega⟩, Option.bind_some]
    simp only [hmonday, false_or]
    rw [← Interval.between_ofNumber? now.offset_lt (relative.days_lt now.localDate)]
    simp only [Option.bind_eq_bind, Option.bind_assoc, Option.bind_some]

theorem Instant.interval_eq_ofSeconds (instant : Instant) :
    instant.interval = Interval.ofSeconds (instant.second, instant.second + 1) := by
  have hstart : of? instant.second 0 = some instant.wholeSecond := instant.wholeSecond.of?_self
  rw [interval_eq, Interval.ofSeconds, hstart, Option.map_eq_bind]
  rfl

/-- **An interval is missing where an instant or a date on the way to it is, and nowhere else.**
A value has the interval between the ends of its span if both are instants, and none otherwise,
unless it is missed; then it has none in either case. -/
theorem Value.interval_eq_span (value : Value) (now : Moment) :
    value.interval now =
      if value.Missed now then none else (value.span? now).bind Interval.ofSeconds := by
  cases value with
  | date d => exact d.interval_eq now.offset_lt
  | relative r => exact r.interval_eq now
  | instant i => exact i.interval_eq_ofSeconds
  | text _ | integer _ | null => rfl

/-- The last date of the calendar. -/
def lastDate : Date := ⟨262142, 12, 31, by decide, by decide, by decide⟩

/-- A moment at a place four hours to the east. -/
def eastOfGreenwich : Moment := ⟨.epoch, 14400, by decide, by decide⟩

/-- A moment on the second date of the calendar, a Friday. -/
def firstFriday : Moment := .universal ⟨firstSecond + 86400, 0, by decide, by decide⟩

/-- In the east the last date ends before the calendar does, and on the first dates of the calendar
today lies in it, and neither has an interval. -/
theorem Value.not_interval_eq_span_of_missed :
    ¬ (∀ (d : Date) (now : Moment),
      (date d).interval now = ((date d).span? now).bind Interval.ofSeconds) ∧
    ¬ (∀ (r : RelativeDate) (now : Moment),
      (relative r).interval now = ((relative r).span? now).bind Interval.ofSeconds) := by
  constructor
  · intro h
    have hlast := h lastDate eastOfGreenwich
    revert hlast
    decide +kernel
  · intro h
    have htoday := h .today firstFriday
    revert htoday
    decide +kernel

end Triage
