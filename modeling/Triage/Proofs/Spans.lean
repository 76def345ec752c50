import Triage.Proofs.Days
import Triage.Proofs.TimeText

/-! Relative dates lie side by side around now.

Relative dates count days, weeks and months from now: the last one, the one that holds
now, and the next one. The first dates of the units around now (`CalendarUnit.first?`)
bound the three (`CalendarUnit.dates_eq`), and as long as the year of now has at most
four digits the calendar has them and their midnights. So the three intervals follow on
each other without a gap, each is a whole unit from one midnight at the place of now to
another, and now lies in the second one (`RelativeDate.interval_tiles`). -/
namespace Triage
open Calendar

/-! ### Units of the calendar -/

/-- Whether a date is a Monday: it is whole weeks away from the 5th of January 1970. -/
def Date.IsMonday (d : Date) : Prop := ∃ monday ∈ Date.of? 1970 1 5, 7 ∣ d.number - monday.number

theorem Date.isMonday_iff (d : Date) : d.IsMonday ↔ 7 ∣ d.number - 4 := by
  have hmonday : (Date.of? 1970 1 5).map number = some 4 := by decide
  obtain ⟨monday, hdate, hnumber⟩ := Option.map_eq_some_iff.1 hmonday
  simp only [IsMonday, hdate, Option.mem_def, Option.some.injEq, exists_eq_left', hnumber]

/-- What relative dates count in. -/
inductive CalendarUnit where
  | day
  | week
  | month

namespace CalendarUnit

/-- The unit before the one that holds now. -/
def last : CalendarUnit → RelativeDate
  | day => .yesterday
  | week => .lastWeek
  | month => .lastMonth

/-- The unit that holds now. -/
def current : CalendarUnit → RelativeDate
  | day => .today
  | week => .thisWeek
  | month => .thisMonth

/-- The unit after the one that holds now. -/
def next : CalendarUnit → RelativeDate
  | day => .tomorrow
  | week => .nextWeek
  | month => .nextMonth

/-- Whether a unit begins on a date: a day on any, a week on a Monday, a month on its first day. -/
def BeginsOn : CalendarUnit → Date → Prop
  | day, _ => True
  | week, d => d.IsMonday
  | month, d => d.day = 1

/-- Whether the second date is one unit after the first: the following day, seven days later, or
in the following month. -/
def Spans : CalendarUnit → Date → Date → Prop
  | day, first, next => next.number = first.number + 1
  | week, first, next => next.number = first.number + 7
  | month, first, next => next.year = first.year ∧ next.month = first.month + 1 ∨
      next.year = first.year + 1 ∧ first.month = 12 ∧ next.month = 1

/-- Whether an interval is one unit, from a midnight at a place on which it begins to the one on
which the following unit does. -/
def Covers (unit : CalendarUnit) (offset : Int) (interval : Interval) : Prop :=
  ∃ first next : Date, first.midnight offset = some interval.start ∧
    next.midnight offset = some interval.stop ∧
    unit.BeginsOn first ∧ unit.BeginsOn next ∧ unit.Spans first next

end CalendarUnit

/-! ### Dates near today -/

namespace Date

theorem one_le_daysInMonth (year : Int) {month : Nat} (h : 1 ≤ month ∧ month ≤ 12) :
    1 ≤ daysInMonth year month := by
  have hlengths : ∀ length ∈ monthLengths year, 1 ≤ length := by
    simp only [monthLengths, List.mem_cons, List.not_mem_nil, or_false, forall_eq_or_imp, forall_eq]
    split <;> omega
  have hlt : month - 1 < (monthLengths year).length := by
    rw [show (monthLengths year).length = 12 from rfl]
    omega
  rw [daysInMonth, if_neg (by omega), List.getD_eq_getElem?_getD, List.getElem?_eq_getElem hlt,
    Option.getD_some]
  exact hlengths _ (List.getElem_mem hlt)

theorem addDays_zero (d : Date) : d.addDays 0 = some d := by
  rw [addDays, Int.add_zero, ofNumber?_number]

/-- The months are numbered through, twelve to a year, and so are their first days. -/
theorem eq_of_startOfMonth {d first : Date} {later : Int} (h : d.startOfMonth later = some first) :
    first.day = 1 ∧ first.year * 12 + first.month = d.year * 12 + d.month + later := by
  obtain ⟨hyear, hmonth, hday⟩ := eq_of_of? h
  omega

theorem exists_startOfMonth (d : Date) (later : Int)
    (h : firstYear ≤ (d.year * 12 + (d.month - 1) + later) / 12 ∧
      (d.year * 12 + (d.month - 1) + later) / 12 ≤ lastYear) :
    ∃ first, d.startOfMonth later = some first := by
  have hmonth : 1 ≤ ((d.year * 12 + (d.month - 1) + later) % 12).toNat + 1 ∧
      ((d.year * 12 + (d.month - 1) + later) % 12).toNat + 1 ≤ 12 := by omega
  exact ⟨_, dif_pos ⟨h, hmonth, by decide, one_le_daysInMonth _ hmonth⟩⟩

/-- The dates of the years with at most four digits are far from the ends of the calendar. -/
theorem number_of_year {d : Date} (h : 0 ≤ d.year ∧ d.year ≤ 9999) :
    firstDay + 100 < d.number ∧ d.number + 100 < lastDay := by
  have hends : firstDay + 100 < yearStart 0 ∧ yearStart 10000 + 100 < lastDay := by decide
  have hstart := yearStart_mono h.1
  have hstop := yearStart_mono (show d.year + 1 ≤ 10000 by omega)
  have hnumber := d.number_mem_year
  omega

theorem firstDay_lt_of_year {d : Date} (h : -1 ≤ d.year) : firstDay < d.number := by
  have hends : firstDay < yearStart (-1) := by decide
  have hstart := yearStart_mono h
  have hnumber := d.number_mem_year.1
  omega

/-- Every date but the first of the calendar has its midnight at every place. -/
theorem exists_midnight {d : Date} (h : firstDay < d.number) {offset : Int}
    (ho : -86400 < offset ∧ offset < 86400) : ∃ i, d.midnight offset = some i := by
  apply Option.isSome_iff_exists.1
  have hlast := d.number_mem.2
  refine isSome_of?_midnightSecond_iff.2 ?_
  unfold firstSecond lastSecond midnightSecond
  omega

end Date

/-! ### The units around today -/

namespace CalendarUnit

/-- The first date of a unit, counted from the unit that holds today. Weeks are counted from the
last Monday. -/
def first? (today : Date) (n : Int) : CalendarUnit → Option Date
  | day => today.addDays n
  | week => (today.addDays (-today.daysSinceMonday)).bind (·.addDays (7 * n))
  | month => today.startOfMonth n

variable {unit : CalendarUnit} {today first next : Date} {n : Int}

theorem exists_monday (h : 0 ≤ today.year ∧ today.year ≤ 9999) :
    ∃ monday, today.addDays (-today.daysSinceMonday) = some monday ∧
      today.number - 7 < monday.number ∧ monday.number ≤ today.number := by
  have hnumber := Date.number_of_year h
  have hsince : 0 ≤ today.daysSinceMonday ∧ today.daysSinceMonday < 7 := by
    unfold Date.daysSinceMonday
    omega
  obtain ⟨monday, hdate, hmonday⟩ := today.exists_addDays (-today.daysSinceMonday) (by omega)
  exact ⟨monday, hdate, by omega⟩

/-- The calendar has the first dates of the units around today, and none is its own first date. -/
theorem exists_first (unit : CalendarUnit) (h : 0 ≤ today.year ∧ today.year ≤ 9999) (n : Int)
    (hn : -1 ≤ n ∧ n ≤ 2) :
    ∃ first, unit.first? today n = some first ∧ firstDay < first.number := by
  have hnumber := Date.number_of_year h
  cases unit with
  | day =>
    obtain ⟨first, hfirst, hlater⟩ := today.exists_addDays n (by omega)
    exact ⟨first, hfirst, by omega⟩
  | week =>
    obtain ⟨monday, hmonday, hwithin⟩ := exists_monday h
    obtain ⟨first, hfirst, hlater⟩ := monday.exists_addDays (7 * n) (by omega)
    exact ⟨first, Option.bind_eq_some_iff.2 ⟨monday, hmonday, hfirst⟩, by omega⟩
  | month =>
    have hends : firstYear < -1 ∧ 10000 < lastYear := by decide
    have htoday := today.exists_month
    obtain ⟨first, hfirst⟩ := today.exists_startOfMonth n (by omega)
    have hlater := (Date.eq_of_startOfMonth hfirst).2
    have hmonth := first.exists_month
    exact ⟨first, hfirst, Date.firstDay_lt_of_year (by omega)⟩

theorem beginsOn_first (h : unit.first? today n = some first) : unit.BeginsOn first := by
  cases unit with
  | day => trivial
  | week =>
    obtain ⟨monday, hmonday, hfirst⟩ := Option.bind_eq_some_iff.1 h
    have hnumber := Date.number_of_addDays hmonday
    have hlater := Date.number_of_addDays hfirst
    unfold Date.daysSinceMonday at hnumber
    show first.IsMonday
    rw [Date.isMonday_iff]
    omega
  | month => exact (Date.eq_of_startOfMonth h).1

/-- From the first date of a unit to that of the following one it is one unit. -/
theorem spans_first (h : unit.first? today n = some first)
    (hnext : unit.first? today (n + 1) = some next) : unit.Spans first next := by
  cases unit with
  | day =>
    have hfirst := Date.number_of_addDays h
    have hlater := Date.number_of_addDays hnext
    unfold Spans
    omega
  | week =>
    obtain ⟨monday, hmonday, hfirst⟩ := Option.bind_eq_some_iff.1 h
    rw [first?, hmonday, Option.bind_some] at hnext
    have hfirst := Date.number_of_addDays hfirst
    have hlater := Date.number_of_addDays hnext
    unfold Spans
    omega
  | month =>
    have hfirst := (Date.eq_of_startOfMonth h).2
    have hlater := (Date.eq_of_startOfMonth hnext).2
    have hmonth := first.exists_month
    have hother := next.exists_month
    unfold Spans
    omega

/-- Between the midnights of the first dates of a unit and the following one lies one unit. -/
theorem covers_first {offset : Int} {start stop : Instant} (h : unit.first? today n = some first)
    (hnext : unit.first? today (n + 1) = some next) (hstart : first.midnight offset = some start)
    (hstop : next.midnight offset = some stop) : unit.Covers offset ⟨start, stop⟩ :=
  ⟨first, next, hstart, hstop, beginsOn_first h, beginsOn_first hnext, spans_first h hnext⟩

/-- Today is not before the first date of its unit. -/
theorem first_le_today (h : unit.first? today 0 = some first) : first.number ≤ today.number := by
  cases unit with
  | day =>
    have hfirst := Date.number_of_addDays h
    omega
  | week =>
    obtain ⟨monday, hmonday, hfirst⟩ := Option.bind_eq_some_iff.1 h
    have hnumber := Date.number_of_addDays hmonday
    have hlater := Date.number_of_addDays hfirst
    unfold Date.daysSinceMonday at hnumber
    omega
  | month =>
    have hfirst := Date.eq_of_startOfMonth h
    have hmonth := first.exists_month
    have htoday := today.exists_month
    have hday := today.exists_day.1
    rw [← Date.le_iff_number_le]
    show ¬ today < first
    rw [Date.lt_def]
    omega

/-- Today is before the first date of the following unit. -/
theorem today_lt_first (h : unit.first? today 1 = some next) : today.number < next.number := by
  cases unit with
  | day =>
    have hnext := Date.number_of_addDays h
    omega
  | week =>
    obtain ⟨monday, hmonday, hnext⟩ := Option.bind_eq_some_iff.1 h
    have hnumber := Date.number_of_addDays hmonday
    have hlater := Date.number_of_addDays hnext
    unfold Date.daysSinceMonday at hnumber
    omega
  | month =>
    have hnext := Date.eq_of_startOfMonth h
    have hmonth := next.exists_month
    have htoday := today.exists_month
    rw [← Date.lt_iff_number_lt, Date.lt_def]
    omega

/-- The relative dates of a unit go from the first date of one to that of the following one. -/
theorem dates_eq (unit : CalendarUnit) (h : 0 ≤ today.year ∧ today.year ≤ 9999) :
    unit.last.dates today = (do return (← unit.first? today (-1), ← unit.first? today 0)) ∧
      unit.current.dates today = (do return (← unit.first? today 0, ← unit.first? today 1)) ∧
      unit.next.dates today = (do return (← unit.first? today 1, ← unit.first? today 2)) := by
  obtain ⟨monday, hmonday, -⟩ := exists_monday h
  cases unit with
  | day => simp [last, current, CalendarUnit.next, first?, RelativeDate.dates, hmonday,
      Date.addDays_zero]
  | week => simp [last, current, CalendarUnit.next, first?, RelativeDate.dates, hmonday,
      Date.addDays_zero]
  | month => simp [last, current, CalendarUnit.next, first?, RelativeDate.dates, hmonday]

end CalendarUnit

/-! ### Three intervals around now -/

/-- A relative date has the interval between the midnights of its two dates. -/
theorem RelativeDate.interval_of_dates {relative : RelativeDate} {now : Moment}
    {first next : Date} (h : relative.dates now.localDate = some (first, next))
    {start stop : Instant} (hstart : first.midnight now.offset = some start)
    (hstop : next.midnight now.offset = some stop) :
    relative.interval now = some ⟨start, stop⟩ := by
  rw [interval, h]
  simp only [Option.bind_eq_bind, Option.bind_some, Interval.between, hstart, hstop,
    Option.pure_def]

theorem Moment.localDay_instant (now : Moment) :
    now.instant.localDay now.offset = now.localDate.number :=
  now.number_localDate.symm

namespace CalendarUnit

variable {unit : CalendarUnit} {offset : Int} {interval : Interval} {i t : Instant}

/-- A unit that holds an instant holds the whole day of it. -/
theorem Covers.holds_of_localDay (h : unit.Covers offset interval) (hi : interval.holds i = true)
    (ht : t.localDay offset = i.localDay offset) : interval.holds t = true := by
  obtain ⟨first, next, hstart, hstop, -⟩ := h
  have hiff := Interval.holds_iff_localDay hstart hstop
  rw [hiff, ht]
  exact (hiff i).1 hi

/-- A day holds instants of one local day only. -/
theorem Covers.localDay_eq (h : day.Covers offset interval) (hi : interval.holds i = true)
    (ht : interval.holds t = true) : t.localDay offset = i.localDay offset := by
  obtain ⟨first, next, hstart, hstop, -, -, hspans⟩ := h
  have hiff := Interval.holds_iff_localDay hstart hstop
  have hi := (hiff i).1 hi
  have ht := (hiff t).1 ht
  unfold Spans at hspans
  omega

/-- The three relative dates of a unit side by side around now: each begins where the one before it
ends, the second one holds now, and all of them are whole units. -/
structure Tiling (unit : CalendarUnit) (now : Moment) (last current next : Interval) : Prop where
  last_eq : unit.last.interval now = some last
  current_eq : unit.current.interval now = some current
  next_eq : unit.next.interval now = some next
  stop_last : last.stop = current.start
  stop_current : current.stop = next.start
  holds_now : current.holds now.instant = true
  covers_last : unit.Covers now.offset last
  covers_current : unit.Covers now.offset current
  covers_next : unit.Covers now.offset next

theorem exists_tiling (unit : CalendarUnit) {now : Moment}
    (h : 0 ≤ now.localDate.year ∧ now.localDate.year ≤ 9999) :
    ∃ last current next, unit.Tiling now last current next := by
  have hmidnight : ∀ n : Int, -1 ≤ n ∧ n ≤ 2 → ∃ first i,
      unit.first? now.localDate n = some first ∧ first.midnight now.offset = some i := by
    intro n hn
    obtain ⟨first, hfirst, hinner⟩ := unit.exists_first h n hn
    obtain ⟨i, hi⟩ := Date.exists_midnight hinner now.offset_lt
    exact ⟨first, i, hfirst, hi⟩
  obtain ⟨d₀, i₀, hd₀, h₀⟩ := hmidnight (-1) (by decide)
  obtain ⟨d₁, i₁, hd₁, h₁⟩ := hmidnight 0 (by decide)
  obtain ⟨d₂, i₂, hd₂, h₂⟩ := hmidnight 1 (by decide)
  obtain ⟨d₃, i₃, hd₃, h₃⟩ := hmidnight 2 (by decide)
  obtain ⟨hlast, hcurrent, hnext⟩ := unit.dates_eq h
  rw [hd₀, hd₁] at hlast
  rw [hd₁, hd₂] at hcurrent
  rw [hd₂, hd₃] at hnext
  have hnow : (Interval.mk i₁ i₂).holds now.instant = true := by
    rw [Interval.holds_iff_localDay h₁ h₂, now.localDay_instant]
    exact ⟨first_le_today hd₁, today_lt_first hd₂⟩
  exact ⟨⟨i₀, i₁⟩, ⟨i₁, i₂⟩, ⟨i₂, i₃⟩,
    { last_eq := RelativeDate.interval_of_dates hlast h₀ h₁
      current_eq := RelativeDate.interval_of_dates hcurrent h₁ h₂
      next_eq := RelativeDate.interval_of_dates hnext h₂ h₃
      stop_last := rfl
      stop_current := rfl
      holds_now := hnow
      covers_last := covers_first hd₀ hd₁ h₀ h₁
      covers_current := covers_first hd₁ hd₂ h₁ h₂
      covers_next := covers_first hd₂ hd₃ h₂ h₃ }⟩

/-- The day of now lies in the unit of now. -/
theorem Tiling.holds_of_day {now : Moment} {yesterday today tomorrow last current next : Interval}
    (hday : day.Tiling now yesterday today tomorrow) (h : unit.Tiling now last current next)
    (ht : today.holds t = true) : current.holds t = true :=
  h.covers_current.holds_of_localDay h.holds_now
    (hday.covers_current.localDay_eq hday.holds_now ht)

end CalendarUnit

namespace RelativeDate

/-- Every relative date is the last, the current or the next one of its unit. -/
theorem exists_unit (relative : RelativeDate) : ∃ unit : CalendarUnit,
    relative = unit.last ∨ relative = unit.current ∨ relative = unit.next := by
  cases relative with
  | yesterday | today | tomorrow => exact ⟨.day, by decide⟩
  | lastWeek | thisWeek | nextWeek => exact ⟨.week, by decide⟩
  | lastMonth | thisMonth | nextMonth => exact ⟨.month, by decide⟩

/-- **Relative dates lie side by side around now.** Seen from a moment that is written in the strict
format every relative date has an interval. Of each unit the last one stops where the current one
starts and that one where the next one starts, the current one holds now, and all three are whole
units between midnights at the place of now. The day of now lies in its week and in its month. -/
theorem interval_tiles {text : Text} {now : Moment} (h : Moment.read? text = some now) :
    (∀ relative : RelativeDate, ∃ interval, relative.interval now = some interval) ∧
    (∀ unit : CalendarUnit, ∃ last current next, unit.Tiling now last current next) ∧
    ∃ day week month, today.interval now = some day ∧ thisWeek.interval now = some week ∧
      thisMonth.interval now = some month ∧
      ∀ t, day.holds t = true → week.holds t = true ∧ month.holds t = true := by
  have htiling := fun unit : CalendarUnit => unit.exists_tiling (Moment.year_of_read? h)
  refine ⟨fun relative => ?_, htiling, ?_⟩
  · obtain ⟨unit, hunit⟩ := relative.exists_unit
    obtain ⟨last, current, next, ht⟩ := htiling unit
    rcases hunit with rfl | rfl | rfl
    · exact ⟨last, ht.last_eq⟩
    · exact ⟨current, ht.current_eq⟩
    · exact ⟨next, ht.next_eq⟩
  · obtain ⟨_, day, _, hday⟩ := htiling .day
    obtain ⟨_, week, _, hweek⟩ := htiling .week
    obtain ⟨_, month, _, hmonth⟩ := htiling .month
    exact ⟨day, week, month, hday.current_eq, hweek.current_eq, hmonth.current_eq,
      fun t ht => ⟨hday.holds_of_day hweek ht, hday.holds_of_day hmonth ht⟩⟩

/-- A leap second in the last minute of the year 9999 at a place far to the west. -/
def farMoment : Moment :=
  ⟨⟨253402387139, 1000000000, by decide, by decide⟩, -86340, by decide, by decide⟩

/-- There is a next month of the last one that can be written. -/
theorem interval_tiles_far :
    Moment.read? "9999-12-31T23:59:60-23:59".toList = some farMoment ∧
      (∃ interval, nextMonth.interval farMoment = some interval) ∧
      ∃ last current next, CalendarUnit.month.Tiling farMoment last current next := by
  have hread : Moment.read? "9999-12-31T23:59:60-23:59".toList = some farMoment := by
    decide +kernel
  have htiles := interval_tiles hread
  exact ⟨hread, htiles.1 nextMonth, htiles.2.1 .month⟩

end RelativeDate
end Triage
