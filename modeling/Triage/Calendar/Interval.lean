import Triage.Calendar.Instant
import Triage.Text.Lowercase

/-! Intervals of time, and dates named by where they lie from now.

An interval holds its start and not its stop. A calendar date covers the day
between two midnights, an instant the whole second in which it falls, and a
relative date such as `last-week` a day, a week from Monday on, or a month. Days
begin at midnight of the place of the moment called now. -/
namespace Triage

/-! ### Intervals -/

/-- The instants from `start` on that come before `stop`. -/
structure Interval where
  start : Instant
  stop : Instant
deriving DecidableEq

/-- Whether an instant lies in an interval. -/
def Interval.holds (interval : Interval) (instant : Instant) : Bool :=
  !instant.before interval.start && instant.before interval.stop

/-- The interval between the midnights that begin two dates. -/
def Interval.between (first next : Date) (offset : Int) : Option Interval := do
  return ⟨← first.midnight offset, ← next.midnight offset⟩

/-- The day that a date names at a place with this offset. -/
def Date.interval (date : Date) (offset : Int) : Option Interval := do
  let start ← date.midnight offset
  let next ← date.addDays 1
  return ⟨start, ← next.midnight offset⟩

/-- The second in which an instant falls: it starts the fraction of the instant earlier and stops a
second after that. -/
def Instant.interval (instant : Instant) : Option Interval := do
  let start ← instant.shift? (-instant.nano)
  return ⟨start, ← start.shift? 1000000000⟩

theorem Instant.interval_eq (instant : Instant) :
    instant.interval = (of? (instant.second + 1) 0).map (⟨instant.wholeSecond, ·⟩) := by
  rw [interval, shift?_neg_nano, Option.bind_eq_bind, Option.bind_some, shift?_wholeSecond,
    Option.map_eq_bind]
  rfl

/-! ### Relative dates -/

/-- A day, week or month named by where it lies from now. -/
inductive RelativeDate where
  | today
  | yesterday
  | tomorrow
  | thisWeek
  | lastWeek
  | nextWeek
  | thisMonth
  | lastMonth
  | nextMonth
deriving DecidableEq, Repr

namespace RelativeDate

/-- The relative dates in the order in which they are listed. -/
def all : List RelativeDate :=
  [today, yesterday, tomorrow, thisWeek, lastWeek, nextWeek, thisMonth, lastMonth, nextMonth]

/-- The name of a relative date in a query. -/
def name : RelativeDate → Text
  | today => "today".toList
  | yesterday => "yesterday".toList
  | tomorrow => "tomorrow".toList
  | thisWeek => "this-week".toList
  | lastWeek => "last-week".toList
  | nextWeek => "next-week".toList
  | thisMonth => "this-month".toList
  | lastMonth => "last-month".toList
  | nextMonth => "next-month".toList

/-- The relative date of a name in any case, with hyphens or underscores. -/
def ofName? (text : Text) : Option RelativeDate :=
  all.find? (·.name = Text.replace '_' '-' text.lower)

/-- The dates on which a span begins and after which it has ended, counted from `today`. The last
Monday is found first, whatever the span. -/
def dates (relative : RelativeDate) (today : Date) : Option (Date × Date) := do
  let monday ← today.addDays (-today.daysSinceMonday)
  match relative with
  | .today => return (today, ← today.addDays 1)
  | .yesterday => return (← today.addDays (-1), today)
  | .tomorrow => return (← today.addDays 1, ← today.addDays 2)
  | .thisWeek => return (monday, ← monday.addDays 7)
  | .lastWeek => return (← monday.addDays (-7), monday)
  | .nextWeek => return (← monday.addDays 7, ← monday.addDays 14)
  | .thisMonth => return (← today.startOfMonth 0, ← today.startOfMonth 1)
  | .lastMonth => return (← today.startOfMonth (-1), ← today.startOfMonth 0)
  | .nextMonth => return (← today.startOfMonth 1, ← today.startOfMonth 2)

/-- The interval of a relative date seen from `now`, if the calendar reaches that far. -/
def interval (relative : RelativeDate) (now : Moment) : Option Interval := do
  let (first, next) ← relative.dates now.localDate
  Interval.between first next now.offset

theorem ofName?_name (relative : RelativeDate) : ofName? relative.name = some relative := by
  cases relative <;> decide

end RelativeDate
end Triage
