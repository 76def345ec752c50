import Triage.Calendar.Date
import Triage.Calendar.Scan

/-! Dates as text.

A date is written as year, month and day joined by hyphens, the year with at
least four digits, and with a sign if it is not one of the years 0 to 9999. In
reading, each number may follow blanks and may have fewer digits. -/
namespace Triage

namespace Calendar

/-- A year with at least four digits, with a sign outside the years 0 to 9999. -/
def yearText (year : Int) : Text :=
  if 0 ≤ year ∧ year ≤ 9999 then Decimal.padded 4 year.natAbs
  else (if year < 0 then '-' else '+') :: Decimal.padded 4 year.natAbs

end Calendar

namespace Date

/-- A date as year, month and day. -/
def text (date : Date) : Text :=
  Calendar.yearText date.year ++ '-' :: Decimal.padded 2 date.month ++
    '-' :: Decimal.padded 2 date.day

/-- A year, a month and a day of the calendar. -/
def scan : Scan Date := do
  let year ← Scan.year
  Scan.char '-'
  let month ← Scan.short
  Scan.char '-'
  let day ← Scan.short
  of? year month day

/-- The date that a text writes. -/
def read? (text : Text) : Option Date := scan.whole? text

end Date
end Triage
