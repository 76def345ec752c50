import Triage.Calendar.DateText
import Triage.Calendar.Instant

/-! Instants as text, in the format of RFC 3339.

An instant is written as date, `T`, time of day and the designator of universal
time, the fraction of a second with no digits, three, six or nine, the fewest
that lose nothing. A leap second is written as second 60. A moment is read from
the strict format, four digits for the year and two for every other number; the
times of records are read from a looser one, in which numbers may follow blanks
and be shorter and the offset may be written in more ways. -/
namespace Triage

/-! ### Writing -/

namespace Instant

/-- A fraction of a second with the fewest groups of three digits that lose nothing. -/
def fractionText (nano : Nat) : Text :=
  if nano = 0 then []
  else if nano % 1000000 = 0 then '.' :: Decimal.padded 3 (nano / 1000000)
  else if nano % 1000 = 0 then '.' :: Decimal.padded 6 (nano / 1000)
  else '.' :: Decimal.padded 9 nano

/-- The hour, minute and second of a time of day, with second 60 for a leap second. -/
def timeText (secondOfDay nano : Nat) : Text :=
  Decimal.padded 2 (secondOfDay / 3600) ++
    ':' :: Decimal.padded 2 (secondOfDay / 60 % 60) ++
    ':' :: Decimal.padded 2 (secondOfDay % 60 + nano / 1000000000) ++
    fractionText (nano % 1000000000)

/-- An instant as date and time of day, before what designates universal time. -/
def dateTimeText (instant : Instant) : Text :=
  instant.date.text ++ 'T' :: timeText (instant.second % 86400).toNat instant.nano

/-- An instant with a zero offset, as queries write it. -/
def text (instant : Instant) : Text := instant.dateTimeText ++ "+00:00".toList

/-- An instant with the letter `Z`, as records write it. -/
def recordText (instant : Instant) : Text := instant.dateTimeText ++ ['Z']

end Instant

/-! ### Reading -/

namespace Moment

/-- The moment of a date, a time of day and an offset. Second 60 is the leap second after 59. -/
def ofParts? (date : Date) (hour minute second nano : Nat) (offset : Int) : Option Moment :=
  if hour < 24 ∧ minute < 60 ∧ second ≤ 60 then do
    let leap := second / 60
    let start := date.number * 86400 + hour * 3600 + minute * 60 + (second - leap : Nat)
    let instant ← Instant.of? (start - offset) (nano + leap * 1000000000)
    Moment.of? instant offset
  else none

/-- A moment in the strict format. -/
def scan : Scan Moment := do
  let year ← Scan.number 4 4
  Scan.char '-'
  let month ← Scan.number 2 2
  Scan.char '-'
  let day ← Scan.number 2 2
  Scan.oneOf ['T', 't', ' ']
  let hour ← Scan.number 2 2
  Scan.char ':'
  let minute ← Scan.number 2 2
  Scan.char ':'
  let second ← Scan.number 2 2
  let nano ← Scan.fraction
  let offset ← Scan.offset (Scan.char ':')
  let date ← Date.of? year month day
  ofParts? date hour minute second nano offset

/-- The moment that a text writes in the strict format. -/
def read? (text : Text) : Option Moment := scan.whole? text

/-- An offset of a record's time: the word `UTC` in any case, or hours and minutes with any colons
and blanks between them. -/
def recordOffset : Scan Int := fun text =>
  if (text.take 3).map Char.toUpper = "UTC".toList then some (0, text.drop 3)
  else Scan.offset
    (fun rest => some ((), rest.dropWhile fun c => c = ':' || Text.isBlank c)) text

/-- A moment in the format of records. Numbers may follow blanks, and blanks may stand before
each hyphen and colon and at the end. -/
def recordScan : Scan Moment := do
  let year ← Scan.year
  Scan.blanks
  Scan.char '-'
  let month ← Scan.short
  Scan.blanks
  Scan.char '-'
  let day ← Scan.short
  Scan.oneOf ['T', 't', ' ']
  let hour ← Scan.short
  Scan.blanks
  Scan.char ':'
  let minute ← Scan.short
  Scan.blanks
  Scan.char ':'
  let second ← Scan.short
  let nano ← Scan.fraction
  Scan.blanks
  let offset ← recordOffset
  Scan.blanks
  let date ← Date.of? year month day
  ofParts? date hour minute second nano offset

/-- The moment that a text writes in the format of records. -/
def readRecord? (text : Text) : Option Moment := recordScan.whole? text

end Moment
end Triage
