import Triage.Text.Blank
import Triage.Text.Decimal
import Triage.Text.Scan

/-! Scans of the numbers in dates and times. -/
namespace Triage.Scan

/-- Any blanks. -/
def blanks : Scan Unit := fun text => some ((), Text.trimStart text)

/-- The number of the digits at the front, at most `most` of them and at least `least`. -/
def number (least most : Nat) : Scan Nat := fun text =>
  let digits := (text.take most).takeWhile Char.isDigit
  if digits.length < least then none
  else some (Decimal.value digits, text.drop digits.length)

/-- The number of all digits at the front, of which there is at least one. -/
def wholeNumber : Scan Nat := fun text => number 1 text.length text

/-- A year after any blanks: one to four digits, or any number of digits after a sign. -/
def year : Scan Int := do
  blanks
  fun text => match text with
    | '-' :: rest => (wholeNumber rest).map fun (n, rest) => (-(n : Int), rest)
    | '+' :: rest => (wholeNumber rest).map fun (n, rest) => ((n : Int), rest)
    | text => (number 1 4 text).map fun (n, rest) => ((n : Int), rest)

/-- A number of one or two digits after any blanks. -/
def short : Scan Nat := do
  blanks
  number 1 2

/-- The nanoseconds of a fraction of a second: none without a point, else one or more digits, of
which those beyond the ninth are dropped. -/
def fraction : Scan Nat
  | '.' :: rest =>
    let digits := rest.takeWhile Char.isDigit
    if digits.isEmpty then none
    else
      let kept := digits.take 9
      let zeros := List.replicate (9 - kept.length) '0'
      some (Decimal.value (kept ++ zeros), rest.drop digits.length)
  | text => some (0, text)

/-- The seconds of an offset from universal time: `Z`, or a sign, two digits of hours, what
`separator` takes, and two digits of minutes. -/
def offset (separator : Scan Unit) : Scan Int
  | 'Z' :: rest => some (0, rest)
  | 'z' :: rest => some (0, rest)
  | '+' :: rest => span 1 rest
  | '-' :: rest => span (-1) rest
  | '\u2212' :: rest => span (-1) rest
  | _ => none
where
  /-- Hours and minutes to the east, or to the west by the sign. -/
  span (sign : Int) : Scan Int := do
    let hours ← number 2 2
    separator
    let minutes ← number 2 2
    if 60 ≤ minutes then failure
    return sign * (hours * 3600 + minutes * 60)

end Triage.Scan
