import Triage.Calendar.Interval
import Triage.Calendar.Rfc3339
import Triage.Text.Blank
import Triage.Text.Integer
import Triage.Text.Letter

/-! The values of a query and how they are written.

A value is written so that it reads back as one token of the query: a text stands
bare when it is a word that means nothing else, and in quotes otherwise. -/
namespace Triage

/-- A value that a query compares with a field. -/
inductive Value where
  | text (text : Text)
  | integer (n : Int64)
  /-- A calendar date, which covers the whole day. -/
  | date (date : Date)
  /-- An instant, compared to the second. -/
  | instant (instant : Instant)
  | relative (date : RelativeDate)
  | null
deriving DecidableEq

/-- The value that a time in a query writes: a date or an RFC 3339 instant. -/
def Value.readTime? (text : Text) : Option Value :=
  match Date.read? text with
  | some d => some (.date d)
  | none => (Moment.read? text).map fun moment => .instant moment.instant

/-! ### Quoting -/

namespace Text

/-- The words that mean something other than themselves. -/
def reserved : List Text :=
  ["and", "or", "not", "asc", "desc", "null", "none", "unassigned", "sort"].map String.toList

/-- Whether a text has to be quoted: it is not a single word, begins like a number,
is reserved in some case, or is all digits. -/
def needsQuotes (text : Text) : Bool :=
  text.isEmpty || !text.all isWordChar || text.head? = some '-' ||
    reserved.contains text.lower || allDigits text

/-- A text with a backslash before each quote and backslash. -/
def escaped (text : Text) : Text :=
  text.flatMap fun c => if c = '"' ∨ c = '\\' then ['\\', c] else [c]

/-- A text between quotes. -/
def quoted (text : Text) : Text := '"' :: escaped text ++ ['"']

end Text

namespace Value

/-! ### Writing -/

/-- A value as plain text. -/
def plain : Value → Text
  | text t => t
  | integer n => Integer.text n
  | date d => d.text
  | instant i => i.text
  | relative r => r.name
  | null => "null".toList

/-- A value as written in a query. -/
def render : Value → Text
  | text t => if t.needsQuotes then t.quoted else t
  | instant i => '"' :: i.text ++ ['"']
  | value => value.plain

/-- The interval that a value covers seen from `now`; only dates and instants have one. -/
def interval (value : Value) (now : Moment) : Option Interval :=
  match value with
  | date d => d.interval now.offset
  | instant i => i.interval
  | relative r => r.interval now
  | _ => none

end Value
end Triage
