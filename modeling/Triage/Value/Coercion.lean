import Triage.Field
import Triage.Value

/-! Fitting a value to a field.

What a query writes for a field is first read as the field's type suggests
(`Value.ofWord`, `Value.ofQuoted`) and then fitted to it: numbers become texts in
a text field, numerals become numbers in an integer field, and what does not fit
is refused (`Value.fit`). A value that fits is fitted to itself (`fit_fit`). -/
namespace Triage

/-- A value that does not fit a field. -/
structure Misfit where
  field : Field
  value : Value
deriving DecidableEq

namespace Value

/-- What a value is, as told in an error. -/
def kind : Value → String
  | text _ => "text"
  | integer _ => "integer"
  | date _ | instant _ => "timestamp"
  | relative _ => "relative date"
  | null => "null"

end Value

/-- What a field of a type takes, as told in an error. -/
def FieldType.expected : FieldType → String
  | .text | .nullableText | .textList => "a text value"
  | .integer | .nullableInteger => "an integer"
  | .time | .nullableTime => "a date (YYYY-MM-DD, RFC 3339, or a relative date such as 'today')"
  | .status => "a status name"
  | .issueType => "an issue type name"

/-- The text of the error. -/
def Misfit.message (misfit : Misfit) : String :=
  let field := String.ofList misfit.field.name
  let value := String.ofList misfit.value.render
  s!"field '{field}' expects {misfit.field.type.expected}, got {misfit.value.kind} '{value}'"

namespace Value

/-! ### Reading what a query writes -/

/-- A time or relative date in a field that holds a time, and the text itself elsewhere. -/
def ofQuoted (field : Field) (t : Text) : Value :=
  if field.type.isTime then
    match RelativeDate.ofName? t with
    | some r => relative r
    | none => (readTime? t).getD (text t)
  else text t

/-- Whether a word without quotes means the absence of a value in a field. -/
def meansNull (field : Field) (t : Text) : Bool :=
  let word := t.lower
  word = "null".toList || word = "none".toList ||
    word = "unassigned".toList && field.type = .nullableText

/-- The value of a word without quotes. -/
def ofWord (field : Field) (t : Text) : Value :=
  if meansNull field t then null else ofQuoted field t

/-! ### Fitting -/

/-- The value in the form that a field takes, or a misfit. -/
def fit (field : Field) (value : Value) : Except Misfit Value :=
  match field.type, value with
  | .integer, null => .error ⟨field, value⟩
  | _, null => .ok null
  | .text, v | .nullableText, v => .ok (text v.plain)
  | .textList, text t => .ok (text t)
  | .textList, integer n => .ok (text (Integer.text n))
  | .integer, integer n | .nullableInteger, integer n => .ok (integer n)
  | .integer, text t | .nullableInteger, text t =>
    match Integer.read? (Text.trim t) with
    | some n => .ok (integer n)
    | none => .error ⟨field, value⟩
  | .time, date d | .nullableTime, date d => .ok (date d)
  | .time, instant i | .nullableTime, instant i => .ok (instant i)
  | .time, relative r | .nullableTime, relative r => .ok (relative r)
  | .status, text t | .issueType, text t => .ok (text t)
  | _, _ => .error ⟨field, value⟩

/-- A value that fits is fitted to itself. -/
theorem fit_fit {field : Field} {value fitted : Value} (h : value.fit field = .ok fitted) :
    fitted.fit field = .ok fitted := by
  unfold fit at h
  split at h
  all_goals try split at h
  all_goals first
    | contradiction
    | (cases h; simp_all [fit, plain])

end Value
end Triage
