import Triage.Command.Error
import Triage.Issue.Listing
import Triage.Selection
import Triage.Settings

/-! Filtering issues: read a query and issues, and print the issues that the query selects. -/
namespace Triage.Command

/-- What to filter and how to print it. -/
structure FilterRequest where
  query : Text
  /-- The issues, as an array or as lines of records. -/
  input : Option Text
  format : OutputFormat := .json
  /-- Whether JSON is printed on many lines. -/
  pretty : Bool := false
  /-- A moment to see relative dates from. -/
  now : Option Text := none
  /-- The sort keys of a query that has none. -/
  defaultSort : Option Text := none

/-- The query that a text writes, with the default sort keys if it has none of its own. -/
def queryWithDefault (text : Text) (defaultSort : Option Text) : Except CommandError Query :=
  match Query.parse text with
  | .error e => .error (.query e)
  | .ok query =>
    match defaultSort with
    | none => .ok query
    | some sort =>
      if query.sort.isEmpty then
        match Query.parse ("sort by: ".toList ++ sort) with
        | .error e => .error (.query e)
        | .ok defaults => .ok { query with sort := defaults.sort }
      else .ok query

/-- The issues of an input. -/
def readIssues (text : Text) : Except CommandError (List Issue) :=
  (Issue.readAll text).mapError .ofReadError

/-- Issues as they are printed. -/
def print (format : OutputFormat) (pretty : Bool) (issues : List Issue) : Text :=
  match format with
  | .table => Issue.table issues
  | .json => if pretty then Issue.prettyJson issues else Issue.compactJson issues

/-- The issues that a request selects, as they are printed. Relative dates are seen from `clock`
unless the request names a moment. -/
def filter (clock : Moment) (request : FilterRequest) : Except CommandError Text := do
  let query ← queryWithDefault request.query request.defaultSort
  match request.input with
  | none => throw .noInput
  | some input =>
    let issues ← readIssues input
    let now ←
      match request.now with
      | none => pure clock
      | some text =>
        match Moment.read? text with
        | some now => pure now
        | none => throw (.invalidNow text)
    return print request.format request.pretty (query.run now issues)

end Triage.Command
