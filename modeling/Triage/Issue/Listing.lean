import Triage.Issue.Record

/-! Lists of issues as output: a table, or JSON on one line or many. -/
namespace Triage.Issue

/-- A line of the table: id, status, priority, type and title in columns, then the labels. -/
def row (idWidth : Nat) (issue : Issue) : Text :=
  Text.padRight idWidth issue.id ++ "  ".toList ++
    Text.padRight 11 issue.status.name ++ "  P".toList ++
    Text.padRight 2 (Integer.text issue.priority) ++ ' ' ::
    Text.padRight 8 issue.issueType ++ ' ' :: issue.title ++
    (if issue.labels.isEmpty then []
      else "  [".toList ++ Text.join ", ".toList issue.labels ++ [']'])

/-- The width of the widest id. A formatter that keeps the widths it is given in 16 bits panics on
an id of more than 65535 characters. Here widths have no bound, so such an id is laid out like any
other. -/
def idWidth (issues : List Issue) : Nat := (issues.map fun issue => issue.id.length).foldl max 0

/-- A table with a row for each issue, each row with its line feed. -/
def table (issues : List Issue) : Text :=
  issues.flatMap fun issue => issue.row (idWidth issues) ++ ['\n']

/-- The records of some issues in an array. -/
def arrayJson (issues : List Issue) : Json := .array (issues.map toJson)

/-- The records of some issues in an array on one line. -/
def compactJson (issues : List Issue) : Text := (arrayJson issues).compact

/-- The records of some issues in an array on many lines. -/
def prettyJson (issues : List Issue) : Text := (arrayJson issues).pretty 0

end Triage.Issue
