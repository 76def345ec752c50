import Triage.Calendar.Instant
import Triage.Field
import Triage.Text.Lowercase

/-! Issues.

An issue is seen by queries field by field (`Issue.get`): every field holds a
text, an integer, an instant, a list of texts, or nothing. -/
namespace Triage

/-! ### Status -/

/-- The state of work on an issue. -/
inductive Status where
  | opened
  | inProgress
  | blocked
  | deferred
  | closed
deriving DecidableEq, Repr

namespace Status

/-- Every status. -/
def all : List Status := [opened, inProgress, blocked, deferred, closed]

/-- The name of a status. -/
def name : Status → Text
  | opened => "open".toList
  | inProgress => "in_progress".toList
  | blocked => "blocked".toList
  | deferred => "deferred".toList
  | closed => "closed".toList

/-- A name without the differences that do not count: case, and hyphens for underscores. -/
def foldName (text : Text) : Text := Text.replace '-' '_' text.lower

/-- The status of a name in any case, with hyphens or underscores. -/
def ofName? (text : Text) : Option Status := all.find? (·.name = foldName text)

/-- The text of the error for a text that names no status. -/
def unknownMessage (text : Text) : String :=
  s!"unknown status '{String.ofList (foldName text)}'"

theorem ofName?_name (status : Status) : ofName? status.name = some status := by
  cases status <;> decide

end Status

/-! ### Issues -/

/-- An issue. -/
structure Issue where
  id : Text
  title : Text
  description : Text
  status : Status
  priority : Int64
  issueType : Text
  assignee : Option Text
  created : Instant
  updated : Instant
  due : Option Instant
  closed : Option Instant
  labels : List Text
  estimate : Option Int64
  externalRef : Option Text
  sourceRepo : Option Text
  design : Option Text
  acceptance : Option Text
  notes : Option Text
deriving DecidableEq

/-- What a field of an issue holds. -/
inductive Content where
  | absent
  | text (text : Text)
  | integer (n : Int64)
  | instant (instant : Instant)
  | list (items : List Text)
deriving DecidableEq

namespace Content

/-- A text that may be missing. -/
def ofText? : Option Text → Content
  | some t => text t
  | none => absent

/-- An instant that may be missing. -/
def ofInstant? : Option Instant → Content
  | some i => instant i
  | none => absent

/-- An integer that may be missing. -/
def ofInteger? : Option Int64 → Content
  | some n => integer n
  | none => absent

end Content

namespace Issue

/-- The type of an issue that states none. -/
def defaultType : Text := "task".toList

/-- An open task of priority 2 from the start of 1970. -/
def new (id title : Text) : Issue where
  id := id
  title := title
  description := []
  status := .opened
  priority := 2
  issueType := defaultType
  assignee := none
  created := .epoch
  updated := .epoch
  due := none
  closed := none
  labels := []
  estimate := none
  externalRef := none
  sourceRepo := none
  design := none
  acceptance := none
  notes := none

/-- What a field of an issue holds. -/
def get (issue : Issue) : Field → Content
  | .id => .text issue.id
  | .title => .text issue.title
  | .description => .text issue.description
  | .status => .text issue.status.name
  | .priority => .integer issue.priority
  | .issueType => .text issue.issueType
  | .assignee => .ofText? issue.assignee
  | .created => .instant issue.created
  | .updated => .instant issue.updated
  | .due => .ofInstant? issue.due
  | .closed => .ofInstant? issue.closed
  | .labels => .list issue.labels
  | .estimate => .ofInteger? issue.estimate
  | .externalRef => .ofText? issue.externalRef
  | .sourceRepo => .ofText? issue.sourceRepo
  | .design => .ofText? issue.design
  | .acceptance => .ofText? issue.acceptance
  | .notes => .ofText? issue.notes

end Issue
end Triage
