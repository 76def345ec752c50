import Triage.Calendar.Rfc3339
import Triage.Issue
import Triage.Json.Read
import Triage.Json.Write
import Triage.Text.Blank
import Triage.Text.Integer

/-! Issues as JSON records.

A record is an object with a member for each part of an issue, or an array of the
parts in order. Members that have a default may be missing, optional ones may
also be null, members with other keys are passed over, and a key may not come
twice. Records come as one array or as lines with a record each. -/
namespace Triage

namespace Issue

/-- The keys of a record in order. -/
def keys : List Text :=
  ["id", "title", "description", "status", "priority", "issueType", "assignee", "createdAt",
   "updatedAt", "dueDate", "closedAt", "labels", "estimatedMinutes", "externalRef", "sourceRepo",
   "design", "acceptanceCriteria", "notes"].map String.toList

/-! ### Writing -/

/-- A member with this key and value. -/
def memberOf (key : String) (value : Json) : List (List Json.Symbol × Json) :=
  [(Json.ofText key.toList, value)]

/-- A member with this key if there is a value. -/
def optionalMember (key : String) (value : Option Json) : List (List Json.Symbol × Json) :=
  match value with
  | some v => memberOf key v
  | none => []

/-- A text as a JSON string. -/
def jsonText (text : Text) : Json := .string (Json.ofText text)

/-- The record of an issue. Parts that are absent have no member. -/
def toJson (issue : Issue) : Json :=
  .object
    (memberOf "id" (jsonText issue.id) ++
      memberOf "title" (jsonText issue.title) ++
      memberOf "description" (jsonText issue.description) ++
      memberOf "status" (jsonText issue.status.name) ++
      memberOf "priority" (.integer issue.priority.toInt) ++
      memberOf "issueType" (jsonText issue.issueType) ++
      optionalMember "assignee" (issue.assignee.map jsonText) ++
      memberOf "createdAt" (jsonText issue.created.recordText) ++
      memberOf "updatedAt" (jsonText issue.updated.recordText) ++
      optionalMember "dueDate" (issue.due.map fun t => jsonText t.recordText) ++
      optionalMember "closedAt" (issue.closed.map fun t => jsonText t.recordText) ++
      memberOf "labels" (.array (issue.labels.map jsonText)) ++
      optionalMember "estimatedMinutes" (issue.estimate.map fun n => .integer n.toInt) ++
      optionalMember "externalRef" (issue.externalRef.map jsonText) ++
      optionalMember "sourceRepo" (issue.sourceRepo.map jsonText) ++
      optionalMember "design" (issue.design.map jsonText) ++
      optionalMember "acceptanceCriteria" (issue.acceptance.map jsonText) ++
      optionalMember "notes" (issue.notes.map jsonText))

/-! ### Reading -/

/-- The text of a JSON string. -/
def readText? : Json → Option Text
  | .string symbols => Json.text? symbols
  | _ => none

/-- An integer that fits 64 bits. -/
def readInteger? : Json → Option Int64
  | .integer n => Integer.ofInt? n
  | _ => none

/-- The instant that a JSON string writes. -/
def readInstant? (json : Json) : Option Instant := do
  let moment ← Moment.readRecord? (← readText? json)
  return moment.instant

/-- The status that a JSON string names. -/
def readStatus? (json : Json) : Option Status := (readText? json).bind Status.ofName?

/-- The texts of an array of JSON strings. -/
def readLabels? : Json → Option (List Text)
  | .array items => items.mapM readText?
  | _ => none

/-- A value, or none for null. -/
def readNullable? (read : Json → Option α) : Json → Option (Option α)
  | .null => some none
  | json => (read json).map some

/-- The value of a member with a key, if it comes first or only once. -/
def find? (members : List (Text × Json)) (key : String) : Option Json :=
  (members.find? (·.1 = key.toList)).map (·.2)

/-- A member that has to be there. -/
def required? (members : List (Text × Json)) (key : String) (read : Json → Option α) : Option α :=
  (find? members key).bind read

/-- A member that stands for a default when it is missing. -/
def withDefault? (members : List (Text × Json)) (key : String) (default : α)
    (read : Json → Option α) : Option α :=
  match find? members key with
  | some json => read json
  | none => some default

/-- A member that may be missing or null. -/
def optional? (members : List (Text × Json)) (key : String) (read : Json → Option α) :
    Option (Option α) :=
  withDefault? members key none (readNullable? read)

/-- The issue of the members of a record. -/
def ofMembers? (members : List (Text × Json)) : Option Issue := do
  return {
    id := ← required? members "id" readText?
    title := ← required? members "title" readText?
    description := ← withDefault? members "description" [] readText?
    status := ← withDefault? members "status" .opened readStatus?
    priority := ← withDefault? members "priority" 0 readInteger?
    issueType := ← withDefault? members "issueType" defaultType readText?
    assignee := ← optional? members "assignee" readText?
    created := ← required? members "createdAt" readInstant?
    updated := ← required? members "updatedAt" readInstant?
    due := ← optional? members "dueDate" readInstant?
    closed := ← optional? members "closedAt" readInstant?
    labels := ← withDefault? members "labels" [] readLabels?
    estimate := ← optional? members "estimatedMinutes" readInteger?
    externalRef := ← optional? members "externalRef" readText?
    sourceRepo := ← optional? members "sourceRepo" readText?
    design := ← optional? members "design" readText?
    acceptance := ← optional? members "acceptanceCriteria" readText?
    notes := ← optional? members "notes" readText? }

/-- The members of a record whose keys are texts, if none of the keys of a record comes twice. -/
def members? (members : List (List Json.Symbol × Json)) : Option (List (Text × Json)) := do
  let members ← members.mapM fun (key, value) => return (← Json.text? key, value)
  if keys.all fun key => members.countP (·.1 = key) ≤ 1 then return members else none

/-- The issue of a record. -/
def ofJson? : Json → Option Issue
  | .object members => (members? members).bind ofMembers?
  | .array items => if items.length ≤ keys.length then ofMembers? (keys.zip items) else none
  | _ => none

/-- The issue of a text that writes one record. -/
def read? (text : Text) : Option Issue := (Json.read? text).bind ofJson?

/-- The issues of a text that writes an array of records. -/
def readArray? (text : Text) : Option (List Issue) :=
  match Json.read? text with
  | some (.array items) => items.mapM ofJson?
  | _ => none

/-- Why a text holds no issues. -/
inductive ReadError where
  /-- It begins like an array and is none of records. -/
  | array
  /-- The line with this number, counted from one, is no record. -/
  | line (number : Nat)
deriving DecidableEq

/-- The issues of lines with a record each, the first of them with this number. Blank lines are
passed over. -/
def readLines (number : Nat) : List Text → Except ReadError (List Issue)
  | [] => .ok []
  | line :: more =>
    if Text.isBlankText line then readLines (number + 1) more
    else
      match read? line with
      | some issue => (readLines (number + 1) more).map (issue :: ·)
      | none => .error (.line number)

/-- The issues of a text, which is an array if its first character that is not blank says so. -/
def readAll (text : Text) : Except ReadError (List Issue) :=
  match Text.trimStart text with
  | [] => .ok []
  | '[' :: rest =>
    match readArray? ('[' :: rest) with
    | some issues => .ok issues
    | none => .error .array
  | _ => readLines 1 (Text.lines text)

/-- A text that begins like an array is read as one. -/
theorem readAll_of_readArray? {rest : Text} {issues : List Issue}
    (h : readArray? ('[' :: rest) = some issues) : readAll ('[' :: rest) = .ok issues := by
  have htrim : Text.trimStart ('[' :: rest) = '[' :: rest := rfl
  rw [readAll, htrim]
  simp only [h]

end Issue
end Triage
