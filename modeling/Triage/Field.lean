import Triage.Text.Lowercase

/-! The fields of an issue that a query can name.

Each field has a type, which says what values it is compared with, a name, and
further names that mean the same. Names are found in any case (`Field.ofName?`),
and no two fields share one (`ofName?_eq_some_iff`). -/
namespace Triage

/-! ### Types -/

/-- What a field holds. -/
inductive FieldType where
  | text
  | nullableText
  | textList
  | integer
  | nullableInteger
  | time
  | nullableTime
  | status
  | issueType
deriving DecidableEq, Repr

namespace FieldType

/-- The name of a type in the list of fields. -/
def name : FieldType → Text
  | text => "string".toList
  | nullableText => "nullable string".toList
  | textList => "string list".toList
  | integer => "integer".toList
  | nullableInteger => "nullable integer".toList
  | time => "timestamp".toList
  | nullableTime => "nullable timestamp".toList
  | status => "status".toList
  | issueType => "issue type".toList

/-- Whether a field of this type may be empty. -/
def isNullable : FieldType → Bool
  | nullableText | nullableInteger | nullableTime => true
  | _ => false

/-- Whether a field of this type holds free text, once or in a list. -/
def isText : FieldType → Bool
  | text | nullableText | textList => true
  | _ => false

/-- Whether a field of this type holds an integer. -/
def isInteger : FieldType → Bool
  | integer | nullableInteger => true
  | _ => false

/-- Whether a field of this type holds a time. -/
def isTime : FieldType → Bool
  | time | nullableTime => true
  | _ => false

/-- Whether a field of this type holds one of a few names. -/
def isEnum : FieldType → Bool
  | status | issueType => true
  | _ => false

/-- Whether a field of this type has ranges. -/
def isOrderable (type : FieldType) : Bool := type.isInteger || type.isTime

end FieldType

/-! ### Fields -/

/-- A field of an issue. -/
inductive Field where
  | id
  | title
  | description
  | status
  | priority
  | issueType
  | assignee
  | created
  | updated
  | due
  | closed
  | labels
  | estimate
  | externalRef
  | sourceRepo
  | design
  | acceptance
  | notes
deriving DecidableEq, Repr

namespace Field

/-- The fields in the order in which they are listed. -/
def all : List Field :=
  [id, title, description, status, priority, issueType, assignee, created, updated, due, closed,
   labels, estimate, externalRef, sourceRepo, design, acceptance, notes]

/-- The type of a field. -/
def type : Field → FieldType
  | id | title | description => .text
  | status => .status
  | priority => .integer
  | issueType => .issueType
  | assignee | externalRef | sourceRepo | design | acceptance | notes => .nullableText
  | created | updated => .time
  | due | closed => .nullableTime
  | labels => .textList
  | estimate => .nullableInteger

/-- The name of a field in a canonical query. -/
def name : Field → Text
  | id => "id".toList
  | title => "title".toList
  | description => "description".toList
  | status => "status".toList
  | priority => "priority".toList
  | issueType => "type".toList
  | assignee => "assignee".toList
  | created => "created".toList
  | updated => "updated".toList
  | due => "due".toList
  | closed => "closed".toList
  | labels => "label".toList
  | estimate => "estimate".toList
  | externalRef => "external-ref".toList
  | sourceRepo => "source-repo".toList
  | design => "design".toList
  | acceptance => "acceptance".toList
  | notes => "notes".toList

/-- The further names of a field. -/
def aliases (field : Field) : List Text :=
  (match field with
    | id => ["issue-id", "issue_id", "key"]
    | title => ["summary", "name"]
    | description => ["body", "text"]
    | status => ["state", "s"]
    | priority => ["prio", "pri", "p"]
    | issueType => ["issuetype", "issue-type", "issue_type", "kind", "t"]
    | assignee => ["assigned", "owner", "a"]
    | created => ["createdat", "created-at", "created_at"]
    | updated => ["updatedat", "updated-at", "updated_at", "modified"]
    | due => ["duedate", "due-date", "due_date"]
    | closed => ["closedat", "closed-at", "closed_at"]
    | labels => ["labels", "tag", "tags", "l"]
    | estimate => ["estimated", "estimatedminutes", "estimated-minutes", "estimated_minutes"]
    | externalRef => ["externalref", "external_ref", "ref"]
    | sourceRepo => ["sourcerepo", "source_repo", "repo"]
    | design => []
    | acceptance => ["acceptancecriteria", "acceptance-criteria", "acceptance_criteria", "criteria"]
    | notes => ["note"]).map String.toList

/-- All names of a field, its own first. -/
def names (field : Field) : List Text := field.name :: field.aliases

/-- The field that a name in any case means. -/
def ofName? (text : Text) : Option Field := all.find? fun field => text.lower ∈ field.names

/-- The fields that a word without a field name is searched in. -/
def searched : List Field := [id, title, description, design, acceptance, notes]

/-- Whether a value given for a field is searched in it instead of compared with it. -/
def isFreeText : Field → Bool
  | title | description | design | acceptance | notes => true
  | _ => false

/-! ### Names -/

theorem mem_all (field : Field) : field ∈ all := by
  cases field <;> decide

/-- Names are written in lower case. -/
theorem lower_of_mem_names {field : Field} {text : Text} (h : text ∈ field.names) :
    text.lower = text := by
  have : ∀ f ∈ all, ∀ t ∈ f.names, Text.lower t = t := by decide +kernel
  exact this field field.mem_all text h

/-- No name belongs to two fields. -/
theorem eq_of_mem_names {a b : Field} {text : Text} (ha : text ∈ a.names) (hb : text ∈ b.names) :
    a = b := by
  have : ∀ a ∈ all, ∀ b ∈ all, ∀ text ∈ a.names, text ∈ b.names → a = b := by decide +kernel
  exact this a a.mem_all b b.mem_all text ha hb

/-- A text means a field exactly if it is one of the field's names in lower case. -/
theorem ofName?_eq_some_iff {text : Text} {field : Field} :
    ofName? text = some field ↔ text.lower ∈ field.names := by
  constructor
  · intro h
    simpa using List.find?_some h
  · intro h
    cases hf : ofName? text with
    | none =>
      have := List.find?_eq_none.1 hf field field.mem_all
      simp [h] at this
    | some other =>
      have : text.lower ∈ other.names := by simpa using List.find?_some hf
      rw [eq_of_mem_names this h]

theorem ofName?_name (field : Field) : ofName? field.name = some field := by
  have h : field.name ∈ field.names := List.mem_cons_self
  rw [ofName?_eq_some_iff, lower_of_mem_names h]
  exact h

end Field
end Triage
