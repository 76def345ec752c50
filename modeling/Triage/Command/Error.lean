import Triage.Issue.Record
import Triage.Query.Parse

/-! Why a command fails. -/
namespace Triage

/-- Why a command fails. -/
inductive CommandError where
  | query (error : QueryError)
  /-- The input begins like an array and is no array of records. -/
  | json
  /-- The line with this number, counted from one, is no record. -/
  | jsonLine (line : Nat)
  /-- A file cannot be read. -/
  | file (path : Text)
  /-- A file holds no settings. -/
  | settings (path : Text)
  | noInput
  | invalidNow (text : Text)
deriving DecidableEq

namespace CommandError

/-- The text of the error. -/
def message : CommandError → String
  | query error => s!"Query error: {error.message}"
  | json => "Invalid JSON: the input is no array of records"
  | jsonLine line => s!"Invalid record on line {line}: the line is no record"
  | file path => s!"IO error: cannot read {String.ofList path}"
  | settings path => s!"Invalid config file {String.ofList path}: the file holds no settings"
  | noInput => "No input provided. Use --input or pipe JSON to stdin."
  | invalidNow text =>
    s!"Invalid --now value '{String.ofList text}': expected an RFC 3339 timestamp"

/-- The error for input that holds no issues. -/
def ofReadError : Issue.ReadError → CommandError
  | .array => json
  | .line n => jsonLine n

end CommandError
end Triage
