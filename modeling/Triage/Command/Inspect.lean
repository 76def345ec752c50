import Triage.Command.Error

/-! Looking at queries: their canonical form, their tokens, and the fields they can name. -/
namespace Triage.Command

/-- The canonical form of a query. -/
def check (query : Text) : Except CommandError Text :=
  match Query.parse query with
  | .error e => .error (.query e)
  | .ok parsed => .ok (if parsed.isEmpty then "(matches everything)".toList else parsed.render)

/-- The tokens of a query, one on a line. -/
def tokens (query : Text) : Except CommandError Text :=
  match tokenize query with
  | .error e => .error (.query (.lex e))
  | .ok tokens => .ok (tokens.flatMap fun token => token.row ++ ['\n'])

/-- A line of the list of fields: name, type and aliases in columns. -/
def fieldRow (field : Field) : Text :=
  "  ".toList ++ Text.padRight 14 field.name ++ ' ' :: Text.padRight 20 field.type.name ++
    ' ' :: (if field.aliases.isEmpty then ['-'] else Text.join ", ".toList field.aliases) ++ ['\n']

/-- Every field with its type and aliases, and the names of the relative dates. -/
def fields : Text :=
  "FIELDS\n\n".toList ++ Field.all.flatMap fieldRow ++
    "\nRELATIVE DATES\n\n ".toList ++ RelativeDate.all.flatMap (fun date => ' ' :: date.name) ++
    "\n\nBare words search id, title, description, design, acceptance and notes.\n".toList

end Triage.Command
