import Triage.Settings.Toml

/-! Settings of the command line, read from a TOML document.

Every setting is optional and no other key may stand in the document. The output
format is a string, or a table whose only key is the name of the format and holds
an empty value. -/
namespace Triage

/-- How issues are printed. -/
inductive OutputFormat where
  | json
  | table
deriving DecidableEq, Repr

/-- The name of an output format. -/
def OutputFormat.name : OutputFormat → Text
  | json => "json".toList
  | table => "table".toList

/-- The output format of a name. -/
def OutputFormat.ofName? (text : Text) : Option OutputFormat :=
  [json, table].find? (·.name = text)

/-- Settings of the command line. -/
structure Settings where
  /-- The sort keys of a query that has none. -/
  defaultSort : Option Text := none
  format : OutputFormat := .json
  pretty : Bool := false
  /-- What is logged. -/
  logLevel : Option Text := none
deriving DecidableEq

namespace Settings
open Toml

/-- What is logged when nothing is set: warnings. -/
def logDirective (settings : Settings) : Text := settings.logLevel.getD "warn".toList

/-- The settings of the assignments before the first header. -/
def assign (settings : Settings) (a : Assignment) : Option Settings :=
  if a.path = ["default_sort".toList] then
    match a.value with
    | .string text => some { settings with defaultSort := some text }
    | _ => none
  else if a.path = ["log_level".toList] then
    match a.value with
    | .string text => some { settings with logLevel := some text }
    | _ => none
  else if a.path = ["pretty".toList] then
    match a.value with
    | .boolean b => some { settings with pretty := b }
    | _ => none
  else if a.path = ["format".toList] then
    match a.value with
    | .string name | .only name =>
      (OutputFormat.ofName? name).map fun format => { settings with format }
    | _ => none
  else
    match a.path, a.value with
    | [first, name], .empty =>
      if first = "format".toList then
        (OutputFormat.ofName? name).map fun format => { settings with format }
      else none
    | _, _ => none

/-- The name of the format that sections choose: by an assignment under its header, or by a
header of its own, beside which the header of the format may stand. -/
def sectionFormat? : List Section → Option Text
  | [⟨[table], [⟨[name], .empty⟩]⟩] => if table = "format".toList then some name else none
  | [⟨[table, name], []⟩] => if table = "format".toList then some name else none
  | [⟨[outer], []⟩, ⟨[table, name], []⟩] =>
    if outer = "format".toList ∧ table = "format".toList then some name else none
  | [⟨[table, name], []⟩, ⟨[outer], []⟩] =>
    if outer = "format".toList ∧ table = "format".toList then some name else none
  | _ => none

/-- The settings of a document. No setting may be given twice. -/
def ofDocument? (document : Document) : Option Settings := do
  let given := document.top.map fun a => a.path.head?
  if given.Nodup then
    let settings ← document.top.foldlM assign {}
    if document.sections.isEmpty then return settings
    else if given.contains (some "format".toList) then none
    else
      let format ← OutputFormat.ofName? (← sectionFormat? document.sections)
      return { settings with format }
  else none

/-- The settings of a text, if it is a document of settings. -/
def read? (text : Text) : Option Settings := (Toml.read? text).bind ofDocument?

end Settings
end Triage
