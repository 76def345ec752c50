import Triage.Command.Arguments
import Triage.Command.Filter
import Triage.Command.Inspect

/-! Running a command.

What a command prints is a function of its arguments and of what it sees around
it: environment, files, input and clock. -/
namespace Triage.Command

/-- What a path leads to. -/
inductive Entry where
  | file (text : Text)
  /-- Something that cannot be read as a text. -/
  | unreadable
deriving DecidableEq

/-- What a command sees besides its arguments. -/
structure Surroundings where
  /-- The value of an environment variable. -/
  environment : Text → Option Text
  /-- What a path leads to, if there is anything. -/
  entry : Text → Option Entry
  /-- The directory of the user's settings. -/
  settingsDirectory : Option Text
  /-- The input of the command, none at a terminal. -/
  input : Option Text
  clock : Moment

/-- How a command ends and what it prints. -/
structure Outcome where
  code : Nat
  stdout : Text := []
  stderr : Text := []
deriving DecidableEq

namespace Outcome

/-- A command that has done its work. -/
def success (stdout : Text) : Outcome := { code := 0, stdout }

/-- A command that fails. -/
def failure (error : CommandError) : Outcome :=
  { code := 1, stderr := error.message.toList ++ ['\n'] }

/-- A command line that is used wrongly. -/
def misuse : Outcome :=
  { code := 2, stderr := "usage: issueq [--config FILE] filter|check|tokens|fields\n".toList }

/-- What is printed, or a failure. -/
def ofResult : Except CommandError Text → Outcome
  | .ok text => success text
  | .error e => failure e

end Outcome

/-- A text with a line feed behind it. -/
def withLineFeed (text : Text) : Text := text ++ ['\n']

/-- A text with a line feed behind it unless it ends with one. -/
def endLine (text : Text) : Text := if text.getLast? = some '\n' then text else withLineFeed text

/-- The text of a file that has to be there. -/
def readFile (around : Surroundings) (path : Text) : Except CommandError Text :=
  match around.entry path with
  | some (.file text) => .ok text
  | _ => .error (.file path)

/-- The settings in a file that has to be there. -/
def readSettings (around : Surroundings) (path : Text) : Except CommandError Settings := do
  match Settings.read? (← readFile around path) with
  | some settings => return settings
  | none => throw (.settings path)

/-- The place of the settings file when none is named. -/
def defaultSettingsPath (directory : Text) : Text := directory ++ "/issueq/config.toml".toList

/-- The settings of a named file, or of the file in its usual place, if there is one. -/
def settings (around : Surroundings) (named : Option Text) : Except CommandError Settings :=
  match named, around.settingsDirectory.map defaultSettingsPath with
  | some path, _ => readSettings around path
  | none, some path =>
    if (around.entry path).isSome then readSettings around path else .ok {}
  | none, none => .ok {}

/-- The input of a filter: a named file, or what comes in. -/
def filterInput (around : Surroundings) (file : Option Text) : Except CommandError (Option Text) :=
  match file with
  | some path => (readFile around path).map some
  | none => .ok around.input

/-- What an action prints. -/
def perform (around : Surroundings) (settings : Settings) : Action → Except CommandError Text
  | .filter query file format pretty now => do
    let input ← filterInput around file
    let output ← filter around.clock {
      query, input, now
      format := format.getD settings.format
      pretty := pretty || settings.pretty
      defaultSort := settings.defaultSort }
    return endLine output
  | .check query => (check query).map withLineFeed
  | .tokens query => tokens query
  | .fields => .ok fields

/-- What a command line asks for in its surroundings. -/
def invocation? (around : Surroundings) (args : List Text) : Option Invocation :=
  Invocation.ofArguments? (around.environment "ISSUEQ_CONFIG".toList)
    (around.environment "ISSUEQ_INPUT".toList) args

/-- Runs a command line. -/
def run (around : Surroundings) (args : List Text) : Outcome :=
  match invocation? around args with
  | none => .misuse
  | some .version => .success "issueq 0.1.0\n".toList
  | some (.run config action) =>
    .ofResult do perform around (← settings around config) action

/-- The paths that a command line may read. -/
def paths (around : Surroundings) (args : List Text) : List Text :=
  match invocation? around args with
  | some (.run config action) =>
    let settings := config <|> around.settingsDirectory.map defaultSettingsPath
    let input :=
      match action with
      | .filter _ file _ _ _ => file
      | _ => none
    settings.toList ++ input.toList
  | _ => []

/-- Whether a command line reads its input. -/
def readsInput (around : Surroundings) (args : List Text) : Bool :=
  match invocation? around args with
  | some (.run _ (.filter _ file _ _ _)) => file.isNone
  | _ => false

end Triage.Command
