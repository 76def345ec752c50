import Triage.Settings

/-! Command line arguments.

    issueq [--config FILE] COMMAND
    filter QUERY [-i FILE | --input FILE] [-f FORMAT | --format FORMAT] [-p | --pretty]
           [--now TIME] [--config FILE]
    check QUERY
    tokens QUERY
    fields

An option takes its value after `=` or from the next argument, a short one also
without a space. An argument that begins with a hyphen is an option unless it is
a single hyphen or stands behind `--`. No option may come twice in one place. -/
namespace Triage.Command

/-! ### Invocations -/

/-- What a command is asked to do. -/
inductive Action where
  | filter (query : Text) (input : Option Text) (format : Option OutputFormat) (pretty : Bool)
      (now : Option Text)
  | check (query : Text)
  | tokens (query : Text)
  | fields
deriving DecidableEq

/-- What the command line asks for. -/
inductive Invocation where
  | version
  | run (config : Option Text) (action : Action)
deriving DecidableEq

/-! ### Options -/

/-- An option, by its long name. -/
inductive OptionName where
  | config
  | input
  | format
  | now
  | pretty
deriving DecidableEq

/-- Whether an option can have a value: files have names, and a format is one of the known. -/
def OptionName.admits (value : Text) : OptionName → Bool
  | config | input => !value.isEmpty
  | format => (OutputFormat.ofName? value).isSome
  | now | pretty => true

/-- An option of the command line, and whether it takes a value. -/
structure OptionSpec where
  name : OptionName
  long : Text
  short : Option Char
  takesValue : Bool

/-- The option that every command has. -/
def configOption : OptionSpec := ⟨.config, "config".toList, none, true⟩

/-- The options of the command `filter`. -/
def filterOptions : List OptionSpec :=
  [configOption, ⟨.input, "input".toList, some 'i', true⟩,
   ⟨.format, "format".toList, some 'f', true⟩, ⟨.now, "now".toList, none, true⟩,
   ⟨.pretty, "pretty".toList, some 'p', false⟩]

/-- What some arguments say: the options given, each with its value, and the other arguments. -/
structure Parsed where
  options : List (OptionName × Text) := []
  rest : List Text := []

namespace Parsed

/-- The value of an option. -/
def value? (parsed : Parsed) (name : OptionName) : Option Text :=
  (parsed.options.find? (·.1 = name)).map (·.2)

/-- One option more, if it has not been given yet and admits the value. -/
def give (parsed : Parsed) (name : OptionName) (value : Text) : Option Parsed :=
  if name.admits value && (parsed.value? name).isNone then
    some { parsed with options := (name, value) :: parsed.options }
  else none

end Parsed

/-- Whether an argument is an option, and not a value. -/
def isOption : Text → Bool
  | '-' :: _ :: _ => true
  | _ => false

/-- Splits a long option at its first `=`. -/
def splitLong (text : Text) : Text × Option Text :=
  let name := text.takeWhile (· ≠ '=')
  if name.length < text.length then (name, some (text.drop (name.length + 1))) else (name, none)

/-- What a row of arguments says so far, and the option that waits for its value. -/
structure Pending where
  parsed : Parsed
  waiting : Option OptionName

/-- A row of short options in one argument. What follows an option with a value is its value. -/
def shortOptions (specs : List OptionSpec) (parsed : Parsed) : Text → Option Pending
  | [] => some ⟨parsed, none⟩
  | c :: rest => do
    let spec ← specs.find? (·.short = some c)
    if spec.takesValue then
      match rest with
      | [] => return ⟨parsed, some spec.name⟩
      | '=' :: value => return ⟨← parsed.give spec.name value, none⟩
      | value => return ⟨← parsed.give spec.name value, none⟩
    else shortOptions specs (← parsed.give spec.name []) rest

/-- A long option, without its hyphens. -/
def longOption (specs : List OptionSpec) (parsed : Parsed) (text : Text) : Option Pending := do
  let (name, value) := splitLong text
  let spec ← specs.find? (·.long = name)
  match spec.takesValue, value with
  | true, some v => return ⟨← parsed.give spec.name v, none⟩
  | true, none => return ⟨parsed, some spec.name⟩
  | false, none => return ⟨← parsed.give spec.name [], none⟩
  | false, some _ => none

/-- What the arguments of a command say, if they use only its options and each as it should be. -/
def parseOptions (specs : List OptionSpec) (pending : Pending) : List Text → Option Parsed
  | [] => if pending.waiting.isNone then some pending.parsed else none
  | arg :: more =>
    match pending.waiting with
    | some name =>
      if isOption arg then none
      else do parseOptions specs ⟨← pending.parsed.give name arg, none⟩ more
    | none =>
      match arg with
      | ['-', '-'] => some { pending.parsed with rest := pending.parsed.rest ++ more }
      | '-' :: '-' :: text => do
        parseOptions specs (← longOption specs pending.parsed text) more
      | '-' :: c :: text => do
        parseOptions specs (← shortOptions specs pending.parsed (c :: text)) more
      | arg =>
        let parsed := { pending.parsed with rest := pending.parsed.rest ++ [arg] }
        parseOptions specs ⟨parsed, none⟩ more

/-! ### Commands -/

/-- The value of an option, or of the environment variable that stands for it, which must not be
empty then. -/
def orVariable (given ofVariable : Option Text) : Option (Option Text) :=
  match given, ofVariable with
  | some value, _ => some (some value)
  | none, some [] => none
  | none, value => some value

/-- The action and the settings file of a command with its arguments. -/
def parseCommand (inputVariable : Option Text) (name : Text) (args : List Text) :
    Option (Action × Option Text) := do
  let specs := if name = "filter".toList then filterOptions else [configOption]
  let parsed ← parseOptions specs ⟨{}, none⟩ args
  let config := parsed.value? .config
  if name = "filter".toList then
    let [query] := parsed.rest | none
    let input ← orVariable (parsed.value? .input) inputVariable
    let format := (parsed.value? .format).bind OutputFormat.ofName?
    let pretty := (parsed.value? .pretty).isSome
    return (.filter query input format pretty (parsed.value? .now), config)
  else if name = "check".toList then
    let [query] := parsed.rest | none
    return (.check query, config)
  else if name = "tokens".toList then
    let [query] := parsed.rest | none
    return (.tokens query, config)
  else if name = "fields".toList then
    if parsed.rest.isEmpty then return (.fields, config) else none
  else none

/-- The settings file: the one named behind the command, else the one named before it, else the
one of the variable, which must not be empty unless both others are named. -/
def settingsFile? (before behind ofVariable : Option Text) : Option (Option Text) :=
  if ofVariable = some [] ∧ (before.isNone ∨ behind.isNone) then none
  else some (behind <|> before <|> ofVariable)

/-- What a command line asks for, after the settings file `config` if one has been named. The two
variables stand for the settings file and the input file. -/
def parseFrom (configVariable inputVariable : Option Text) (config : Option Text) :
    List Text → Option Invocation
  | [] => none
  | arg :: more =>
    match arg with
    | '-' :: 'V' :: _ => some .version
    | '-' :: '-' :: text =>
      let (name, value) := splitLong text
      if name = "version".toList then if value.isNone then some .version else none
      else if name = "config".toList ∧ config.isNone then
        match value, more with
        | some path, more =>
          if path.isEmpty then none else parseFrom configVariable inputVariable (some path) more
        | none, path :: more =>
          if isOption path ∨ path.isEmpty then none
          else parseFrom configVariable inputVariable (some path) more
        | none, [] => none
      else none
    | command => do
      let (action, behind) ← parseCommand inputVariable command more
      return .run (← settingsFile? config behind configVariable) action

/-- What a command line asks for, none if it is used wrongly. -/
def Invocation.ofArguments? (configVariable inputVariable : Option Text) (args : List Text) :
    Option Invocation :=
  parseFrom configVariable inputVariable none args

end Triage.Command
