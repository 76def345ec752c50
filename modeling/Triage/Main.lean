import Std.Time.DateTime.Timestamp
import Triage.Command

/-! The command line. It only reads what a command asks for and prints what comes of it. -/
namespace Triage.Main

/-- What a path leads to. -/
def readEntry (path : Text) : IO (Option Command.Entry) := do
  let name := String.ofList path
  try
    return some (.file (← IO.FS.readFile name).toList)
  catch e =>
    match e with
    | .noFileOrDirectory .. => return none
    | _ => return some .unreadable

/-- The directory of the user's settings. -/
def settingsDirectory : IO (Option Text) := do
  if let some directory ← IO.getEnv "XDG_CONFIG_HOME" then
    return some directory.toList
  else
    return (← IO.getEnv "HOME").map fun home => home.toList ++ "/.config".toList

/-- The present, seen from a place on universal time. -/
def present : IO Moment := do
  let timestamp ← Std.Time.Timestamp.now
  let nanos := timestamp.toNanosecondsSinceUnixEpoch.val
  return .universal ((Instant.of? (nanos / 1000000000) (nanos % 1000000000).toNat).getD .epoch)

end Triage.Main
open Triage Main

def main (args : List String) : IO UInt32 := do
  let args := args.map String.toList
  let config ← IO.getEnv "ISSUEQ_CONFIG"
  let input ← IO.getEnv "ISSUEQ_INPUT"
  let environment (name : Text) : Option Text :=
    if name = "ISSUEQ_CONFIG".toList then config.map String.toList
    else if name = "ISSUEQ_INPUT".toList then input.map String.toList
    else none
  let bare : Command.Surroundings := {
    environment
    entry := fun _ => none
    settingsDirectory := ← settingsDirectory
    input := none
    clock := ← present }
  let paths := Command.paths bare args
  let entries ← paths.mapM fun path => return (path, ← readEntry path)
  let stdin ← IO.getStdin
  let incoming ←
    if !Command.readsInput bare args || (← stdin.isTty) then pure none
    else pure (some (← stdin.readToEnd).toList)
  let around := {
    bare with
    entry := fun path => (entries.find? (·.1 = path)).bind (·.2)
    input := incoming }
  let outcome := Command.run around args
  IO.print (String.ofList outcome.stdout)
  IO.eprint (String.ofList outcome.stderr)
  return outcome.code.toUInt32
