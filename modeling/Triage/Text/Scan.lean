import Triage.Text.Basic

/-! Reading a text from the front.

A scan takes what it wants from the front of a text and leaves the rest, or
fails. Dates, times and settings are read by scans in a row. -/
namespace Triage

/-- Takes a value from the front of a text and leaves the rest, or fails. -/
abbrev Scan := StateT Text Option

namespace Scan

/-- Runs a scan that has to use up the text. -/
def whole? (scan : Scan α) (text : Text) : Option α :=
  match scan text with
  | some (a, []) => some a
  | _ => none

/-- The character `c`. -/
def char (c : Char) : Scan Unit
  | [] => none
  | d :: rest => if c = d then some ((), rest) else none

/-- One of the characters `cs`. -/
def oneOf (cs : List Char) : Scan Unit
  | [] => none
  | d :: rest => if d ∈ cs then some ((), rest) else none

end Scan
end Triage
