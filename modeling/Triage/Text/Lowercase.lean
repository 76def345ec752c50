import Triage.Text.Basic
import Triage.Text.Lowercase.Table

/-! Lower case.

Two ways to forget case. `lowerChar` takes one character by itself to its small
letters; a text folded that way (`fold`) is what sorting compares. `lower` takes
a whole text to lower case: it differs at the capital sigma alone, which becomes
`ς` at the end of a word and `σ` elsewhere. A sigma ends a word when a cased
character stands before it and none after it, looking past the characters that
casing ignores. -/
namespace Triage.Text
open Lowercase

/-! ### One character -/

/-- Whether a character has case, capital or small. -/
def isCased (c : Char) : Bool := Edges.holds casedEdges c

/-- Whether casing looks past a character. -/
def isCaseIgnorable (c : Char) : Bool := Edges.holds ignorableEdges c

/-- The small letter of a character with a single one, and any other character itself. -/
def smallLetter (c : Char) : Char :=
  match runOf? runs c.toNat with
  | some run => Char.ofNat ((c.toNat : Int) + run.shift).toNat
  | none => c

/-- A character in lower case by itself. The dotted capital `İ` becomes a small
`i` and a combining dot, every other capital a single small letter. -/
def lowerChar (c : Char) : Text :=
  if c = 'İ' then ['i', '\u0307'] else [smallLetter c]

/-- A text with each character in lower case by itself. -/
def fold (text : Text) : Text := text.flatMap lowerChar

/-! ### A whole text -/

/-- Whether the first character that casing does not look past has case. -/
def meetsCased (text : Text) : Bool :=
  match text.dropWhile isCaseIgnorable with
  | c :: _ => isCased c
  | [] => false

/-- A character in lower case between what stands before it, nearest first, and
what stands after it. -/
def lowerBetween (before : Text) (c : Char) (after : Text) : Text :=
  if c = 'Σ' then [if meetsCased before && !meetsCased after then 'ς' else 'σ']
  else lowerChar c

/-- The rest of a text in lower case, after the characters `before`, nearest first. -/
def lowerAfter (before : Text) : Text → Text
  | [] => []
  | c :: rest => lowerBetween before c rest ++ lowerAfter (c :: before) rest

/-- A text in lower case. -/
def lower (text : Text) : Text := lowerAfter [] text

/-- Whether two texts are equal but for the case of their ASCII letters. -/
def equalAsciiCase (a b : Text) : Bool := a.map Char.toLower = b.map Char.toLower

end Triage.Text
