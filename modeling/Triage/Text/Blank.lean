import Triage.Text.Basic
import Triage.Text.Edges

/-! Blank characters.

The characters that may stand between two tokens and around a line are those of
the standard's white space property, the spaces of every script among them. -/
namespace Triage.Text

/-- Where the blank characters begin and end. -/
def blankEdges : List Nat :=
  [0x9, 0xE, 0x20, 0x21, 0x85, 0x86, 0xA0, 0xA1, 0x1680, 0x1681, 0x2000, 0x200B, 0x2028, 0x202A,
   0x202F, 0x2030, 0x205F, 0x2060, 0x3000, 0x3001]

/-- Whether a character is blank. -/
def isBlank (c : Char) : Bool := Edges.holds blankEdges c

/-- Whether a text holds nothing but blanks. -/
def isBlankText (text : Text) : Bool := text.all isBlank

/-- A text without the blanks it begins with. -/
def trimStart (text : Text) : Text := text.dropWhile isBlank

/-- A text without the blanks it ends with. -/
def trimEnd (text : Text) : Text := (text.reverse.dropWhile isBlank).reverse

/-- A text without the blanks at its two ends. -/
def trim (text : Text) : Text := trimEnd (trimStart text)

end Triage.Text
