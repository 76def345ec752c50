import Triage.Json
import Triage.Text.Hexadecimal

/-! Writing JSON.

Two layouts: on one line without blanks, and with every item and member on a line
of its own, indented by two spaces a level. Strings escape quotes, backslashes and
control characters, and nothing else. -/
namespace Triage.Json

/-! ### Strings and numbers -/

/-- A code unit as an escape with a number. -/
def unitText (unit : Nat) : Text :=
  ['\\', 'u', Hexadecimal.digit (unit / 4096 % 16), Hexadecimal.digit (unit / 256 % 16),
   Hexadecimal.digit (unit / 16 % 16), Hexadecimal.digit (unit % 16)]

/-- A character of a string as it is written. -/
def charText (c : Char) : Text :=
  match c with
  | '"' => ['\\', '"']
  | '\\' => ['\\', '\\']
  | '\x08' => ['\\', 'b']
  | '\x0c' => ['\\', 'f']
  | '\n' => ['\\', 'n']
  | '\r' => ['\\', 'r']
  | '\t' => ['\\', 't']
  | c => if c.toNat < 0x20 then unitText c.toNat else [c]

/-- A symbol of a string as it is written. -/
def symbolText : Symbol → Text
  | .char c => charText c
  | .half unit => unitText unit

/-- A string between quotes. -/
def stringText (symbols : List Symbol) : Text := '"' :: symbols.flatMap symbolText ++ ['"']

/-- An integer in decimal. -/
def integerText (n : Int) : Text :=
  if n < 0 then '-' :: Decimal.digits n.natAbs else Decimal.digits n.natAbs

/-! ### On one line -/

mutual

/-- A value on one line. -/
def compact : Json → Text
  | null => "null".toList
  | boolean true => "true".toList
  | boolean false => "false".toList
  | integer n => integerText n
  | number literal => literal
  | string symbols => stringText symbols
  | array items => '[' :: compactItems items ++ [']']
  | object members => '{' :: compactMembers members ++ ['}']

/-- Items with commas between them. -/
def compactItems : List Json → Text
  | [] => []
  | [item] => compact item
  | item :: more => compact item ++ ',' :: compactItems more

/-- Members with commas between them. -/
def compactMembers : List (List Symbol × Json) → Text
  | [] => []
  | [(key, value)] => stringText key ++ ':' :: compact value
  | (key, value) :: more => stringText key ++ ':' :: compact value ++ ',' :: compactMembers more

end

/-! ### On many lines -/

/-- A line feed and the indentation of a level. -/
def newLine (level : Nat) : Text := '\n' :: List.replicate (2 * level) ' '

mutual

/-- A value whose items and members stand on lines of their own, at a level of indentation. -/
def pretty (level : Nat) : Json → Text
  | array [] => ['[', ']']
  | array items => '[' :: prettyItems (level + 1) items ++ newLine level ++ [']']
  | object [] => ['{', '}']
  | object members => '{' :: prettyMembers (level + 1) members ++ newLine level ++ ['}']
  | null => "null".toList
  | boolean true => "true".toList
  | boolean false => "false".toList
  | integer n => integerText n
  | number literal => literal
  | string symbols => stringText symbols

/-- Items, each on a line of its own. -/
def prettyItems (level : Nat) : List Json → Text
  | [] => []
  | [item] => newLine level ++ pretty level item
  | item :: more => newLine level ++ pretty level item ++ ',' :: prettyItems level more

/-- Members, each on a line of its own. -/
def prettyMembers (level : Nat) : List (List Symbol × Json) → Text
  | [] => []
  | [(key, value)] => newLine level ++ stringText key ++ ':' :: ' ' :: pretty level value
  | (key, value) :: more =>
    newLine level ++ stringText key ++ ':' :: ' ' :: pretty level value ++
      ',' :: prettyMembers level more

end

end Triage.Json
