import Triage.Text.Decimal

/-! JSON values.

A JSON string is a row of characters and of halves of surrogate pairs that an
escape may name without the other half; it is a text when it holds no such half
(`Json.text?`). An object keeps its members in order, repeated keys included. -/
namespace Triage

namespace Json

/-- A character of a JSON string, or half of a surrogate pair without the other half. -/
inductive Symbol where
  | char (c : Char)
  | half (unit : Nat)
deriving DecidableEq

/-- The character that a symbol is. -/
def Symbol.char? : Symbol → Option Char
  | char c => some c
  | half _ => none

end Json

/-- A JSON value. -/
inductive Json where
  | null
  | boolean (b : Bool)
  /-- A number without fraction and exponent that is not negative zero. -/
  | integer (n : Int)
  /-- Any other number, as it is written. -/
  | number (literal : Text)
  | string (symbols : List Json.Symbol)
  | array (items : List Json)
  | object (members : List (List Json.Symbol × Json))

namespace Json

/-- The JSON string of a text. -/
def ofText (text : Text) : List Symbol := text.map .char

/-- The text of a JSON string, if it is one. -/
def text? (symbols : List Symbol) : Option Text := symbols.mapM Symbol.char?

theorem text?_ofText (text : Text) : text? (ofText text) = some text := by
  induction text with
  | nil => rfl
  | cons c rest ih => simp_all [text?, ofText, Symbol.char?, List.mapM_cons]

end Json
end Triage
