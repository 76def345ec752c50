import Triage.Json
import Triage.Text.Hexadecimal

/-! Reading JSON.

A text is first split into tokens and the tokens then read one by one: the state
between two tokens is the arrays and objects that are still open and what may
come next. There is no limit on how deep they nest. -/
namespace Triage.Json

/-! ### Tokens -/

/-- A token of JSON. -/
inductive Token where
  | openBracket
  | closeBracket
  | openBrace
  | closeBrace
  | colon
  | comma
  | null
  | boolean (b : Bool)
  | integer (n : Int)
  | number (literal : Text)
  | string (symbols : List Symbol)
deriving DecidableEq

/-- Whether a character may stand between tokens. -/
def isSpace (c : Char) : Bool := c = ' ' || c = '\t' || c = '\n' || c = '\r'

/-- The symbol that an escape with a number names. -/
def ofUnit (unit : Nat) : Symbol :=
  if 0xD800 ≤ unit ∧ unit < 0xE000 then .half unit else .char (Char.ofNat unit)

/-- The character that a short escape names. -/
def escape? : Char → Option Char
  | '"' => some '"'
  | '\\' => some '\\'
  | '/' => some '/'
  | 'b' => some '\x08'
  | 'f' => some '\x0c'
  | 'n' => some '\n'
  | 'r' => some '\r'
  | 't' => some '\t'
  | _ => none

/-- The symbols up to the closing quote, and the length of the text up to it and including it. -/
def symbols? : Text → Option (List Symbol × Nat)
  | [] => none
  | '"' :: _ => some ([], 1)
  | '\\' :: 'u' :: a :: b :: c :: d :: rest => do
    let unit ← Hexadecimal.value? [a, b, c, d]
    let (symbols, n) ← symbols? rest
    return (ofUnit unit :: symbols, n + 6)
  | '\\' :: c :: rest => do
    let escaped ← escape? c
    let (symbols, n) ← symbols? rest
    return (.char escaped :: symbols, n + 2)
  | c :: rest =>
    if c.toNat < 0x20 ∨ c = '\\' then none
    else do
      let (symbols, n) ← symbols? rest
      return (.char c :: symbols, n + 1)

/-- Symbols with each high half and the low half next to it joined to the character they name. -/
def joinHalves : List Symbol → List Symbol
  | .half high :: .half low :: rest =>
    if high < 0xDC00 ∧ 0xDC00 ≤ low then
      .char (Char.ofNat (0x10000 + (high - 0xD800) * 0x400 + (low - 0xDC00))) :: joinHalves rest
    else .half high :: joinHalves (.half low :: rest)
  | symbol :: rest => symbol :: joinHalves rest
  | [] => []

/-- The length of a point and the digits after it, nothing without a point. -/
def fractionLength? : Text → Option Nat
  | '.' :: rest =>
    let n := (rest.takeWhile Char.isDigit).length
    if n = 0 then none else some (n + 1)
  | _ => some 0

/-- The length of an exponent, nothing if there is none. -/
def exponentLength? : Text → Option Nat
  | 'e' :: rest | 'E' :: rest =>
    let sign := if rest.head? = some '+' ∨ rest.head? = some '-' then 1 else 0
    let n := ((rest.drop sign).takeWhile Char.isDigit).length
    if n = 0 then none else some (n + sign + 1)
  | _ => some 0

/-- The number at the front of a text and its length. A zero is the only digit before the point
or comes after another one. -/
def number? (text : Text) : Option (Token × Nat) := do
  let sign := if text.head? = some '-' then 1 else 0
  let digits := (text.drop sign).takeWhile Char.isDigit
  let whole := if digits.head? = some '0' then 1 else digits.length
  if whole = 0 then none
  let fraction ← fractionLength? (text.drop (sign + whole))
  let exponent ← exponentLength? (text.drop (sign + whole + fraction))
  let length := sign + whole + fraction + exponent
  let value := Decimal.value (digits.take whole)
  if fraction = 0 ∧ exponent = 0 ∧ (sign = 0 ∨ value ≠ 0) then
    return (.integer (if sign = 0 then value else -value), length)
  else return (.number (text.take length), length)

/-- The token that begins with the character `c` and goes on in `rest`, and its length after
its first character. -/
def token? (c : Char) (rest : Text) : Option (Token × Nat) :=
  match c with
  | '[' => some (.openBracket, 0)
  | ']' => some (.closeBracket, 0)
  | '{' => some (.openBrace, 0)
  | '}' => some (.closeBrace, 0)
  | ':' => some (.colon, 0)
  | ',' => some (.comma, 0)
  | '"' => (symbols? rest).map fun (symbols, n) => (.string (joinHalves symbols), n)
  | 'n' => if "ull".toList.isPrefixOf rest then some (.null, 3) else none
  | 't' => if "rue".toList.isPrefixOf rest then some (.boolean true, 3) else none
  | 'f' => if "alse".toList.isPrefixOf rest then some (.boolean false, 4) else none
  | c =>
    if c = '-' ∨ c.isDigit then (number? (c :: rest)).map fun (token, n) => (token, n - 1)
    else none

/-- The tokens of a text. -/
def tokens? : Text → Option (List Token)
  | [] => some []
  | c :: rest =>
    if isSpace c then tokens? rest
    else do
      let (token, n) ← token? c rest
      let more ← tokens? (rest.drop n)
      return token :: more
termination_by text => text.length
decreasing_by all_goals (simp; try omega)

/-! ### Values -/

/-- An array or object that is still open, with what it holds so far, last first. -/
inductive Frame where
  | array (items : List Json)
  | object (members : List (List Symbol × Json)) (key : List Symbol)

/-- What may come next, among the open arrays and objects, innermost first. -/
inductive State where
  /-- A value. -/
  | value (outer : List Frame)
  /-- The first item of an array, or its end. -/
  | firstItem (outer : List Frame)
  /-- A comma or the end of the array with these items, last first. -/
  | afterItem (items : List Json) (outer : List Frame)
  /-- The first key of an object, or its end. -/
  | firstKey (outer : List Frame)
  /-- A key after these members, last first. -/
  | key (members : List (List Symbol × Json)) (outer : List Frame)
  /-- The colon after a key. -/
  | afterKey (members : List (List Symbol × Json)) (key : List Symbol) (outer : List Frame)
  /-- A comma or the end of the object with these members, last first. -/
  | afterMember (members : List (List Symbol × Json)) (outer : List Frame)
  /-- Nothing more after this value. -/
  | finished (value : Json)

namespace State

/-- What comes after a value. -/
def give (value : Json) : List Frame → State
  | [] => finished value
  | .array items :: outer => afterItem (value :: items) outer
  | .object members symbols :: outer => afterMember ((symbols, value) :: members) outer

/-- What comes after the first token of a value. -/
def begin? (outer : List Frame) : Token → Option State
  | .openBracket => some (firstItem outer)
  | .openBrace => some (firstKey outer)
  | .null => some (give .null outer)
  | .boolean b => some (give (.boolean b) outer)
  | .integer n => some (give (.integer n) outer)
  | .number literal => some (give (.number literal) outer)
  | .string symbols => some (give (.string symbols) outer)
  | _ => none

/-- What comes after a token, if the token may come now. -/
def next? : State → Token → Option State
  | value outer, token => begin? outer token
  | firstItem outer, .closeBracket => some (give (.array []) outer)
  | firstItem outer, token => begin? (.array [] :: outer) token
  | afterItem items outer, .comma => some (value (.array items :: outer))
  | afterItem items outer, .closeBracket => some (give (.array items.reverse) outer)
  | firstKey outer, .closeBrace => some (give (.object []) outer)
  | firstKey outer, .string symbols => some (afterKey [] symbols outer)
  | key members outer, .string symbols => some (afterKey members symbols outer)
  | afterKey members symbols outer, .colon => some (value (.object members symbols :: outer))
  | afterMember members outer, .comma => some (key members outer)
  | afterMember members outer, .closeBrace => some (give (.object members.reverse) outer)
  | _, _ => none

end State

/-- The value that some tokens write. -/
def ofTokens? (tokens : List Token) : Option Json :=
  match tokens.foldlM State.next? (.value []) with
  | some (.finished value) => some value
  | _ => none

/-- The value that a text writes. -/
def read? (text : Text) : Option Json := (tokens? text).bind ofTokens?

end Triage.Json
