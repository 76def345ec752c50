import Triage.Field.Suggestion
import Triage.Query
import Triage.Token.Lexer
import Triage.Value.Coercion

/-! Reading a query.

    query    := [ or ] [ "sort by" ":" key ("," key)* ]
    or       := and ( "OR" and )*
    and      := not ( [ "AND" ] not )*
    not      := "NOT" not | primary
    primary  := "(" or ")" | FIELD ":" values | term

Every reader takes tokens from the front of a stream and says what is left
(`Reading`): less than before when it found something, no more than before when
it failed. That is why the reading ends, and reading can go on after a failure
from the place where the failure was met. -/
namespace Triage

/-! ### Errors -/

/-- What stands where something else is needed. -/
inductive ParseError where
  | unknownField (name : Text) (position : Nat) (suggestions : List Field)
  | missingValue (field : Text) (position : Nat)
  | unterminatedGroup (position : Nat)
  | unexpectedToken (lexeme : Text) (position : Nat)
  | unexpectedEnd (expected : String)
  | invalidValue (misfit : Misfit) (position : Nat)
  | invalidRange (field : Field) (position : Nat)
  | invalidCharacter (lexeme : Text) (position : Nat)
deriving DecidableEq

namespace ParseError

/-- The question that offers the fields a name may have meant. -/
def hint (suggestions : List Field) : String :=
  if suggestions.isEmpty then ""
  else
    let names := String.ofList (Text.join ", ".toList (suggestions.map Field.name))
    s!". Did you mean: {names}?"

/-- The text of the error. -/
def message : ParseError → String
  | unknownField name p suggestions =>
    s!"Unknown field '{String.ofList name}' at position {p}{hint suggestions}"
  | missingValue field p => s!"Missing value after '{String.ofList field}:' at position {p}"
  | unterminatedGroup p => s!"Unterminated group: missing ')' for '(' at position {p}"
  | unexpectedToken lexeme p => s!"Unexpected token '{String.ofList lexeme}' at position {p}"
  | unexpectedEnd expected => s!"Unexpected end of input: expected {expected}"
  | invalidValue misfit p => s!"Invalid value at position {p}: {misfit.message}"
  | invalidRange field p =>
    s!"Field '{String.ofList field.name}' does not support ranges (at position {p})"
  | invalidCharacter lexeme p =>
    s!"Unexpected character '{String.ofList lexeme}' at position {p}"

end ParseError

/-- Why a text is no query. -/
inductive QueryError where
  | lex (error : LexError)
  | parse (error : ParseError)
deriving DecidableEq

/-- The text of the error. -/
def QueryError.message : QueryError → String
  | lex error => error.message
  | parse error => error.message

/-! ### Streams and readings -/

/-- The tokens before the end of a query and the offset of the end. -/
structure Stream where
  tokens : List Token
  finish : Nat
deriving DecidableEq

/-- The offset after the last of some tokens. -/
def Stream.finishOf (tokens : List Token) : Nat :=
  match tokens.getLast? with
  | some token => token.position + token.lexeme.length
  | none => 0

/-- The tokens up to the first end. Without one, the query ends where its last token does. -/
def Stream.ofTokens (tokens : List Token) : Stream where
  tokens := tokens.takeWhile (·.kind ≠ .eof)
  finish :=
    match tokens.find? (·.kind = .eof) with
    | some token => token.position
    | none => finishOf tokens

/-- What a reader makes of fewer than `n` tokens, or why it fails and what is left then. -/
inductive Reading (α : Type) (n : Nat) where
  | found (value : α) (rest : List Token) (shorter : rest.length < n)
  | failed (error : ParseError) (rest : List Token) (notLonger : rest.length ≤ n)

namespace Reading

/-- A reading of a stream is a reading of any longer one. -/
def widen (h : n ≤ m) : Reading α n → Reading α m
  | found a rest hr => .found a rest (by omega)
  | failed e rest hr => .failed e rest (by omega)

/-- A reading with its value taken further. -/
def map (f : α → β) : Reading α n → Reading β n
  | found a rest hr => .found (f a) rest hr
  | failed e rest hr => .failed e rest hr

/-- The value or the error, and what is left. -/
def outcome : Reading α n → Except ParseError α × List Token
  | found a rest _ => (.ok a, rest)
  | failed e rest _ => (.error e, rest)

end Reading

namespace Parse

/-- The kind of the next token, the end if there is none. -/
def nextKind : List Token → Token.Kind
  | [] => .eof
  | token :: _ => token.kind

/-- The error of the next token standing where `expected` is needed. -/
def unexpected (expected : String) : List Token → ParseError
  | [] => .unexpectedEnd expected
  | token :: _ =>
    match token.kind with
    | .eof => .unexpectedEnd expected
    | .error => .invalidCharacter token.lexeme token.position
    | _ => .unexpectedToken token.lexeme token.position

/-- The offset of the next token, or of the end of the stream. -/
def nextPosition (finish : Nat) : List Token → Nat
  | [] => finish
  | token :: _ => token.position

/-- The field that a token names. -/
def resolveField (token : Token) : Except ParseError Field :=
  match Field.ofName? token.lexeme with
  | some field => .ok field
  | none => .error (.unknownField token.lexeme token.position (Field.suggestions token.lexeme 3))

/-! ### Values -/

/-- What a value token says for a field, before it is fitted. Digits in a text field stay as
they are written. -/
def rawValue (field : Field) (token : Token) : Value :=
  match token.kind, token.literal with
  | .number, some (.integer n) =>
    if field.type.isText then .text token.lexeme else .integer n
  | .number, _ =>
    if field.type.isText then .text token.lexeme else .ofWord field token.lexeme
  | .string, _ => .ofQuoted field token.text
  | _, _ => .ofWord field token.lexeme

variable (finish : Nat)

/-- One value for a field, which was written as `name`. -/
def value (field : Field) (name : Token) (tokens : List Token) : Reading Value tokens.length :=
  match tokens with
  | [] => .failed (.missingValue name.lexeme finish) [] (Nat.le_refl _)
  | token :: rest =>
    if token.kind.isValue then
      match (rawValue field token).fit field with
      | .ok v => .found v rest (Nat.lt_succ_self _)
      | .error misfit => .failed (.invalidValue misfit token.position) rest (Nat.le_succ _)
    else .failed (.missingValue name.lexeme token.position) (token :: rest) (Nat.le_refl _)

/-- The further values of a list, each after a comma. -/
def moreValues (field : Field) (name : Token) (values : List Value) (tokens : List Token) :
    Reading (List Value) (tokens.length + 1) :=
  match tokens with
  | [] => .found values [] (Nat.lt_succ_self _)
  | token :: rest =>
    if token.kind = .comma then
      match value finish field name rest with
      | .failed e after h => .failed e after (by grind)
      | .found v after h =>
        (moreValues field name (values ++ [v]) after).widen (by grind)
    else .found values (token :: rest) (Nat.lt_succ_self _)
termination_by tokens.length
decreasing_by simp only [List.length_cons]; omega

/-- The condition that a single value makes: membership in a list, search in a free text,
equality elsewhere. -/
def single (field : Field) (v : Value) : Filter :=
  if field.type = .textList then .has field v
  else
    match v with
    | .text t => if field.isFreeText then .contains (some field) t false else .equals field v
    | v => .equals field v

/-- The values of a field: a range, a list, or a single value. -/
def values (field : Field) (name : Token) (tokens : List Token) : Reading Filter tokens.length :=
  match value finish field name tokens with
  | .failed e rest h => .failed e rest h
  | .found first rest h =>
    match rest with
    | [] => .found (single field first) [] (by omega)
    | token :: after =>
      if token.kind = .dotDot then
        if field.type.isOrderable then
          ((value finish field name after).map (.range field first)).widen (by grind)
        else .failed (.invalidRange field token.position) after (by grind)
      else if token.kind = .comma then
        ((moreValues finish field name [first] (token :: after)).map (.oneOf field)).widen
          (by omega)
      else .found (single field first) (token :: after) h

/-- The condition on a field named by a token, from the colon on. -/
def fieldTerm (name : Token) (tokens : List Token) : Reading Filter (tokens.length + 1) :=
  match resolveField name with
  | .error e => .failed e tokens (Nat.le_succ _)
  | .ok field => (values finish field name tokens.tail).widen (by grind)

/-! ### Expressions -/

/-- The parenthesis that closes a group opened at `position`, after the expression in it. -/
def closeGroup (position : Nat) (filter : Filter) (rest : List Token) (n : Nat)
    (h : rest.length < n) : Reading Filter n :=
  match rest with
  | [] => .failed (.unterminatedGroup position) [] (Nat.zero_le _)
  | token :: after =>
    match token.kind with
    | .rightParen => .found filter after (by grind)
    | .eof | .sortBy => .failed (.unterminatedGroup position) (token :: after) (by omega)
    | _ => .failed (unexpected "')'" (token :: after)) (token :: after) (by omega)

mutual

/-- Conditions joined by `OR`, to the left. -/
def disjunction (tokens : List Token) : Reading Filter tokens.length :=
  match conjunction tokens with
  | .failed e rest h => .failed e rest h
  | .found left rest h => (moreDisjuncts left rest).widen (by omega)
termination_by 5 * tokens.length + 4

/-- The further conditions after `left`, each after an `OR`. -/
def moreDisjuncts (left : Filter) (tokens : List Token) : Reading Filter (tokens.length + 1) :=
  match tokens with
  | [] => .found left [] (Nat.lt_succ_self _)
  | token :: rest =>
    if token.kind = .or then
      match conjunction rest with
      | .failed e after h => .failed e after (by grind)
      | .found right after h => (moreDisjuncts (.or left right) after).widen (by grind)
    else .found left (token :: rest) (Nat.lt_succ_self _)
termination_by 5 * tokens.length + 3

/-- Conditions joined by `AND` or by nothing, to the left. -/
def conjunction (tokens : List Token) : Reading Filter tokens.length :=
  match negation tokens with
  | .failed e rest h => .failed e rest h
  | .found left rest h => (moreConjuncts left rest).widen (by omega)
termination_by 5 * tokens.length + 3

/-- The further conditions after `left`, each after an `AND` or by itself. -/
def moreConjuncts (left : Filter) (tokens : List Token) : Reading Filter (tokens.length + 1) :=
  match tokens with
  | [] => .found left [] (Nat.lt_succ_self _)
  | token :: rest =>
    if token.kind = .and then
      match negation rest with
      | .failed e after h => .failed e after (by grind)
      | .found right after h => (moreConjuncts (.and left right) after).widen (by grind)
    else if token.kind.startsTerm then
      match negation (token :: rest) with
      | .failed e after h => .failed e after (by omega)
      | .found right after h => (moreConjuncts (.and left right) after).widen (by omega)
    else .found left (token :: rest) (Nat.lt_succ_self _)
termination_by 5 * tokens.length + 2
decreasing_by all_goals grind

/-- A condition, or one that must not hold. -/
def negation (tokens : List Token) : Reading Filter tokens.length :=
  match tokens with
  | [] => primary []
  | token :: rest =>
    if token.kind = .not then ((negation rest).map .not).widen (Nat.le_succ _)
    else primary (token :: rest)
termination_by 5 * tokens.length + 1

/-- A group, a condition on a field, or a term to search for. -/
def primary (tokens : List Token) : Reading Filter tokens.length :=
  match tokens with
  | [] => .failed (unexpected "a search term or field:value" []) [] (Nat.le_refl _)
  | token :: rest =>
    if token.kind = .leftParen then
      match disjunction rest with
      | .failed e after h => .failed e after (by grind)
      | .found filter after h => closeGroup token.position filter after _ (by grind)
    else if token.kind = .identifier ∧ nextKind rest = .colon then
      (fieldTerm finish token rest).widen (Nat.le_refl _)
    else if token.kind.isValue then
      .found (.contains none token.text false) rest (Nat.lt_succ_self _)
    else
      .failed (unexpected "a search term or field:value" (token :: rest)) (token :: rest)
        (Nat.le_refl _)
termination_by 5 * tokens.length

end

/-! ### Sort clause -/

/-- A field to sort by, with its direction. -/
def sortKey (tokens : List Token) : Reading SortKey tokens.length :=
  match tokens with
  | [] => .failed (unexpected "a field name to sort by" []) [] (Nat.le_refl _)
  | token :: rest =>
    if token.kind = .identifier then
      match resolveField token with
      | .error e => .failed e rest (Nat.le_succ _)
      | .ok field =>
        match rest with
        | [] => .found ⟨field, .asc⟩ [] (Nat.lt_succ_self _)
        | next :: after =>
          if next.kind = .asc then .found ⟨field, .asc⟩ after (by grind)
          else if next.kind = .desc then .found ⟨field, .desc⟩ after (by grind)
          else .found ⟨field, .asc⟩ (next :: after) (Nat.lt_succ_self _)
    else
      .failed (unexpected "a field name to sort by" (token :: rest)) (token :: rest) (Nat.le_refl _)

/-- Sort keys with commas between them. -/
def sortKeys (tokens : List Token) : Reading (List SortKey) tokens.length :=
  match sortKey tokens with
  | .failed e rest h => .failed e rest h
  | .found key rest h =>
    match rest with
    | [] => .found [key] [] (by omega)
    | token :: after =>
      if token.kind = .comma then
        ((sortKeys after).map (key :: ·)).widen (by grind)
      else .found [key] (token :: after) h
termination_by tokens.length
decreasing_by simp only [List.length_cons] at h; omega

/-- The colon and the sort keys after the words `sort by`. -/
def sortClause (tokens : List Token) : Reading (List SortKey) tokens.length :=
  match tokens with
  | [] => .failed (unexpected "':' after 'sort by'" []) [] (Nat.le_refl _)
  | token :: rest =>
    if token.kind = .colon then (sortKeys rest).widen (Nat.le_succ _)
    else
      .failed (unexpected "':' after 'sort by'" (token :: rest)) (token :: rest) (Nat.le_refl _)

/-- The sort keys of what is left after the filter, which must be a sort clause or nothing. -/
def ending (tokens : List Token) : Except ParseError (List SortKey) := do
  let (sort, rest) ←
    match tokens with
    | token :: rest =>
      if token.kind = .sortBy then
        match sortClause rest with
        | .found keys after _ => .ok (keys, after)
        | .failed e _ _ => .error e
      else .ok ([], token :: rest)
    | [] => .ok ([], [])
  if rest.isEmpty then return sort
  else throw (unexpected "end of input" rest)

end Parse

/-! ### Queries -/

/-- The query that a stream of tokens writes. -/
def Stream.query (stream : Stream) : Except ParseError Query :=
  match stream.tokens with
  | [] => .ok ⟨none, []⟩
  | token :: rest =>
    if token.kind = .sortBy then do return ⟨none, ← Parse.ending (token :: rest)⟩
    else
      match Parse.disjunction stream.finish (token :: rest) with
      | .failed e _ _ => .error e
      | .found filter after _ => do return ⟨some filter, ← Parse.ending after⟩

/-- The expression at the front of a stream, and the stream after it or from where the
reading failed. -/
def Stream.expression (stream : Stream) : Except ParseError Filter × Stream :=
  let (result, rest) := (Parse.disjunction stream.finish stream.tokens).outcome
  (result, { stream with tokens := rest })

/-- The results of reading a number of expressions in a row, each from where the last one ended. -/
def Stream.expressions (stream : Stream) : Nat → List (Except ParseError Filter)
  | 0 => []
  | n + 1 => stream.expression.1 :: stream.expression.2.expressions n

namespace Query

/-- The query that some tokens write. -/
def ofTokens (tokens : List Token) : Except ParseError Query := (Stream.ofTokens tokens).query

/-- The query that a text writes. -/
def parse (text : Text) : Except QueryError Query :=
  match tokenize text with
  | .error e => .error (.lex e)
  | .ok tokens =>
    match ofTokens tokens with
    | .error e => .error (.parse e)
    | .ok query => .ok query

end Query
end Triage
