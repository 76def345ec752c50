import Triage.Text.Integer

/-! Tokens: the words and marks that a query is made of. -/
namespace Triage

namespace Token

/-- What a token is. -/
inductive Kind where
  /-- A bare word: a field name, a value or a search term. -/
  | identifier
  /-- Text between quotes or braces. -/
  | string
  | number
  | colon
  | comma
  | dotDot
  | star
  | leftParen
  | rightParen
  | leftBrace
  | rightBrace
  | and
  | or
  | not
  /-- The two words `sort by`. -/
  | sortBy
  | asc
  | desc
  /-- The end of the query. -/
  | eof
  /-- A character that begins no token. -/
  | error
deriving DecidableEq, Repr

namespace Kind

/-- Every kind of token. -/
def all : List Kind :=
  [identifier, string, number, colon, comma, dotDot, star, leftParen, rightParen, leftBrace,
   rightBrace, and, or, not, sortBy, asc, desc, eof, error]

/-- The name of a kind in the list of tokens. -/
def name : Kind → String
  | identifier => "IDENTIFIER"
  | string => "STRING"
  | number => "NUMBER"
  | colon => "COLON"
  | comma => "COMMA"
  | dotDot => "DOT_DOT"
  | star => "STAR"
  | leftParen => "LEFT_PAREN"
  | rightParen => "RIGHT_PAREN"
  | leftBrace => "LEFT_BRACE"
  | rightBrace => "RIGHT_BRACE"
  | and => "AND"
  | or => "OR"
  | not => "NOT"
  | sortBy => "SORT_BY"
  | asc => "ASC"
  | desc => "DESC"
  | eof => "EOF"
  | error => "ERROR"

/-- Whether a token of this kind can stand for a value or a search term. -/
def isValue : Kind → Bool
  | identifier | string | number | asc | desc => true
  | _ => false

/-- Whether a token of this kind can begin a term, so that a term next to another one is joined
to it without an operator. -/
def startsTerm (kind : Kind) : Bool := kind.isValue || kind = not || kind = leftParen

end Kind

/-- What a token stands for, if that is not its own text. -/
inductive Literal where
  /-- The text of a string without quotes, braces and escapes. -/
  | text (text : Text)
  | integer (n : Int64)
deriving DecidableEq

end Token

/-- A token with its text in the query and the offset of its first character. -/
structure Token where
  kind : Token.Kind
  lexeme : Text
  position : Nat
  literal : Option Token.Literal := none
deriving DecidableEq

namespace Token

/-- The text that a value token stands for. -/
def text (token : Token) : Text :=
  match token.literal with
  | some (.text t) => t
  | _ => token.lexeme

/-- A token as a line of the list of tokens: kind, position and lexeme in columns. -/
def row (token : Token) : Text :=
  Text.padRight 12 token.kind.name.toList ++ ' ' ::
    Text.padLeft 4 (Decimal.digits token.position) ++ ' ' :: ' ' :: token.lexeme

end Token
end Triage
