import Triage.Text.Blank
import Triage.Text.Letter
import Triage.Text.Lowercase
import Triage.Token

/-! Splitting a query into tokens.

A cursor stands at an offset of the query. Each step (`Cursor.next`) passes over
blanks and takes one lexeme, which is never empty (`Lexeme.length_pos_of_read`), so
taking tokens until the end comes to an end (`Cursor.tokens`). A step that fails
leaves the cursor where the fault shows, and further steps go on from there. -/
namespace Triage

/-! ### Errors -/

/-- Why a query cannot be split into tokens. Positions are offsets of characters. -/
inductive LexError where
  | unterminatedString (position : Nat)
  | unterminatedBrace (position : Nat)
  | danglingSign (position : Nat)
  | unexpectedCharacter (c : Char) (position : Nat)
deriving DecidableEq

namespace LexError

/-- The offset of the fault. -/
def position : LexError → Nat
  | unterminatedString p | unterminatedBrace p | danglingSign p | unexpectedCharacter _ p => p

/-- The text of the error. -/
def message : LexError → String
  | unterminatedString p =>
    s!"Unterminated string: missing closing '\"' for quote at position {p}"
  | unterminatedBrace p =>
    s!"Unterminated string: missing closing '\x7d' for '\x7b' at position {p}"
  | danglingSign p => s!"Expected digits after '-' at position {p}"
  | unexpectedCharacter c p => s!"Unexpected character '{c}' at position {p}"

end LexError

/-! ### Lexemes -/

/-- A lexeme at the front of a text: what it is, how long it is, and what it stands for. -/
structure Lexeme where
  kind : Token.Kind
  length : Nat
  literal : Option Token.Literal := none

/-- Why there is no lexeme at the front of a text. -/
inductive Fault where
  | openString
  | openBrace
  | danglingSign
deriving DecidableEq

namespace Lexeme

/-- The length of the text up to the closing quote and including it, and the text it stands for.
A backslash before a quote or a backslash is dropped and any other backslash kept. -/
def closeQuote : Text → Option (Nat × Text)
  | [] => none
  | '"' :: _ => some (1, [])
  | '\\' :: [] => none
  | '\\' :: c :: rest =>
    (closeQuote rest).map fun (n, t) =>
      (n + 2, if c = '"' ∨ c = '\\' then c :: t else '\\' :: c :: t)
  | c :: rest => (closeQuote rest).map fun (n, t) => (n + 1, c :: t)

/-- The length of the text up to the closing brace and including it, and the text before it. -/
def closeBrace : Text → Option (Nat × Text)
  | [] => none
  | '}' :: _ => some (1, [])
  | c :: rest => (closeBrace rest).map fun (n, t) => (n + 1, c :: t)

/-- The integer that a word writes: digits only, after a minus sign or none, that fit 64 bits. -/
def integer? (word : Text) : Option Int64 :=
  let digits := if word.head? = some '-' then word.tail else word
  if Text.allDigits digits then Integer.read? word else none

/-- The length of the blanks and the word `by` at the front of a text, at least one blank, if
nothing is joined to the word. -/
def byLength? (rest : Text) : Option Nat :=
  let blanks := rest.takeWhile Text.isBlank
  let word := (rest.drop blanks.length).takeWhile Text.isWordChar
  if !blanks.isEmpty && Text.equalAsciiCase word "by".toList then
    some (blanks.length + word.length)
  else none

/-- A word and what it is in any case, with the text that follows it. -/
def ofWord (word rest : Text) : Lexeme :=
  let lower := word.lower
  if lower = "and".toList then ⟨.and, word.length, none⟩
  else if lower = "or".toList then ⟨.or, word.length, none⟩
  else if lower = "not".toList then ⟨.not, word.length, none⟩
  else if lower = "asc".toList then ⟨.asc, word.length, none⟩
  else if lower = "desc".toList then ⟨.desc, word.length, none⟩
  else if lower = "sort".toList then
    match byLength? rest with
    | some n => ⟨.sortBy, word.length + n, none⟩
    | none => ⟨.identifier, word.length, none⟩
  else ⟨.identifier, word.length, none⟩

/-- A word that begins with a digit or a minus sign: a number if it is an integer, else an
identifier, such as a date. -/
def ofNumeral (word : Text) : Lexeme :=
  match integer? word with
  | some n => ⟨.number, word.length, some (.integer n)⟩
  | none => ⟨.identifier, word.length, none⟩

/-- The lexeme that begins with the character `c` and goes on in `rest`. -/
def read (c : Char) (rest : Text) : Except Fault Lexeme :=
  match c with
  | ':' => .ok ⟨.colon, 1, none⟩
  | ',' => .ok ⟨.comma, 1, none⟩
  | '*' => .ok ⟨.star, 1, none⟩
  | '(' => .ok ⟨.leftParen, 1, none⟩
  | ')' => .ok ⟨.rightParen, 1, none⟩
  | '}' => .ok ⟨.rightBrace, 1, none⟩
  | '.' => .ok (if rest.head? = some '.' then ⟨.dotDot, 2, none⟩ else ⟨.error, 1, none⟩)
  | '"' =>
    match closeQuote rest with
    | some (n, t) => .ok ⟨.string, n + 1, some (.text t)⟩
    | none => .error .openString
  | '{' =>
    match closeBrace rest with
    | some (n, t) => .ok ⟨.string, n + 1, some (.text t)⟩
    | none => .error .openBrace
  | c =>
    let word := c :: rest.takeWhile Text.isWordChar
    if c = '-' ∧ !rest.head?.any Char.isDigit then .error .danglingSign
    else if c = '-' ∨ c.isDigit then .ok (ofNumeral word)
    else if Text.isWordChar c then .ok (ofWord word (rest.dropWhile Text.isWordChar))
    else .ok ⟨.error, 1, none⟩

theorem ofWord_length_pos {word rest : Text} (h : word ≠ []) : 0 < (ofWord word rest).length := by
  have := List.length_pos_iff.2 h
  simp only [ofWord]
  repeat' split
  all_goals simp; omega

theorem ofNumeral_length_pos {word : Text} (h : word ≠ []) : 0 < (ofNumeral word).length := by
  have := List.length_pos_iff.2 h
  simp only [ofNumeral]
  split <;> simpa

/-- No lexeme is empty. -/
theorem length_pos_of_read {c : Char} {rest : Text} {lexeme : Lexeme}
    (h : read c rest = .ok lexeme) : 0 < lexeme.length := by
  unfold read at h
  split at h
  all_goals repeat' split at h
  all_goals first
    | contradiction
    | (cases h; simp only [Nat.zero_lt_succ])
    | (cases h; exact ofNumeral_length_pos (by simp))
    | (cases h; exact ofWord_length_pos (by simp))

end Lexeme

/-! ### Cursors -/

/-- A place in a query: the offset of the next character, and the text from there on. -/
structure Cursor where
  position : Nat
  rest : Text
deriving DecidableEq

namespace Cursor

/-- The start of a query. -/
def start (query : Text) : Cursor := ⟨0, query⟩

/-- The place a number of characters further on. -/
def advance (cursor : Cursor) (n : Nat) : Cursor := ⟨cursor.position + n, cursor.rest.drop n⟩

/-- The end of the query. -/
def atEnd (cursor : Cursor) : Cursor := cursor.advance cursor.rest.length

/-- The next place that holds no blank. -/
def skipBlanks (cursor : Cursor) : Cursor :=
  cursor.advance (cursor.rest.takeWhile Text.isBlank).length

/-- The next token or why there is none, and the place after it. An open string or brace is read
to the end, a sign without digits not at all. -/
def next (cursor : Cursor) : Except LexError Token × Cursor :=
  let here := cursor.skipBlanks
  match here.rest with
  | [] => (.ok ⟨.eof, [], here.position, none⟩, here)
  | c :: rest =>
    match Lexeme.read c rest with
    | .ok lexeme =>
      (.ok ⟨lexeme.kind, here.rest.take lexeme.length, here.position, lexeme.literal⟩,
        here.advance lexeme.length)
    | .error .openString => (.error (.unterminatedString here.position), here.atEnd)
    | .error .openBrace => (.error (.unterminatedBrace here.position), here.atEnd)
    | .error .danglingSign => (.error (.danglingSign here.position), here)

theorem length_skipBlanks_le (cursor : Cursor) :
    cursor.skipBlanks.rest.length ≤ cursor.rest.length := by
  simp [skipBlanks, advance]

/-- A token other than the end uses up some of the query. -/
theorem length_next_lt {cursor after : Cursor} {token : Token}
    (h : cursor.next = (.ok token, after)) (hk : token.kind ≠ .eof) :
    after.rest.length < cursor.rest.length := by
  have hle := cursor.length_skipBlanks_le
  simp only [next] at h
  split at h
  · cases h; exact absurd rfl hk
  · next c rest hr =>
    split at h
    · next lexeme hl =>
      have hpos := Lexeme.length_pos_of_read hl
      cases h
      rw [hr] at hle
      simp only [advance, hr, List.length_drop]
      simp only [List.length_cons] at hle ⊢
      omega
    all_goals cases h

/-- The tokens from a place on, ending with the end of the query. The first character that begins
no token is an error. -/
def tokens (cursor : Cursor) : Except LexError (List Token) :=
  match _h : cursor.next with
  | (.error e, _) => .error e
  | (.ok token, after) =>
    if _hk : token.kind = .eof then .ok [token]
    else if token.kind = .error then
      .error (.unexpectedCharacter (token.lexeme.headD '\x00') token.position)
    else after.tokens.map (token :: ·)
termination_by cursor.rest.length
decreasing_by exact length_next_lt _h _hk

/-- The results of a number of steps in a row, each from the place that the last one left. -/
def steps (cursor : Cursor) : Nat → List (Except LexError Token)
  | 0 => []
  | n + 1 => cursor.next.1 :: cursor.next.2.steps n

end Cursor

/-- The tokens of a query, ending with the end of the query. -/
def tokenize (query : Text) : Except LexError (List Token) := (Cursor.start query).tokens

end Triage
