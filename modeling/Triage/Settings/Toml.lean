import Triage.Text.Hexadecimal
import Triage.Text.Scan

/-! The part of TOML that settings use.

A document is a row of assignments, after which sections follow, each with a
header and assignments of its own. Settings hold strings and booleans, and
nothing else but empty arrays and tables, so a document with any other value is
refused here. A key is a path of names with points between them, each bare or
quoted. Strings come in four forms: between single or triple quotes, and with
escapes or without. -/
namespace Triage.Toml

/-- A value. -/
inductive Value where
  | string (text : Text)
  | boolean (b : Bool)
  /-- An array or inline table that holds nothing. -/
  | empty
  /-- An inline table that holds an empty value under one name and nothing else. -/
  | only (name : Text)
deriving DecidableEq

/-- A key and the value assigned to it. -/
structure Assignment where
  path : List Text
  value : Value
deriving DecidableEq

/-- A statement of a document. -/
inductive Statement where
  | assign (assignment : Assignment)
  | header (path : List Text)
deriving DecidableEq

/-- A section: its header and the assignments under it. -/
structure Section where
  path : List Text
  assignments : List Assignment
deriving DecidableEq

/-- The assignments before the first header, and the sections. -/
structure Document where
  top : List Assignment
  sections : List Section
deriving DecidableEq

/-! ### Characters -/

/-- Whether a character may stand in a line: no control character but the tab. -/
def isLineChar (c : Char) : Bool := c = '\t' || 0x20 ≤ c.toNat && c.toNat ≠ 0x7F

/-- Whether a character is a space or a tab. -/
def isSpace (c : Char) : Bool := c = ' ' || c = '\t'

/-- Whether a character may stand in a bare name. -/
def isBareChar (c : Char) : Bool := c.isAlphanum || c = '_' || c = '-'

/-- Any spaces and tabs. -/
def spaces : Scan Unit := fun text => some ((), text.dropWhile isSpace)

/-- The end of a line, or of the text. -/
def lineEnd : Scan Unit
  | [] => some ((), [])
  | '\n' :: rest => some ((), rest)
  | '\r' :: '\n' :: rest => some ((), rest)
  | _ => none

/-- What may stand after a statement on its line: spaces and a comment. -/
def trailing : Scan Unit := do
  spaces
  fun text => match text with
    | '#' :: rest => some ((), rest.dropWhile isLineChar)
    | text => some ((), text)
  lineEnd

/-! ### Strings -/

/-- The character of an escape after its backslash, and the rest. -/
def escape? : Text → Option (Char × Text)
  | 'b' :: rest => some ('\x08', rest)
  | 'f' :: rest => some ('\x0c', rest)
  | 'n' :: rest => some ('\n', rest)
  | 'r' :: rest => some ('\r', rest)
  | 't' :: rest => some ('\t', rest)
  | '"' :: rest => some ('"', rest)
  | '\\' :: rest => some ('\\', rest)
  | 'u' :: rest => numbered 4 rest
  | 'U' :: rest => numbered 8 rest
  | _ => none
where
  /-- The character whose number is written with this many hexadecimal digits. -/
  numbered (width : Nat) (rest : Text) : Option (Char × Text) := do
    let digits := rest.take width
    let n ← Hexadecimal.value? digits
    if digits.length = width ∧ n.isValidChar then return (Char.ofNat n, rest.drop width) else none

/-- The inside of a string with escapes on one line, up to the closing quote, and the rest. -/
def basic (text : Text) : Option (Text × Text) :=
  match text with
  | [] => none
  | '"' :: rest => some ([], rest)
  | '\\' :: rest => do
    let (c, after) ← escape? rest
    if after.length < rest.length then
      let (t, rest) ← basic after
      return (c :: t, rest)
    else none
  | c :: rest =>
    if isLineChar c then (basic rest).map fun (t, rest) => (c :: t, rest) else none
termination_by text.length
decreasing_by all_goals (simp; try omega)

/-- Whether a text goes on with spaces and then a line end. -/
def endsLine (text : Text) : Bool :=
  match text.dropWhile isSpace with
  | '\n' :: _ | '\r' :: '\n' :: _ => true
  | _ => false

/-- A text without the spaces and line ends it begins with. -/
def skipLines : Text → Text
  | ' ' :: rest | '\t' :: rest | '\n' :: rest => skipLines rest
  | '\r' :: '\n' :: rest => skipLines rest
  | text => text

theorem length_skipLines_le (text : Text) : (skipLines text).length ≤ text.length := by
  fun_induction skipLines text <;> simp_all <;> omega

/-- The inside of a string with escapes on many lines, up to its three closing quotes, and the
rest. One or two quotes more belong to the string. A backslash at the end of a line drops the
space up to the next character. -/
def basicLines (text : Text) : Option (Text × Text) :=
  match text with
  | [] => none
  | '"' :: '"' :: '"' :: '"' :: '"' :: rest => some (['"', '"'], rest)
  | '"' :: '"' :: '"' :: '"' :: rest => some (['"'], rest)
  | '"' :: '"' :: '"' :: rest => some ([], rest)
  | '\\' :: rest =>
    if endsLine rest then basicLines (skipLines rest)
    else do
      let (c, after) ← escape? rest
      if after.length < rest.length then
        let (t, rest) ← basicLines after
        return (c :: t, rest)
      else none
  | '\r' :: '\n' :: rest => (basicLines rest).map fun (t, rest) => ('\n' :: t, rest)
  | c :: rest =>
    if isLineChar c ∨ c = '\n' then (basicLines rest).map fun (t, rest) => (c :: t, rest)
    else none
termination_by text.length
decreasing_by
  · have := length_skipLines_le rest
    simp
    omega
  all_goals (simp; try omega)

/-- The inside of a string without escapes on one line, up to the closing quote, and the rest. -/
def verbatim : Text → Option (Text × Text)
  | [] => none
  | '\'' :: rest => some ([], rest)
  | c :: rest =>
    if isLineChar c then (verbatim rest).map fun (t, rest) => (c :: t, rest) else none

/-- The inside of a string without escapes on many lines, up to its three closing quotes, and
the rest. One or two quotes more belong to the string. -/
def verbatimLines : Text → Option (Text × Text)
  | [] => none
  | '\'' :: '\'' :: '\'' :: '\'' :: '\'' :: rest => some (['\'', '\''], rest)
  | '\'' :: '\'' :: '\'' :: '\'' :: rest => some (['\''], rest)
  | '\'' :: '\'' :: '\'' :: rest => some ([], rest)
  | '\r' :: '\n' :: rest => (verbatimLines rest).map fun (t, rest) => ('\n' :: t, rest)
  | c :: rest =>
    if isLineChar c ∨ c = '\n' then (verbatimLines rest).map fun (t, rest) => (c :: t, rest)
    else none

/-- A text without the line end it begins with, if any. -/
def skipLineEnd : Text → Text
  | '\n' :: rest => rest
  | '\r' :: '\n' :: rest => rest
  | text => text

/-! ### Keys and values -/

/-- A name of a key, bare or quoted. -/
def name : Scan Text
  | '"' :: rest => basic rest
  | '\'' :: rest => verbatim rest
  | text =>
    let bare := text.takeWhile isBareChar
    if bare.isEmpty then none else some (bare, text.drop bare.length)

/-- The further names of a key, each after a point, in at most `fuel` steps. -/
def moreNames (fuel : Nat) : Scan (List Text) := fun text =>
  match fuel with
  | 0 => some ([], text)
  | fuel + 1 =>
    match text with
    | '.' :: rest => (do
        spaces
        let first ← name
        spaces
        return first :: (← moreNames fuel)) rest
    | text => some ([], text)

/-- A key: names with points between them, and any spaces. -/
def key : Scan (List Text) := do
  spaces
  let first ← name
  spaces
  let rest ← get
  return first :: (← moreNames rest.length)

/-- A text without the comments, spaces and line ends it begins with; `inComment` says whether a
comment has begun before it. -/
def skipComments (inComment : Bool) : Text → Text
  | [] => []
  | '\n' :: rest => skipComments false rest
  | '\r' :: '\n' :: rest => skipComments false rest
  | c :: rest =>
    if inComment && isLineChar c then skipComments true rest
    else if inComment then c :: rest
    else if c = '#' then skipComments true rest
    else if isSpace c then skipComments false rest
    else c :: rest

/-- An empty array. Comments and line ends may stand in it. -/
def emptyArray : Scan Unit := do
  Scan.char '['
  modify (skipComments false)
  Scan.char ']'

/-- An empty inline table. -/
def emptyTable : Scan Unit := do
  Scan.char '{'
  spaces
  Scan.char '}'

/-- An inline table with one name, which has an empty value. -/
def onlyTable : Scan Value := do
  Scan.char '{'
  spaces
  let only ← name
  spaces
  Scan.char '='
  spaces
  emptyArray <|> emptyTable
  spaces
  Scan.char '}'
  return .only only

/-- A value. -/
def value : Scan Value
  | '"' :: '"' :: '"' :: rest => (basicLines (skipLineEnd rest)).map fun (t, r) => (.string t, r)
  | '"' :: rest => (basic rest).map fun (t, r) => (.string t, r)
  | '\'' :: '\'' :: '\'' :: rest =>
    (verbatimLines (skipLineEnd rest)).map fun (t, r) => (.string t, r)
  | '\'' :: rest => (verbatim rest).map fun (t, r) => (.string t, r)
  | 't' :: 'r' :: 'u' :: 'e' :: rest => some (.boolean true, rest)
  | 'f' :: 'a' :: 'l' :: 's' :: 'e' :: rest => some (.boolean false, rest)
  | text => (((emptyArray <|> emptyTable) *> pure Value.empty) <|> onlyTable) text

/-! ### Documents -/

/-- An assignment on its line. -/
def assignment : Scan Statement := do
  let path ← key
  Scan.char '='
  spaces
  let value ← value
  trailing
  return .assign ⟨path, value⟩

/-- A header on its line. -/
def header : Scan Statement := do
  Scan.char '['
  let path ← key
  Scan.char ']'
  trailing
  return .header path

/-- The statement that begins with a character, nothing on a line without one. -/
def statement : Scan (Option Statement) := do
  spaces
  let text ← get
  match text with
  | [] => return none
  | '#' :: _ | '\n' :: _ | '\r' :: _ => trailing; return none
  | '[' :: _ => return some (← header)
  | _ => return some (← assignment)

/-- The statements of a text. -/
def statements? (text : Text) : Option (List Statement) := do
  if text.isEmpty then return []
  let (first, rest) ← statement text
  if rest.length < text.length then
    let more ← statements? rest
    return first.toList ++ more
  else none
termination_by text.length

/-- The sections that some statements make, each header with the assignments after it, and the
assignments before the first header. -/
def gather : List Statement → Document
  | [] => ⟨[], []⟩
  | .assign a :: more => { gather more with top := a :: (gather more).top }
  | .header path :: more => ⟨[], ⟨path, (gather more).top⟩ :: (gather more).sections⟩

/-- The document of a text, which may begin with a byte order mark. -/
def read? (text : Text) : Option Document :=
  match text with
  | '\uFEFF' :: rest => (statements? rest).map gather
  | text => (statements? text).map gather

end Triage.Toml
