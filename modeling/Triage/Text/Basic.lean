/-! Texts.

A text is the list of its characters, so an offset counts characters and a slice
is a sublist. This file holds what every part of the language asks of a text:
whether another text stands inside it, its lines, and its place in a column. -/
namespace Triage

/-- A text is the list of its characters. -/
abbrev Text := List Char

namespace Text

/-! ### Search -/

/-- Whether `part` stands somewhere inside a text. -/
def holds (part : Text) : Text → Bool
  | [] => part.isEmpty
  | c :: rest => part.isPrefixOf (c :: rest) || holds part rest

theorem holds_iff_infix (part text : Text) : holds part text = true ↔ part <:+: text := by
  induction text with
  | nil => simp [holds]
  | cons c rest ih =>
    simp only [holds, Bool.or_eq_true, List.isPrefixOf_iff_prefix, ih]
    exact (List.infix_cons_iff).symm

/-! ### Replacement -/

/-- The text with every `old` character replaced by `new`. -/
def replace (old new : Char) (text : Text) : Text :=
  text.map fun c => if c = old then new else c

/-! ### Lines -/

/-- The lines of a text, each without its ending: a line feed, with one carriage
return before it if there is one. An empty rest is no line. -/
def lines : Text → List Text
  | [] => []
  | '\n' :: rest => [] :: lines rest
  | '\r' :: '\n' :: rest => [] :: lines rest
  | c :: rest =>
    match lines rest with
    | [] => [[c]]
    | line :: more => (c :: line) :: more

/-! ### Columns -/

/-- A text filled up with spaces behind it, never cut. -/
def padRight (width : Nat) (text : Text) : Text :=
  text ++ List.replicate (width - text.length) ' '

/-- A text filled up with spaces before it, never cut. -/
def padLeft (width : Nat) (text : Text) : Text :=
  List.replicate (width - text.length) ' ' ++ text

/-- Texts written one after another with `separator` between them. -/
def join (separator : Text) (texts : List Text) : Text := List.intercalate separator texts

end Text
end Triage
