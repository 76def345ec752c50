import Triage.Issue
import Triage.Query

/-! Whether an issue passes a filter.

Texts are compared in lower case, times with the interval that a value covers
seen from now, and a missing part only with the absence of a value. -/
namespace Triage

/-- Whether two texts are the same in lower case; names of a status or type also treat hyphens
and underscores alike. -/
def Text.same (isEnum : Bool) (a b : Text) : Bool :=
  if isEnum then Status.foldName a = Status.foldName b else a.lower = b.lower

namespace Content

/-- Whether what a field holds equals a value. -/
def equals (now : Moment) (isEnum : Bool) : Content → Value → Bool
  | absent, .null => true
  | list items, .null => items.isEmpty
  | absent, _ => false
  | _, .null => false
  | text t, .text s => Text.same isEnum t s
  | integer n, .integer m => n = m
  | instant t, value => (value.interval now).any (·.holds t)
  | list items, .text s => items.any (Text.same false · s)
  | _, _ => false

/-- Whether what a field holds lies between two values. Of a time it is asked whether it comes no
earlier than the interval of the one begins and before that of the other ends. -/
def between (now : Moment) (min max : Value) : Content → Bool
  | integer n =>
    match min, max with
    | .integer low, .integer high => low ≤ n && n ≤ high
    | _, _ => false
  | instant t =>
    match min.interval now, max.interval now with
    | some low, some high => !t.before low.start && t.before high.stop
    | _, _ => false
  | _ => false

/-- Whether a test holds of a text that a field holds. Integers are tested as they are written. -/
def anyText (test : Text → Bool) : Content → Bool
  | text t => test t
  | list items => items.any test
  | integer n => test (Integer.text n)
  | instant _ | absent => false

variable {now : Moment} {min max : Value}

theorem between_integer_iff {n : Int64} : (integer n).between now min max = true ↔
    ∃ low high, min = .integer low ∧ max = .integer high ∧ low ≤ n ∧ n ≤ high := by
  constructor
  · intro h
    cases min <;> cases max <;> try exact Bool.noConfusion h
    next low high =>
      have h : (decide (low ≤ n) && decide (n ≤ high)) = true := h
      rw [Bool.and_eq_true, decide_eq_true_iff, decide_eq_true_iff] at h
      exact ⟨low, high, rfl, rfl, h⟩
  · rintro ⟨low, high, rfl, rfl, hlow, hhigh⟩
    show (decide (low ≤ n) && decide (n ≤ high)) = true
    rw [decide_eq_true hlow, decide_eq_true hhigh]
    rfl

theorem between_instant_iff {t : Instant} : (instant t).between now min max = true ↔
    ∃ low ∈ min.interval now, ∃ high ∈ max.interval now,
      t.before low.start = false ∧ t.before high.stop = true := by
  rw [between]
  cases min.interval now <;> cases max.interval now <;> simp

end Content

namespace Filter

/-- Whether a text holds another one, in lower case unless case counts. -/
def finds (part : Text) (caseSensitive : Bool) (text : Text) : Bool :=
  if caseSensitive then Text.holds part text else Text.holds part.lower text.lower

/-- The fields in which a text is searched. -/
def searchedIn : Option Field → List Field
  | some field => [field]
  | none => Field.searched

/-- Whether an issue meets a condition, seen from `now`. -/
def accepts (now : Moment) (issue : Issue) : Filter → Bool
  | and left right => left.accepts now issue && right.accepts now issue
  | or left right => left.accepts now issue || right.accepts now issue
  | not child => !child.accepts now issue
  | equals field value => (issue.get field).equals now field.type.isEnum value
  | oneOf field values => values.any ((issue.get field).equals now field.type.isEnum ·)
  | range field min max => (issue.get field).between now min max
  | contains field part caseSensitive =>
    (searchedIn field).any fun f => (issue.get f).anyText (finds part caseSensitive)
  | has field value => (issue.get field).equals now field.type.isEnum value

end Filter
end Triage
