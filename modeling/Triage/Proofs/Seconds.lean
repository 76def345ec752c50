import Triage.Proofs.Stored

/-! Instants are equal by the second.

The value of an instant covers the second of universal time in which the instant falls, a
leap second together with the second 59 before it (`Instant.any_holds_interval`). So it
selects the times of that second, and among the instants that have the whole of their
second in the calendar this is an equivalence (`Filter.accepts_instant_iff`). -/
namespace Triage
open Calendar

namespace Instant

/-- Whether two instants fall in one second of universal time. A leap second belongs to the second
59 before it. -/
def SameSecond (x y : Instant) : Prop := x.second = y.second

/-- Whether the value of one instant equals every field that holds the other one. -/
def Selects (now : Moment) (x y : Instant) : Prop :=
  ∀ (issue : Issue) (field : Field), issue.get field = .instant y →
    (Filter.equals field (.instant x)).accepts now issue = true

/-- Whether the second of an instant begins and ends in the calendar. -/
def Bounded (i : Instant) : Prop := i.interval.isSome = true

instance (i : Instant) : Decidable i.Bounded := inferInstanceAs (Decidable (_ = true))

variable {now : Moment} {x y : Instant}

theorem bounded_iff : x.Bounded ↔ x.second < lastSecond := by
  have hfirst := x.second_mem.1
  rw [Bounded, interval_eq, Option.isSome_map, of?]
  split
  · next h => exact iff_of_true rfl (by omega)
  · next h => exact iff_of_false Bool.false_ne_true fun hlt => h ⟨by omega, .inl (by decide)⟩

theorem accepts_iff_sameSecond (hx : x.Bounded) {issue : Issue} {field : Field}
    (hget : issue.get field = .instant y) :
    (Filter.equals field (.instant x)).accepts now issue = true ↔ x.SameSecond y := by
  rw [Filter.accepts, hget]
  show x.interval.any (·.holds y) = true ↔ x.second = y.second
  rw [any_holds_interval (bounded_iff.1 hx), decide_eq_true_iff, eq_comm]

theorem selects_iff_sameSecond (hx : x.Bounded) : x.Selects now y ↔ x.SameSecond y := by
  constructor
  · intro h
    have hcreated : { Issue.new [] [] with created := y }.get .created = .instant y := rfl
    exact (accepts_iff_sameSecond hx hcreated).1 (h _ _ hcreated)
  · intro h issue field hget
    exact (accepts_iff_sameSecond hx hget).2 h

end Instant

namespace Filter

/-- **Instants are equal by the second.** A field that holds a time equals the value of an instant
exactly if both fall in the same second, whatever their fractions, with a leap second in the second
before it. Among the instants whose second lies in the calendar this is an equivalence. -/
theorem accepts_instant_iff (now : Moment) :
    (∀ x y : Instant, x.Bounded →
      ∀ (issue : Issue) (field : Field), issue.get field = .instant y →
        ((equals field (.instant x)).accepts now issue = true ↔ x.SameSecond y)) ∧
    Equivalence fun x y : { i : Instant // i.Bounded } => x.1.Selects now y.1 := by
  refine ⟨fun x y hx issue field hget => Instant.accepts_iff_sameSecond hx hget, ?_⟩
  have hiff : ∀ x y : { i : Instant // i.Bounded },
      x.1.Selects now y.1 ↔ x.1.second = y.1.second :=
    fun x y => Instant.selects_iff_sameSecond x.2
  refine ⟨fun x => ?_, fun {x y} hxy => ?_, fun {x y z} hxy hyz => ?_⟩
  · exact (hiff x x).2 rfl
  · exact (hiff y x).2 ((hiff x y).1 hxy).symm
  · exact (hiff x z).2 (((hiff x y).1 hxy).trans ((hiff y z).1 hyz))

/-- The middle of the last second of 1969 and of a leap second behind it are equal. -/
theorem accepts_instant_iff_leap :
    (equals .created (.instant ⟨-1, 500000000, by decide, by decide⟩)).accepts (.universal .epoch)
      { Issue.new [] [] with created := ⟨-1, 1500000000, by decide, by decide⟩ } = true := by
  have hiff := (accepts_instant_iff (.universal .epoch)).1
  exact (hiff ⟨-1, 500000000, by decide, by decide⟩ ⟨-1, 1500000000, by decide, by decide⟩
    (by decide) _ .created rfl).2 rfl

end Filter
end Triage
