import Triage.Selection

/-! Dates in their order, and the local days that they number.

Dates are ordered by year, month and day, and so are their numbers
(`Date.lt_iff_number_lt`). Days are numbered on beyond the calendar, and each begins at a
second of universal time at every place (`Calendar.midnightSecond`). Where that second is an
instant, what comes before it are the instants of earlier local days
(`Instant.before_midnight_iff`), a leap second with the second before it, so between two
midnights lie the instants of the local days from the one to the other
(`Interval.holds_iff_localDay`). -/
namespace Triage
open Calendar

/-! ### The order of dates -/

namespace Calendar

theorem daysBefore_succ (lengths : List Nat) (n : Nat) :
    daysBefore lengths (n + 1) = daysBefore lengths n + lengths.getD n 0 := by
  induction lengths generalizing n with
  | nil => simp [daysBefore]
  | cons length more ih =>
    cases n with
    | zero => simp [daysBefore, totalDays]
    | succ n =>
      have := ih n
      simp only [daysBefore, List.take_succ_cons, totalDays, List.getD_cons_succ] at this ⊢
      omega

theorem daysBefore_mono (lengths : List Nat) {m n : Nat} (h : m ≤ n) :
    daysBefore lengths m ≤ daysBefore lengths n := by
  induction h with
  | refl => exact Nat.le_refl _
  | step _ ih => exact Nat.le_trans ih (daysBefore_succ lengths _ ▸ Nat.le_add_right _ _)

end Calendar

namespace Date

/-- Dates are ordered by year, then by month, then by day. -/
instance : LT Date where
  lt a b := a.year < b.year ∨
    a.year = b.year ∧ (a.month < b.month ∨ a.month = b.month ∧ a.day < b.day)

instance : LE Date where
  le a b := ¬ b < a

instance (a b : Date) : Decidable (a < b) := inferInstanceAs (Decidable (_ ∨ _))

instance (a b : Date) : Decidable (a ≤ b) := inferInstanceAs (Decidable (¬ _))

variable {a b : Date}

theorem lt_def : a < b ↔ a.year < b.year ∨
    a.year = b.year ∧ (a.month < b.month ∨ a.month = b.month ∧ a.day < b.day) := Iff.rfl

theorem number_lt_of_year_lt (h : a.year < b.year) : a.number < b.number := by
  have ha := a.number_mem_year.2
  have hb := b.number_mem_year.1
  have := yearStart_mono (show a.year + 1 ≤ b.year by omega)
  omega

theorem number_lt_of_month_lt (hy : a.year = b.year) (h : a.month < b.month) :
    a.number < b.number := by
  have hday := a.day_lt.2
  have hmonth := a.exists_month
  have hfirst := a.exists_day.1
  have hother := b.exists_day.1
  have hsucc := daysBefore_succ (monthLengths a.year) (a.month - 1)
  have hmono := daysBefore_mono (monthLengths a.year)
    (show a.month - 1 + 1 ≤ b.month - 1 by omega)
  unfold number
  rw [← hy]
  omega

theorem number_lt_of_lt (h : a < b) : a.number < b.number := by
  rcases h with hy | ⟨hy, hm | ⟨hm, hd⟩⟩
  · exact number_lt_of_year_lt hy
  · exact number_lt_of_month_lt hy hm
  · unfold number
    rw [hy, hm]
    omega

/-- Dates come one after the other as their numbers do. -/
theorem lt_iff_number_lt : a < b ↔ a.number < b.number := by
  refine ⟨number_lt_of_lt, fun h => ?_⟩
  have hne : ¬ b < a := fun hba => Int.lt_asymm h (number_lt_of_lt hba)
  apply Decidable.byContradiction
  intro hab
  have hparts : a.year = b.year ∧ a.month = b.month ∧ a.day = b.day := by
    rw [lt_def] at hab hne
    omega
  have hnumber : a.number = b.number := by
    unfold number
    rw [hparts.1, hparts.2.1, hparts.2.2]
  omega

theorem le_iff_number_le : a ≤ b ↔ a.number ≤ b.number := by
  rw [← Int.not_lt, ← lt_iff_number_lt]
  rfl

/-- A number in the calendar is the number of some date. -/
theorem exists_number_eq (n : Int) (h : firstDay ≤ n ∧ n ≤ lastDay) : ∃ d : Date, d.number = n :=
  ⟨ofNumber n h, number_ofNumber n h⟩

/-- The numbers from one date's to another's are those of the dates from the one to the other. -/
theorem exists_between_iff {first last : Date} {n : Int} :
    first.number ≤ n ∧ n ≤ last.number ↔ ∃ d : Date, n = d.number ∧ first ≤ d ∧ d ≤ last := by
  have hfirst := first.number_mem
  have hlast := last.number_mem
  constructor
  · intro h
    obtain ⟨d, rfl⟩ := exists_number_eq n (by omega)
    exact ⟨d, rfl, le_iff_number_le.2 h.1, le_iff_number_le.2 h.2⟩
  · rintro ⟨d, rfl, h⟩
    exact ⟨le_iff_number_le.1 h.1, le_iff_number_le.1 h.2⟩

end Date

/-! ### Local days -/

namespace Instant

/-- The number of the day in which an instant falls at a place with this offset. -/
def localDay (t : Instant) (offset : Int) : Int := (t.second + offset) / 86400

/-- The date of an instant at a place with this offset, if it has a local time there. -/
def localDate? (t : Instant) (offset : Int) : Option Date :=
  (Moment.of? t offset).map Moment.localDate

theorem localDate?_eq_some_iff {t : Instant} {offset : Int} {d : Date}
    (ho : -86400 < offset ∧ offset < 86400) :
    t.localDate? offset = some d ↔ t.localDay offset = d.number := by
  unfold localDate? Moment.of?
  split
  · next h =>
    rw [Option.map_some, Option.some_inj, ← Date.number_inj, Moment.number_localDate]
    rfl
  · next h =>
    have hmem := d.number_mem
    rw [Option.map_none]
    refine iff_of_false (Option.some_ne_none d).symm fun hday => h ⟨ho, ?_⟩
    unfold localDay at hday
    unfold firstSecond lastSecond
    omega

end Instant

/-! ### Midnights -/

/-- The second at which a day begins at a place with this offset. -/
def Calendar.midnightSecond (day offset : Int) : Int := day * 86400 - offset

variable {first next offset : Int} {start stop : Instant}

/-- What comes before a midnight falls in an earlier day, and all of the earlier days do. -/
theorem Instant.before_midnight_iff (h : of? (midnightSecond next offset) 0 = some stop)
    (t : Instant) : t.before stop = true ↔ t.localDay offset < next := by
  obtain ⟨hsecond, hnano⟩ := eq_of_of? h
  unfold before localDay
  rw [hsecond, hnano]
  unfold midnightSecond
  simp only [Nat.not_lt_zero, decide_false, Bool.and_false, Bool.or_false, decide_eq_true_eq]
  omega

/-- Between two midnights lie the days from the first one on up to the other one. -/
theorem Interval.holds_iff_localDay
    (hstart : Instant.of? (midnightSecond first offset) 0 = some start)
    (hstop : Instant.of? (midnightSecond next offset) 0 = some stop) (t : Instant) :
    (Interval.mk start stop).holds t = true ↔
      first ≤ t.localDay offset ∧ t.localDay offset < next := by
  have hfirst := Instant.before_midnight_iff hstart t
  have hnext := Instant.before_midnight_iff hstop t
  rw [holds, Bool.and_eq_true, hnext, Bool.not_eq_true', ← Bool.not_eq_true, hfirst, Int.not_lt]

theorem Calendar.isSome_of?_midnightSecond_iff {day : Int} :
    (Instant.of? (midnightSecond day offset) 0).isSome = true ↔
      firstSecond ≤ midnightSecond day offset ∧ midnightSecond day offset ≤ lastSecond := by
  unfold Instant.of?
  split
  · next h => exact iff_of_true rfl h.1
  · next h => exact iff_of_false Bool.false_ne_true fun hmem => h ⟨hmem, .inl (by decide)⟩

end Triage
