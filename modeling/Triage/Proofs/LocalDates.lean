import Triage.Proofs.CalendarEdges
import Triage.Selection

/-! What a date selects at the place of now.

A date covers its day at the place of now if the midnights that begin and end the day are instants
(`Date.Bounded`). So a date selects the issues whose time has that local date, and a range of dates
those whose local date lies in it, which some date of the range selects by itself. There is one
exception, the last date of the calendar. To the east of universal time its day ends before the
calendar does, but its interval is found by way of the next date, so there is none
(`Date.Bounded.exists_interval`), and neither the date nor a range that ends with it selects
anything (`Filter.accepts_date_iff`). -/
namespace Triage
open Calendar

/-! ### Days between two midnights -/

namespace Date

/-- Whether the midnights that begin and end the day of a date at a place are instants. -/
def Bounded (d : Date) (offset : Int) : Prop :=
  (Instant.of? (midnightSecond d.number offset) 0).isSome = true ∧
    (Instant.of? (midnightSecond (d.number + 1) offset) 0).isSome = true

instance (d : Date) (offset : Int) : Decidable (d.Bounded offset) :=
  inferInstanceAs (Decidable (_ ∧ _))

variable {d : Date} {offset : Int}

theorem bounded_iff : d.Bounded offset ↔ firstSecond ≤ midnightSecond d.number offset ∧
    midnightSecond (d.number + 1) offset ≤ lastSecond := by
  rw [Bounded, isSome_of?_midnightSecond_iff, isSome_of?_midnightSecond_iff]
  unfold midnightSecond
  omega

/-- A date between two that have their midnights has its own. -/
theorem Bounded.of_le {first last : Date} (hf : first.Bounded offset) (hl : last.Bounded offset)
    (hfirst : first ≤ d) (hlast : d ≤ last) : d.Bounded offset := by
  rw [bounded_iff] at hf hl ⊢
  rw [le_iff_number_le] at hfirst hlast
  unfold midnightSecond at *
  omega

theorem eq_lastDate_iff : d = lastDate ↔ d.number = lastDay := by
  have hlast : lastDate.number = lastDay := by decide
  rw [← number_inj, hlast]

theorem ne_lastDate_of_le {last : Date} (h : d ≤ last) (hlast : last ≠ lastDate) :
    d ≠ lastDate := by
  have hmem := last.number_mem
  rw [le_iff_number_le] at h
  rw [ne_eq, eq_lastDate_iff] at hlast ⊢
  omega

/-- The day of the last date ends with an instant at the places to the east, and at no other. -/
theorem bounded_lastDate_iff (ho : -86400 < offset ∧ offset < 86400) :
    lastDate.Bounded offset ↔ 0 < offset := by
  rw [bounded_iff, eq_lastDate_iff.1 rfl]
  unfold midnightSecond firstSecond lastSecond
  have hends : firstDay < lastDay := by decide
  omega

/-- A date with its midnights has the interval between them, unless it is the last date. -/
theorem Bounded.exists_interval (h : d.Bounded offset) (ho : -86400 < offset ∧ offset < 86400) :
    ∃ start stop, Instant.of? (midnightSecond d.number offset) 0 = some start ∧
      Instant.of? (midnightSecond (d.number + 1) offset) 0 = some stop ∧
      d.interval offset = if d = lastDate then none else some ⟨start, stop⟩ := by
  obtain ⟨start, hstart⟩ := Option.isSome_iff_exists.1 h.1
  obtain ⟨stop, hstop⟩ := Option.isSome_iff_exists.1 h.2
  refine ⟨start, stop, hstart, hstop, ?_⟩
  simp only [d.interval_eq ho, eq_lastDate_iff, Interval.ofSeconds, hstart, hstop,
    Option.bind_eq_bind, Option.bind_some, Option.pure_def]

/-- The interval of a date stops where that of the next date starts, if this is not the last. -/
theorem Bounded.exists_following_iff {next : Date} (hnext : d.addDays 1 = some next)
    (h : d.Bounded offset) (hn : next.Bounded offset) (ho : -86400 < offset ∧ offset < 86400) :
    (∃ day following, d.interval offset = some day ∧ next.interval offset = some following ∧
      day.stop = following.start) ↔ next ≠ lastDate := by
  obtain ⟨_, middle, _, hmiddle, hday⟩ := h.exists_interval ho
  obtain ⟨middle', _, hmiddle', _, hfollowing⟩ := hn.exists_interval ho
  have hnumber := number_of_addDays hnext
  have hinner : d ≠ lastDate := by
    have hmem := next.number_mem
    rw [ne_eq, eq_lastDate_iff]
    omega
  rw [hnumber, hmiddle] at hmiddle'
  rw [hday, if_neg hinner, hfollowing]
  constructor
  · rintro ⟨_, _, _, hsome, _⟩ hlast
    rw [if_pos hlast] at hsome
    exact absurd hsome.symm (Option.some_ne_none _)
  · intro hlast
    exact ⟨_, _, rfl, if_neg hlast, Option.some.inj hmiddle'⟩

end Date

/-! ### Selection -/

namespace Filter

variable {issue : Issue} {field : Field} {t : Instant} {now : Moment}

/-- A time equals a value if it lies in the range from this value to itself. -/
theorem accepts_equals_eq_range (ht : issue.get field = .instant t) (value : Value) :
    (equals field value).accepts now issue = (range field value value).accepts now issue := by
  have hequals : (Content.instant t).equals now field.type.isEnum value =
      (value.interval now).any (·.holds t) := by
    cases value <;> rfl
  rw [accepts, accepts, ht, hequals, Content.between]
  cases value.interval now <;> rfl

theorem accepts_range_date_iff (ht : issue.get field = .instant t) {first last : Date}
    (hf : first.Bounded now.offset) (hl : last.Bounded now.offset) :
    (range field (.date first) (.date last)).accepts now issue = true ↔ last ≠ lastDate ∧
      first.number ≤ t.localDay now.offset ∧ t.localDay now.offset ≤ last.number := by
  obtain ⟨start, _, hstart, _, hfirst⟩ := hf.exists_interval now.offset_lt
  obtain ⟨_, stop, _, hstop, hlast⟩ := hl.exists_interval now.offset_lt
  rw [accepts, ht, Content.between_instant_iff]
  simp only [Value.interval, hfirst, hlast]
  by_cases hend : last = lastDate
  · simp [hend]
  · by_cases hbegin : first = lastDate
    · -- The last date has no interval, and a range that begins with it and ends elsewhere no date.
      have hbehind := Date.eq_lastDate_iff.1 hbegin
      have hbefore := mt Date.eq_lastDate_iff.2 hend
      have hmem := last.number_mem
      simp only [if_pos hbegin, Option.mem_def, reduceCtorEq, false_and, exists_false, false_iff]
      omega
    · simp only [if_neg hend, if_neg hbegin, Option.mem_def, Option.some.injEq, exists_eq_left']
      rw [Instant.before_midnight_iff hstop t, ← Bool.not_eq_true,
        Instant.before_midnight_iff hstart t, and_iff_right hend]
      omega

theorem accepts_equals_date_iff (ht : issue.get field = .instant t) {d : Date}
    (h : d.Bounded now.offset) : (equals field (.date d)).accepts now issue = true ↔
      d ≠ lastDate ∧ t.localDay now.offset = d.number := by
  rw [accepts_equals_eq_range ht, accepts_range_date_iff ht h h]
  refine and_congr_right fun _ => ?_
  omega

/-- **A date means a day at the place of now, but for the last date of all.** Of the dates that have
their midnights there, each but the last selects what has it for its local date. A range that does
not end with the last date selects what has a local date of the range, which is what some date of
the range selects. The last date, which has its midnights at the places to the east, and the ranges
that end with it select nothing. A date and the next one have no instant in common, and none between
them unless the next one is the last. -/
theorem accepts_date_iff (ht : issue.get field = .instant t) (now : Moment) :
    (∀ d : Date, d.Bounded now.offset →
      ((equals field (.date d)).accepts now issue = true ↔
        d ≠ lastDate ∧ t.localDate? now.offset = some d)) ∧
    (∀ first last : Date, first.Bounded now.offset → last.Bounded now.offset →
      ((range field (.date first) (.date last)).accepts now issue = true ↔
        last ≠ lastDate ∧ ∃ d, t.localDate? now.offset = some d ∧ first ≤ d ∧ d ≤ last) ∧
      ((range field (.date first) (.date last)).accepts now issue = true ↔
        last ≠ lastDate ∧
          ∃ d, first ≤ d ∧ d ≤ last ∧ (equals field (.date d)).accepts now issue = true)) ∧
    (∀ d next : Date, d.addDays 1 = some next → d.Bounded now.offset → next.Bounded now.offset →
      ¬ ((equals field (.date d)).accepts now issue = true ∧
        (equals field (.date next)).accepts now issue = true) ∧
      (next ≠ lastDate ↔ ∃ day following, d.interval now.offset = some day ∧
        next.interval now.offset = some following ∧ day.stop = following.start)) ∧
    (lastDate.Bounded now.offset ↔ 0 < now.offset) := by
  have hdate : ∀ d : Date, t.localDate? now.offset = some d ↔
      t.localDay now.offset = d.number :=
    fun d => Instant.localDate?_eq_some_iff now.offset_lt
  refine ⟨fun d h => ?_, fun first last hf hl => ⟨?_, ?_⟩, fun d next hnext h hn => ⟨?_, ?_⟩,
    Date.bounded_lastDate_iff now.offset_lt⟩
  · rw [accepts_equals_date_iff ht h, hdate]
  · rw [accepts_range_date_iff ht hf hl, Date.exists_between_iff]
    simp only [hdate]
  · rw [accepts_range_date_iff ht hf hl, Date.exists_between_iff]
    refine and_congr_right fun hend => exists_congr fun d => ?_
    -- A date of the range has its midnights, and like the end of the range it is not the last.
    have hequals : first ≤ d ∧ d ≤ last → ((equals field (.date d)).accepts now issue = true ↔
        t.localDay now.offset = d.number) := by
      intro hd
      have hne : d ≠ lastDate := Date.ne_lastDate_of_le hd.2 hend
      rw [accepts_equals_date_iff ht (hf.of_le hl hd.1 hd.2), and_iff_right hne]
    constructor
    · intro hd
      exact ⟨hd.2.1, hd.2.2, (hequals hd.2).2 hd.1⟩
    · intro hd
      exact ⟨(hequals ⟨hd.1, hd.2.1⟩).1 hd.2.2, hd.1, hd.2.1⟩
  · rw [accepts_equals_date_iff ht h, accepts_equals_date_iff ht hn]
    have hnumber := Date.number_of_addDays hnext
    omega
  · exact (h.exists_following_iff hnext hn now.offset_lt).symm

/-- The middle of the leap second at the end of 1998. -/
def leapSecond : Instant := ⟨915148799, 1500000000, by decide, by decide⟩

/-- An issue created in that leap second. -/
def lateIssue : Issue := { Issue.new [] [] with created := leapSecond }

/-- New Year's Day of 1999. -/
def newYear : Date := ⟨1999, 1, 1, by decide, by decide, by decide⟩

/-- A moment at a place five and a half hours to the east. -/
def eastern : Moment := ⟨.epoch, 19800, by decide, by decide⟩

/-- What is created in the leap second of the old year is created on New Year's Day in the east. -/
theorem accepts_date_iff_leap :
    leapSecond.date ≠ newYear ∧
      (equals .created (.date newYear)).accepts eastern lateIssue = true ∧
      (range .created (.date leapSecond.date) (.date newYear)).accepts eastern lateIssue =
        true := by
  have hcreated : lateIssue.get .created = .instant leapSecond := rfl
  have hbounded : newYear.Bounded eastern.offset ∧ leapSecond.date.Bounded eastern.offset := by
    decide +kernel
  have hinner : newYear ≠ lastDate := by decide
  have hlocal : leapSecond.localDate? eastern.offset = some newYear := by decide +kernel
  obtain ⟨hdate, hrange, -⟩ := accepts_date_iff hcreated eastern
  refine ⟨by decide +kernel, (hdate newYear hbounded.1).2 ⟨hinner, hlocal⟩, ?_⟩
  exact (hrange _ newYear hbounded.2 hbounded.1).1.2
    ⟨hinner, newYear, hlocal, by decide +kernel, by decide +kernel⟩

/-- An issue created ten hours into the last date of universal time. -/
def lastIssue : Issue :=
  { Issue.new [] [] with created := ⟨lastDay * 86400 + 36000, 0, by decide, by decide⟩ }

/-- In the east the last date has its midnights and does not select what has it for its local
date. -/
theorem not_accepts_date_iff_of_lastDate :
    ¬ ∀ (issue : Issue) (field : Field) (t : Instant) (now : Moment) (d : Date),
      issue.get field = .instant t → d.Bounded now.offset →
      ((equals field (.date d)).accepts now issue = true ↔
        t.localDate? now.offset = some d) := by
  intro h
  have hlast := h lastIssue .created lastIssue.created eastOfGreenwich lastDate rfl
    (by decide +kernel)
  revert hlast
  decide +kernel

end Filter
end Triage
