import Triage.Calendar.Date

/-! Instants and the place they are seen from.

An instant is a point of universal time: whole seconds since the start of 1970
and a fraction in nanoseconds. A leap second, which a clock shows as second 60,
continues the fraction of the second 59 before it, so it comes after that second
and before the next minute. A moment is an instant together with the offset of a
place from universal time; the offset decides on which date the moment falls
there (`Moment.localDate`). -/
namespace Triage
open Calendar

/-! ### Instants -/

namespace Calendar

/-- The first second of the calendar. -/
def firstSecond : Int := firstDay * 86400
/-- The last second of the calendar. -/
def lastSecond : Int := lastDay * 86400 + 86399

end Calendar

/-- Whole seconds since the start of 1970 and nanoseconds, `10⁹` of them or more
in the leap second that follows a second 59. -/
structure Instant where
  second : Int
  nano : Nat
  second_mem : firstSecond ≤ second ∧ second ≤ lastSecond
  nano_lt : nano < 1000000000 ∨ nano < 2000000000 ∧ second % 60 = 59
deriving DecidableEq

namespace Instant

/-- The instant of a second and a fraction, if there is one. -/
def of? (second : Int) (nano : Nat) : Option Instant :=
  if h : (firstSecond ≤ second ∧ second ≤ lastSecond) ∧
      (nano < 1000000000 ∨ nano < 2000000000 ∧ second % 60 = 59) then
    some ⟨second, nano, h.1, h.2⟩
  else none

/-- The start of 1970. -/
def epoch : Instant := ⟨0, 0, by decide, by decide⟩

/-- Whether one instant comes before another. -/
def before (a b : Instant) : Bool :=
  a.second < b.second || a.second = b.second && a.nano < b.nano

/-- The order of two instants in time. -/
def compare (a b : Instant) : Ordering :=
  (Ord.compare a.second b.second).then (Ord.compare a.nano b.nano)

/-- A second of the calendar falls on a day of the calendar. -/
theorem day_mem (second : Int) (h : firstSecond ≤ second ∧ second ≤ lastSecond) :
    firstDay ≤ second / 86400 ∧ second / 86400 ≤ lastDay := by
  unfold firstSecond lastSecond at h
  omega

/-- The date of an instant in universal time. -/
def date (instant : Instant) : Date :=
  .ofNumber (instant.second / 86400) (day_mem _ instant.second_mem)

/-- The instant of the whole second in which an instant falls. -/
def wholeSecond (instant : Instant) : Instant :=
  ⟨instant.second, 0, instant.second_mem, .inl (by decide)⟩

/-! ### Arithmetic on instants -/

/-- The instant of a second and nanoseconds that may be fewer than none or make up further seconds,
if there is one. -/
def carry? (second nano : Int) : Option Instant :=
  of? (second + nano / 1000000000) (nano % 1000000000).toNat

/-- The instant a number of nanoseconds later, or earlier if the number is negative, if there is
one. A leap second takes time for the instants in it alone: later seconds are counted on from the
second 59 it belongs to, earlier ones back from the second after it, and less than a second may be
spent inside. -/
def shift? (instant : Instant) (nanos : Int) : Option Instant :=
  let seconds := nanos.tdiv 1000000000
  let nano := instant.nano + nanos.tmod 1000000000
  if instant.nano < 1000000000 then carry? (instant.second + seconds) nano
  else if 0 < seconds ∨ 2000000000 ≤ nano then
    carry? (instant.second + seconds) (nano - 1000000000)
  else if seconds < 0 then carry? (instant.second + 1 + seconds) (nano - 1000000000)
  else of? instant.second nano.toNat

theorem of?_self (instant : Instant) : of? instant.second instant.nano = some instant :=
  dif_pos ⟨instant.second_mem, instant.nano_lt⟩

theorem eq_of_of? {second : Int} {nano : Nat} {instant : Instant}
    (h : of? second nano = some instant) : instant.second = second ∧ instant.nano = nano := by
  unfold of? at h
  split at h
  · exact Option.some.inj h ▸ ⟨rfl, rfl⟩
  · exact absurd h.symm (Option.some_ne_none _)

theorem carry?_zero (second : Int) : carry? second 0 = of? second 0 := by
  simp [carry?]

/-- Without its fraction an instant is the start of its second, also in a leap second. -/
theorem shift?_neg_nano (instant : Instant) :
    instant.shift? (-instant.nano) = some instant.wholeSecond := by
  have hlt := instant.nano_lt
  have hstart : of? instant.second 0 = some instant.wholeSecond := instant.wholeSecond.of?_self
  have hdiv : (-(instant.nano : Int)).tdiv 1000000000 =
      -((instant.nano / 1000000000 : Nat) : Int) := by
    rw [Int.neg_tdiv, Int.tdiv_eq_ediv_of_nonneg (Int.natCast_nonneg _)]
    rfl
  have hmod : (-(instant.nano : Int)).tmod 1000000000 =
      -((instant.nano % 1000000000 : Nat) : Int) := by
    rw [Int.neg_tmod, Int.tmod_eq_emod_of_nonneg (Int.natCast_nonneg _)]
    rfl
  simp only [shift?, hdiv, hmod]
  split
  · next h =>
    rw [show instant.second + -((instant.nano / 1000000000 : Nat) : Int) = instant.second by omega,
      show (instant.nano : Int) + -((instant.nano % 1000000000 : Nat) : Int) = 0 by omega,
      carry?_zero, hstart]
  · next h =>
    -- In a leap second there is a whole second to take away, so it is left from the second after.
    rw [if_neg (by omega), if_pos (by omega),
      show instant.second + 1 + -((instant.nano / 1000000000 : Nat) : Int) = instant.second
        by omega,
      show (instant.nano : Int) + -((instant.nano % 1000000000 : Nat) : Int) - 1000000000 = 0
        by omega,
      carry?_zero, hstart]

/-- The start of a second comes a second before the start of the next one. -/
theorem shift?_wholeSecond (instant : Instant) :
    instant.wholeSecond.shift? 1000000000 = of? (instant.second + 1) 0 :=
  carry?_zero (instant.second + 1)

end Instant

/-! ### Moments -/

/-- An instant and the offset, in seconds to the east, of the place it is seen from. -/
structure Moment where
  instant : Instant
  offset : Int
  offset_lt : -86400 < offset ∧ offset < 86400
  local_mem : firstSecond ≤ instant.second + offset ∧ instant.second + offset ≤ lastSecond
deriving DecidableEq

namespace Moment

/-- The moment of an instant and an offset, if it has a local time. -/
def of? (instant : Instant) (offset : Int) : Option Moment :=
  if h : (-86400 < offset ∧ offset < 86400) ∧
      (firstSecond ≤ instant.second + offset ∧ instant.second + offset ≤ lastSecond) then
    some ⟨instant, offset, h.1, h.2⟩
  else none

/-- An instant seen from a place on universal time. -/
def universal (instant : Instant) : Moment :=
  ⟨instant, 0, by decide, by simpa using instant.second_mem⟩

/-- The date of a moment at its place. -/
def localDate (moment : Moment) : Date :=
  .ofNumber ((moment.instant.second + moment.offset) / 86400)
    (Instant.day_mem _ moment.local_mem)

theorem number_localDate (moment : Moment) :
    moment.localDate.number = (moment.instant.second + moment.offset) / 86400 :=
  Date.number_ofNumber _ _

theorem eq_of_of? {instant : Instant} {offset : Int} {moment : Moment}
    (h : of? instant offset = some moment) :
    moment.instant = instant ∧ moment.offset = offset := by
  unfold of? at h
  split at h
  · exact Option.some.inj h ▸ ⟨rfl, rfl⟩
  · exact absurd h.symm (Option.some_ne_none _)

end Moment

/-- The start of a date at a place with this offset, if universal time has an instant for it. -/
def Date.midnight (date : Date) (offset : Int) : Option Instant :=
  Instant.of? (date.number * 86400 - offset) 0

end Triage
