import Triage.Proofs.Shape
import Triage.Selection

/-! What a query sees of the moment it is run at.

Evaluation asks the moment called now for the intervals of values and for nothing
else, so moments that give the values of a filter the same intervals select the same
issues (`Query.run_eq_of_interval`). A relative date takes the offset and the local
date from now, a calendar date the offset, an instant nothing. Hence a query sees no
time of day, and one without relative dates not even the day
(`Query.run_eq_of_view`). -/
namespace Triage

/-! ### Intervals -/

namespace Value

/-- Whether a value is a date named by where it lies from now. -/
def isRelative : Value → Bool
  | relative _ => true
  | _ => false

/-- Whether a value is a calendar date. -/
def isDate : Value → Bool
  | date _ => true
  | _ => false

variable {v : Value} {now now' : Moment}

theorem interval_of_sameDay (v : Value) (ho : now.offset = now'.offset)
    (hd : now.localDate = now'.localDate) : v.interval now = v.interval now' := by
  cases v with
  | date d => exact congrArg d.interval ho
  | relative r => simp only [interval, RelativeDate.interval, ho, hd]
  | _ => rfl

theorem interval_of_sameOffset (hr : v.isRelative = false) (ho : now.offset = now'.offset) :
    v.interval now = v.interval now' := by
  cases v with
  | date d => exact congrArg d.interval ho
  | relative r => exact Bool.noConfusion hr
  | _ => rfl

theorem interval_of_fixed (hr : v.isRelative = false) (hd : v.isDate = false) :
    v.interval now = v.interval now' := by
  cases v with
  | date d => exact Bool.noConfusion hd
  | relative r => exact Bool.noConfusion hr
  | _ => rfl

end Value

/-! ### Evaluation -/

namespace Content

variable {now now' : Moment}

theorem equals_of_interval {v : Value} (h : v.interval now = v.interval now') (isEnum : Bool)
    (content : Content) : content.equals now isEnum v = content.equals now' isEnum v := by
  cases content with
  | instant t =>
    -- Only null is compared with an instant without its interval.
    cases v with
    | null => rfl
    | _ => exact congrArg (Option.any (·.holds t)) h
  | _ => cases v <;> rfl

theorem between_of_interval {min max : Value} (hmin : min.interval now = min.interval now')
    (hmax : max.interval now = max.interval now') (content : Content) :
    content.between now min max = content.between now' min max := by
  cases content with
  | instant t => simp only [between, hmin, hmax]
  | _ => rfl

end Content

/-- Moments that give the values of a filter the same intervals are not told apart by it. -/
theorem Filter.accepts_of_interval {now now' : Moment} {filter : Filter}
    (h : ∀ operand ∈ filter.operands, operand.2.interval now = operand.2.interval now')
    (issue : Issue) : filter.accepts now issue = filter.accepts now' issue := by
  induction filter with
  | and left right ihl ihr | or left right ihl ihr =>
    have hl := ihl fun operand ho => h operand (List.mem_append_left _ ho)
    have hr := ihr fun operand ho => h operand (List.mem_append_right _ ho)
    rw [accepts, accepts, hl, hr]
  | not child ih => rw [accepts, accepts, ih h]
  | equals field v | has field v =>
    exact Content.equals_of_interval (h _ (List.mem_singleton_self _)) _ _
  | oneOf field vs =>
    have hvs : ∀ v ∈ vs, (issue.get field).equals now field.type.isEnum v =
        (issue.get field).equals now' field.type.isEnum v := by
      intro v hv
      exact Content.equals_of_interval (h (field, v) (List.mem_map_of_mem hv)) _ _
    rw [accepts, accepts, Bool.eq_iff_iff, List.any_eq_true, List.any_eq_true]
    exact exists_congr fun v => and_congr_right fun hv => by rw [hvs v hv]
  | range field min max =>
    exact Content.between_of_interval (h (field, min) (by simp [operands]))
      (h (field, max) (by simp [operands])) _
  | contains field part caseSensitive => rfl

/-! ### Queries -/

namespace Query

/-- The values in the filter of a query, each with the field that it is for. -/
def operands (query : Query) : List (Field × Value) :=
  match query.filter with
  | some filter => filter.operands
  | none => []

variable {query : Query} {now now' : Moment}

theorem keeps_of_interval
    (h : ∀ operand ∈ query.operands, operand.2.interval now = operand.2.interval now')
    (issue : Issue) : query.keeps now issue = query.keeps now' issue := by
  obtain ⟨_ | filter, sort⟩ := query
  · rfl
  · exact Filter.accepts_of_interval h issue

theorem run_eq_of_interval
    (h : ∀ operand ∈ query.operands, operand.2.interval now = operand.2.interval now')
    (issues : List Issue) : query.run now issues = query.run now' issues := by
  have hkeeps : query.keeps now = query.keeps now' := funext (keeps_of_interval h)
  rw [run, run, hkeeps]

/-- **A query sees the offset and the date of now, and no time of day.** It selects the same issues
in the same order at moments with one offset and one local date; at moments with one offset if it
has no relative date; and at any moments if it has no calendar date either. -/
theorem run_eq_of_view (query : Query) (issues : List Issue) (now now' : Moment) :
    (now.offset = now'.offset → now.localDate = now'.localDate →
      query.run now issues = query.run now' issues) ∧
    ((∀ operand ∈ query.operands, operand.2.isRelative = false) → now.offset = now'.offset →
      query.run now issues = query.run now' issues) ∧
    ((∀ operand ∈ query.operands, operand.2.isRelative = false ∧ operand.2.isDate = false) →
      query.run now issues = query.run now' issues) := by
  refine ⟨fun ho hd => ?_, fun hr ho => ?_, fun hf => ?_⟩
  · exact run_eq_of_interval (fun operand _ => operand.2.interval_of_sameDay ho hd) issues
  · exact run_eq_of_interval
      (fun operand h => Value.interval_of_sameOffset (hr operand h) ho) issues
  · exact run_eq_of_interval
      (fun operand h => Value.interval_of_fixed (hf operand h).1 (hf operand h).2) issues

/-- The first second of 13 March 2024 at a place five hours to the east. -/
def dawn : Moment := ⟨⟨1710270000, 0, by decide, by decide⟩, 18000, by decide, by decide⟩

/-- The last second of the same day there, on the next date of universal time. -/
def dusk : Moment := ⟨⟨1710356399, 0, by decide, by decide⟩, 18000, by decide, by decide⟩

/-- The start of 1970 at the same place. -/
def longAgo : Moment := ⟨.epoch, 18000, by decide, by decide⟩

/-- What is due today is the same at both ends of the day, what was created on a given date is the
same at any time, and what was updated at a given instant is the same anywhere. -/
theorem run_eq_of_view_dawn :
    (dawn.instant.date ≠ dusk.instant.date ∧
      dawn.offset = dusk.offset ∧ dawn.localDate = dusk.localDate ∧
      ∀ issues, run ⟨some (.equals .due (.relative .today)), []⟩ dawn issues =
        run ⟨some (.equals .due (.relative .today)), []⟩ dusk issues) ∧
    (dawn.localDate ≠ longAgo.localDate ∧ dawn.offset = longAgo.offset ∧
      ∀ issues, run ⟨some (.not (.equals .created (.date dawn.localDate))), []⟩ dawn issues =
        run ⟨some (.not (.equals .created (.date dawn.localDate))), []⟩ longAgo issues) ∧
    (dawn.offset ≠ (Moment.universal .epoch).offset ∧
      ∀ issues, run ⟨some (.equals .updated (.instant .epoch)), []⟩ dawn issues =
        run ⟨some (.equals .updated (.instant .epoch)), []⟩ (.universal .epoch) issues) := by
  have hday : dawn.localDate = dusk.localDate := by decide +kernel
  refine ⟨⟨by decide +kernel, rfl, hday, fun issues => ?_⟩,
    ⟨by decide +kernel, rfl, fun issues => ?_⟩, ⟨by decide, fun issues => ?_⟩⟩
  · exact (run_eq_of_view _ issues dawn dusk).1 rfl hday
  · refine (run_eq_of_view _ issues dawn longAgo).2.1 ?_ rfl
    intro operand ho
    rw [List.mem_singleton.1 ho]
    rfl
  · refine (run_eq_of_view _ issues dawn (.universal .epoch)).2.2 ?_
    intro operand ho
    rw [List.mem_singleton.1 ho]
    exact ⟨rfl, rfl⟩

end Query
end Triage
