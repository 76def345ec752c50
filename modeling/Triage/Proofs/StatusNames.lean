import Triage.Proofs.Records
import Triage.Selection.Match

/-! Names of a status in queries and in records.

A record names a status by a text that, folded, is the name of the status; a query
compares the text with the name, both folded. The names are written as they fold, and
no two are alike, so the two agree: a text selects the issues of the status that it
names in a record, and no issue if it names none (`Filter.accepts_status_iff_named`). -/
namespace Triage

/-! ### Names -/

namespace Status

theorem mem_all (status : Status) : status ∈ all := by cases status <;> decide

/-- Names are written as they fold. -/
theorem foldName_name (status : Status) : foldName status.name = status.name := by
  cases status <;> decide

theorem name_inj {a b : Status} : a.name = b.name ↔ a = b := by
  refine ⟨fun h => ?_, congrArg name⟩
  cases a <;> cases b <;> first | rfl | exact absurd h (by decide)

/-- A text names the status whose name it folds to. -/
theorem ofName?_eq_some_iff {text : Text} {status : Status} :
    ofName? text = some status ↔ foldName text = status.name := by
  constructor
  · intro h
    have hname : status.name = foldName text := by simpa using List.find?_some h
    exact hname.symm
  · intro h
    cases hf : ofName? text with
    | none => simpa [h] using List.find?_eq_none.1 hf status status.mem_all
    | some other =>
      have hname : other.name = foldName text := by simpa using List.find?_some hf
      rw [name_inj.1 (hname.trans h)]

/-- A text is taken for the name of a status exactly if it names the status. -/
theorem same_name_iff {text : Text} {status : Status} :
    Text.same true status.name text = true ↔ ofName? text = some status := by
  rw [Text.same, if_pos rfl, decide_eq_true_iff, foldName_name, ofName?_eq_some_iff, eq_comm]

end Status

/-! ### Records -/

namespace Issue

/-- A record that has a status is read with this status. -/
theorem readStatus?_of_ofMembers? {members : List (Text × Json)} {issue : Issue} {json : Json}
    (hmember : find? members "status" = some json) (h : ofMembers? members = some issue) :
    readStatus? json = some issue.status := by
  -- three parts come before the status, and fourteen behind it
  iterate 3 obtain ⟨_, -, h⟩ := Option.bind_eq_some_iff.1 h
  obtain ⟨status, hstatus, h⟩ := Option.bind_eq_some_iff.1 h
  iterate 14 obtain ⟨_, -, h⟩ := Option.bind_eq_some_iff.1 h
  obtain rfl := Option.some.inj h
  rwa [withDefault?, hmember] at hstatus

end Issue

/-! ### Queries -/

namespace Filter

theorem accepts_status_iff {now : Moment} {issue : Issue} {text : Text} :
    (equals .status (.text text)).accepts now issue = true ↔
      Status.ofName? text = some issue.status :=
  Status.same_name_iff

/-- **A status is spelled the same way in queries and in records.** A text, as the value of the
status in a query, selects the issues of the status that it names in a record, whoever asks and
when. So it selects the issue of every record that has it for a status, it never selects issues of
two statuses, and a text that is refused in records selects no issue. -/
theorem accepts_status_iff_named (text : Text) :
    (∀ now issue, (equals .status (.text text)).accepts now issue = true ↔
        Status.ofName? text = some issue.status) ∧
      (∀ members issue, Issue.find? members "status" = some (Issue.jsonText text) →
        Issue.ofMembers? members = some issue →
        ∀ now, (equals .status (.text text)).accepts now issue = true) ∧
      (∀ now later a b, (equals .status (.text text)).accepts now a = true →
        (equals .status (.text text)).accepts later b = true → a.status = b.status) ∧
      (Status.ofName? text = none →
        (∀ members, Issue.find? members "status" = some (Issue.jsonText text) →
          Issue.ofMembers? members = none) ∧
        ∀ now issue, (equals .status (.text text)).accepts now issue = false) := by
  refine ⟨fun now issue => accepts_status_iff, fun members issue hmember hread now => ?_,
    fun now later a b ha hb => ?_, fun hnone => ⟨fun members hmember => ?_, fun now issue => ?_⟩⟩
  · rw [accepts_status_iff, ← Issue.readStatus?_jsonText]
    exact Issue.readStatus?_of_ofMembers? hmember hread
  · have hstatus := (accepts_status_iff.1 ha).symm.trans (accepts_status_iff.1 hb)
    exact Option.some.inj hstatus
  · refine Option.eq_none_iff_forall_ne_some.2 fun issue hread => ?_
    have hstatus := Issue.readStatus?_of_ofMembers? hmember hread
    rw [Issue.readStatus?_jsonText, hnone] at hstatus
    exact absurd hstatus.symm (Option.some_ne_none _)
  · rw [← Bool.not_eq_true, accepts_status_iff, hnone]
    exact (Option.some_ne_none _).symm

end Filter

/-- The sign of the Kelvin folds to a letter, so it spells one in either place. -/
example : Status.ofName? "bloc\u212Aed".toList = some .blocked := by decide +kernel

end Triage
