import Triage.Command.Filter
import Triage.Proofs.Order
import Triage.Proofs.Readers
import Triage.Proofs.Records

/-! Filtering what has been filtered.

What a query selects passes its filter and stands in the order of its keys, so the
query selects it again as it is (`Query.run_run`). As JSON it is read back as the
same issues, so the output of the filter command is input for it, and gives the
same output once more (`Command.filter_again`). -/
namespace Triage

namespace Query

/-- Issues that pass the filter of a query and stand in its order are selected as they are. -/
theorem run_eq_self {query : Query} {now : Moment} {issues : List Issue}
    (hkept : ∀ issue ∈ issues, query.keeps now issue = true)
    (hordered : issues.Pairwise fun a b => (Issue.compareBy query.sort a b).isLE = true) :
    query.run now issues = issues := by
  rw [run, List.filter_eq_self.2 hkept]
  exact List.mergeSort_of_pairwise hordered

/-- A query selects again what it has selected, in the same order. -/
theorem run_run (query : Query) (now : Moment) (issues : List Issue) :
    query.run now (query.run now issues) = query.run now issues := by
  refine run_eq_self (fun issue h => ?_) (Issue.pairwise_sortBy query.sort _)
  exact (List.mem_filter.1 (List.mem_mergeSort.1 h)).2

end Query

namespace Command

/-- Issues that are printed as JSON are read back. -/
theorem readIssues_print (pretty : Bool) (issues : List Issue) :
    readIssues (print .json pretty issues) = .ok issues := by
  cases pretty with
  | false =>
    show (Issue.readAll (Issue.compactJson issues)).mapError _ = _
    rw [Issue.readAll_compactJson]
    rfl
  | true =>
    show (Issue.readAll (Issue.prettyJson issues)).mapError _ = _
    rw [Issue.readAll_prettyJson]
    rfl

/-- What a request with a moment of its own comes to, whatever the clock says. -/
theorem filter_eq_ok_iff {clock : Moment} {request : FilterRequest} {nowText out : Text}
    (hnow : request.now = some nowText) :
    filter clock request = .ok out ↔
      ∃ query input issues now,
        queryWithDefault request.query request.defaultSort = .ok query ∧
        request.input = some input ∧ readIssues input = .ok issues ∧
        Moment.read? nowText = some now ∧
        print request.format request.pretty (query.run now issues) = out := by
  unfold filter
  rw [hnow]
  cases queryWithDefault request.query request.defaultSort with
  | error e => simp [bind, Except.bind]
  | ok query =>
    cases request.input with
    | none => simp [bind, Except.bind, throw, throwThe, MonadExceptOf.throw]
    | some input =>
      cases hread : readIssues input with
      | error e => simp [bind, Except.bind, hread]
      | ok issues =>
        cases hmoment : Moment.read? nowText <;>
          simp [bind, Except.bind, pure, Except.pure, throw, throwThe, MonadExceptOf.throw, hread,
            hmoment]

/-- **What the filter command prints as JSON is input for it again.** It is read as the very issues
that the query selected, in the order of the result, and the same request on it prints it once
more, character for character and whatever the clock says. -/
theorem filter_again {clock : Moment} {request : FilterRequest} {nowText out : Text}
    (hformat : request.format = .json) (hnow : request.now = some nowText)
    (h : filter clock request = .ok out) :
    (∃ query input issues now,
        queryWithDefault request.query request.defaultSort = .ok query ∧
        request.input = some input ∧ readIssues input = .ok issues ∧
        Moment.read? nowText = some now ∧ readIssues out = .ok (query.run now issues)) ∧
      ∀ later, filter later { request with input := some out } = .ok out := by
  obtain ⟨query, input, issues, now, hquery, hinput, hissues, hmoment, rfl⟩ :=
    (filter_eq_ok_iff hnow).1 h
  have hread : readIssues (print request.format request.pretty (query.run now issues)) =
      .ok (query.run now issues) := by
    rw [hformat]
    exact readIssues_print request.pretty (query.run now issues)
  refine ⟨⟨query, input, issues, now, hquery, hinput, hissues, hmoment, hread⟩, fun later => ?_⟩
  refine (filter_eq_ok_iff ?_).2 ⟨query, _, _, now, hquery, rfl, hread, hmoment, ?_⟩
  · exact hnow
  · rw [query.run_run]

/-- A record that leaves out what has a default, writes a title with an escape, and has times in
a leap second and in a year of five digits. -/
def sparseRecord : Text :=
  "\x7b\"id\":\"é\",\"title\":\"\\u00e9\",\"createdAt\":\"2015-06-30T23:59:60Z\",".toList ++
    "\"updatedAt\":\"+12024-1-1 0:0:0Z\"\x7d".toList

/-- The issue of that record. -/
def sparseIssue : Issue :=
  { Issue.new "é".toList "é".toList with
    priority := 0
    created := ⟨1435708799, 1000000000, by decide, by decide⟩
    updated := ⟨317273587200, 0, by decide, by decide⟩ }

/-- A request for open issues in the record. -/
def sparseRequest : FilterRequest :=
  ⟨"status:open sort by: title".toList, some sparseRecord, .json, false,
    some "2024-03-13T15:30:00Z".toList, none⟩

/-- A record on a line is printed in full in an array, and the array is printed again as it is. -/
theorem filter_again_sparse :
    filter (.universal .epoch) sparseRequest = .ok (Issue.compactJson [sparseIssue]) ∧
      readIssues (Issue.compactJson [sparseIssue]) = .ok [sparseIssue] ∧
      ∀ later, filter later { sparseRequest with input := some (Issue.compactJson [sparseIssue]) } =
        .ok (Issue.compactJson [sparseIssue]) := by
  have hquery : queryWithDefault sparseRequest.query none =
      .ok ⟨some (.equals .status (.text "open".toList)), [⟨.title, .asc⟩]⟩ := by
    apply eq_ok_of_toOption
    decide +kernel
  have hread : readIssues sparseRecord = .ok [sparseIssue] := by
    apply eq_ok_of_toOption
    decide +kernel
  have hnow : Moment.read? "2024-03-13T15:30:00Z".toList =
      some (.universal ⟨1710343800, 0, by decide, by decide⟩) := rfl
  have h : filter (.universal .epoch) sparseRequest = .ok (Issue.compactJson [sparseIssue]) := by
    refine (filter_eq_ok_iff rfl).2 ⟨_, sparseRecord, _, _, hquery, rfl, hread, hnow, ?_⟩
    rw [Query.run_eq_self (by decide +kernel) (List.pairwise_singleton _ _)]
    rfl
  exact ⟨h, readIssues_print false [sparseIssue], (filter_again rfl rfl h).2⟩

end Command
end Triage
