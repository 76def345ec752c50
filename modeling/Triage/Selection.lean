import Triage.Selection.Match
import Triage.Selection.Order

/-! Running a query: the issues that pass its filter, in the order of its sort keys. -/
namespace Triage.Query

/-- Whether an issue passes the filter of a query. -/
def keeps (query : Query) (now : Moment) (issue : Issue) : Bool :=
  match query.filter with
  | some filter => filter.accepts now issue
  | none => true

/-- The issues that a query selects, seen from `now`. -/
def run (query : Query) (now : Moment) (issues : List Issue) : List Issue :=
  Issue.sortBy query.sort (issues.filter (query.keeps now))

end Triage.Query
