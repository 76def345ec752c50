import Triage.Issue
import Triage.Query

/-! The order of issues under sort keys.

Integers are ordered by value, times by when they come, texts by the code points
of their characters in lower case, and lists by their first item that differs.
What is absent comes after everything else in ascending order. The first key that
tells two issues apart decides. -/
namespace Triage

namespace Content

/-- The order of two contents of the same field. -/
def compare : Content → Content → Ordering
  | absent, absent => .eq
  | absent, _ => .gt
  | _, absent => .lt
  | integer n, integer m => Ord.compare n.toInt m.toInt
  | instant t, instant u => t.compare u
  | text a, text b => Ord.compare a.fold b.fold
  | list as, list bs => Ord.compare (as.map Text.fold) (bs.map Text.fold)
  | _, _ => .eq

end Content

/-- An order, or its reverse for the descending direction. -/
def Direction.apply : Direction → Ordering → Ordering
  | asc, o => o
  | desc, o => o.swap

/-- The order of two issues under one key. -/
def SortKey.compare (key : SortKey) (a b : Issue) : Ordering :=
  key.direction.apply ((a.get key.field).compare (b.get key.field))

namespace Issue

/-- The order of two issues under some keys, the first of which counts most. -/
def compareBy : List SortKey → Issue → Issue → Ordering
  | [], _, _ => .eq
  | key :: more, a, b => (key.compare a b).then (compareBy more a b)

/-- Issues in the order of some keys; those that no key tells apart keep their order. -/
def sortBy (keys : List SortKey) (issues : List Issue) : List Issue :=
  issues.mergeSort fun a b => (compareBy keys a b).isLE

end Issue
end Triage
