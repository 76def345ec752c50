/-! Sets of characters given by their edges.

A set of code points is written as the ascending list of its edges: the first
number belongs to the set, the second is the first one after it that does not,
and so on in turn, so that a code point is in the set exactly when an odd number
of edges lie at or below it. -/
namespace Triage.Edges

/-- Whether a code point lies in the set with these edges. -/
def within : List Nat → Nat → Bool
  | [], _ => false
  | edge :: more, n => edge ≤ n && !within more n

/-- Whether a character lies in the set with these edges. -/
def holds (edges : List Nat) (c : Char) : Bool := within edges c.toNat

end Triage.Edges
