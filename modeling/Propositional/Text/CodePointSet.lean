/-!
# Sets of code points

A property of characters that holds on many separate runs of code points is kept as the increasing
list of the points where it changes: it starts to hold at the first, stops at the second, and so
on.

* `CodePointSet.contains` — a point is inside exactly when an odd number of changes lies at or
  before it.
-/

namespace Propositional

/-- A set of code points, given by the points at which membership changes, in increasing order. -/
structure CodePointSet where
  changes : List Nat

/-- Membership: the number of changes up to the point is odd. -/
def CodePointSet.contains (s : CodePointSet) (n : Nat) : Bool :=
  (s.changes.takeWhile (· ≤ n)).length % 2 == 1

example : (CodePointSet.mk [3, 5, 9]).contains 4 = true := rfl
example : (CodePointSet.mk [3, 5, 9]).contains 5 = false := rfl

end Propositional
