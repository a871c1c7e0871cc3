/-!
Sets of code points. A set is held as the sorted list of the points where membership changes, so a
point belongs to it exactly when an odd number of them lie at or below it.
-/
namespace PageSpec.Text

/-- A set of code points, given by its ascending change points; it starts outside. -/
structure CodeSet where
  ofBounds ::
  bounds : List Nat
  deriving Repr

/-- Membership: an odd number of changes has happened at or below the point. -/
def CodeSet.has (s : CodeSet) (c : Char) : Bool :=
  (s.bounds.takeWhile (· ≤ c.toNat)).length % 2 == 1

end PageSpec.Text
