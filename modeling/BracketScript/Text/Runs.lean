/-!
# Runs of numbers

A set of numbers, such as the code points with some property, as a list of runs: the first and the
last number of each, in order and apart from each other.
-/

namespace BracketScript.Text

/-- The number is in one of the runs. The runs are in order, so none behind one that starts later
needs to be looked at. -/
def inRuns : List (Nat × Nat) → Nat → Bool
  | [], _ => false
  | (first, last) :: runs, n => first ≤ n && (n ≤ last || inRuns runs n)

end BracketScript.Text
