/-!
# Intervals of code points

A class of characters above ASCII is a list of closed intervals of code points.
-/

namespace Refute.Text

/-- A closed interval of code points, its first and its last member. -/
abbrev Range := Nat × Nat

namespace Range

/-- The code point lies in the interval. -/
def holds (range : Range) (code : Nat) : Bool :=
  range.1 ≤ code && code ≤ range.2

/-- The code point lies in one of the intervals. -/
def covers (ranges : List Range) (code : Nat) : Bool :=
  ranges.any (·.holds code)

/-- An interval holds exactly the code points between its ends. -/
theorem holds_iff (range : Range) (code : Nat) :
    range.holds code = true ↔ range.1 ≤ code ∧ code ≤ range.2 := by
  simp [holds]

end Range

end Refute.Text
