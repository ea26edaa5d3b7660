import Std.Data.TreeMap

/-!
# Tallies

A tally counts by name. It lists its counters in the order of their names; a counter that was never
touched counts zero and is not listed.
-/

namespace Refute

/-- Named counters. -/
structure Tally where
  /-- The counters by name. -/
  counters : Std.TreeMap String Nat

namespace Tally

/-- The tally that counts nothing. -/
def empty : Tally := ⟨∅⟩

/-- The value of a counter that was touched. -/
def get? (tally : Tally) (name : String) : Option Nat := tally.counters[name]?

/-- The value of a counter, zero if it was never touched. -/
def count (tally : Tally) (name : String) : Nat := (tally.get? name).getD 0

/-- Gives a counter a value. -/
def set (tally : Tally) (name : String) (value : Nat) : Tally :=
  ⟨tally.counters.insert name value⟩

/-- Adds to a counter. -/
def add (tally : Tally) (name : String) (amount : Nat) : Tally :=
  tally.set name (tally.count name + amount)

/-- Forgets a counter. -/
def reset (tally : Tally) (name : String) : Tally := ⟨tally.counters.erase name⟩

/-- The counters in the order of their names. -/
def toList (tally : Tally) : List (String × Nat) := tally.counters.toList

/-- A tally is printed as its counters with commas between them. -/
def render (tally : Tally) : String :=
  ", ".intercalate (tally.toList.map fun (name, value) => name ++ "=" ++ toString value)

end Tally

end Refute
