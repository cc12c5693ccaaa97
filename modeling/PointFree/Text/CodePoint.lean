/-!
Contract: sets of code points, written as the ranges and runs a character
database lists them in.

A range is its first and last member. A run is its first and last member and
the step between members, so that an alphabet whose capitals and small letters
alternate takes one entry.
-/

namespace PointFree.Text

abbrev Range := Nat × Nat

/-- First member, last member, step. -/
abbrev Run := Nat × Nat × Nat

def Range.holds (range : Range) (code : Nat) : Bool :=
  range.1 ≤ code && code ≤ range.2

def Run.holds (run : Run) (code : Nat) : Bool :=
  run.1 ≤ code && code ≤ run.2.1 && (code - run.1) % run.2.2 == 0

def inRanges (ranges : List Range) (code : Nat) : Bool :=
  ranges.any fun range => range.holds code

def inRuns (runs : List Run) (code : Nat) : Bool :=
  runs.any fun run => run.holds code

end PointFree.Text
