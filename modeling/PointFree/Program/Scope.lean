import PointFree.Failure

/-!
Contract: which variable a name means.

A scope lists the names of a block in the order of their slots. A name means
the nearest variable of that name: the number of scopes to go out, and the slot
there.
-/

namespace PointFree

/-- Number of slots at the start of every frame: the function itself, its right
argument and its left one. -/
def reservedSlots : Nat := 3

abbrev Scope := List String

namespace Scope

def slot? (scope : Scope) (name : String) : Option Nat :=
  (scope.idxOf? name).map (· + reservedSlots)

def frameSize (scope : Scope) : Nat :=
  scope.length + reservedSlots

def declare (scope : Scope) (name : String) : Outcome Scope :=
  if name ∈ scope then refuse (.alreadyDefined name) else .ok (scope ++ [name])

/-- Declares names one after another. -/
def declareAll (scope : Scope) (names : List String) : Outcome Scope :=
  names.foldlM declare scope

/-- The names with their slots. -/
def addresses (scope : Scope) : List (String × Nat) :=
  scope.zipIdx.map fun entry => (entry.1, entry.2 + reservedSlots)

/-- The nearest variable of a name; the innermost scope comes first. -/
def resolve? (name : String) : List Scope → Option (Nat × Nat)
  | [] => none
  | scope :: outer =>
      match scope.slot? name with
      | some slot => some (0, slot)
      | none => (resolve? name outer).map fun address => (address.1 + 1, address.2)

end Scope

end PointFree
