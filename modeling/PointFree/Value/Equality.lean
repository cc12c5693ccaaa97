import PointFree.ShapedArray.Reading

/-!
Contract: equality of values.

Numbers are equal as numbers, so that a NaN equals nothing, and functions are
equal when they are the same function. Arrays are equal when their shapes are
and their elements are, pair by pair, up to the first pair that differs; how
they came about and what they are filled with does not count, and an element
that cannot be computed equals nothing.
-/

namespace PointFree

variable {H : Type}

/-- Made at the same moment. -/
def Function.same : Function → Function → Bool
  | .mk left _, .mk right _ => left == right

/-- Equality of values that are no arrays. -/
def Value.sameLeaf : Value → Value → Bool
  | .number left, .number right => left == right
  | .character left, .character right => left == right
  | .function left, .function right => left.same right
  | _, _ => false

mutual

/-- Equality of two values. What a pending element on the left turns out to be
is left to `later`, together with its partner. -/
def Value.sameThrough (later : Value × Value → Action H Bool) : Value → Value → Action H Bool
  | .array left, .array right => left.sameThrough later right
  | left, right => return left.sameLeaf right
termination_by structural left => left

def ShapedArray.sameThrough (later : Value × Value → Action H Bool) :
    ShapedArray → ShapedArray → Action H Bool
  | .mk _ shape _ element, right =>
      if shape = right.shape then
        every (fun index => (element index).sameThrough later (right.element index)) shape.size
      else return false
termination_by structural left => left

/-- Both elements are read, whatever the first turns out to be. -/
def Element.sameThrough (later : Value × Value → Action H Bool) : Element → Element → Action H Bool
  | .value left, right => do
      match ← Action.attempt right.force with
      | .ok other => left.sameThrough later other
      | .error _ => return false
  | pending, right => do
      let left ← Action.attempt pending.force
      let right ← Action.attempt right.force
      match left, right with
      | .ok first, .ok second => later (first, second)
      | _, _ => return false
termination_by structural left => left

end

def Value.same (left right : Value) : Action H Bool :=
  Action.rounds (fun later pair => pair.1.sameThrough later pair.2) callBudget (left, right)

end PointFree
