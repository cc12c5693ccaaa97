import PointFree.ShapedArray.Reading

/-!
Contract: how far arrays are nested in a value.

What is no array has depth zero, and an array is one deeper than the deepest of
its elements.
-/

namespace PointFree

variable {H : Type}

mutual

/-- The depth of a value. What a pending element turns out to be is left to
`later`. -/
def Value.depthThrough (later : Value → Action H Nat) : Value → Action H Nat
  | .array items => items.depthThrough later
  | _ => return 0
termination_by structural value => value

def ShapedArray.depthThrough (later : Value → Action H Nat) : ShapedArray → Action H Nat
  | .mk _ shape _ element => do
      let depths ← collect (fun index => (element index).depthThrough later) shape.size
      return depths.foldl max 0 + 1
termination_by structural array => array

def Element.depthThrough (later : Value → Action H Nat) : Element → Action H Nat
  | .value content => content.depthThrough later
  | pending => do
      let content ← pending.force
      later content
termination_by structural element => element

end

def Value.depth (value : Value) : Action H Nat :=
  Action.rounds Value.depthThrough callBudget value

end PointFree
