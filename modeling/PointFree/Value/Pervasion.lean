import PointFree.ShapedArray.Views

/-!
Contract: scalar functions carried through nested arrays.

`mapLeaves` applies a function to every value that is no array. `zipLeaves`
applies one to every pair of such values that meet when two arrays are aligned,
and when the elements that meet are aligned in turn. Both read the elements as
they go and return arrays whose elements are all settled, or the first failure
in row-major order.
-/

namespace PointFree

variable {H : Type}

/-- An array of a given shape whose elements are computed one after another. -/
def computed (shape : Shape) (item : Nat → Action H Value) : Action H Value := do
  let size ← ShapedArray.measure shape
  let items ← collect item size
  return .array (.ofView .owned shape none (ShapedArray.stored items))

mutual

/-- The rule applied to each leaf. What a pending element turns out to be is left
to `later`. -/
def Value.mapLeavesThrough (rule : Value → Outcome Value) (later : Value → Action H Value) :
    Value → Action H Value
  | .array items => items.mapLeavesThrough rule later
  | leaf => rule leaf
termination_by structural value => value

/-- The elements come first: the shape is measured once they are there. -/
def ShapedArray.mapLeavesThrough (rule : Value → Outcome Value) (later : Value → Action H Value) :
    ShapedArray → Action H Value
  | .mk _ shape _ element => do
      let items ← collect (fun index => (element index).mapLeavesThrough rule later) shape.size
      let result ← ShapedArray.new shape items
      return .array result
termination_by structural array => array

def Element.mapLeavesThrough (rule : Value → Outcome Value) (later : Value → Action H Value) :
    Element → Action H Value
  | .value content => content.mapLeavesThrough rule later
  | pending => do
      let content ← pending.force
      later content
termination_by structural element => element

end

def Value.mapLeaves (rule : Value → Outcome Value) (value : Value) : Action H Value :=
  Action.rounds (Value.mapLeavesThrough rule) callBudget value

mutual

/-- One scalar against every leaf of the other operand. What a pending element
turns out to be is left to `later`. -/
def Value.againstLeavesThrough (rule : Value → Outcome Value) (later : Value → Action H Value) :
    Value → Action H Value
  | .array items => items.againstLeavesThrough rule later
  | leaf => rule leaf
termination_by structural value => value

def ShapedArray.againstLeavesThrough (rule : Value → Outcome Value)
    (later : Value → Action H Value) : ShapedArray → Action H Value
  | .mk _ shape _ element =>
      computed shape fun index => (element index).againstLeavesThrough rule later
termination_by structural array => array

def Element.againstLeavesThrough (rule : Value → Outcome Value) (later : Value → Action H Value) :
    Element → Action H Value
  | .value content => content.againstLeavesThrough rule later
  | pending => do
      let content ← pending.force
      later content
termination_by structural element => element

end

mutual

/-- The rule applied to each pair of leaves that meet. What a pending element on
the left turns out to be is left to `later`, together with its partner. -/
def Value.zipLeavesThrough (rule : Value → Value → Outcome Value)
    (later : Value × Value → Action H Value) : Value → Value → Action H Value
  | .array items, right => items.zipLeavesThrough rule later right
  | leaf, right => right.againstLeavesThrough (rule leaf) fun found => later (leaf, found)
termination_by structural left => left

def ShapedArray.zipLeavesThrough (rule : Value → Value → Outcome Value)
    (later : Value × Value → Action H Value) : ShapedArray → Value → Action H Value
  | .mk _ shape _ element, .array others => do
      let aligned ← ShapedArray.alignShapes shape others.shape
      computed aligned fun index =>
        (element (index % shape.size)).zipLeavesThrough rule later
          (others.element (index % others.count))
  | .mk _ shape _ element, right =>
      computed shape fun index => (element index).zipLeavesThrough rule later (.value right)
termination_by structural left => left

def Element.zipLeavesThrough (rule : Value → Value → Outcome Value)
    (later : Value × Value → Action H Value) : Element → Element → Action H Value
  | .value left, right => do
      let other ← right.force
      left.zipLeavesThrough rule later other
  | pending, right => do
      let left ← pending.force
      let other ← right.force
      later (left, other)
termination_by structural left => left

end

def Value.zipLeaves (rule : Value → Value → Outcome Value) (left right : Value) : Action H Value :=
  Action.rounds (fun later pair => pair.1.zipLeavesThrough rule later pair.2) callBudget
    (left, right)

end PointFree
