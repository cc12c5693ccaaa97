import PointFree.Run
import PointFree.Value.Measure

/-!
Contract: reading the elements of arrays.

A settled element is there at once. A pending one is computed whenever it is
read: the elements it is made of are read first, the left one before the right
one, and then its function is called.
-/

namespace PointFree

variable {H : Type}

def Element.force : Element → Action H Value
  | .value found => return found
  | .failure reason => throw reason
  | .combined function left right => do
      let first ← left.force
      let second ← right.force
      Action.call function second (some first)
  | .selected index count parent => do
      let named ← index.force
      let place ← named.toPlace count
      (parent place).force
termination_by structural element => element

/-- The outcome of an element that is settled. -/
def Element.settled? : Element → Option (Outcome Value)
  | .value found => some (.ok found)
  | .failure reason => some (.error reason)
  | _ => none

theorem Element.force_of_settled {element : Element} {outcome : Outcome Value}
    (settled : element.settled? = some outcome) :
    (element.force : Action H Value) = Action.ofOutcome outcome := by
  cases element with
  | value found =>
      cases settled
      rfl
  | failure reason =>
      cases settled
      rfl
  | combined function left right => cases settled
  | selected index count parent => cases settled

namespace ShapedArray

/-- The value at a row-major index. -/
def pick (array : ShapedArray) (index : Nat) : Action H Value :=
  (array.elementAt index).force

theorem pick_ofView (view : View) (shape : Shape) (fill : Option Value)
    (element : Nat → Element) (index : Nat) (inside : index < shape.size) :
    ((ofView view shape fill element).pick index : Action H Value) = (element index).force :=
  congrArg Element.force (elementAt_ofView view shape fill element index inside)

theorem pick_of_lt {array : ShapedArray} {index : Nat} (inside : index < array.count) :
    (array.pick index : Action H Value) = (array.element index).force := by
  rw [pick, elementAt, if_pos inside]

theorem pick_of_count_le (array : ShapedArray) (index : Nat) (outside : array.count ≤ index) :
    (array.pick index : Action H Value) = Action.refuse (.indexPastCount index array.count) := by
  rw [pick, elementAt, if_neg (by omega)]
  rfl

/-- All values in row-major order. -/
def elements (array : ShapedArray) : Action H (Array Value) :=
  collect array.pick array.count

end ShapedArray

/-- A cell of rank zero is its element. -/
def Value.ofCell (cell : ShapedArray) : Action H Value :=
  if cell.rank = 0 then cell.pick 0 else return .array cell

end PointFree
