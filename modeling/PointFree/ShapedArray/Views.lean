import PointFree.ShapedArray.Reading

/-!
Contract: arrays made from other arrays without copying an element.

A slice fixes leading axes or takes a run of cells, a gather reads its parent
through an array of indices, a reshape repeats its parent under a new shape,
and a zip combines two parents under the alignment of their shapes. Each checks
its arguments when it is made, and reads its parents when it is read; a gather
also reads its indices when it is made.
-/

namespace PointFree.ShapedArray

variable {H : Type}

/-- Size of a shape that an array may have. -/
def measure (shape : Shape) : Outcome Nat :=
  match shape.measured? with
  | some size => .ok size
  | none => refuse (.shapeTooLarge shape)

/-- An array of a shape that is checked first. -/
def build (view : View) (shape : Shape) (fill : Option Value) (element : Nat → Element) :
    Outcome ShapedArray :=
  (measure shape).map fun _ => ofView view shape fill element

/-- Elements laid out row-major under a shape that must hold exactly as many. -/
def filled (shape : Shape) (elements : Array Value) (fill : Option Value) :
    Outcome ShapedArray :=
  (measure shape).bind fun size =>
    if size = elements.size then .ok (ofView .owned shape fill (stored elements))
    else refuse (.elementCount shape size elements.size)

def new (shape : Shape) (elements : Array Value) : Outcome ShapedArray :=
  filled shape elements none

/-- The cells from `start` on, `extent` of them. -/
def slice (array : ShapedArray) (start extent : Nat) : Outcome ShapedArray :=
  if array.rank = 0 then refuse .scalarSlice
  else if array.length < start + extent then
    refuse (.cellsPastLength start (start + extent) array.length)
  else if extent = array.length then .ok array
  else
    let offset := start * array.shape.cellSize
    build .slice (extent :: array.shape.tail) array.fill
      fun index => array.elementAt (offset + index)

/-- Row-major offset of the cell at a position along the leading axes. -/
def offsetFrom : (axis : Nat) → Shape → (position : List Nat) → Outcome Nat
  | axis, size :: rest, index :: position =>
      if size ≤ index then refuse (.indexPastAxis index axis size)
      else (offsetFrom (axis + 1) rest position).map (index * Shape.size rest + ·)
  | _, _, _ => .ok 0

/-- The cell found by fixing the leading axes. -/
def selectRank (array : ShapedArray) (position : List Nat) : Outcome ShapedArray :=
  if array.rank < position.length then refuse (.tooManyAxes position.length array.rank)
  else
    (offsetFrom 0 array.shape position).bind fun offset =>
      build .slice (array.shape.drop position.length) array.fill
        fun index => array.elementAt (offset + index)

def sliceCell (array : ShapedArray) (index : Nat) : Outcome ShapedArray :=
  array.selectRank [index]

/-- The element that an index names. -/
def elementNamed (array : ShapedArray) : (index : Element) → Element
  | .value named =>
      match named.toPlace array.count with
      | .ok place => array.element place
      | .error reason => .failure reason
  | .failure reason => .failure reason
  | pending => .selected pending array.count array.element

/-- Every index is read and checked before the view is made. -/
def gather (array indices : ShapedArray) : Action H ShapedArray := do
  let checkIndex (index : Nat) : Action H Nat := do
    let named ← indices.pick index
    named.toPlace array.count
  let _ ← collect checkIndex indices.count
  build .gather indices.shape array.fill
    fun index => array.elementNamed (indices.elementAt index)

/-- The elements in order, and again from the first when they run out. -/
def reshape (array : ShapedArray) (shape : Shape) : Outcome ShapedArray :=
  (measure shape).bind fun size =>
    if size = 0 then .ok nil
    else if array.isEmpty then refuse .reshapeOfEmpty
    else if shape = array.shape then .ok array
    else
      .ok (ofView .reshape shape array.fill
        fun index => array.elementAt (index % array.count))

def alignShapes (left right : Shape) : Outcome Shape :=
  match Shape.aligned? left right with
  | some shape => .ok shape
  | none => refuse (.misaligned left right)

/-- The shorter operand is repeated across the cells of the longer one. -/
def zip (left right : ShapedArray) (function : Function) : Outcome ShapedArray :=
  (alignShapes left.shape right.shape).bind fun shape =>
    build .zip shape none fun index =>
      .combined function (left.elementAt (index % left.count))
        (right.elementAt (index % right.count))

/-- An axis of at least one cell. -/
def axisOfNumber (number : Float) : Outcome Nat :=
  match Decimal.toInt? number with
  | none => refuse (.fractionalDimension number)
  | some whole =>
      if whole < 1 then refuse (.dimensionBelowOne number) else .ok (min whole.toNat indexMax)

/-- The shape that numbers name, with its size. -/
def shapeOfNumbers (numbers : List Float) : Outcome (Shape × Nat) := do
  let shape ← numbers.mapM axisOfNumber
  let size ← measure shape
  return (shape, size)

end PointFree.ShapedArray
