import PointFree.Failure
import PointFree.Primitive

/-!
Contract: values.

Numbers, characters and arrays are data; a function is a value too. An array
answers for each index below its count with the element there, so that a view
over other arrays costs nothing until it is read. An element that takes the call
of a function is pending: the call is made whenever the element is read. A
function is known by its stamp: two functions made at different moments differ,
whatever they compute.
-/

namespace PointFree

/-- How an array came about. -/
inductive View where
  | owned
  | nil
  | scalar
  | slice
  | gather
  | reshape
  | zip
deriving DecidableEq, Repr

def View.label : View → String
  | .owned => "owned"
  | .nil => "nil"
  | .scalar => "scalar"
  | .slice => "slice"
  | .gather => "gather"
  | .reshape => "reshape"
  | .zip => "zip"

mutual

inductive Value where
  | number (number : Float)
  | character (letter : Char)
  | array (array : ShapedArray)
  | function (function : Function)

/-- Elements lie in row-major order; `fill` stands where a result reaches past
the last of them. -/
inductive ShapedArray where
  | mk (view : View) (shape : Shape) (fill : Option Value) (element : Nat → Element)

/-- Settled as a value or a failure, or pending. -/
inductive Element where
  | value (value : Value)
  | failure (failure : Failure)
  /-- What the function makes of two elements that meet. -/
  | combined (function : Function) (left right : Element)
  /-- The one of `count` elements that an index names. -/
  | selected (index : Element) (count : Nat) (parent : Nat → Element)

inductive Function where
  | mk (stamp : Nat) (form : Form)

/-- The ways to make a function. -/
inductive Form where
  | primitive (primitive : Primitive)
  /-- The content with its written form when the function was made. -/
  | constant (content : Value) (written : String)
  | atop (left right : Function)
  | fork (left middle right : Function)
  | over (left right : Function)
  | under (left right : Function)
  | rank (left right : Function)
  | before (left right : Function)
  | after (left right : Function)
  | swap (operand : Function)
  | each (operand : Function)
  | table (operand : Function)
  | cells (operand : Function)
  | fold (operand : Function)
  | scan (operand : Function)
  | inverse (operand : Function)
  /-- The place of a block among the programs that have been started, and the frame
  the function was made in. -/
  | block (program block frame : Nat)

end

namespace ShapedArray

def view : ShapedArray → View
  | .mk view _ _ _ => view

def shape : ShapedArray → Shape
  | .mk _ shape _ _ => shape

def fill : ShapedArray → Option Value
  | .mk _ _ fill _ => fill

def element : ShapedArray → Nat → Element
  | .mk _ _ _ element => element

def rank (array : ShapedArray) : Nat :=
  array.shape.length

def count (array : ShapedArray) : Nat :=
  array.shape.size

/-- Number of cells along the first axis, one for an array without axes. -/
def length (array : ShapedArray) : Nat :=
  array.shape.leading

def isEmpty (array : ShapedArray) : Bool :=
  array.count = 0

/-- The element at a row-major index. -/
def elementAt (array : ShapedArray) (index : Nat) : Element :=
  if index < array.count then array.element index
  else .failure (.ofFault (.indexPastCount index array.count))

/-- The empty array. There is only one, whatever shape it was asked for. -/
def nil : ShapedArray :=
  .mk .nil [0] none fun index => .failure (.ofFault (.indexPastCount index 0))

/-- An array of the given elements, or the empty one. -/
def ofView (view : View) (shape : Shape) (fill : Option Value) (element : Nat → Element) :
    ShapedArray :=
  if shape.size = 0 then nil else .mk view shape fill element

theorem count_ofView (view : View) (shape : Shape) (fill : Option Value)
    (element : Nat → Element) : (ofView view shape fill element).count = shape.size := by
  unfold ofView
  split
  · next empty =>
      rw [empty]
      rfl
  · rfl

theorem elementAt_ofView (view : View) (shape : Shape) (fill : Option Value)
    (element : Nat → Element) (index : Nat) (inside : index < shape.size) :
    (ofView view shape fill element).elementAt index = element index := by
  have filled : shape.size ≠ 0 := by omega
  rw [ofView, if_neg filled]
  exact if_pos inside

def scalar (content : Value) : ShapedArray :=
  .mk .scalar [] none fun _ => .value content

/-- The element at each index is the one stored there. -/
def stored (elements : Array Value) (index : Nat) : Element :=
  match elements[index]? with
  | some found => .value found
  | none => .failure (.ofFault (.indexPastCount index elements.size))

def list (elements : Array Value) : ShapedArray :=
  ofView .owned [elements.size] none (stored elements)

end ShapedArray

namespace Value

def kind : Value → ValueKind
  | .number _ => .number
  | .character _ => .character
  | .array _ => .array
  | .function _ => .function

def nil : Value :=
  .array .nil

def list (elements : Array Value) : Value :=
  .array (.list elements)

def ofNat (number : Nat) : Value :=
  .number number.toFloat

def ofBool (holds : Bool) : Value :=
  .number (if holds then 1.0 else 0.0)

/-- Text is a list of characters. -/
def ofString (text : String) : Value :=
  list (text.toList.map Value.character).toArray

def isArray : Value → Bool
  | .array _ => true
  | _ => false

/-- Anything but an array is boxed in an array without axes. -/
def toArray : Value → ShapedArray
  | .array items => items
  | other => .scalar other

def shape : Value → Shape
  | .array items => items.shape
  | _ => []

def rank (value : Value) : Nat :=
  value.shape.length

end Value

end PointFree
