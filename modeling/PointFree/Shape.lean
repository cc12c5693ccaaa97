/-!
Contract: shapes.

A shape lists the lengths of an array's axes, outermost first, and its rank is
the number of axes. Its size is the product of the lengths, one when there are
none. The shape of a new array goes through `Shape.measured?`, which refuses a
size above `sizeLimit`.
-/

namespace PointFree

abbrev Shape := List Nat

/-- The largest number of elements an array may be built with. -/
def sizeLimit : Nat := Nat.pow 2 24

/-- Sizes are taken in words of 64 bits. -/
def wordLimit : Nat := Nat.pow 2 64

def Shape.size (shape : Shape) : Nat :=
  shape.foldl (· * ·) 1

theorem Shape.foldl_mul (shape : List Nat) (start : Nat) :
    shape.foldl (· * ·) start = start * shape.foldl (· * ·) 1 := by
  induction shape generalizing start with
  | nil => simp
  | cons axis rest inductionHypothesis =>
      rw [List.foldl_cons, List.foldl_cons, inductionHypothesis (start * axis),
        inductionHypothesis (1 * axis), Nat.one_mul, Nat.mul_assoc]

theorem Shape.size_nil : Shape.size [] = 1 :=
  rfl

theorem Shape.size_cons (axis : Nat) (rest : Shape) :
    Shape.size (axis :: rest) = axis * Shape.size rest := by
  rw [Shape.size, Shape.size, List.foldl_cons, Nat.one_mul, Shape.foldl_mul]

theorem Shape.size_append (outer inner : Shape) :
    Shape.size (outer ++ inner) = Shape.size outer * Shape.size inner := by
  induction outer with
  | nil => simp [Shape.size_nil]
  | cons axis rest inductionHypothesis =>
      rw [List.cons_append, size_cons, size_cons, inductionHypothesis, Nat.mul_assoc]

/-- The first axis, or one when there is none. -/
def Shape.leading (shape : Shape) : Nat :=
  shape.headD 1

/-- Number of elements in one cell along the first axis. -/
def Shape.cellSize (shape : Shape) : Nat :=
  Shape.size shape.tail

/-- The size, unless a product on the way to it leaves the word. -/
def Shape.wordSize? (shape : Shape) : Option Nat :=
  shape.foldlM (fun size axis => if size * axis < wordLimit then some (size * axis) else none) 1

/-- The size of a shape an array may be built with. -/
def Shape.measured? (shape : Shape) : Option Nat :=
  match shape.wordSize? with
  | some size => if size ≤ sizeLimit then some size else none
  | none => none

/-- Alignment of two shapes: the longer one, the left one of two equally long,
provided the other is a suffix of it. -/
def Shape.aligned? (left right : Shape) : Option Shape :=
  let lead := if left.length < right.length then right else left
  let short := if left.length < right.length then left else right
  if lead.drop (lead.length - short.length) = short then some lead else none

/-- Every index tuple within the axes, in row-major order. -/
def Shape.indices : Shape → List (List Nat)
  | [] => [[]]
  | axis :: rest =>
      (List.range axis).flatMap fun index => (Shape.indices rest).map (index :: ·)

theorem Shape.length_indices (shape : Shape) :
    (Shape.indices shape).length = Shape.size shape := by
  induction shape with
  | nil => rfl
  | cons axis rest inductionHypothesis =>
      rw [Shape.indices, List.length_flatMap]
      simp only [List.length_map, inductionHypothesis, List.map_const', List.length_range,
        List.sum_replicate_nat, Shape.size_cons]

/-- The written form, as in `[2, 3]`. -/
def Shape.text (shape : Shape) : String :=
  "[" ++ ", ".intercalate (shape.map toString) ++ "]"

end PointFree
