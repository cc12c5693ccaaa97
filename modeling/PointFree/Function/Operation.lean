import PointFree.ShapedArray.Cells

/-!
Contract: what modifiers do with an operation.

An operation is a function as it is called. It can be applied to every element,
to every pair of elements that meet, to every pairing, to cells of a given rank,
and between cells from either end. Elements and cells are read as they are
needed, each just before the call it belongs to; a fold and a scan read all
cells first.
-/

namespace PointFree

variable {H : Type}

/-- A function as it is called: the right argument first, then the left. -/
abbrev Operation (H : Type) := Value → Option Value → Action H Value

namespace Operation

/-- Every element on its own. -/
def eachElement (operation : Operation H) (right : Value) : Action H Value :=
  match right with
  | .array items => do
      let results ← collect
        (fun index => do
          let item ← items.pick index
          operation item none)
        items.count
      let result ← ShapedArray.new items.shape results
      return .array result
  | other => operation other none

/-- Every pair of elements that meet when the arguments are aligned. -/
def eachAligned (operation : Operation H) (right left : ShapedArray) : Action H Value := do
  let shape ← ShapedArray.alignShapes left.shape right.shape
  let size ← ShapedArray.measure shape
  let results ← collect
    (fun index => do
      let first ← left.pick (index % left.count)
      let second ← right.pick (index % right.count)
      operation second (some first))
    size
  return .array (.ofView .owned shape none (ShapedArray.stored results))

def each (operation : Operation H) (right : Value) : Option Value → Action H Value
  | none => operation.eachElement right
  | some left =>
      if left.isArray || right.isArray then operation.eachAligned right.toArray left.toArray
      else operation right (some left)

/-- Every element of the left argument with every element of the right. -/
def table (operation : Operation H) (right : Value) : Option Value → Action H Value
  | none => operation.eachElement right
  | some left => do
      let rows := left.toArray
      let columns := right.toArray
      let shape := rows.shape ++ columns.shape
      let _ ← ShapedArray.measure shape
      let results ← collect
        (fun row => do
          let first ← rows.pick row
          collect
            (fun column => do
              let second ← columns.pick column
              operation second (some first))
            columns.count)
        rows.count
      let result ← ShapedArray.new shape results.flatten
      return .array result

/-- The part of the left argument that belongs to a cell of the right one. -/
inductive Companion where
  | whole (left : Option Value)
  | cells (left : ShapedArray)

/-- An array with axes is cut along the frame, which it must begin with. -/
def companion (frame : Shape) (left : Option Value) : Outcome Companion :=
  match left with
  | some (.array items) =>
      if items.rank = 0 then .ok (.whole left)
      else if items.shape.take frame.length = frame then .ok (.cells items)
      else refuse (.frameMismatch items.shape frame)
  | _ => .ok (.whole left)

def Companion.cellAt (position : List Nat) : Companion → Action H (Option Value)
  | .whole left => return left
  | .cells items => do
      let cell ← items.cellAt position
      return some cell

/-- Rank of the cells that a rank operand asks for; a negative one counts down
from the rank of the argument. -/
def cellRank (rank : Nat) (asked : Int) : Nat :=
  if asked < 0 then (rank + asked).toNat else min asked.toNat rank

/-- Every cell of the given rank, in row-major order of the frame around them. -/
def atRank (operation : Operation H) (asked : Int) (right : Value) (left : Option Value) :
    Action H Value := do
  let items := right.toArray
  let frameLength := items.rank - cellRank items.rank asked
  if frameLength = 0 then operation right left
  else
    let frame := items.shape.take frameLength
    let others ← companion frame left
    let results ← (Shape.indices frame).mapM fun position => do
      let cell ← items.cellAt position
      let beside ← others.cellAt position
      operation cell beside
    let result ← ShapedArray.merge results.toArray none frame
    return .array result

def cells (operation : Operation H) (right : Value) (left : Option Value) : Action H Value :=
  if right.rank = 0 then Action.refuse .cellsOfScalar else operation.atRank (-1) right left

/-- From the last cell to the first; the left argument is where it starts. -/
def fold (operation : Operation H) (right : Value) (left : Option Value) : Action H Value :=
  match right with
  | .array items => do
      let cells ← items.majorCells
      let step (total cell : Value) := operation total (some cell)
      match left, cells.toList.reverse with
      | some seed, backward => backward.foldlM step seed
      | none, last :: backward => backward.foldlM step last
      | none, [] => Action.refuse .emptyFold
  | _ => Action.refuse .foldOfScalar

/-- One step of a scan: the results so far and the last of them. -/
def scanStep (operation : Operation H) (state : Array Value × Option Value) (cell : Value) :
    Action H (Array Value × Option Value) := do
  let next ← match state.2 with
    | some before => operation cell (some before)
    | none => pure cell
  return (state.1.push next, some next)

/-- From the first cell to the last, with every total on the way. -/
def scan (operation : Operation H) (right : Value) (left : Option Value) : Action H Value :=
  match right with
  | .array items => do
      let cells ← items.majorCells
      let ended ← cells.foldlM operation.scanStep (#[], left)
      let result ← ShapedArray.mergeList ended.1 items.fill
      return .array result
  | _ => Action.refuse .scanOfScalar

end Operation

end PointFree
