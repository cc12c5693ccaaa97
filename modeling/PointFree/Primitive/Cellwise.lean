import PointFree.ShapedArray.Cells
import PointFree.Value.Depth
import PointFree.Value.Equality
import PointFree.Value.Text

/-!
Contract: the rules behind the structural primitives.

They look at whole arrays: their shapes, their cells along the first axis and
their elements in row-major order. Arguments are named by their side, as for
the scalar rules.
-/

namespace PointFree.Cellwise

variable {H : Type}

/-- An array with at least one axis. -/
def requireCells (glyph : Char) (right : Value) : Outcome ShapedArray :=
  match right with
  | .array items =>
      if items.rank = 0 then refuse (.needsCells glyph right.kind) else .ok items
  | _ => refuse (.needsCells glyph right.kind)

/-- What has no axes becomes a list of one. -/
def asList (right : Value) : Outcome ShapedArray :=
  let items := right.toArray
  if items.rank = 0 then items.reshape [1] else .ok items

def ensureFits (glyph : Char) (count : Nat) : Outcome Unit :=
  if sizeLimit < count then refuse (.tooManyElements glyph count) else .ok ()

/-- A negative index counts from the end. -/
def wrapIndex (index : Int) (length : Nat) : Outcome Nat :=
  let place := if index < 0 then index + length else index
  if place < 0 ∨ (length : Int) ≤ place then refuse (.indexPastLength index length)
  else .ok place.toNat

def wrappedElement (items : ShapedArray) (length index : Nat) : Action H Nat := do
  let content ← items.pick index
  let whole ← content.toInteger
  wrapIndex whole length

def rank (right : Value) : Action H Value :=
  return .ofNat right.rank

def length (right : Value) : Action H Value :=
  return .ofNat right.toArray.length

def shape (right : Value) : Action H Value :=
  return .list (right.shape.map Value.ofNat).toArray

def depth (right : Value) : Action H Value := do
  let depth ← right.depth
  return .ofNat depth

/-- Equality of the arguments as wholes. -/
def equals (left right : Value) : Action H Value := do
  let equal ← left.same right
  return .ofBool equal

def differs (left right : Value) : Action H Value := do
  let equal ← left.same right
  return .ofBool (!equal)

def enclose (right : Value) : Action H Value :=
  return .array (.scalar right)

/-- The elements, which must have one shape, become cells. -/
def mergeElements (right : Value) : Action H Value :=
  match right with
  | .array items =>
      if items.isEmpty then return right
      else do
        let elements ← items.elements
        let merged ← ShapedArray.merge elements items.fill items.shape
        Value.ofCell merged
  | _ => return right

def deshape (right : Value) : Action H Value := do
  let items := right.toArray
  let reshaped ← items.reshape [items.count]
  return .array reshaped

/-- What each element is taken for, in order. -/
def taken {α : Type} (items : ShapedArray) (take : Value → Outcome α) : Action H (Array α) :=
  collect
    (fun index => do
      let content ← items.pick index
      take content)
    items.count

/-- The numbers that `left` lists, or the one it is. -/
def dimensions (left : Value) : Action H (Array Float) :=
  match left with
  | .array items => taken items Value.toNumber
  | other => do
      let number ← other.toNumber
      return #[number]

def reshape (left right : Value) : Action H Value := do
  let numbers ← dimensions left
  let measured ← ShapedArray.shapeOfNumbers numbers.toList
  let reshaped ← right.toArray.reshape measured.1
  return .array reshaped

/-- The natural numbers below `count`. -/
def naturals (count : Nat) : ShapedArray :=
  .ofView .owned [count] none fun index => .value (.ofNat index)

def range (right : Value) : Action H Value := do
  let count ← right.toIndex
  ensureFits '↕' count
  return .array (naturals count)

/-- The cell at each of the given places. -/
def cellsAt (items : ShapedArray) (places : Array Nat) : Outcome (Array Value) :=
  places.mapM fun place => (items.sliceCell place).map Value.array

/-- Cells in a given order: read through the order when the cells are elements,
and laid together anew when they are larger. -/
def reorder (items : ShapedArray) (places : Array Nat) (outer : Shape) : Action H Value :=
  if items.rank = 1 then do
    let indices ← ShapedArray.new outer (places.map Value.ofNat)
    let gathered ← items.gather indices
    return .array gathered
  else do
    let cells ← cellsAt items places
    let merged ← ShapedArray.merge cells items.fill outer
    return .array merged

def reverse (right : Value) : Action H Value := do
  let items ← requireCells '⌽' right
  let length := items.length
  reorder items ((Array.range length).map fun index => length - 1 - index) [length]

/-- Moves each cell `distance` places toward the front, around the end. -/
def rotateBy (distance : Int) (right : Value) : Action H Value := do
  let items ← requireCells '⌽' right
  let length := items.length
  if length = 0 then return .array items
  let shift := (distance.emod length).toNat
  reorder items ((Array.range length).map fun index => (index + shift) % length) [length]

def rotate (left right : Value) : Action H Value := do
  let distance ← left.toInteger
  rotateBy distance right

def rotateBack (left right : Value) : Action H Value := do
  let distance ← left.toInteger
  rotateBy (-distance) right

def first (right : Value) : Action H Value :=
  match right with
  | .array items => if items.isEmpty then Action.refuse .firstOfEmpty else items.pick 0
  | other => return other

/-- One index per axis, or a single index into a list. -/
def pick (left right : Value) : Action H Value :=
  let items := right.toArray
  match left with
  | .array indices =>
      if 1 < indices.rank ∨ indices.count ≠ items.rank then
        Action.refuse (.pickByMany indices.count items.rank)
      else do
        let position ← collect
          (fun axis => wrappedElement indices (items.shape.getD axis 0) axis) indices.count
        let cell ← items.selectRank position.toList
        cell.pick 0
  | index =>
      if items.rank ≠ 1 then Action.refuse (.pickByOne items.rank)
      else do
        let whole ← index.toInteger
        let place ← wrapIndex whole items.count
        items.pick place

def firstCell (right : Value) : Action H Value := do
  let items ← requireCells '⊏' right
  if items.isEmpty then Action.refuse .firstCellOfEmpty
  else items.cellAt [0]

def select (left right : Value) : Action H Value := do
  let items ← requireCells '⊏' right
  match left with
  | .array indices =>
      let places ← collect (wrappedElement indices items.length) indices.count
      reorder items places indices.shape
  | index =>
      let whole ← index.toInteger
      let place ← wrapIndex whole items.length
      items.cellAt [place]

/-- A cell of nothing but fill. -/
def fillCell (items : ShapedArray) : Action H Value := do
  let content ← items.fillOrDefault
  let cellShape := items.shape.tail
  if cellShape = [] then return content
  else
    let cell ← (ShapedArray.scalar content).reshape cellShape
    return .array cell

/-- A product of words stops at the largest word. -/
def saturatingProduct (left right : Nat) : Nat :=
  min (left * right) indexMax

/-- The first cells, or the last ones when `amount` is negative; past the end
there is fill. -/
def takeCells (amount : Int) (right : Value) : Action H Value := do
  let items ← asList right
  let length := items.length
  let extent := amount.natAbs
  if extent ≤ length then
    let start := if 0 ≤ amount then 0 else length - extent
    let cells ← items.slice start extent
    return .array cells
  else
    ensureFits '↑' (saturatingProduct extent items.shape.cellSize)
    let blank ← fillCell items
    let padding := Array.replicate (extent - length) blank
    let cells ← items.majorCells
    let padded := if 0 ≤ amount then cells ++ padding else padding ++ cells
    let merged ← ShapedArray.mergeList padded items.fill
    return .array merged

def take (left right : Value) : Action H Value := do
  let amount ← left.toInteger
  takeCells amount right

/-- What `takeCells` leaves. -/
def dropCells (amount : Int) (right : Value) : Action H Value := do
  let items ← asList right
  let length := items.length
  let extent := amount.natAbs
  if length ≤ extent then return .nil
  let start := if 0 ≤ amount then extent else 0
  let cells ← items.slice start (length - extent)
  return .array cells

def drop (left right : Value) : Action H Value := do
  let amount ← left.toInteger
  dropCells amount right

def prefixes (right : Value) : Action H Value := do
  let items ← asList right
  let all ← collect (fun amount => takeCells amount (.array items)) (items.length + 1)
  return .list all

def suffixes (right : Value) : Action H Value := do
  let items ← asList right
  let all ← collect (fun amount => dropCells amount (.array items)) (items.length + 1)
  return .list all

/-- An array one rank below the other joins it as a single cell. -/
def cellsBeside (items other : ShapedArray) : Action H (Array Value) :=
  if items.rank + 1 = other.rank then return #[.array items] else items.majorCells

def joinTo (left right : Value) : Action H Value := do
  let first ← asList left
  let second ← asList right
  if first.isEmpty then return .array second
  if second.isEmpty then return .array first
  let leading ← cellsBeside first second
  let trailing ← cellsBeside second first
  let merged ← ShapedArray.mergeList (leading ++ trailing) first.fill
  return .array merged

/-- Joins the elements one after another. -/
def join (right : Value) : Action H Value := do
  let items ← requireCells '∾' right
  let parts ← items.elements
  match parts.toList with
  | [] => return .nil
  | part :: rest => rest.foldlM joinTo part

def solo (right : Value) : Action H Value := do
  let merged ← ShapedArray.merge #[right] none [1]
  return .array merged

def couple (left right : Value) : Action H Value := do
  let merged ← ShapedArray.mergeList #[left, right] none
  return .array merged

def enlist (right : Value) : Action H Value :=
  return .list #[right]

def pair (left right : Value) : Action H Value :=
  return .list #[left, right]

/-- Appends `count` copies of a value. -/
def appendCopies (count : Nat) (content : Value) (found : Array Value) : Array Value :=
  match count with
  | 0 => found
  | count + 1 => appendCopies count content (found.push content)

/-- Each index as often as the count found there. -/
def indices (right : Value) : Action H Value := do
  let items ← requireCells '/' right
  let counts ← taken items Value.toIndex
  let found := (counts.foldl
    (fun (state : Nat × Array Value) count =>
      (state.1 + 1, appendCopies count (.ofNat state.1) state.2)) (0, #[])).2
  return .list found

/-- How often each cell is to appear. -/
def copyCounts (left : Value) (cells : Nat) : Action H (Array Nat) :=
  match left with
  | .array items =>
      if items.count ≠ cells then Action.refuse (.replicationCounts items.count cells)
      else taken items Value.toIndex
  | other => do
      let count ← other.toIndex
      return Array.replicate cells count

def replicate (left right : Value) : Action H Value := do
  let items ← asList right
  let cells ← items.majorCells
  let counts ← copyCounts left cells.size
  let copies := (cells.zip counts).foldl
    (fun found pair => appendCopies pair.2 pair.1 found) #[]
  let merged ← ShapedArray.mergeList copies items.fill
  return .array merged

/-- Only the number one holds. -/
def holds : Value → Bool
  | .number number => number == 1.0
  | _ => false

def assert (right : Value) : Action H Value :=
  if holds right then return right else Action.refuse .assertionFailed

/-- The message is the text that `left` is, or its written form. -/
def assertSaying (left right : Value) : Action H Value :=
  if holds right then return right
  else do
    match ← left.string? with
    | some message => Action.refuse (.asserted message)
    | none =>
        let message ← left.text
        Action.refuse (.asserted message)

end PointFree.Cellwise
