import PointFree.ShapedArray.Views

/-!
Contract: taking arrays apart into cells and laying cells together.

The major cells of an array are its cells along the first axis. `merge` lays
elements of one common shape end to end under an outer shape, and is undone by
selecting at each position of the outer shape.
-/

namespace PointFree.ShapedArray

variable {H : Type}

/-- The cell found by fixing the leading axes, or the element when all are. -/
def cellAt (array : ShapedArray) (position : List Nat) : Action H Value := do
  let cell ← array.selectRank position
  Value.ofCell cell

def majorCells (array : ShapedArray) : Action H (Array Value) :=
  if array.rank = 0 then do
    let content ← array.pick 0
    return #[content]
  else if array.isEmpty then return #[]
  else collect (fun index => array.cellAt [index]) array.length

/-- The same array with its elements computed and stored. -/
def materialize (array : ShapedArray) : Action H ShapedArray :=
  match array.view with
  | .owned | .nil | .scalar => return array
  | _ => do
      let found ← array.elements
      filled array.shape found array.fill

/-- Adds the elements of one item to those of the items before it, all of which
have the shape `inner`. -/
def appendItem (inner : Shape) (data : Array Value) (item : Value) : Action H (Array Value) :=
  match item with
  | .array items =>
      if items.shape = inner then do
        let more ← items.elements
        return data ++ more
      else Action.refuse (.unmergeable inner items.shape)
  | other =>
      if inner = [] then return data.push other else Action.refuse (.unmergeableScalar inner)

/-- An item that is no array counts as a cell without axes. -/
def merge (items : Array Value) (fill : Option Value) (outer : Shape) : Action H ShapedArray :=
  if outer.size ≠ items.size then Action.refuse (.outerCount outer items.size)
  else
    match items[0]? with
    | none => return nil
    | some first => do
        let shape := outer ++ first.shape
        let _ ← measure shape
        let data ← items.foldlM (appendItem first.shape) #[]
        filled shape data fill

def mergeList (items : Array Value) (fill : Option Value) : Action H ShapedArray :=
  merge items fill [items.size]

/-- What a result past the end is filled with: a blank after characters and
zero after anything else, where the array does not say. -/
def fillOrDefault (array : ShapedArray) : Action H Value :=
  match array.fill with
  | some content => return content
  | none => do
      match ← Action.attempt (array.pick 0) with
      | .ok (.character _) => return .character ' '
      | _ => return .number 0.0

end PointFree.ShapedArray
