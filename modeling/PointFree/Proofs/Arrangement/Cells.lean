import PointFree.Primitive.Cellwise
import PointFree.Proofs.Arrangement

/-!
Contract: cells of an array whose elements have values.

The major cells of an array are its cells in order, and the cells at given places are those of an
arrangement of it. A cell of a list is an element, and counts as a cell without axes only if it is
no array: an array among the elements of a list is taken for a cell with the axes it has itself.
-/

namespace PointFree

variable {H : Type} {calling : Call H} {held : Memory H → Prop}

/-- Changes that succeed for every item of a list give all their results. -/
theorem Outcome.mapM_eq_ok {α β : Type} {change : α → Outcome β} {change' : α → β} {list : List α}
    (changes : ∀ item ∈ list, change item = .ok (change' item)) :
    list.mapM change = .ok (list.map change') := by
  induction list with
  | nil => rfl
  | cons item list inductionHypothesis =>
      obtain ⟨here, later⟩ := List.forall_mem_cons.1 changes
      rw [List.mapM_cons, here, inductionHypothesis later]
      rfl

namespace ShapedArray

variable {array cell : ShapedArray} {values : Nat → Value} {source : Nat → Nat} {outer : Shape}
variable {place start : Nat}

/-! ### One cell -/

theorem IsMade.exists_majorCell (made : array.IsMade calling) (ranked : array.rank ≠ 0)
    (inside : place < array.length) : ∃ cell, array.selectRank [place] = .ok cell := by
  refine made.exists_cell ?_ nofun
  rw [← shape_eq_cons ranked]
  exact .cons inside .nil

theorem IsMade.shape_majorCell (made : array.IsMade calling)
    (selected : array.selectRank [place] = .ok cell) : cell.shape = array.shape.tail :=
  (made.selectRank_reads selected).1.trans List.drop_one

/-- Reading in a major cell is reading in the array. -/
theorem IsMade.pick_majorCell (made : array.IsMade calling) (ranked : array.rank ≠ 0)
    (selected : array.selectRank [place] = .ok cell) {offset : Nat} (inside : offset < cell.count) :
    (cell.pick offset : Action H Value) = array.pick (place * array.shape.cellSize + offset) := by
  rw [pick, (made.selectRank_reads selected).2.2 offset inside, place_singleton ranked]
  rfl

/-- A major cell is one whose elements are those of the array from its place on. -/
theorem IsMade.isCellFrom (made : array.IsMade calling) (ranked : array.rank ≠ 0)
    (selected : array.selectRank [place] = .ok cell)
    (reads : ∀ offset < array.shape.cellSize,
      (array.pick (place * array.shape.cellSize + offset)).EndsWith calling held
        (values (start + offset))) :
    IsCellFrom calling held array.shape.tail values start (.array cell) := by
  refine ⟨made.shape_majorCell selected, fun offset inside => ?_⟩
  change (cell.pick offset).EndsWith calling held _
  have within : offset < array.shape.cellSize := by
    rwa [Shape.cellSize, ← made.shape_majorCell selected]
  rw [made.pick_majorCell ranked selected inside]
  exact reads offset within

/-- Anything but an array is the one element of a cell without axes. -/
theorem isCellFrom_of_plain (plain : (values start).isArray = false) :
    IsCellFrom calling held [] values start (values start) := by
  have unboxed : (values start).shape = [] ∧ (values start).toArray = scalar (values start) := by
    cases isValue : values start with
    | array items =>
        rw [isValue] at plain
        cases plain
    | number amount => exact ⟨rfl, rfl⟩
    | character letter => exact ⟨rfl, rfl⟩
    | function contents => exact ⟨rfl, rfl⟩
  refine ⟨unboxed.1, ?_⟩
  rw [unboxed.2]
  intro offset inside
  obtain rfl : offset = 0 := Nat.lt_one_iff.1 inside
  exact Action.endsWith_pure _

/-- The cell at a place is an element or an array, and shows the values from its place on. -/
theorem IsMade.cellAt_endsWith (made : array.IsMade calling) (ranked : array.rank ≠ 0)
    (reads : array.HasValues calling held values)
    (plain : array.rank = 1 → ∀ index < array.count, (values index).isArray = false)
    (inside : place < array.length) : ∃ item,
      (array.cellAt [place]).EndsWith calling held item ∧
        IsCellFrom calling held array.shape.tail values (place * array.shape.cellSize) item := by
  obtain ⟨cell, selected⟩ := made.exists_majorCell ranked inside
  have taken : (array.cellAt [place] : Action H Value) = Value.ofCell cell := by
    rw [cellAt, selected]
    rfl
  rw [taken, Value.ofCell]
  -- A cell without axes is unwrapped, so its element is read; a larger one is given as it is.
  have shape := made.shape_majorCell selected
  split
  · next none =>
      have tail : array.shape.tail = [] := shape ▸ List.length_eq_zero_iff.1 none
      have single : array.shape.cellSize = 1 := by
        rw [Shape.cellSize, tail, Shape.size_nil]
      have count : cell.count = 1 := by rw [count, shape, tail, Shape.size_nil]
      have list : array.rank = 1 := by
        rw [rank, ← shape_eq_cons ranked, tail]
        rfl
      have below := cell_lt ranked inside (single ▸ Nat.one_pos)
      rw [made.pick_majorCell ranked selected (count ▸ Nat.one_pos), tail]
      exact ⟨_, reads _ below, isCellFrom_of_plain (plain list _ below)⟩
  · next some =>
      refine ⟨_, Action.endsWith_pure _, made.isCellFrom ranked selected fun offset within => ?_⟩
      exact reads _ (cell_lt ranked inside within)

/-! ### All cells -/

/-- An array comes apart into its cells in order. -/
theorem IsMade.majorCells_endsWith (made : array.IsMade calling) (ranked : array.rank ≠ 0)
    (reads : array.HasValues calling held values)
    (plain : array.rank = 1 → ∀ index < array.count, (values index).isArray = false) :
    ∃ cells, array.majorCells.EndsWith calling held cells ∧ cells.size = array.length ∧
      AreCells calling held array.shape.tail values cells := by
  by_cases none : array.count = 0
  · rw [made.sound.empty none]
    exact ⟨#[], Action.endsWith_pure _, rfl, nofun⟩
  have : Nonempty Value := ⟨.nil⟩
  have each (place : Nat) (inside : place < array.length) :=
    made.cellAt_endsWith ranked reads plain inside
  choose! item ends isCell using each
  refine ⟨(Array.range array.length).map item, ?_, by simp, fun place inside => ?_⟩
  · rw [ShapedArray.majorCells, if_neg ranked, if_neg (by simpa [isEmpty] using none)]
    exact Action.endsWith_collect ends
  · rw [Array.getElem_map, Array.getElem_range]
    exact isCell place (by simpa using inside)

/-- What the elements of an arrangement are, if the elements of the array are the values. -/
def rearranged (cell : Nat) (source : Nat → Nat) (values : Nat → Value) (index : Nat) : Value :=
  values (source (index / cell) * cell + index % cell)

theorem rearranged_of_offset {cell offset : Nat} (within : offset < cell) :
    rearranged cell source values (place * cell + offset) =
      values (source place * cell + offset) := by
  rw [rearranged, place_of_offset within, Nat.mul_add_mod_of_lt within]

/-- A cell that the source names is the cell of the arrangement at the place. -/
theorem IsCellFrom.rearranged {inner : Shape} {item : Value}
    (isCell : IsCellFrom calling held inner values (source place * inner.size) item) :
    IsCellFrom calling held inner (rearranged inner.size source values) (place * inner.size)
      item := by
  refine ⟨isCell.shape, fun offset inside => ?_⟩
  have within : offset < inner.size := by rwa [Value.count_toArray, isCell.shape] at inside
  beta_reduce
  rw [rearranged_of_offset within]
  exact isCell.reads offset inside

/-- From every memory held to, the elements that the source names have the values. -/
def HasSelected (calling : Call H) (held : Memory H → Prop) (array : ShapedArray)
    (source : Nat → Nat) (places : Nat) (values : Nat → Value) : Prop :=
  ∀ place < places, ∀ offset < array.shape.cellSize,
    (array.pick (source place * array.shape.cellSize + offset)).EndsWith calling held
      (values (source place * array.shape.cellSize + offset))

theorem HasSelected.arranged (selected : array.HasSelected calling held source outer.size values) :
    (array.arranged source outer).HasValues calling held
      (rearranged array.shape.cellSize source values) := by
  intro index inside
  rw [count_arranged] at inside
  obtain ⟨place, offset⟩ := place_offset_lt inside
  rw [pick, elementAt_arranged inside]
  exact selected _ place _ offset

/-- Item by item, the cells that the source names. -/
def AreCellsAt (array : ShapedArray) (source : Nat → Nat) (cells : Array Value) : Prop :=
  ∀ (place : Nat) (inside : place < cells.size), ∃ cell,
    array.selectRank [source place] = .ok cell ∧ cells[place] = .array cell

theorem IsMade.cellsAt_eq_ok (made : array.IsMade calling) (ranked : array.rank ≠ 0) {places : Nat}
    (below : ∀ place < places, source place < array.length) :
    ∃ cells, Cellwise.cellsAt array ((Array.range places).map source) = .ok cells ∧
      cells.size = places ∧ array.AreCellsAt source cells := by
  have : Nonempty ShapedArray := ⟨ShapedArray.nil⟩
  have each (place : Nat) (inside : place < array.length) :=
    made.exists_majorCell ranked inside
  choose! cell selected using each
  refine ⟨((List.range places).map fun place => .array (cell (source place))).toArray, ?_, by simp,
    fun place inside => ⟨cell (source place), selected _ (below place (by simpa using inside)), ?_⟩⟩
  · have found : ((List.range places).map source).mapM
        (fun place => (array.sliceCell place).map Value.array) =
          .ok (((List.range places).map source).map fun place => .array (cell place)) := by
      refine Outcome.mapM_eq_ok fun place member => ?_
      obtain ⟨index, inside, rfl⟩ := List.mem_map.1 member
      rw [ShapedArray.sliceCell, selected _ (below index (List.mem_range.1 inside))]
      rfl
    rw [Cellwise.cellsAt, Array.mapM_eq_mapM_toList, Array.toList_map, Array.toList_range, found,
      List.map_map]
    rfl
  · simp

section CellsAt

variable {cells : Array Value}

theorem AreCellsAt.shape (areAt : array.AreCellsAt source cells) (made : array.IsMade calling)
    (inside : place < cells.size) : cells[place].shape = array.shape.tail := by
  obtain ⟨cell, selected, same⟩ := areAt place inside
  rw [same]
  exact made.shape_majorCell selected

/-- The cells that a source names are the cells of the arrangement. -/
theorem AreCellsAt.areCells (areAt : array.AreCellsAt source cells) (made : array.IsMade calling)
    (ranked : array.rank ≠ 0) (reads : array.HasSelected calling held source cells.size values) :
    AreCells calling held array.shape.tail (rearranged array.shape.cellSize source values)
      cells := by
  intro place inside
  obtain ⟨cell, selected, same⟩ := areAt place inside
  rw [same]
  exact (made.isCellFrom ranked selected (reads place inside)).rearranged

end CellsAt

end ShapedArray

end PointFree
