import PointFree.Proofs.Arrangement.Selection

/-!
Contract: picking by one index for each axis.

Picking wraps every index first and reads the element at the position that they make. Selecting by
the first index, then by the second one in the cell it has found, and so on, makes one cell after
the other and ends at the same element. Each index is read and checked once on both ways, in the
same order and against the same axis, so the two do the same in every memory, failures included. An
index that is an array is left out: it can be selected by, and not picked by.
-/

namespace PointFree

variable {H : Type} {calling : Call H}

/-- Actions that go on alike after every result that the first part can give. -/
theorem Action.bind_congr_of_gives {α β : Type} {action : Action H α} {next next' : α → Action H β}
    (alike : ∀ result, action.Gives calling result → next result calling = next' result calling) :
    (action >>= next) calling = (action >>= next') calling := by
  funext memory
  rcases ended : action calling memory with ⟨failure | result, after⟩
  · rw [bind_of_error ended, bind_of_error ended]
  · rw [bind_of_ok ended, bind_of_ok ended, alike result ⟨memory, after, ended⟩]

namespace Cellwise

variable {indices : ShapedArray} {length index place : Nat} {whole : Int}

theorem wrapIndex_lt (wrapped : wrapIndex whole length = .ok place) : place < length := by
  by_cases names : NamesCell length whole
  · rw [names.wrapIndex_eq] at wrapped
    cases wrapped
    exact names.placeNamed_lt
  · rw [wrapIndex_of_not_names names] at wrapped
    cases wrapped

theorem wrappedElement_lt (gives : (wrappedElement indices length index).Gives calling place) :
    place < length := by
  obtain ⟨value, _, gives⟩ := gives.bind
  obtain ⟨whole, _, gives⟩ := gives.bind
  exact wrapIndex_lt gives.eq_ok

/-- Selects by one of the indices. -/
def selectBy (indices : ShapedArray) (found : Value) (axis : Nat) : Action H Value := do
  let index ← indices.pick axis
  Primitive.select.apply found (some index)

/-- Selects by one index after the other, each in what the one before has found. -/
def selectEach (indices : ShapedArray) (right : Value) : Action H Value :=
  (List.range indices.count).foldlM (selectBy indices) right

end Cellwise

namespace ShapedArray

open Cellwise (wrappedElement selectBy selectEach)

variable {array cell indices : ShapedArray} {position : List Nat}

/-! ### Cells along the way -/

/-- The array has the cell at the position, however the cell was found. -/
structure HasCell (array : ShapedArray) (position : List Nat) (cell : ShapedArray) : Prop where
  holds : Shape.Holds (array.shape.take position.length) position
  shape : cell.shape = array.shape.drop position.length
  elementAt : ∀ index < cell.count,
    cell.elementAt index = array.elementAt (array.shape.place position + index)

theorem hasCell_self (array : ShapedArray) : array.HasCell [] array where
  holds := .nil
  shape := rfl
  elementAt index _ := by rw [Shape.place_nil, Nat.zero_add]

theorem HasCell.rank (has : array.HasCell position cell) :
    cell.rank = array.rank - position.length := by
  rw [ShapedArray.rank, has.shape, List.length_drop]
  rfl

theorem HasCell.length (has : array.HasCell position cell) (ranked : cell.rank ≠ 0) :
    cell.length = array.shape.getD position.length 0 := by
  rw [has.rank] at ranked
  have inside : position.length < array.shape.length := Nat.lt_of_sub_ne_zero ranked
  rw [ShapedArray.length, has.shape, List.drop_eq_getElem_cons inside, List.getD,
    List.getElem?_eq_getElem inside]
  rfl

/-- A cell of the cell at a position is the cell one place further along. -/
theorem HasCell.exists_next (has : array.HasCell position cell) (made : cell.IsMade calling)
    (ranked : cell.rank ≠ 0) {place : Nat} (inside : place < cell.length) :
    ∃ next, cell.selectRank [place] = .ok next ∧ next.IsMade calling ∧
      array.HasCell (position ++ [place]) next := by
  obtain ⟨next, selected⟩ := made.exists_majorCell ranked inside
  obtain ⟨holds, _⟩ := selectRank_eq_ok_iff.1 selected
  obtain ⟨shape, _, elementAt⟩ := made.selectRank_reads selected
  refine ⟨next, selected, .selectRank made selected, ?_, ?_, fun index within => ?_⟩
  · exact Shape.holds_take_append.2 ⟨has.holds, has.shape ▸ holds⟩
  · rw [shape, has.shape, List.drop_drop, List.length_append]
  · rw [elementAt index within, has.elementAt _ (made.place_add_lt selected within),
      Shape.place_add has.holds.length_le, has.shape, Nat.add_assoc]

/-- The element at a position with an index for every axis. -/
theorem HasCell.pick_selectRank (has : array.HasCell position cell) (whole : cell.rank = 0) :
    (do
      let found ← array.selectRank position
      found.pick 0 : Action H Value) = cell.pick 0 := by
  have single : cell.shape = [] := List.length_eq_zero_iff.1 whole
  have complete : array.shape.drop position.length = [] := has.shape.symm.trans single
  have selected : array.selectRank position = .ok (ofView .slice [] array.fill fun index =>
      array.elementAt (array.shape.place position + index)) := by
    refine selectRank_eq_ok_iff.2 ⟨has.holds, ?_⟩
    rw [complete]
    exact ⟨⟨1, rfl⟩, rfl⟩
  have first : 0 < cell.count := by
    rw [count, single]
    exact Nat.one_pos
  rw [selected]
  exact congrArg Element.force (has.elementAt 0 first).symm

/-! ### Index by index -/

/-- The value is selected by as an index, because it is no array. -/
theorem select_index (ranked : cell.rank ≠ 0) {index : Value} (plain : index.isArray = false) :
    (Primitive.select.apply (.array cell) (some index) : Action H Value) = (do
      let whole ← index.toInteger
      let place ← Cellwise.wrapIndex whole cell.length
      cell.cellAt [place]) := by
  have cells : Cellwise.requireCells '⊏' (.array cell) = .ok cell := if_neg ranked
  cases index with
  | array => cases plain
  | number | character | function =>
      change (do
        let items ← Cellwise.requireCells '⊏' (.array cell)
        _ : Action H Value) = _
      rw [cells]
      rfl

/-- No element of the array is itself an array when it is read. -/
def IsPlain (calling : Call H) (array : ShapedArray) : Prop :=
  ∀ index < array.count, ∀ value, (array.pick index : Action H Value).Gives calling value →
    value.isArray = false

theorem IsPlain.selectBy_eq (plain : indices.IsPlain calling) {axis : Nat}
    (inside : axis < indices.count) (ranked : cell.rank ≠ 0) :
    (selectBy indices (.array cell) axis : Action H Value) calling = (do
      let place ← wrappedElement indices cell.length axis
      cell.cellAt [place] : Action H Value) calling := by
  rw [selectBy, wrappedElement, bind_assoc]
  refine Action.bind_congr_of_gives fun index gives => ?_
  rw [select_index ranked (plain axis inside index gives), bind_assoc]

/-- One selection in the cell at a position, and what is done with what it finds. -/
theorem HasCell.selectBy_bind (plain : indices.IsPlain calling) {axis : Nat}
    (inside : axis < indices.count) (has : array.HasCell position cell)
    (made : cell.IsMade calling) (ranked : cell.rank ≠ 0) (here : position.length = axis)
    {next : Value → Action H Value} {next' : Nat → Action H Value}
    (goesOn : ∀ place found, found.IsMade calling → array.HasCell (position ++ [place]) found →
      (Value.ofCell found >>= next) calling = next' place calling) :
    (selectBy indices (.array cell) axis >>= next) calling =
      (wrappedElement indices (array.shape.getD axis 0) axis >>= next') calling := by
  rw [← here, ← has.length ranked, here,
    Action.bind_congr_under (plain.selectBy_eq inside ranked) fun _ => rfl, bind_assoc]
  refine Action.bind_congr_of_gives fun place gives => ?_
  obtain ⟨found, selected, foundMade, there⟩ :=
    has.exists_next made ranked (Cellwise.wrappedElement_lt gives)
  rw [← goesOn place found foundMade there, cellAt, selected]
  rfl

/-- From the cell at a position, selecting by the indices of the axes that are left reads the
element that picking reads there. The induction is on the axes after the next one, since the last
index selects an element and no cell. -/
theorem HasCell.selectBy_rest (plain : indices.IsPlain calling)
    (fits : indices.count = array.rank) {remaining : Nat} {places : Array Nat}
    (has : array.HasCell places.toList cell) (made : cell.IsMade calling)
    (rest : places.size + (remaining + 1) = array.rank) :
    ((List.range' places.size (remaining + 1)).foldlM (selectBy indices) (.array cell) :
      Action H Value) calling = (do
      let position ← collectFrom
        (fun axis => wrappedElement indices (array.shape.getD axis 0) axis)
        (remaining + 1) places.size places
      let found ← array.selectRank position.toList
      found.pick 0 : Action H Value) calling := by
  induction remaining generalizing places cell with
  | zero =>
      have cellRank : cell.rank = 1 := by
        rw [has.rank, Array.length_toList]
        omega
      rw [List.range'_succ, List.foldlM_cons, collectFrom, bind_assoc]
      refine has.selectBy_bind plain (by omega) made (by omega) Array.length_toList
        fun place found foundMade there => ?_
      rw [← Array.toList_push] at there
      have whole : found.rank = 0 := by
        rw [there.rank, Array.length_toList, Array.size_push]
        omega
      rw [Value.ofCell, if_pos whole, ← there.pick_selectRank whole]
      exact congrFun (bind_pure _) calling
  | succ remaining inductionHypothesis =>
      have cellRank : cell.rank = remaining + 2 := by
        rw [has.rank, Array.length_toList]
        omega
      rw [List.range'_succ, List.foldlM_cons, collectFrom, bind_assoc]
      refine has.selectBy_bind plain (by omega) made (by omega) Array.length_toList
        fun place found foundMade there => ?_
      rw [← Array.toList_push] at there
      have ranked : found.rank ≠ 0 := by
        rw [there.rank, Array.length_toList, Array.size_push]
        omega
      have later := inductionHypothesis there foundMade (by rw [Array.size_push]; omega)
      rw [Array.size_push] at later
      rw [Value.ofCell, if_neg ranked, ← later]
      rfl

/-! ### Picking -/

/-- Picking by as many indices as there are axes finds the position of them all first. -/
theorem pick_indices (list : indices.rank ≤ 1) (fits : indices.count = array.rank) :
    (Primitive.pick.apply (.array array) (some (.array indices)) : Action H Value) = (do
      let position ← collect
        (fun axis => wrappedElement indices (array.shape.getD axis 0) axis) indices.count
      let found ← array.selectRank position.toList
      found.pick 0) :=
  if_neg (by
    rw [not_or, not_not]
    exact ⟨Nat.not_lt.2 list, fits⟩)

theorem isPlain_list {named : List Value} (plain : ∀ index ∈ named, index.isArray = false) :
    (list named.toArray).IsPlain calling := by
  intro index inside value gives
  rw [count_list] at inside
  rw [pick, elementAt_list inside] at gives
  rw [gives.eq_of_pure]
  exact plain _ (by simp)

/-- Selecting by the elements of a list is selecting by the values it was made of. -/
theorem selectEach_list (named : List Value) (right : Value) :
    (selectEach (list named.toArray) right : Action H Value) =
      named.foldlM (fun found index => Primitive.select.apply found (some index)) right := by
  have steps (found : Value) (axis : Fin named.length) :
      (selectBy (list named.toArray) found axis : Action H Value) =
        Primitive.select.apply found (some (named.get axis)) := by
    rw [selectBy, pick, elementAt_list (by simp)]
    rfl
  rw [selectEach, count_list, List.size_toArray, ← List.map_coe_finRange_eq_range,
    List.foldlM_map, funext fun found => funext (steps found)]
  conv_rhs => rw [← List.map_get_finRange named, List.foldlM_map]

/-- Picking by as many indices as an array has axes does the same as selecting by the first index,
then by the second one in what that has found, and so on to the last: both find the same element or
fail alike, and leave the same memory. This is so of the values that a list was made of, and of
indices that are read out of any array without further axes. -/
theorem IsMade.pick_selects (made : array.IsMade calling) (ranked : array.rank ≠ 0) :
    (∀ named : List Value, named.length = array.rank →
      (∀ index ∈ named, index.isArray = false) →
      (Primitive.pick.apply (.array array) (some (.list named.toArray)) : Action H Value) calling =
        (named.foldlM (fun found index => Primitive.select.apply found (some index))
          (.array array) : Action H Value) calling) ∧
    ∀ indices : ShapedArray, indices.rank ≤ 1 → indices.count = array.rank →
      indices.IsPlain calling →
      (Primitive.pick.apply (.array array) (some (.array indices)) : Action H Value) calling =
        (selectEach indices (.array array) : Action H Value) calling := by
  have picks (indices : ShapedArray) (list : indices.rank ≤ 1)
      (fits : indices.count = array.rank) (plain : indices.IsPlain calling) :
      (Primitive.pick.apply (.array array) (some (.array indices)) : Action H Value) calling =
        (selectEach indices (.array array) : Action H Value) calling := by
    obtain ⟨remaining, axes⟩ := Nat.exists_eq_succ_of_ne_zero ranked
    have start : array.HasCell (#[] : Array Nat).toList array := array.hasCell_self
    have left : (#[] : Array Nat).size + (remaining + 1) = array.rank := by
      rw [axes, Array.size_empty, Nat.zero_add]
    have whole := start.selectBy_rest plain fits made left
    rw [pick_indices list fits, selectEach, List.range_eq_range', fits, axes]
    exact whole.symm
  refine ⟨fun named length plain => ?_, picks⟩
  rw [← selectEach_list]
  refine picks _ ?_ ?_ (isPlain_list plain)
  · rw [rank, shape_list]
    exact Nat.le_refl 1
  · rw [count_list]
    exact length

theorem IsMade.pick_selects_corner : Composed.grid.IsMade Composed.calls ∧
    Composed.grid.rank ≠ 0 ∧ Selected.ends.IsPlain Composed.calls ∧
    (Primitive.pick.apply (.array Composed.grid) (some (.array Selected.ends)) Composed.calls :
      Effect (Heap (List Routine)) Value) =
        [Value.number (-1.0), .number 0.0].foldlM (fun found index =>
          Primitive.select.apply found (some index)) (.array Composed.grid) Composed.calls ∧
    (Primitive.pick.apply (.array Composed.grid) (some (.array Selected.ends)) Composed.calls :
      Effect (Heap (List Routine)) Value) =
        selectEach Selected.ends (.array Composed.grid) Composed.calls := by
  have numbers : ∀ index ∈ [Value.number (-1.0), .number 0.0], index.isArray = false := by
    simp [Value.isArray]
  have plain : Selected.ends.IsPlain Composed.calls := isPlain_list numbers
  obtain ⟨lists, indices⟩ := IsMade.pick_selects Composed.grid_made (by decide)
  exact ⟨Composed.grid_made, by decide, plain, lists _ rfl numbers,
    indices _ (by decide) (by decide) plain⟩

end ShapedArray

end PointFree
