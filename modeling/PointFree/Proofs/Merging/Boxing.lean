import PointFree.Proofs.Merging.Inverse
import PointFree.Proofs.Ranking.Composition
import PointFree.Proofs.Restoring.Data

/-!
Contract: boxing cells and merging the boxes.

Boxing each major cell gives a list of the cells. A box has no axes, so that the boxes are laid
together as elements, whatever they hold, and no element of the array is read. Merging the list
reads them all, once, and gives the shape and the elements of the array again.
-/

namespace PointFree

variable {H : Type} {calling : Call H}

/-! ### Boxes -/

theorem Action.Yields.mapM {α β : Type} {change : α → Action H β} {items : List α}
    {results : List β}
    (yields : List.Forall₂ (fun item result => (change item).Yields calling (.ok result))
      items results) : (items.mapM change).Yields calling (.ok results) := by
  induction yields with
  | nil => exact yields_pure _
  | cons here _ inductionHypothesis =>
      intro memory
      rw [List.mapM_cons]
      refine (bind_of_ok (here memory)).trans ?_
      exact bind_of_ok (inductionHypothesis memory)

namespace Value

/-- The value in an array without axes. -/
def boxed (content : Value) : Value :=
  .array (.scalar content)

end Value

namespace ShapedArray

/-- The boxes are laid together as elements. -/
theorem yields_foldlM_boxed (contents : List Value) (data : Array Value) :
    ((contents.map Value.boxed).foldlM (appendItem []) data : Action H (Array Value)).Yields calling
      (.ok (data ++ contents.toArray)) := by
  induction contents generalizing data with
  | nil => simpa using Action.yields_pure data
  | cons content contents inductionHypothesis =>
      intro memory
      rw [List.map_cons, List.foldlM_cons]
      have here : (appendItem [] data content.boxed : Action H (Array Value)) calling memory =
          (.ok (data ++ #[content]), memory) := rfl
      refine (Action.bind_of_ok here).trans ((inductionHypothesis _ memory).trans ?_)
      simp

theorem yields_merge_boxed {contents : List Value} (some : contents ≠ [])
    (small : contents.length ≤ sizeLimit) :
    (merge (contents.map Value.boxed).toArray none [contents.length] :
      Action H ShapedArray).Yields calling (.ok (list contents.toArray)) := by
  have size : Shape.size [contents.length] = (contents.map Value.boxed).toArray.size := by
    rw [size_singleton, List.size_toArray, List.length_map]
  have measured : measure [contents.length] = .ok contents.length := by
    have positive := List.length_pos_iff.2 some
    rw [← size_singleton contents.length] at positive small
    rw [measure_of_size positive small, size_singleton]
  have isFilled : filled [contents.length] contents.toArray none = .ok (list contents.toArray) := by
    rw [filled, measured]
    exact if_pos List.size_toArray.symm
  have laid : ((contents.map Value.boxed).toArray.foldlM (appendItem []) #[] :
      Action H (Array Value)).Yields calling (.ok contents.toArray) := by
    have whole := @yields_foldlM_boxed H calling contents #[]
    rw [Array.empty_append] at whole
    rwa [← Array.foldlM_toList]
  obtain ⟨first, rest, rfl⟩ := List.exists_cons_of_ne_nil some
  intro memory
  rw [merge, if_neg (not_not.2 size)]
  change (do
    let _ ← measure [(first :: rest).length]
    let data ← ((first :: rest).map Value.boxed).toArray.foldlM (appendItem []) #[]
    filled [(first :: rest).length] data none : Action H ShapedArray) calling memory = _
  rw [measured]
  refine (Action.bind_of_ok rfl).trans ((Action.bind_of_ok (laid memory)).trans ?_)
  rw [isFilled]
  rfl

theorem yields_elements_list (contents : List Value) :
    ((list contents.toArray).elements : Action H (Array Value)).Yields calling
      (.ok contents.toArray) := by
  have count : (list contents.toArray).count = contents.length := by
    rw [count_list, List.size_toArray]
  rw [elements, count]
  refine Action.Yields.collect_ok fun index inside => ?_
  rw [pick, elementAt_list (by rwa [List.size_toArray])]
  exact Action.yields_pure _

end ShapedArray

/-! ### Functions -/

/-- The operation on each cell along the first axis. -/
theorem Operation.cells_eq_along (operation : Operation H) {array : ShapedArray}
    (ranked : array.rank ≠ 0) : operation.cells (.array array) none = along (fun position => do
      let cell ← array.cellAt position
      operation cell none) [array.length] := by
  have axes : (Value.array array).toArray.rank - cellRank (Value.array array).toArray.rank (-1) =
      1 := by
    change array.rank - cellRank array.rank (-1) = 1
    rw [cellRank, if_pos (by decide)]
    omega
  have frame : (Value.array array).toArray.shape.take 1 = [array.length] := by
    change array.shape.take 1 = _
    rw [← ShapedArray.shape_eq_cons ranked]
    rfl
  have some : (Value.array array).rank ≠ 0 := ranked
  rw [cells, if_neg some, atRank, axes, if_neg Nat.one_ne_zero, frame]
  rfl

theorem Shape.indices_singleton (axis : Nat) : indices [axis] = (List.range axis).map ([·]) :=
  List.map_eq_flatMap.symm

namespace Function

/-- `<˘`, which boxes the cells along the first axis. -/
def boxCells (stamp inner : Nat) : Function :=
  .mk stamp (.cells (.mk inner (.primitive .less)))

/-- `>`, which lays elements together. -/
def mergeAll (stamp : Nat) : Function :=
  .mk stamp (.primitive .greater)

variable [Blocks H]

theorem mergeAll_call (stamp : Nat) {cells : Array Value} (some : cells ≠ #[])
    {merged : ShapedArray} (ranked : merged.rank ≠ 0) {memory after : Memory H}
    (ended : ShapedArray.merge cells none [cells.size] calling memory = (.ok merged, after)) :
    (mergeAll stamp).call (.array (.list cells)) none calling memory =
      (.ok (.array merged), after) := by
  have filled : Shape.size [cells.size] ≠ 0 := by
    rw [ShapedArray.size_singleton]
    exact fun none => some (Array.size_eq_zero_iff.1 none)
  have nonempty : (ShapedArray.list cells).isEmpty = false := by
    simpa [ShapedArray.isEmpty, ShapedArray.count_list] using some
  have isList : ShapedArray.list cells =
      .mk .owned [cells.size] none (ShapedArray.stored cells) := ShapedArray.ofView_of_filled filled
  have elements := @ShapedArray.yields_elements_list H calling cells.toList
  change Cellwise.mergeElements (.array (.list cells)) calling memory = _
  rw [Cellwise.mergeElements, if_neg (by simp [nonempty])]
  refine (Action.bind_of_ok (elements memory)).trans ?_
  rw [isList]
  refine (Action.bind_of_ok ended).trans ?_
  rw [Value.ofCell, if_neg ranked]
  rfl

end Function

namespace ShapedArray

variable {array : ShapedArray} {cells : Array Value} {held : Memory H → Prop}

theorem AreMajorCells.yields_cellAt (major : array.AreMajorCells cells)
    (made : array.IsMade calling) (ranked : 2 ≤ array.rank) {index : Nat} {item : Value}
    (there : cells[index]? = some item) :
    (array.cellAt [index]).Yields calling (.ok item) := by
  obtain ⟨inside, _⟩ := Array.getElem?_eq_some_iff.1 there
  obtain ⟨cell, selected, found⟩ := major.cell index (major.size ▸ inside)
  obtain rfl : .array cell = item := Option.some.inj (found.symm.trans there)
  exact made.yields_cellAt ranked selected

/-- Boxing the cells of an array gives the list of them, and reads no element. -/
theorem AreMajorCells.yields_boxCells [Blocks H] (major : array.AreMajorCells cells)
    (made : array.IsMade calling) (ranked : 2 ≤ array.rank) (some : array.count ≠ 0)
    (stamp inner : Nat) : ((Function.boxCells stamp inner).call (.array array) none).Yields calling
      (.ok (.array (.list cells))) := by
  have unboxed : array.rank ≠ 0 := by omega
  have small : cells.toList.length ≤ sizeLimit := by
    rw [Array.length_toList, major.size]
    exact (length_le_count unboxed some).trans (made.count_le (Nat.ne_of_gt ranked))
  have someCells : cells.toList ≠ [] := by simpa using major.ne_empty unboxed some
  have boxes : List.Forall₂ (fun position result => (do
      let cell ← array.cellAt position
      return cell.boxed : Action H Value).Yields calling (.ok result))
      (Shape.indices [array.length]) (cells.toList.map Value.boxed) := by
    rw [Shape.indices_singleton, List.forall₂_map_left_iff, List.forall₂_map_right_iff,
      List.forall₂_iff_get]
    refine ⟨by rw [List.length_range, Array.length_toList, major.size], fun index _ inside => ?_⟩
    have there : cells[index]? = .some (cells.toList.get ⟨index, inside⟩) := by
      simp
    intro memory
    rw [List.get_eq_getElem, List.getElem_range]
    exact Action.bind_of_ok (major.yields_cellAt made ranked there memory)
  have merged := @yields_merge_boxed H calling cells.toList someCells small
  intro memory
  change Operation.cells _ (.array array) none calling memory = _
  rw [Operation.cells_eq_along _ unboxed]
  refine (Action.bind_of_ok (Action.Yields.mapM boxes memory)).trans ?_
  rw [← major.size, ← Array.length_toList]
  exact Action.bind_of_ok (merged memory)

/-- Of an array with two axes or more, whatever its elements are, boxing the cells along the first
axis gives the list of these cells, as many as the array is long, and reads no element. Merging that
list gives the shape and the elements of the array again, if they can be read from every memory held
to; each is one that reading the array gives. -/
theorem IsMade.boxed_cells_merge [Blocks H] (calling : Call H) (held : Memory H → Prop)
    (stamp inner other : Nat) {array : ShapedArray} (made : array.IsMade calling)
    (ranked : 2 ≤ array.rank) : ∃ cells, array.AreMajorCells cells ∧
      (∀ memory, (Function.boxCells stamp inner).call (.array array) none calling memory =
        (.ok (.array (.list cells)), memory)) ∧
      (array.IsPickable calling held → ∀ memory, held memory → ∃ merged after, (do
          let boxes ← (Function.boxCells stamp inner).call (.array array) none
          (Function.mergeAll other).call boxes none : Action H Value) calling memory =
            (.ok (.array merged), after) ∧
        merged.IsReadOff calling held array) := by
  have some : array.count ≠ 0 := by
    intro none
    rw [rank, made.sound.empty none] at ranked
    exact absurd ranked (by decide)
  obtain ⟨cells, major, _⟩ := made.majorCells ranked some
  have boxes := major.yields_boxCells made ranked some stamp inner
  refine ⟨cells, major, boxes, fun pickable memory holds => ?_⟩
  obtain ⟨merged, after, ended, _, isReadOff⟩ := major.merge made ranked some pickable none holds
  have unboxed : array.rank ≠ 0 := by omega
  have axes : merged.rank ≠ 0 := by rwa [rank, isReadOff.shape]
  exact ⟨merged, after, (Action.bind_of_ok (boxes memory)).trans
    (Function.mergeAll_call other (major.ne_empty unboxed some) axes ended), isReadOff⟩

namespace Boxed

/-- A list and a box, one below the other. -/
def column : ShapedArray :=
  ofView .owned [2, 1] none (stored #[.list #[.number 1.0, .number 2.0], Value.boxed (.number 3.0)])

theorem column_made : column.IsMade Composed.calls :=
  .new (show new [2, 1] #[.list #[.number 1.0, .number 2.0], Value.boxed (.number 3.0)] =
    .ok column from rfl)

end Boxed

theorem IsMade.boxed_cells_merge_column : Boxed.column.IsMade Composed.calls ∧
    2 ≤ Boxed.column.rank ∧ Boxed.column.IsPickable Composed.calls (fun _ => True) ∧
    ∃ merged after, (do
        let boxes ← (Function.boxCells 2 0).call (.array Boxed.column) none
        (Function.mergeAll 1).call boxes none : Action (Heap (List Routine)) Value)
          Composed.calls Astray.store = (.ok (.array merged), after) ∧
      merged.IsReadOff Composed.calls (fun _ => True) Boxed.column := by
  have pickable : Boxed.column.IsPickable Composed.calls fun _ => True :=
    Rows.pickable_ofView .owned [2, 1] rfl
  obtain ⟨_, _, _, merges⟩ := IsMade.boxed_cells_merge Composed.calls (fun _ => True) 2 0 1
    Boxed.column_made (by decide)
  exact ⟨Boxed.column_made, by decide, pickable, merges pickable Astray.store trivial⟩

/-- Of a zip that counts how often it is read, the boxed cells are merged into what has been
counted by then, and it counts on when the two are compared. And boxed cells of a sum of letters
cannot be merged, since the sum cannot be read. -/
theorem IsMade.not_boxed_cells_merge :
    (Ranked.counted.IsMade Tally.calls ∧ 2 ≤ Ranked.counted.rank ∧ ((do
      let boxes ← (Function.boxCells 2 0).call (.array Ranked.counted) none
      let merged ← (Function.mergeAll 1).call boxes none
      merged.same (.array Ranked.counted) : Action (Heap (List Routine)) Bool)
        Tally.calls Tally.store).1 = .ok false) ∧
    Letters.sum.IsMade Composed.calls ∧ 2 ≤ Letters.sum.rank ∧ ((do
      let boxes ← (Function.boxCells 2 0).call (.array Letters.sum) none
      (Function.mergeAll 1).call boxes none : Action (Heap (List Routine)) Value)
        Composed.calls Tally.store).1.isOk = false :=
  ⟨⟨Ranked.counted_made, by decide, Outcome.eq_ok_of_toOption (by decide +kernel)⟩,
    Letters.sum_made, by decide, by decide +kernel⟩

end ShapedArray

end PointFree
