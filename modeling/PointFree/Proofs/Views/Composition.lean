import PointFree.Proofs.Settling
import PointFree.Proofs.Views
import PointFree.Proofs.Views.Selection

/-!
Contract: views over views.

Selecting in a cell, slicing a run of cells and gathering out of a gather come to one view over the
array, which reads the same elements. That the one gather can be made takes indices that name the
same places whenever they are read, since making it reads the first indices through the second ones,
which nothing did before.
-/

namespace PointFree.ShapedArray

variable {H : Type} {calling : Call H} {array result : ShapedArray}

/-! ### Gathers -/

/-- Reading an element below the count ends in one way whenever it is read, and does nothing
else. -/
def ReadsSteadily (calling : Call H) (array : ShapedArray) : Prop :=
  ∀ index < array.count, ∃ outcome, (array.pick index).Yields calling outcome

/-- Every element names one of so many places whenever it is read. -/
def NamesPlaces (calling : Call H) (indices : ShapedArray) (count : Nat) : Prop :=
  ∀ index < indices.count, ∃ named place,
    (indices.pick index).Yields calling (.ok named) ∧ named.toPlace count = .ok place

/-- What a gather makes of its parent and its indices. -/
def gatherView (array indices : ShapedArray) : ShapedArray :=
  ofView .gather indices.shape array.fill fun index => array.elementNamed (indices.elementAt index)

/-- The two arrays have one shape and one fill, and reading an element of either does the same. -/
structure ReadsLike (calling : Call H) (array array' : ShapedArray) : Prop where
  shape : array.shape = array'.shape
  fill : array.fill = array'.fill
  pick : ∀ index < array.count, array.pick index calling = array'.pick index calling

section Gathers

variable {indices places : ShapedArray} {memory after : Memory H}

theorem count_gatherView : (array.gatherView indices).count = indices.count :=
  count_ofView ..

theorem gatherView_of_filled (array : ShapedArray) (filled : indices.count ≠ 0) :
    (array.gatherView indices).shape = indices.shape ∧
      (array.gatherView indices).fill = array.fill := by
  rw [gatherView, ofView_of_filled filled]
  exact ⟨rfl, rfl⟩

theorem pick_gatherView {index : Nat} (inside : index < indices.count) :
    ((array.gatherView indices).pick index : Action H Value) = (do
      let named ← indices.pick index
      let place ← named.toPlace array.count
      (array.element place).force) := by
  rw [gatherView, pick_ofView _ _ _ _ _ inside, force_elementNamed]
  rfl

/-- A gather through steady indices is made where every index names a place, and changes
nothing. -/
theorem ReadsSteadily.of_gather (steady : indices.ReadsSteadily calling)
    (gathered : array.gather indices calling memory = (.ok result, after)) :
    after = memory ∧ indices.NamesPlaces calling array.count ∧
      (∃ size, measure indices.shape = .ok size) ∧ result = array.gatherView indices := by
  have : Nonempty (Outcome Value) := ⟨.ok .nil⟩
  choose! outcome yields using steady
  have checks (index : Nat) (inside : index < indices.count) : (do
      let named ← indices.pick index
      named.toPlace array.count : Action H Nat).Yields calling
        ((outcome index).bind fun named => named.toPlace array.count) :=
    (yields index inside).bind fun named _ => Action.yields_ofOutcome (named.toPlace array.count)
  have made : (array.gather indices).Yields calling _ :=
    (Action.Yields.collect checks).bind fun _ _ => Action.yields_ofOutcome _
  obtain ⟨ended, rfl⟩ := Prod.mk.inj ((made memory).symm.trans gathered)
  obtain ⟨named, collected, built⟩ := Outcome.bind_eq_ok.1 ended
  obtain ⟨size, measured, rfl⟩ := Outcome.map_eq_ok.1 built
  refine ⟨rfl, fun index inside => ?_, ⟨size, measured⟩, rfl⟩
  obtain ⟨length, items⟩ := (collect_eq_ok _ _ _).1 collected
  obtain ⟨value, isValue, isPlace⟩ := Outcome.bind_eq_ok.1 (items index (length.symm ▸ inside))
  exact ⟨value, _, isValue ▸ yields index inside, isPlace⟩

theorem NamesPlaces.gather (names : indices.NamesPlaces calling array.count) {size : Nat}
    (measured : measure indices.shape = .ok size) :
    (array.gather indices).Yields calling (.ok (array.gatherView indices)) := by
  choose! named place yields isPlace using names
  have checks (index : Nat) (inside : index < indices.count) (memory : Memory H) : (do
      let named ← indices.pick index
      named.toPlace array.count : Action H Nat) calling memory = (.ok (place index), memory) := by
    rw [Action.bind_of_ok (yields index inside memory), isPlace index inside]
    rfl
  intro memory
  have collected := collectFrom_of_pure
    (fun index (_ : 0 ≤ index) (below : index < 0 + indices.count) => checks index (by omega)) #[]
    memory
  refine (Action.bind_of_ok collected).trans ?_
  rw [build, measured]
  rfl

/-- Indices that are gathered out of others name what those name. -/
theorem NamesPlaces.through (names : indices.NamesPlaces calling array.count)
    (chosen : places.NamesPlaces calling indices.count) :
    (indices.gatherView places).NamesPlaces calling array.count := by
  intro index inside
  rw [count_gatherView] at inside
  obtain ⟨named, place, reads, isPlace⟩ := chosen index inside
  have below := Value.toPlace_lt isPlace
  obtain ⟨value, found, yields, isFound⟩ := names place below
  refine ⟨value, found, fun memory => ?_, isFound⟩
  rw [pick_gatherView inside, Action.bind_of_ok (reads memory), isPlace]
  rw [pick_of_lt below] at yields
  exact yields memory

/-- A gather out of a gather reads like the gather through the gathered indices. -/
theorem NamesPlaces.gatherView_gatherView (chosen : places.NamesPlaces calling indices.count) :
    ((array.gatherView indices).gatherView places).ReadsLike calling
      (array.gatherView (indices.gatherView places)) := by
  by_cases none : places.count = 0
  · have left : (array.gatherView indices).gatherView places = ShapedArray.nil := if_pos none
    have right : array.gatherView (indices.gatherView places) = ShapedArray.nil :=
      if_pos (count_gatherView.trans none)
    rw [left, right]
    exact ⟨rfl, rfl, fun _ _ => rfl⟩
  obtain ⟨_, _, _, isPlace⟩ := chosen 0 (Nat.pos_of_ne_zero none)
  have some : indices.count ≠ 0 := Nat.ne_of_gt (Nat.zero_lt_of_lt (Value.toPlace_lt isPlace))
  obtain ⟨outerShape, outerFill⟩ := gatherView_of_filled array some
  obtain ⟨innerShape, _⟩ := gatherView_of_filled indices none
  obtain ⟨leftShape, leftFill⟩ := gatherView_of_filled (array.gatherView indices) none
  obtain ⟨rightShape, rightFill⟩ := gatherView_of_filled array
    (count_gatherView.trans_ne none : (indices.gatherView places).count ≠ 0)
  refine ⟨leftShape.trans (rightShape.trans innerShape).symm,
    (leftFill.trans outerFill).trans rightFill.symm, fun index inside => ?_⟩
  rw [count_gatherView] at inside
  obtain ⟨named, place, reads, isPlace⟩ := chosen index inside
  have below := Value.toPlace_lt isPlace
  have there : ((array.gatherView indices).element place).force = (do
      let named ← indices.pick place
      let place ← named.toPlace array.count
      (array.element place).force : Action H Value) := by
    rw [← pick_of_lt (count_gatherView.symm ▸ below), pick_gatherView below]
  rw [pick_of_lt below] at there
  rw [pick_gatherView inside, pick_gatherView (count_gatherView.symm ▸ inside),
    pick_gatherView inside, count_gatherView, bind_assoc]
  funext memory
  rw [Action.bind_of_ok (reads memory), Action.bind_of_ok (reads memory), isPlace]
  exact congrFun (congrFun there calling) memory

/-- The gather through the gathered indices can be made if the two gathers can, and the indices
are steady. -/
theorem ReadsSteadily.gather_gather (steady : indices.ReadsSteadily calling)
    (steadily : places.ReadsSteadily calling)
    (gathered : (do
      let chosen ← array.gather indices
      chosen.gather places : Action H ShapedArray) calling memory = (.ok result, after)) :
    ∃ whole, (do
      let chosen ← indices.gather places
      array.gather chosen : Action H ShapedArray) calling memory = (.ok whole, after) ∧
      result.ReadsLike calling whole := by
  rcases first : array.gather indices calling memory with ⟨failure | chosen, between⟩
  · rw [Action.bind_of_error first] at gathered
    cases gathered
  rw [Action.bind_of_ok first] at gathered
  obtain ⟨rfl, names, _, rfl⟩ := steady.of_gather first
  obtain ⟨rfl, named, ⟨size, measured⟩, rfl⟩ := steadily.of_gather gathered
  rw [count_gatherView] at named
  refine ⟨array.gatherView (indices.gatherView places), ?_, named.gatherView_gatherView⟩
  have isMeasured : (indices.gatherView places).IsMeasured := isMeasured_ofView measured
  obtain ⟨size, measured'⟩ := isMeasured
  exact (Action.bind_of_ok (named.gather measured after)).trans
    ((names.through named).gather measured' after)

end Gathers

/-! ### All views -/

/-- Views over an array that operations have made compose. Selecting in a cell is selecting in the
array, where an array above the limit may not be built again; the elements of a cell are those of
the array from the place of the cell on; a run of cells out of a run is a run of the array; and a
gather out of a gather through indices that are steady is the gather through the gathered
indices. -/
theorem IsMade.views_compose (made : array.IsMade calling) :
    (∀ outer inner : List Nat,
      ((∃ cell, array.selectRank outer = .ok cell ∧
          ∃ result, cell.selectRank inner = .ok result) ↔
        (∃ whole, array.selectRank (outer ++ inner) = .ok whole) ∧
          (outer = [] → array.count ≤ sizeLimit)) ∧
      ∀ cell result whole, array.selectRank outer = .ok cell → cell.selectRank inner = .ok result →
        array.selectRank (outer ++ inner) = .ok whole → result.Coincides whole) ∧
    (∀ position cell, array.selectRank position = .ok cell →
      cell.shape = array.shape.drop position.length ∧ cell.fill = array.fill ∧
      ∀ index < cell.count,
        cell.elementAt index = array.elementAt (array.shape.place position + index)) ∧
    (∀ start extent start' extent' run result, array.slice start extent = .ok run →
      run.slice start' extent' = .ok result →
      ∃ whole, array.slice (start + start') extent' = .ok whole ∧ result.Coincides whole) ∧
    ∀ indices places, indices.ReadsSteadily calling → places.ReadsSteadily calling →
      ∀ memory result after, (do
        let gathered ← array.gather indices
        gathered.gather places : Action H ShapedArray) calling memory = (.ok result, after) →
      ∃ whole, (do
        let chosen ← indices.gather places
        array.gather chosen : Action H ShapedArray) calling memory = (.ok whole, after) ∧
        result.ReadsLike calling whole :=
  ⟨fun outer inner => ⟨made.selectRank_append outer inner,
      fun _ _ _ selected again once => made.selectRank_coincides selected again once⟩,
    fun _ _ selected => made.selectRank_reads selected,
    fun _ _ _ _ _ _ first second => made.slice_slice first second,
    fun _ _ steady steadily _ _ _ gathered => steady.gather_gather steadily gathered⟩

namespace Composed

abbrev calls : Call (Heap (List Routine)) :=
  callAt callBudget

def numbers : Array Value :=
  #[.number 1.0, .number 2.0, .number 3.0, .number 4.0]

/-- Two rows of two numbers. -/
def grid : ShapedArray :=
  .ofView .owned [2, 2] none (stored numbers)

theorem grid_made : grid.IsMade calls :=
  .new (show new [2, 2] numbers = .ok grid from rfl)

def switched : ShapedArray :=
  .list #[.number 1.0, .number 0.0]

theorem list_steady (elements : Array Value) : (list elements).ReadsSteadily calls := by
  intro index inside
  rw [count_list] at inside
  refine ⟨.ok elements[index], fun memory => ?_⟩
  rw [pick, elementAt_list inside]
  rfl

end Composed

theorem IsMade.views_compose_grid : Composed.grid.IsMade Composed.calls ∧
    (∃ cell result whole, Composed.grid.selectRank [1] = .ok cell ∧
      cell.selectRank [0] = .ok result ∧ Composed.grid.selectRank [1, 0] = .ok whole ∧
      result.Coincides whole ∧ cell.elementAt 1 = Composed.grid.elementAt 3) ∧
    (∃ run result whole, Composed.grid.slice 0 2 = .ok run ∧ run.slice 1 1 = .ok result ∧
      Composed.grid.slice 1 1 = .ok whole ∧ result.Coincides whole) ∧
    Composed.switched.ReadsSteadily Composed.calls ∧
    ∃ result whole after, (do
        let gathered ← Composed.grid.gather Composed.switched
        gathered.gather Composed.switched : Action (Heap (List Routine)) ShapedArray)
          Composed.calls Astray.store = (.ok result, after) ∧
      (do
        let chosen ← Composed.switched.gather Composed.switched
        Composed.grid.gather chosen : Action (Heap (List Routine)) ShapedArray)
          Composed.calls Astray.store = (.ok whole, after) ∧
      result.ReadsLike Composed.calls whole := by
  obtain ⟨select, cells, slices, gathers⟩ := IsMade.views_compose Composed.grid_made
  refine ⟨Composed.grid_made, ?_, ?_, Composed.list_steady _, ?_⟩
  · have isCell : Composed.grid.selectRank [1] = .ok (ofView .slice [2] none fun index =>
        Composed.grid.elementAt (2 + index)) := rfl
    have once : Composed.grid.selectRank [1, 0] = .ok (ofView .slice [] none fun index =>
        Composed.grid.elementAt (2 + index)) := rfl
    obtain ⟨cell, selected, result, again⟩ := ((select [1] [0]).1).2 ⟨⟨_, once⟩, nofun⟩
    refine ⟨cell, result, _, selected, again, once,
      (select [1] [0]).2 _ _ _ selected again once, ?_⟩
    obtain ⟨shape, _, element⟩ := cells [1] cell selected
    exact element 1 (by rw [count, shape]; decide)
  · have whole : Composed.grid.slice 0 2 = .ok Composed.grid := rfl
    have row : Composed.grid.slice 1 1 = .ok (ofView .slice [1, 2] none fun index =>
        Composed.grid.elementAt (2 + index)) := rfl
    obtain ⟨once, isOnce, coincides⟩ := slices 0 2 1 1 _ _ whole row
    exact ⟨_, _, once, whole, row, isOnce, coincides⟩
  · have succeeds : ((do
        let gathered ← Composed.grid.gather Composed.switched
        gathered.gather Composed.switched : Action (Heap (List Routine)) ShapedArray)
          Composed.calls Astray.store).1.isOk = true := by
      decide +kernel
    rcases gathered : (do
        let gathered ← Composed.grid.gather Composed.switched
        gathered.gather Composed.switched : Action (Heap (List Routine)) ShapedArray)
          Composed.calls Astray.store with ⟨failure | result, after⟩
    · rw [gathered] at succeeds
      cases succeeds
    · obtain ⟨whole, once, alike⟩ :=
        gathers _ _ (Composed.list_steady _) (Composed.list_steady _) _ _ _ gathered
      exact ⟨result, whole, after, rfl, once, alike⟩

/-- A list above the limit has cells, and may not be selected as a whole. A gather whose index is
computed at each reading, as zero first and then as seven, can be gathered from twice; the gather
through the indices taken out of that index fails, because it reads the index again. -/
theorem IsMade.views_not_compose :
    (∃ long : ShapedArray, long.IsMade Astray.calls ∧
      (∀ cell, long.selectRank [] ≠ .ok cell) ∧ ∃ whole, long.selectRank ([] ++ [0]) = .ok whole) ∧
    Astray.numbers.IsMade Astray.calls ∧ Astray.indices.IsMade Astray.calls ∧
    ∃ places : ShapedArray, places.IsMade Astray.calls ∧
      ((do
        let gathered ← Astray.numbers.gather Astray.indices
        gathered.gather places : Action (Heap (List Routine)) ShapedArray)
          Astray.calls Astray.store).1.isOk = true ∧
      ((do
        let chosen ← Astray.indices.gather places
        Astray.numbers.gather chosen : Action (Heap (List Routine)) ShapedArray)
          Astray.calls Astray.store).1.isOk = false := by
  refine ⟨⟨ShapedArray.list (Array.replicate (sizeLimit + 1) (.number 0.0)), .list _, ?_, ?_⟩,
    .list _, Astray.indices_made, ShapedArray.list #[.number 0.0, .number 0.0], .list _, ?_, ?_⟩
  · intro cell selected
    obtain ⟨_, ⟨size, measured⟩, _⟩ := selectRank_eq_ok_iff.1 selected
    have small := size_le_of_measure measured
    rw [List.length_nil, List.drop_zero, shape_list, size_singleton, Array.size_replicate] at small
    exact absurd small (Nat.not_succ_le_self sizeLimit)
  · refine ⟨_, selectRank_eq_ok_iff.2 ⟨?_, ⟨1, ?_⟩, rfl⟩⟩
    · rw [shape_list]
      exact .cons (by rw [Array.size_replicate]; exact Nat.succ_pos sizeLimit) .nil
    · rw [shape_list]
      rfl
  · decide +kernel
  · decide +kernel

end PointFree.ShapedArray
