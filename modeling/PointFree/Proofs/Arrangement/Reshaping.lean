import PointFree.Primitive.Forms
import PointFree.Proofs.Arrangement.Reordering
import PointFree.Proofs.Restoring.Evaluation

/-!
Contract: reshaping there and back.

A reshape reads its parent around the end, at the index modulo the number of elements of the parent,
and is its parent where the shapes are the same. The shape of an array without axes has one element,
so it needs no case of its own. Two reshapes, one after the other, take two remainders, and none of
the two can be left out where neither number divides the other. The shape that the way back takes is
the shape of an array that is there, and is measured all the same: an array above the limit has no
way back.
-/

namespace PointFree

/-- The list of the lengths of axes. -/
def Value.ofShape (shape : Shape) : Value :=
  .list (shape.map Value.ofNat).toArray

namespace ShapedArray

variable {H : Type} {calling : Call H} {array between result : ShapedArray} {shape outer : Shape}

/-! ### One reshape -/

/-- The result has the axes, the fill of the array, and its elements around the end. -/
structure Recycles (array : ShapedArray) (axes : Shape) (result : ShapedArray) : Prop where
  shape : result.shape = axes
  fill : result.fill = array.fill
  elementAt : ∀ index < axes.size, result.elementAt index = array.elementAt (index % array.count)

theorem Recycles.count (recycles : array.Recycles shape result) : result.count = shape.size := by
  rw [ShapedArray.count, recycles.shape]

/-- An array with elements can be reshaped to every shape with elements, within the limit. -/
theorem exists_reshape (nonempty : array.count ≠ 0) (filled : 0 < shape.size)
    (small : shape.size ≤ sizeLimit) :
    ∃ result, array.reshape shape = .ok result ∧ array.Recycles shape result := by
  have elements : array.isEmpty = false := by simp [isEmpty, nonempty]
  have reshaped : array.reshape shape = if shape = array.shape then .ok array
      else .ok (ofView .reshape shape array.fill
        fun index => array.elementAt (index % array.count)) := by
    rw [reshape, measure_of_size filled small, elements]
    exact if_neg filled.ne'
  rw [reshaped]
  split
  · next same =>
      refine ⟨array, rfl, same.symm, rfl, fun index inside => ?_⟩
      rw [same] at inside
      rw [count, Nat.mod_eq_of_lt inside]
  · rw [ofView_of_filled filled.ne']
    exact ⟨_, rfl, rfl, rfl, fun index inside => if_pos inside⟩

/-! ### Two reshapes -/

theorem Recycles.elementAt_again (inner : array.Recycles shape between)
    (again : between.Recycles outer result) (filled : 0 < shape.size) {index : Nat}
    (inside : index < outer.size) :
    result.elementAt index = array.elementAt (index % shape.size % array.count) := by
  rw [again.elementAt index inside, inner.count]
  exact inner.elementAt _ (Nat.mod_lt index filled)

/-- Back under the shape of the array, the index modulo the size between is below the number of
elements, so that only one remainder is left. -/
theorem Recycles.elementAt_back (inner : array.Recycles shape between)
    (back : between.Recycles array.shape result) (filled : 0 < shape.size) {index : Nat}
    (inside : index < array.count) :
    result.elementAt index = array.elementAt (index % shape.size) := by
  rw [inner.elementAt_again back filled inside,
    Nat.mod_eq_of_lt (Nat.lt_of_le_of_lt (Nat.mod_le index _) inside)]

/-- Where every element fits into the shape between, the way back restores them all. -/
theorem Recycles.restores (inner : array.Recycles shape between)
    (back : between.Recycles array.shape result) (filled : 0 < shape.size)
    (fits : array.count ≤ shape.size) (index : Nat) :
    result.elementAt index = array.elementAt index := by
  by_cases inside : index < array.count
  · rw [inner.elementAt_back back filled inside, Nat.mod_eq_of_lt (Nat.lt_of_lt_of_le inside fits)]
  · rw [ShapedArray.elementAt, ShapedArray.elementAt, back.count]
    exact (if_neg inside).trans (if_neg inside).symm

/-! ### The primitives -/

theorem shapeOfNumbers_toFloat (filled : 0 < shape.size) (small : shape.size ≤ sizeLimit) :
    shapeOfNumbers (shape.map Nat.toFloat) = .ok (shape, shape.size) := by
  have axes : shape.mapM (axisOfNumber ∘ Nat.toFloat) = .ok (shape.map id) := by
    refine Outcome.mapM_eq_ok fun axis member => ?_
    obtain ⟨positive, below⟩ := Shape.axis_le_size filled member
    have exact : axis ≤ exactLimit := (below.trans small).trans (by decide)
    have fits : axis ≤ indexMax := exact.trans (by decide)
    rw [Function.comp, axisOfNumber, Decimal.toInt?_toFloat exact]
    dsimp only
    rw [if_neg (by omega), Int.toNat_natCast, Nat.min_eq_left fits]
    rfl
  rw [shapeOfNumbers, List.mapM_map, axes, List.map_id]
  change (measure shape).bind _ = _
  rw [measure_of_size filled small]
  rfl

theorem yields_shape (calling : Call H) (array : ShapedArray) :
    (Primitive.shape.apply (.array array) none : Action H Value).Yields calling
      (.ok (.ofShape array.shape)) :=
  fun _ => rfl

/-- Reshaping by the lengths of axes makes the reshape. -/
theorem yields_reshape_ofShape (filled : 0 < shape.size) (small : shape.size ≤ sizeLimit)
    (reshaped : array.reshape shape = .ok result) :
    (Primitive.reshape.apply (.array array) (some (.ofShape shape)) : Action H Value).Yields calling
      (.ok (.array result)) := by
  have numbers := yields_dimensions calling (shape.map Nat.toFloat)
  rw [List.map_map] at numbers
  intro memory
  refine (Action.bind_of_ok (numbers memory)).trans ?_
  rw [shapeOfNumbers_toFloat filled small]
  refine (Action.bind_of_ok rfl).trans ?_
  change (do
    let reshaped ← array.reshape shape
    return Value.array reshaped : Action H Value) calling memory = _
  rw [reshaped]
  rfl

/-- An array with elements, and no more of them than the limit, can be reshaped to every shape of
positive axes within the limit, and the result back to the shape of the array. What comes back has
the elements of the array at the index modulo the size between, which are all its elements if they
fit into the shape between. A further shape in the place of the old one reads the element at the
index modulo the size between, modulo the number of elements. The primitives do both steps, and find
the shape of the array for the way back. -/
theorem reshape_restores (nonempty : array.count ≠ 0) (bounded : array.count ≤ sizeLimit)
    (positive : ∀ axis ∈ shape, 0 < axis) (small : shape.size ≤ sizeLimit) :
    ∃ between restored, array.reshape shape = .ok between ∧
      between.reshape array.shape = .ok restored ∧
      restored.shape = array.shape ∧ restored.fill = array.fill ∧
      (∀ index < array.count,
        restored.elementAt index = array.elementAt (index % shape.size)) ∧
      (array.count ≤ shape.size →
        ∀ index, restored.elementAt index = array.elementAt index) ∧
      (∀ outer, (∀ axis ∈ outer, 0 < axis) → outer.size ≤ sizeLimit →
        ∃ result, between.reshape outer = .ok result ∧ result.shape = outer ∧
          ∀ index < outer.size,
            result.elementAt index = array.elementAt (index % shape.size % array.count)) ∧
      ∀ calling : Call H, (do
        let reshaped ← Primitive.reshape.apply (.array array) (some (.ofShape shape))
        let axes ← Primitive.shape.apply (.array array) none
        Primitive.reshape.apply reshaped (some axes) : Action H Value).Yields calling
          (.ok (.array restored)) := by
  have filled := Shape.size_pos positive
  obtain ⟨between, reshaped, inner⟩ := exists_reshape nonempty filled small
  have nonemptyBetween : between.count ≠ 0 := inner.count.trans_ne filled.ne'
  obtain ⟨restored, again, back⟩ := exists_reshape nonemptyBetween (Nat.pos_of_ne_zero nonempty) bounded
  refine ⟨between, restored, reshaped, again, back.shape, back.fill.trans inner.fill,
    fun index inside => inner.elementAt_back back filled inside,
    fun fits => inner.restores back filled fits, fun outer positive small => ?_,
    fun calling => ?_⟩
  · obtain ⟨result, once, further⟩ := exists_reshape nonemptyBetween (Shape.size_pos positive) small
    exact ⟨result, once, further.shape,
      fun index inside => inner.elementAt_again further filled inside⟩
  · intro memory
    rw [Action.bind_of_ok (yields_reshape_ofShape filled small reshaped memory),
      Action.bind_of_ok (yields_shape calling array memory)]
    exact yields_reshape_ofShape (Nat.pos_of_ne_zero nonempty) bounded again memory

namespace Recycled

/-- Five elements, which four and seven do not divide. -/
def letters : ShapedArray :=
  .list #[.character 'a', .character 'b', .character 'c', .character 'd', .character 'e']

end Recycled

theorem reshape_restores_letters : Recycled.letters.count ≠ 0 ∧
    Recycled.letters.count ≤ sizeLimit ∧ (∀ axis ∈ [2, 2], 0 < axis) ∧
    Shape.size [2, 2] ≤ sizeLimit ∧
    ∃ between restored, Recycled.letters.reshape [2, 2] = .ok between ∧
      between.reshape [5] = .ok restored ∧
      restored.elementAt 4 = .value (.character 'a') ∧
      ∃ result, between.reshape [7] = .ok result ∧
        result.elementAt 6 = .value (.character 'c') := by
  have positive : ∀ axis ∈ [2, 2], 0 < axis := by decide
  have nonempty : Recycled.letters.count ≠ 0 := by decide
  obtain ⟨between, restored, reshaped, again, _, _, elements, _, nested, _⟩ :=
    reshape_restores (H := Heap (List Routine)) nonempty (by decide) positive (by decide)
  obtain ⟨result, once, _, further⟩ := nested [7] (by decide) (by decide)
  exact ⟨nonempty, by decide, positive, by decide, between, restored, reshaped, again,
    elements 4 (by decide), result, once, further 6 (by decide)⟩

/-- A list above the limit can be reshaped to one element, and not back to its own shape. -/
theorem not_reshape_restores : ∃ long : ShapedArray, long.IsMade Composed.calls ∧
    long.count ≠ 0 ∧ ∃ between, long.reshape [1] = .ok between ∧
      ∀ restored, between.reshape long.shape ≠ .ok restored := by
  have size : (ShapedArray.list (Array.replicate (sizeLimit + 1) (.number 0.0))).count =
      sizeLimit + 1 := by
    rw [count_list, Array.size_replicate]
  have nonempty : (ShapedArray.list (Array.replicate (sizeLimit + 1) (.number 0.0))).count ≠ 0 := by
    rw [size]
    exact Nat.succ_ne_zero sizeLimit
  have single : 0 < Shape.size [1] := Nat.one_pos
  obtain ⟨between, reshaped, _⟩ := exists_reshape nonempty single (by decide)
  refine ⟨_, .list _, nonempty, between, reshaped, fun restored again => ?_⟩
  obtain ⟨_, measured, _⟩ := Outcome.bind_eq_ok.1 again
  have small := size_le_of_measure measured
  rw [← count, size] at small
  exact absurd small (Nat.not_succ_le_self sizeLimit)

end ShapedArray

end PointFree
