import PointFree.Proofs.Constancy
import PointFree.Proofs.Merging.Inverse
import PointFree.Proofs.Ranking.Frames
import PointFree.Proofs.Views.Selection

/-!
Contract: cells in another order.

An arrangement of an array has, at each place of an outer shape, the major cell that a source names
there. Nothing is read to say what it is, so it stands beside every way to build it: through indices,
or by laying cells together. An arrangement of an arrangement takes the one source after the other,
and the arrangement that leaves every cell where it is comes to the array.

Where the elements of items always read the same, so that the items are the cells of an array in
order, a merge under the outer axes of the array gives a copy of it. What may differ is how the
elements come about: the merge has stored what it has read. An array above the limit is refused for
its shape, whatever its items are.
-/

namespace PointFree.ShapedArray

variable {H : Type} {calling : Call H} {held : Memory H → Prop}
variable {array copy original : ShapedArray} {source source' : Nat → Nat} {outer : Shape}

/-- The major cells that the source names, at the places of the outer shape. -/
def arranged (array : ShapedArray) (source : Nat → Nat) (outer : Shape) : ShapedArray :=
  ofView .gather (outer ++ array.shape.tail) array.fill fun index =>
    array.elementAt (source (index / array.shape.cellSize) * array.shape.cellSize +
      index % array.shape.cellSize)

/-! ### Views with the same elements -/

theorem isCopyOf_ofView {view view' : View} {shape : Shape} {fill : Option Value}
    {element element' : Nat → Element} (same : ∀ index < shape.size,
      ((element index).force : Action H Value).EndsLike calling held (element' index).force) :
    (ofView view shape fill element).IsCopyOf calling held (ofView view' shape fill element') where
  shape := by rw [shape_ofView, shape_ofView]
  fill := by
    unfold ofView
    split <;> rfl
  pick index inside := by
    rw [count_ofView] at inside
    rw [pick_ofView _ _ _ _ _ inside, pick_ofView _ _ _ _ _ inside]
    exact same index inside

/-! ### Elements of arrangements -/

theorem cellSize_of_list (list : array.rank = 1) : array.shape.cellSize = 1 := by
  obtain ⟨axis, shape⟩ := List.length_eq_one_iff.1 list
  rw [shape]
  rfl

theorem size_append_tail (outer shape : Shape) :
    Shape.size (outer ++ shape.tail) = outer.size * shape.cellSize :=
  Shape.size_append ..

theorem count_arranged :
    (array.arranged source outer).count = outer.size * array.shape.cellSize := by
  rw [arranged, count_ofView, size_append_tail]

theorem elementAt_arranged {index : Nat} (inside : index < outer.size * array.shape.cellSize) :
    (array.arranged source outer).elementAt index =
      array.elementAt (source (index / array.shape.cellSize) * array.shape.cellSize +
        index % array.shape.cellSize) := by
  rw [arranged, elementAt_ofView _ _ _ _ _ (by rwa [size_append_tail])]

/-- An arrangement that has elements has the outer axes before those of the cells. -/
theorem arranged_of_filled (filled : outer.size ≠ 0) (some : array.shape.cellSize ≠ 0) :
    (array.arranged source outer).shape = outer ++ array.shape.tail ∧
      (array.arranged source outer).fill = array.fill := by
  have several : Shape.size (outer ++ array.shape.tail) ≠ 0 := by
    rw [size_append_tail]
    exact Nat.mul_ne_zero filled some
  rw [arranged, ofView_of_filled several]
  exact ⟨rfl, rfl⟩

/-- Cells have elements: an array without elements has no cells. -/
theorem IsMade.cellSize_ne_zero (made : array.IsMade calling) (ranked : array.rank ≠ 0) :
    array.shape.cellSize ≠ 0 := by
  by_cases none : array.count = 0
  · rw [made.sound.empty none]
    decide
  · rw [count_eq_length_mul ranked] at none
    exact (Nat.mul_ne_zero_iff.1 none).2

/-! ### Places and offsets -/

theorem place_offset_lt {places cell index : Nat} (inside : index < places * cell) :
    index / cell < places ∧ index % cell < cell := by
  have filled : 0 < cell := Nat.pos_of_ne_zero fun none => by simp [none] at inside
  exact ⟨(Nat.div_lt_iff_lt_mul filled).2 inside, Nat.mod_lt index filled⟩

theorem lt_of_place_offset {places cell place offset : Nat} (inside : place < places)
    (within : offset < cell) : place * cell + offset < places * cell := by
  calc place * cell + offset
      < place * cell + cell := Nat.add_lt_add_left within _
    _ = (place + 1) * cell := (Nat.succ_mul ..).symm
    _ ≤ places * cell := Nat.mul_le_mul_right _ inside

theorem place_of_offset {cell place offset : Nat} (within : offset < cell) :
    (place * cell + offset) / cell = place := by
  have filled : 0 < cell := Nat.zero_lt_of_lt within
  rw [Nat.mul_comm, Nat.mul_add_div filled, Nat.div_eq_of_lt within, Nat.add_zero]

/-- The elements of a cell lie within the array. -/
theorem cell_lt (ranked : array.rank ≠ 0) {place offset : Nat} (inside : place < array.length)
    (within : offset < array.shape.cellSize) :
    place * array.shape.cellSize + offset < array.count := by
  rw [count_eq_length_mul ranked]
  exact lt_of_place_offset inside within

/-! ### Arrangements of arrangements -/

theorem arranged_congr (same : ∀ place < outer.size, source place = source' place) :
    (array.arranged source outer).IsCopyOf calling held (array.arranged source' outer) := by
  refine isCopyOf_ofView fun index inside => ?_
  rw [size_append_tail] at inside
  rw [same _ (place_offset_lt inside).1]
  exact .refl _

theorem IsCopyOf.arranged (isCopy : copy.IsCopyOf calling held original)
    (ranked : original.rank ≠ 0) (below : ∀ place < outer.size, source place < original.length) :
    (copy.arranged source outer).IsCopyOf calling held (original.arranged source outer) := by
  rw [ShapedArray.arranged, isCopy.shape, isCopy.fill]
  refine isCopyOf_ofView fun index inside => ?_
  rw [size_append_tail] at inside
  obtain ⟨place, offset⟩ := place_offset_lt inside
  exact isCopy.pick _ (cell_lt ranked (below _ place) offset)

/-- An arrangement out of a list of cells takes one source after the other. -/
theorem arranged_arranged {length : Nat} (some : array.shape.cellSize ≠ 0)
    (below : ∀ place < outer.size, source' place < length) :
    ((array.arranged source [length]).arranged source' outer).IsCopyOf calling held
      (array.arranged (source ∘ source') outer) := by
  -- Under an outer shape without places both are the empty array, whatever the sources name.
  by_cases none : outer.size = 0
  · have empty (shape : Shape) : (outer ++ shape).size = 0 := by
      rw [Shape.size_append, none, Nat.zero_mul]
    have both : (array.arranged source [length]).arranged source' outer =
        array.arranged (source ∘ source') outer :=
      (if_pos (empty _)).trans (if_pos (empty _)).symm
    rw [both]
    exact .refl _
  · have several : length ≠ 0 :=
      Nat.ne_of_gt (Nat.zero_lt_of_lt (below 0 (Nat.pos_of_ne_zero none)))
    obtain ⟨shape, fill⟩ := @arranged_of_filled array source [length]
      (by rwa [size_singleton]) some
    have cell : (array.arranged source [length]).shape.cellSize = array.shape.cellSize := by
      rw [shape]
      rfl
    rw [ShapedArray.arranged, cell, shape, fill]
    refine isCopyOf_ofView fun index inside => ?_
    rw [List.singleton_append, List.tail_cons, size_append_tail] at inside
    obtain ⟨place, offset⟩ := place_offset_lt inside
    have within := lt_of_place_offset (below _ place) offset
    rw [elementAt_arranged (by rwa [size_singleton]), place_of_offset offset,
      Nat.mul_add_mod_of_lt offset]
    exact .refl _

/-- Leaving every cell where it is comes to the array. -/
theorem IsMade.isCopyOf_arranged (made : array.IsMade calling) (ranked : array.rank ≠ 0) :
    array.IsCopyOf calling held (array.arranged id [array.length]) := by
  by_cases none : array.count = 0
  · rw [made.sound.empty none]
    exact .refl _
  · have product := count_eq_length_mul ranked
    rw [product] at none
    obtain ⟨several, some⟩ := Nat.mul_ne_zero_iff.1 none
    obtain ⟨shape, fill⟩ := @arranged_of_filled array id [array.length]
      (by rwa [size_singleton]) some
    refine ⟨(shape_eq_cons ranked).symm.trans shape.symm, fill.symm, fun index inside => ?_⟩
    rw [count_arranged] at inside
    rw [pick, pick, elementAt_arranged inside, id, Nat.div_add_mod']
    exact .refl _

end PointFree.ShapedArray

namespace PointFree

variable {H : Type} {calling : Call H} {held : Memory H → Prop}

namespace ShapedArray

variable {array original : ShapedArray} {items leading trailing : Array Value}
variable {inner outer : Shape} {values : Nat → Value}

/-- The item has the inner shape, and its elements are the values from `start` on. -/
structure IsCellFrom (calling : Call H) (held : Memory H → Prop) (inner : Shape)
    (values : Nat → Value) (start : Nat) (item : Value) : Prop where
  shape : item.shape = inner
  reads : item.toArray.HasValues calling held fun offset => values (start + offset)

/-- Item by item, the elements are the values in order. -/
def AreCells (calling : Call H) (held : Memory H → Prop) (inner : Shape) (values : Nat → Value)
    (items : Array Value) : Prop :=
  ∀ (place : Nat) (inside : place < items.size),
    IsCellFrom calling held inner values (place * inner.size) items[place]

theorem AreCells.append (first : AreCells calling held inner values leading)
    (second : AreCells calling held inner
      (fun index => values (leading.size * inner.size + index)) trailing) :
    AreCells calling held inner values (leading ++ trailing) := by
  intro place inside
  by_cases early : place < leading.size
  · rw [Array.getElem_append_left early]
    exact first place early
  · have late : leading.size ≤ place := Nat.le_of_not_lt early
    have within : place - leading.size < trailing.size := by
      rw [Array.size_append] at inside
      omega
    rw [Array.getElem_append_right late]
    refine ⟨(second _ within).shape, fun offset below => ?_⟩
    have reads := (second _ within).reads offset below
    beta_reduce at reads
    rwa [← Nat.add_assoc, ← Nat.add_mul, Nat.add_sub_of_le late] at reads

/-- What is foretold of an item whose elements are the values from `start` on. -/
def cellAppearance (inner : Shape) (values : Nat → Value) (start : Nat) : Appearance Value :=
  ⟨inner, (List.range inner.size).map fun offset => some (values (start + offset))⟩

theorem IsCellFrom.readsAs {item : Value} {start : Nat} (filled : inner.size ≠ 0)
    (isCell : IsCellFrom calling held inner values start item) :
    item.ReadsAs calling held Eq (cellAppearance inner values start) where
  shape := isCell.shape
  length := by simp [cellAppearance]
  empty none := absurd none filled
  element index inside := by
    simp only [cellAppearance, List.length_map, List.length_range] at inside
    simp only [cellAppearance, List.getElem_map, List.getElem_range]
    refine (isCell.reads index ?_).settles
    rwa [Value.count_toArray, isCell.shape]

/-- The values of so many cells of one size, in order. -/
def rowOf (places extent : Nat) (values : Nat → Value) : List Value :=
  (List.range places).flatMap fun place =>
    (List.range extent).map fun offset => values (place * extent + offset)

theorem length_rowOf (places extent : Nat) (values : Nat → Value) :
    (rowOf places extent values).length = places * extent := by
  simp [rowOf, List.length_flatMap]

theorem getElem?_rowOf {places extent index : Nat} (inside : index < places * extent) :
    (rowOf places extent values)[index]? = some (values index) := by
  obtain ⟨place, offset⟩ := place_offset_lt inside
  have lengths : ∀ place ∈ List.range places,
      ((List.range extent).map fun offset => values (place * extent + offset)).length = extent :=
    fun _ _ => by simp
  have found := Shape.getElem?_flatMap lengths (index / extent) offset
  rw [Nat.div_add_mod'] at found
  rw [rowOf, found, List.getElem?_range place, Option.bind_some, List.getElem?_map,
    List.getElem?_range offset, Option.map_some, Nat.div_add_mod']

theorem measure_of_large {shape : Shape} (large : sizeLimit < shape.size) :
    measure shape = refuse (.shapeTooLarge shape) := by
  cases sized : shape.measured? with
  | some size =>
      have measured : measure shape = .ok size := by rw [measure, sized]
      exact absurd (size_le_of_measure measured) (Nat.not_le_of_lt large)
  | none => rw [measure, sized]

/-! ### Merges -/

/-- The values in order, stored under the outer axes and the inner ones. -/
def laid (fill : Option Value) (outer inner : Shape) (values : Nat → Value) : ShapedArray :=
  ofView .owned (outer ++ inner) fill (stored (rowOf outer.size inner.size values).toArray)

section Laid

variable {fill : Option Value}

theorem laid_made (some : 0 < (outer ++ inner).size) (small : (outer ++ inner).size ≤ sizeLimit) :
    (laid fill outer inner values).IsMade calling := by
  have stores : filled (outer ++ inner) (rowOf outer.size inner.size values).toArray fill =
      .ok (laid fill outer inner values) := by
    rw [filled, measure_of_size some small]
    refine if_pos ?_
    rw [List.size_toArray, length_rowOf, Shape.size_append]
  exact .filled stores

theorem elementAt_laid {index : Nat} (inside : index < (outer ++ inner).size) :
    (laid fill outer inner values).elementAt index = .value (values index) := by
  rw [laid, elementAt_ofView _ _ _ _ _ inside, stored, List.getElem?_toArray,
    getElem?_rowOf (by rwa [← Shape.size_append])]

theorem laid_isCopyOf (shape : original.shape = outer ++ inner) (some : original.count ≠ 0)
    (reads : original.HasValues calling held values) :
    (laid original.fill outer inner values).IsCopyOf calling held original := by
  have count : original.count = (outer ++ inner).size := congrArg Shape.size shape
  refine ⟨?_, ?_, fun index inside => ?_⟩
  · rw [laid, ofView_of_filled (count ▸ some), shape]
    rfl
  · rw [laid, ofView_of_filled (count ▸ some)]
    rfl
  · have stored : ((laid original.fill outer inner values).pick index).EndsWith calling held
        (values index) := by
      rw [pick, elementAt_laid (count ▸ inside)]
      exact Action.endsWith_pure _
    exact stored.endsLike (reads index inside)

/-- Items that are the cells of an array in order are foretold to be laid together. -/
theorem laid?_cellAppearance {places : Nat} (some : places ≠ 0)
    (small : (outer ++ inner).size ≤ sizeLimit) :
    Appearance.laid? outer ((List.range places).map fun place =>
      cellAppearance inner values (place * inner.size)) =
        .some (inner, rowOf places inner.size values) := by
  refine (Appearance.laid?_eq_some ?_).2 ⟨?_, small, ?_⟩
  · simpa using some
  · simp [cellAppearance]
  · simp only [rowOf, cellAppearance, List.flatMap_map, List.map_flatMap, List.map_map]
    rfl

theorem AreCells.endsWith_merge (cells : AreCells calling held inner values items)
    (size : items.size = outer.size) (some : 0 < (outer ++ inner).size)
    (small : (outer ++ inner).size ≤ sizeLimit) :
    (merge items fill outer).EndsWith calling held (laid fill outer inner values) := by
  rw [Shape.size_append] at some
  have several : outer.size ≠ 0 := Nat.ne_of_gt (Nat.pos_of_mul_pos_right some)
  have extent : 0 < inner.size := Nat.pos_of_mul_pos_left some
  have fitting : outer.size < wordLimit := by
    calc outer.size ≤ outer.size * inner.size := Nat.le_mul_of_pos_right _ extent
      _ = (outer ++ inner).size := (Shape.size_append ..).symm
      _ ≤ sizeLimit := small
      _ < wordLimit := by decide
  have readsAs : List.Forall₂ (Value.ReadsAs calling held Eq)
      ((List.range items.size).map fun place => cellAppearance inner values (place * inner.size))
      items.toList := by
    refine List.forall₂_iff_get.2 ⟨by simp, fun place _ inside => ?_⟩
    simp only [List.get_eq_getElem, List.getElem_map, List.getElem_range, Array.getElem_toList]
    exact (cells place inside).readsAs (Nat.ne_of_gt extent)
  have settles := settles_merge readsAs size.symm fitting fill
  rw [laid?_cellAppearance (size ▸ several) small, size] at settles
  refine .of_settles settles fun found isLaid => ?_
  obtain ⟨_, data, same, rfl⟩ := isLaid
  dsimp only at same ⊢
  rw [List.forall₂_eq_eq_eq] at same
  rw [laid, same, Array.toArray_toList]

end Laid

/-- The cells of an array, laid under its outer axes, give a copy of it. -/
theorem AreCells.merge_gives (cells : AreCells calling held inner values items)
    (size : items.size = outer.size) (shape : original.shape = outer ++ inner)
    (some : original.count ≠ 0) (small : original.count ≤ sizeLimit)
    (reads : original.HasValues calling held values) :
    (do
      let merged ← merge items original.fill outer
      return .array merged : Action H Value).GivesCopy calling held original := by
  have count : original.count = (outer ++ inner).size := congrArg Shape.size shape
  have filled : 0 < (outer ++ inner).size := count ▸ Nat.pos_of_ne_zero some
  have ends : (do
      let merged ← merge items original.fill outer
      return .array merged : Action H Value).EndsWith calling held
        (.array (laid original.fill outer inner values)) :=
    (cells.endsWith_merge size filled (count ▸ small)).bind (Action.endsWith_pure _)
  exact ends.givesCopy (laid_made filled (count ▸ small)) (laid_isCopyOf shape some reads)

/-- Items are refused for the shape that they would have together. -/
theorem merge_fails {first : Value} (size : items.size = outer.size)
    (there : items[0]? = some first) (large : sizeLimit < (outer ++ first.shape).size)
    (fill : Option Value) : (merge items fill outer).FailsAs calling held .shape := by
  rw [merge, if_neg (not_not.2 size.symm), there]
  dsimp only
  rw [measure_of_large large]
  exact (Action.failsAs_refuse _).bind

end ShapedArray

end PointFree
