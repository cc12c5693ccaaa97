import PointFree.Proofs.Merging
import PointFree.Proofs.Position
import PointFree.Proofs.Views.Composition
import PointFree.Proofs.Views.Laziness

/-!
Contract: merging undoes taking apart, and is undone by it.

The cells of a merge along its outer axes are its items, and the merge of the cells of an array is
the array. Both hold as far as elements that are read once can stand for elements that are computed
whenever they are read: an element that counts its readings has another value later, and an array
can be taken apart where it cannot be read.
-/

namespace PointFree

variable {H : Type}

/-! ### Items that can be read -/

section Pickable

variable {calling : Call H} {held : Memory H → Prop} {item : Value}

/-- Every element below the count can be read from every memory held to. -/
def ShapedArray.IsPickable (calling : Call H) (held : Memory H → Prop) (array : ShapedArray) :
    Prop :=
  ∀ index < array.count, ∀ memory, held memory → ∃ value after,
    array.pick index calling memory = (.ok value, after) ∧ held after

namespace Value

/-- Of each element, that reading it gives the value. -/
def readings (calling : Call H) (held : Memory H → Prop) (item : Value) : List (Value → Prop) :=
  (List.range item.toArray.count).map fun index value =>
    (item.toArray.pick index).Reaches calling held value

def appearance (calling : Call H) (held : Memory H → Prop) (item : Value) :
    Appearance (Value → Prop) :=
  ⟨item.shape, (item.readings calling held).map some⟩

theorem count_toArray (item : Value) : item.toArray.count = item.shape.size := by
  rw [ShapedArray.count, shape_toArray]

theorem getElem?_readings {index : Nat} (inside : index < item.shape.size) :
    (item.readings calling held)[index]? =
      some fun value => (item.toArray.pick index).Reaches calling held value := by
  rw [readings, List.getElem?_map, List.getElem?_range (item.count_toArray ▸ inside)]
  rfl

theorem readsAs_appearance (made : item.toArray.IsMade calling)
    (pickable : item.toArray.IsPickable calling held) :
    item.ReadsAs calling held (fun good value => good value)
      (item.appearance calling held) where
  shape := rfl
  length := by
    rw [appearance, List.length_map, readings, List.length_map, List.length_range, count_toArray]
  empty none := by
    have isNil := made.sound.empty (item.count_toArray.trans none)
    rw [appearance, ← shape_toArray, isNil]
    rfl
  element index inside := by
    rw [appearance, List.length_map, readings, List.length_map, List.length_range] at inside
    have foretold : (item.appearance calling held).elements[index] =
        some fun value => (item.toArray.pick index).Reaches calling held value := by
      simp only [appearance, readings, List.getElem_map, List.getElem_range]
    rw [foretold]
    intro memory holds
    obtain ⟨value, after, ended, kept⟩ := pickable index inside memory holds
    rw [ended]
    exact ⟨kept, .ok ⟨memory, after, holds, ended⟩⟩

end Value

namespace ShapedArray

/-- Arrays among the items are made by operations, and can be read. -/
def AreReadable (calling : Call H) (held : Memory H → Prop) (items : Array Value) : Prop :=
  ∀ item ∈ items, item.toArray.IsMade calling ∧ item.toArray.IsPickable calling held

variable {items : Array Value} {fill : Option Value} {outer : Shape} {result : ShapedArray}
variable {memory after : Memory H}

theorem AreReadable.settles_merge (readable : AreReadable calling held items)
    (size : outer.size = items.size) (fitting : outer.size < wordLimit) (fill : Option Value) :
    (merge items fill outer).Settles calling held
      (IsLaid (fun good value => good value) fill outer)
      (Appearance.laid? outer (items.toList.map (Value.appearance calling held))) := by
  refine ShapedArray.settles_merge ?_ size fitting fill
  rw [List.forall₂_map_left_iff, List.forall₂_same]
  intro item member
  obtain ⟨made, pickable⟩ := readable item (Array.mem_toList_iff.1 member)
  exact Value.readsAs_appearance made pickable

theorem size_of_merge (ended : merge items fill outer calling memory = (.ok result, after)) :
    outer.size = items.size := by
  by_contra misfit
  rw [merge, if_pos misfit] at ended
  cases ended

/-- A merge has laid its items together, if there are any. -/
theorem AreReadable.laid (readable : AreReadable calling held items)
    (fitting : outer.size < wordLimit) (some : items ≠ #[]) (holds : held memory)
    (ended : merge items fill outer calling memory = (.ok result, after)) :
    ∃ inner row, (∀ item ∈ items, item.shape = inner) ∧ (outer ++ inner).size ≤ sizeLimit ∧
      items.toList.flatMap (Value.readings calling held) = row ∧
      IsLaid (fun good value => good value) fill outer (inner, row) result := by
  obtain ⟨⟨inner, row⟩, foretold, laid⟩ :=
    (readable.settles_merge (size_of_merge ended) fitting fill).of_ok holds ended
  have filled : items.toList.map (Value.appearance calling held) ≠ [] := by
    simpa using some
  obtain ⟨shapes, small, elements⟩ := (Appearance.laid?_eq_some filled).1 foretold
  refine ⟨inner, row, fun item member => ?_, small, ?_, laid⟩
  · exact shapes _ (List.mem_map.2 ⟨item, Array.mem_toList_iff.2 member, rfl⟩)
  · rw [List.flatMap_map] at elements
    refine List.map_injective_iff.2 (fun _ _ same => Option.some.inj same) ?_
    rw [List.map_flatMap]
    exact elements

/-- A merge succeeds where the items are as many as the outer shape asks for and have one shape,
and where there are not too many elements. -/
theorem AreReadable.merge_succeeds_iff (readable : AreReadable calling held items)
    (fitting : outer.size < wordLimit) (holds : held memory) :
    (∃ result after, merge items fill outer calling memory = (.ok result, after)) ↔
      outer.size = items.size ∧
        ∃ inner, (∀ item ∈ items, item.shape = inner) ∧ (outer ++ inner).size ≤ sizeLimit := by
  constructor
  · rintro ⟨result, after, ended⟩
    have size := size_of_merge ended
    refine ⟨size, ?_⟩
    by_cases none : items = #[]
    · refine ⟨[0], by simp [none], ?_⟩
      rw [Shape.size_append]
      exact Nat.zero_le _
    · obtain ⟨inner, _, shapes, small, _⟩ := readable.laid fitting none holds ended
      exact ⟨inner, shapes, small⟩
  · rintro ⟨size, inner, shapes, small⟩
    have settles := readable.settles_merge size fitting fill
    have foretold : ∃ laid, Appearance.laid? outer
        (items.toList.map (Value.appearance calling held)) = some laid := by
      by_cases none : items = #[]
      · exact ⟨_, by rw [none]; rfl⟩
      · have filled : items.toList.map (Value.appearance calling held) ≠ [] := by simpa using none
        refine ⟨(inner, items.toList.flatMap (Value.readings calling held)),
          (Appearance.laid?_eq_some filled).2 ⟨?_, small, ?_⟩⟩
        · rintro _ member
          obtain ⟨item, there, rfl⟩ := List.mem_map.1 member
          exact shapes item (Array.mem_toList_iff.1 there)
        · rw [List.flatMap_map, List.map_flatMap]
          rfl
    exact (settles.succeeds_iff holds).2 foretold

/-- Among what is read of items of one size, end to end, stands what is read of each. -/
theorem getElem?_flatMap_readings {list : List Value} {inner : Shape}
    (shapes : ∀ item ∈ list, item.shape = inner) {place index : Nat} {item : Value}
    (there : list[place]? = some item) (inside : index < inner.size) :
    (list.flatMap (Value.readings calling held))[place * inner.size + index]? =
      some fun value => (item.toArray.pick index).Reaches calling held value := by
  have lengths : ∀ item ∈ list, (item.readings calling held).length = inner.size := by
    intro item member
    rw [Value.readings, List.length_map, List.length_range, Value.count_toArray,
      shapes item member]
  have shape := shapes item (List.mem_of_getElem? there)
  rw [Shape.getElem?_flatMap lengths place inside, there, Option.bind_some,
    Value.getElem?_readings (shape.symm ▸ inside)]

/-- What a merge gives of its items: each element is one that reading the item gives. -/
theorem AreReadable.merge_reads (readable : AreReadable calling held items)
    (fitting : outer.size < wordLimit) (some : items ≠ #[]) (holds : held memory)
    (ended : merge items fill outer calling memory = (.ok result, after)) :
    ∃ inner, (∀ item ∈ items, item.shape = inner) ∧ (outer ++ inner).size ≤ sizeLimit ∧
      result.count = (outer ++ inner).size ∧
      (result.count ≠ 0 → result.shape = outer ++ inner ∧ result.fill = fill) ∧
      ∀ place item, items[place]? = .some item → ∀ index < inner.size, ∃ value,
        result.elementAt (place * inner.size + index) = .value value ∧
        (item.toArray.pick index).Reaches calling held value := by
  obtain ⟨inner, _, shapes, small, rfl, length, data, agree, rfl⟩ :=
    readable.laid fitting some holds ended
  have count : (ofView .owned (outer ++ inner) fill (stored data)).count = _ := count_ofView ..
  refine ⟨inner, shapes, small, count, fun filled => ?_, fun place item there index inside => ?_⟩
  · rw [ofView_of_filled (count ▸ filled)]
    exact ⟨rfl, rfl⟩
  · have foretold := @getElem?_flatMap_readings H calling held items.toList inner
      (fun item member => shapes item (Array.mem_toList_iff.1 member)) place index item
      (by rwa [Array.getElem?_toList]) inside
    have below : place * inner.size + index < (outer ++ inner).size :=
      length ▸ (List.getElem?_eq_some_iff.1 foretold).1
    have found := Correspondence.getElem?_of_forall₂ agree (place * inner.size + index)
    rw [foretold, Array.getElem?_toList] at found
    rw [elementAt_ofView _ _ _ _ _ below, stored]
    cases isValue : data[place * inner.size + index]? with
    | none =>
        rw [isValue] at found
        cases found
    | some value =>
        rw [isValue] at found
        cases found with
        | some given => exact ⟨value, rfl, given⟩

/-- Every element of the copy is there as a value that reading the element of the original gives
from some memory held to; so it is the value that reading it gives from all of them, if that is
one. -/
structure IsReadOff (calling : Call H) (held : Memory H → Prop) (copy original : ShapedArray) :
    Prop where
  shape : copy.shape = original.shape
  element : ∀ index < original.count, ∃ value,
    copy.elementAt index = .value value ∧ (original.pick index).Reaches calling held value
  steady : ∀ index < original.count, ∀ value,
    (∀ memory, held memory → (original.pick index calling memory).1 = .ok value) →
    copy.elementAt index = .value value

theorem IsReadOff.of_reaches {copy original : ShapedArray} (shape : copy.shape = original.shape)
    (element : ∀ index < original.count, ∃ value,
      copy.elementAt index = .value value ∧ (original.pick index).Reaches calling held value) :
    copy.IsReadOff calling held original where
  shape := shape
  element := element
  steady index inside value reads := by
    obtain ⟨found, isFound, memory, after, holds, ended⟩ := element index inside
    obtain rfl : value = found :=
      Except.ok.inj ((reads memory holds).symm.trans (congrArg Prod.fst ended))
    exact isFound

variable {array cell : ShapedArray}

/-- The place of the first element of a major cell. -/
theorem place_singleton (ranked : array.rank ≠ 0) (index : Nat) :
    array.shape.place [index] = index * array.shape.cellSize := by
  rw [← shape_eq_cons ranked, Shape.place_cons, Shape.place_nil]
  rfl

/-- The cells of an array along its first axis, in order. -/
structure AreMajorCells (array : ShapedArray) (cells : Array Value) : Prop where
  size : cells.size = array.length
  cell : ∀ index < array.length, ∃ cell,
    array.selectRank [index] = .ok cell ∧ cells[index]? = some (.array cell)

/-- No array has fewer elements than cells, unless it has none. -/
theorem length_le_count (ranked : array.rank ≠ 0) (some : array.count ≠ 0) :
    array.length ≤ array.count := by
  rw [count_eq_length_mul ranked] at some ⊢
  exact Nat.le_mul_of_pos_right _ (Nat.pos_of_ne_zero (Nat.mul_ne_zero_iff.1 some).2)

/-- A major cell of an array with two axes or more is an array. -/
theorem IsMade.yields_cellAt (made : array.IsMade calling) (ranked : 2 ≤ array.rank) {index : Nat}
    {cell : ShapedArray} (selected : array.selectRank [index] = .ok cell) (memory : Memory H) :
    array.cellAt [index] calling memory = (.ok (.array cell), memory) := by
  have axes : cell.rank ≠ 0 := by
    rw [rank, (made.selectRank_reads selected).1, List.length_drop]
    exact Nat.ne_of_gt (Nat.sub_pos_of_lt ranked)
  rw [cellAt, selected]
  change Value.ofCell cell calling memory = _
  rw [Value.ofCell, if_neg axes]
  rfl

/-- An array of two axes or more comes apart into arrays without an element being read. -/
theorem IsMade.majorCells (made : array.IsMade calling) (ranked : 2 ≤ array.rank)
    (some : array.count ≠ 0) : ∃ cells, array.AreMajorCells cells ∧
      ∀ memory, array.majorCells calling memory = (.ok cells, memory) := by
  have unboxed : array.rank ≠ 0 := by omega
  have each (index : Nat) (inside : index < array.length) :
      ∃ cell, array.selectRank [index] = .ok cell := by
    have holds : Shape.Holds (array.shape.take [index].length) [index] := by
      rw [← shape_eq_cons unboxed]
      exact .cons inside .nil
    exact made.exists_cell holds nofun
  have : Nonempty ShapedArray := ⟨ShapedArray.nil⟩
  choose! cell selected using each
  have reads (index : Nat) (inside : index < array.length) (memory : Memory H) :
      array.cellAt [index] calling memory = (.ok (.array (cell index)), memory) :=
    made.yields_cellAt ranked (selected index inside) memory
  refine ⟨((List.range' 0 array.length).map fun index => .array (cell index)).toArray,
    ⟨by simp, fun index inside => ⟨cell index, selected index inside, ?_⟩⟩, fun memory => ?_⟩
  · rw [List.getElem?_toArray, List.getElem?_map, List.getElem?_range' inside]
    simp
  · rw [ShapedArray.majorCells, if_neg unboxed, if_neg (by simpa [isEmpty] using some), collect,
      collectFrom_of_pure (fun index _ below => reads index (by omega)) #[] memory,
      Array.empty_append]

section Cells

variable {cells : Array Value}

theorem AreMajorCells.of_mem (major : array.AreMajorCells cells) {item : Value}
    (member : item ∈ cells) : ∃ index cell, array.selectRank [index] = .ok cell ∧
      item = .array cell := by
  obtain ⟨index, there⟩ := Array.mem_iff_getElem?.1 member
  obtain ⟨inside, _⟩ := Array.getElem?_eq_some_iff.1 there
  obtain ⟨cell, selected, found⟩ := major.cell index (major.size ▸ inside)
  exact ⟨index, cell, selected, Option.some.inj (there.symm.trans found)⟩

theorem AreMajorCells.shape_of_mem (major : array.AreMajorCells cells)
    (made : array.IsMade calling) {item : Value} (member : item ∈ cells) :
    item.shape = array.shape.tail := by
  obtain ⟨index, cell, selected, rfl⟩ := major.of_mem member
  exact (made.selectRank_reads selected).1.trans List.drop_one

theorem AreMajorCells.areReadable (major : array.AreMajorCells cells) (made : array.IsMade calling)
    (pickable : array.IsPickable calling held) : AreReadable calling held cells := by
  intro item member
  obtain ⟨index, cell, selected, rfl⟩ := major.of_mem member
  refine ⟨.selectRank made selected, fun index inside => ?_⟩
  change ∀ memory, held memory → ∃ value after,
    cell.pick index calling memory = (.ok value, after) ∧ held after
  rw [pick, (made.selectRank_reads selected).2.2 index inside]
  exact pickable _ (made.place_add_lt selected inside)

/-- The element at an index is in the cell that the index divided by the size of a cell gives. -/
theorem AreMajorCells.pick (major : array.AreMajorCells cells) (made : array.IsMade calling)
    (ranked : array.rank ≠ 0) {index : Nat} (inside : index < array.count) :
    ∃ item, cells[index / array.shape.cellSize]? = some item ∧
      index % array.shape.cellSize < array.shape.cellSize ∧
      (item.toArray.pick (index % array.shape.cellSize) : Action H Value) = array.pick index := by
  have product := count_eq_length_mul ranked
  have filled : 0 < array.shape.cellSize := Nat.pos_of_ne_zero fun none => by
    rw [product, none, Nat.mul_zero] at inside
    exact absurd inside (Nat.not_lt_zero index)
  have rest : index % array.shape.cellSize < array.shape.cellSize := Nat.mod_lt _ filled
  obtain ⟨cell, selected, there⟩ := major.cell (index / array.shape.cellSize)
    ((Nat.div_lt_iff_lt_mul filled).2 (product ▸ inside))
  obtain ⟨shape, _, element⟩ := made.selectRank_reads selected
  have within : index % array.shape.cellSize < cell.count := by
    rwa [count, shape, List.length_singleton, List.drop_one]
  refine ⟨_, there, rest, ?_⟩
  change cell.pick _ = _
  rw [ShapedArray.pick, element _ within, place_singleton ranked, Nat.div_add_mod']
  rfl

theorem AreMajorCells.ne_empty (major : array.AreMajorCells cells) (ranked : array.rank ≠ 0)
    (some : array.count ≠ 0) : cells ≠ #[] := by
  rintro rfl
  rw [count_eq_length_mul ranked, ← major.size, Array.size_empty, Nat.zero_mul] at some
  exact some rfl

/-- Merging the major cells of an array gives its shape and its elements, read once. -/
theorem AreMajorCells.merge (major : array.AreMajorCells cells) (made : array.IsMade calling)
    (ranked : 2 ≤ array.rank) (some : array.count ≠ 0) (pickable : array.IsPickable calling held)
    (fill : Option Value) (holds : held memory) : ∃ result after,
      ShapedArray.merge cells fill [cells.size] calling memory = (.ok result, after) ∧
      result.fill = fill ∧ result.IsReadOff calling held array := by
  have unboxed : array.rank ≠ 0 := by omega
  have readable := major.areReadable made pickable
  have small : array.count ≤ sizeLimit := made.count_le (Nat.ne_of_gt ranked)
  have shape : [cells.size] ++ array.shape.tail = array.shape :=
    major.size ▸ shape_eq_cons unboxed
  have fitting : Shape.size [cells.size] < wordLimit := by
    rw [size_singleton, major.size]
    calc array.length ≤ array.count := length_le_count unboxed some
      _ ≤ sizeLimit := small
      _ < wordLimit := by decide
  obtain ⟨result, after, ended⟩ : ∃ result after,
      ShapedArray.merge cells fill [cells.size] calling memory = (.ok result, after) := by
    refine (readable.merge_succeeds_iff fitting holds).2
      ⟨size_singleton _, _, fun _ => major.shape_of_mem made, ?_⟩
    rwa [shape]
  have someCells := major.ne_empty unboxed some
  obtain ⟨inner, common, _, count, whole, reads⟩ :=
    readable.merge_reads fitting someCells holds ended
  obtain rfl : array.shape.tail = inner := by
    have first := Array.getElem_mem (Array.size_pos_iff.2 someCells)
    rw [← major.shape_of_mem made first, common _ first]
  rw [shape] at count whole
  obtain ⟨isShape, isFill⟩ := whole (count ▸ some)
  refine ⟨result, after, ended, isFill, .of_reaches isShape fun index inside => ?_⟩
  obtain ⟨item, there, rest, same⟩ := @AreMajorCells.pick H calling _ _ major made unboxed _ inside
  obtain ⟨value, isValue, given⟩ := reads _ _ there _ rest
  rw [← Shape.cellSize, Nat.div_add_mod'] at isValue
  exact ⟨value, isValue, same ▸ given⟩

end Cells

end ShapedArray

end Pickable

namespace ShapedArray

/-! ### Two rows -/

namespace Rows

def rows : Array Value :=
  #[.list #[.number 1.0, .number 2.0], .list #[.number 3.0, .number 4.0]]

theorem pickable_ofView (view : View) (shape : Shape) {elements : Array Value}
    (size : shape.size = elements.size) :
    (ofView view shape none (stored elements)).IsPickable Composed.calls fun _ => True := by
  intro index inside memory _
  rw [count_ofView] at inside
  have there : index < elements.size := size ▸ inside
  refine ⟨elements[index], memory, ?_, trivial⟩
  rw [pick_ofView _ _ _ _ _ inside, stored, Array.getElem?_eq_getElem there]
  rfl

theorem readable : AreReadable Composed.calls (fun _ => True) rows := by
  intro item member
  have lists : ∃ elements, item = .list elements := by
    rcases Array.mem_toList_iff.2 member with _ | ⟨_, _ | ⟨_, last⟩⟩
    · exact ⟨_, rfl⟩
    · exact ⟨_, rfl⟩
    · cases last
  obtain ⟨elements, rfl⟩ := lists
  exact ⟨.list elements, pickable_ofView .owned _ (size_singleton _)⟩

def merged : ShapedArray :=
  ofView .owned [2, 2] none (stored Composed.numbers)

end Rows

namespace Tally

/-- How many elements the merge of the zip has, and whether its cell is equal to the zip. -/
def merged : Action (Heap (List Routine)) (Nat × Bool) := do
  let merged ← ShapedArray.merge #[.array count] none [1]
  let cell ← merged.selectRank [0]
  let equal ← (Value.array cell).same (.array count)
  return (merged.count, equal)

end Tally

namespace Letters

def letter (content : Char) : ShapedArray :=
  ofView .owned [1, 1] none (stored #[.character content])

/-- One row of one sum of two letters. -/
def sum : ShapedArray :=
  .ofView .zip [1, 1] none fun index =>
    .combined (.mk 0 (.primitive .add)) ((letter 'a').elementAt (index % 1))
      ((letter 'b').elementAt (index % 1))

theorem sum_made : sum.IsMade Composed.calls := by
  have made (content : Char) : (letter content).IsMade Composed.calls :=
    .new (show new [1, 1] #[.character content] = .ok (letter content) from rfl)
  have zipped : (letter 'a').zip (letter 'b') (.mk 0 (.primitive .add)) = .ok sum := rfl
  exact .zip (made 'a') (made 'b') zipped

end Letters

end ShapedArray

end PointFree
