import PointFree.Proofs.Arrangement.Cells
import PointFree.Proofs.Restoring.Whole
import PointFree.Proofs.Views.Composition

/-!
Contract: reordering cells.

The two ways of reordering the cells of an array, through indices where the cells are elements and
by laying the cells anew where they are larger, both give a copy of the arrangement. The first one
stores the places as doubles and reads no element, so it takes places that are doubles as they are;
the second one reads the elements once, so it takes elements that always read the same.
-/

namespace PointFree

variable {H : Type} {calling : Call H} {held : Memory H → Prop}

/-! ### Whole numbers -/

/-- Every natural number up to it is a double, and the next one is not. -/
def exactLimit : Nat := Nat.pow 2 53

theorem Decimal.toInt?_toFloat {number : Nat} (small : number ≤ exactLimit) :
    toInt? number.toFloat = some (number : Int) := by
  by_cases last : number = exactLimit
  · subst last
    decide +kernel
  · have below : number < 2 ^ 53 := Nat.lt_of_le_of_ne small last
    suffices same : number.toFloat = nearest number 0 by
      rw [same, toInt?_nearest below]
    by_cases zero : number = 0
    · subst zero
      decide +kernel
    · have digits : decimalLength number ≤ 16 :=
        (Nat.length_toDigits_le_iff (by decide) (by decide)).2 (below.trans (by decide))
      rw [nearest, if_neg zero, if_neg (by rw [placeLimit]; omega),
        if_neg (by rw [placeLimit]; omega)]
      rfl

namespace Value

/-- The value is a number that denotes the integer. -/
def IsWhole (whole : Int) (value : Value) : Prop :=
  ∃ amount, value = .number amount ∧ Decimal.toInt? amount = some whole

variable {whole : Int} {value : Value}

theorem isWhole_ofNat {number : Nat} (small : number ≤ exactLimit) :
    (ofNat number).IsWhole number :=
  ⟨_, rfl, Decimal.toInt?_toFloat small⟩

/-- An integer is held in a word, and stops at the ends of its range. -/
theorem IsWhole.toInteger_eq (isWhole : value.IsWhole whole) :
    value.toInteger = .ok (max integerMin (min whole integerMax)) := by
  obtain ⟨amount, rfl, denotes⟩ := isWhole
  simp only [Value.toInteger, Value.toNumber, Except.bind, denotes]

theorem IsWhole.toIndex_eq {number : Nat} (isWhole : value.IsWhole number) :
    value.toIndex = .ok (min number indexMax) := by
  obtain ⟨amount, rfl, denotes⟩ := isWhole
  simp only [Value.toIndex, Value.toNumber, Except.bind, denotes]
  exact if_neg (by omega)

/-- The places of an array that are doubles name themselves. -/
theorem toPlace_ofNat {place count : Nat} (inside : place < count) (small : place ≤ exactLimit) :
    (ofNat place).toPlace count = .ok place := by
  have fits : min place indexMax = place := Nat.min_eq_left (Nat.le_trans small (by decide))
  rw [toPlace, (isWhole_ofNat small).toIndex_eq, fits]
  exact if_pos inside

end Value

namespace ShapedArray

variable {array : ShapedArray} {source : Nat → Nat} {outer : Shape} {values : Nat → Value}

/-- What it takes to arrange cells: places of cells, under an outer shape that an array may have;
places that are doubles if the cells are elements, and elements that read the same if not. -/
structure CanArrange (calling : Call H) (held : Memory H → Prop) (array : ShapedArray)
    (source : Nat → Nat) (outer : Shape) (values : Nat → Value) : Prop where
  made : array.IsMade calling
  ranked : array.rank ≠ 0
  below : ∀ place < outer.size, source place < array.length
  empty : outer.size = 0 → outer = [0]
  exact : array.rank = 1 → ∀ place < outer.size, source place ≤ exactLimit
  reads : array.rank ≠ 1 → array.HasSelected calling held source outer.size values

/-! ### Through indices -/

theorem measure_of_small {shape : Shape} (small : shape.size ≤ sizeLimit)
    (empty : shape.size = 0 → shape = [0]) : measure shape = .ok shape.size := by
  by_cases none : shape.size = 0
  · rw [empty none]
    rfl
  · exact measure_of_size (Nat.pos_of_ne_zero none) small

/-- The places that a source names, as numbers. -/
def placesNamed (source : Nat → Nat) (outer : Shape) : ShapedArray :=
  ofView .owned outer none (stored (((Array.range outer.size).map source).map Value.ofNat))

theorem new_placesNamed (small : outer.size ≤ sizeLimit) (empty : outer.size = 0 → outer = [0]) :
    new outer (((Array.range outer.size).map source).map Value.ofNat) =
      .ok (placesNamed source outer) := by
  rw [new, filled, measure_of_small small empty]
  exact if_pos (by simp)

theorem elementAt_placesNamed {index : Nat} (inside : index < outer.size) :
    (placesNamed source outer).elementAt index = .value (.ofNat (source index)) := by
  rw [placesNamed, elementAt_ofView _ _ _ _ _ inside, stored, Array.getElem?_map,
    Array.getElem?_map, Array.getElem?_range, if_pos inside]
  rfl

theorem shape_placesNamed (empty : outer.size = 0 → outer = [0]) :
    (placesNamed source outer).shape = outer := by
  rw [placesNamed, shape_ofView, Shape.built]
  split
  · next none => exact (empty none).symm
  · rfl

namespace CanArrange

theorem elementNamed (can : array.CanArrange calling held source outer values)
    (list : array.rank = 1) {index : Nat} (inside : index < outer.size) :
    (Value.ofNat (source index)).toPlace array.count = .ok (source index) ∧
      array.elementNamed ((placesNamed source outer).elementAt index) =
        array.elementAt (source index) := by
  have below := can.below index inside
  have count : array.count = array.length := by
    obtain ⟨axis, shape⟩ := List.length_eq_one_iff.1 list
    rw [count, length, shape]
    exact size_singleton axis
  have named := Value.toPlace_ofNat (count ▸ below) (can.exact list index inside)
  refine ⟨named, ?_⟩
  rw [elementAt_placesNamed inside, ShapedArray.elementNamed, named, elementAt,
    if_pos (count ▸ below)]

/-- A gather through the places reads no element. -/
theorem gather_gives (can : array.CanArrange calling held source outer values)
    (list : array.rank = 1) (small : outer.size ≤ sizeLimit) :
    (do
      let gathered ← array.gather (placesNamed source outer)
      return .array gathered : Action H Value).GivesCopy calling held
        (array.arranged source outer) := by
  have shape : (placesNamed source outer).shape = outer := shape_placesNamed can.empty
  have count : (placesNamed source outer).count = outer.size := congrArg Shape.size shape
  have names : (placesNamed source outer).NamesPlaces calling array.count := by
    intro index inside
    rw [count] at inside
    refine ⟨_, _, fun memory => ?_, (can.elementNamed list inside).1⟩
    rw [pick, elementAt_placesNamed inside]
    rfl
  have gathers := names.gather (shape ▸ measure_of_small small can.empty)
  have indices : (placesNamed source outer).IsMade calling :=
    .new (new_placesNamed small can.empty)
  have copies : (array.gatherView (placesNamed source outer)).IsCopyOf calling held
      (array.arranged source outer) := by
    obtain ⟨axis, isShape⟩ := List.length_eq_one_iff.1 list
    have cell := cellSize_of_list list
    have outerShape : outer ++ array.shape.tail = outer := by
      rw [isShape]
      exact List.append_nil outer
    rw [gatherView, arranged, shape, outerShape]
    refine isCopyOf_ofView fun index inside => ?_
    rw [(can.elementNamed list inside).2, cell, Nat.div_one, Nat.mul_one, Nat.mod_one]
    exact .refl _
  intro memory holds
  refine ⟨_, memory, ?_, holds, .gather can.made indices ⟨memory, _, gathers memory⟩, copies⟩
  rw [Action.bind_of_ok (gathers memory)]
  rfl

/-! ### Both ways -/

/-- A reordering gives a copy of the arrangement. -/
theorem reorder_gives (can : array.CanArrange calling held source outer values)
    (small : outer.size * array.shape.cellSize ≤ sizeLimit) :
    (Cellwise.reorder array ((Array.range outer.size).map source) outer).GivesCopy calling held
      (array.arranged source outer) := by
  have some := can.made.cellSize_ne_zero can.ranked
  rw [Cellwise.reorder]
  split
  · next list =>
      have few : outer.size ≤ sizeLimit :=
        Nat.le_trans (Nat.le_mul_of_pos_right _ (Nat.pos_of_ne_zero some)) small
      rw [new_placesNamed few can.empty]
      exact can.gather_gives list few
  · next larger =>
      obtain ⟨cells, taken, size, areAt⟩ := can.made.cellsAt_eq_ok can.ranked can.below
      rw [taken]
      change (do
        let merged ← merge cells array.fill outer
        return .array merged : Action H Value).GivesCopy calling held _
      -- Without places the merge gives the empty array and does not ask for a first cell.
      by_cases none : outer.size = 0
      · have isNil : array.arranged source outer = ShapedArray.nil :=
          if_pos (by rw [size_append_tail, none, Nat.zero_mul])
        obtain rfl : cells = #[] := Array.eq_empty_of_size_eq_zero (size.trans none)
        have merges : (merge #[] array.fill outer : Action H ShapedArray) =
            pure ShapedArray.nil := by
          exact if_neg (not_not.2 none)
        rw [isNil, merges, pure_bind]
        exact (Action.endsWith_pure _).givesCopy .nil (.refl _)
      · obtain ⟨shape, fill⟩ := @arranged_of_filled array source outer none some
        rw [← fill]
        have areCells := areAt.areCells can.made can.ranked (size ▸ can.reads larger)
        refine areCells.merge_gives size shape ?_ ?_ (can.reads larger).arranged
        · rw [count_arranged]
          exact Nat.mul_ne_zero none some
        · rwa [count_arranged]

end CanArrange

/-- A reordering that would come to too many elements is refused. -/
theorem IsMade.reorder_fails (made : array.IsMade calling) (ranked : array.rank ≠ 0)
    (below : ∀ place < outer.size, source place < array.length)
    (large : sizeLimit < outer.size * array.shape.cellSize) :
    (Cellwise.reorder array ((Array.range outer.size).map source) outer).FailsAs calling held
      .shape := by
  rw [Cellwise.reorder]
  split
  · next list =>
      rw [cellSize_of_list list, Nat.mul_one] at large
      rw [ShapedArray.new, ShapedArray.filled, measure_of_large large]
      exact (Action.failsAs_refuse _).bind
  · obtain ⟨cells, taken, size, areAt⟩ := made.cellsAt_eq_ok ranked below
    rw [taken]
    change (do
      let merged ← ShapedArray.merge cells array.fill outer
      return .array merged : Action H Value).FailsAs calling held _
    have some : 0 < cells.size := by
      rw [size]
      exact Nat.pos_of_mul_pos_right (Nat.zero_lt_of_lt large)
    refine (merge_fails size (Array.getElem?_eq_getElem some) ?_ _).bind
    rwa [areAt.shape made some, size_append_tail]

end ShapedArray

end PointFree
