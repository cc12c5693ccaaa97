import PointFree.Primitive.Forms
import PointFree.Proofs.Arrangement.Reordering
import PointFree.Proofs.Merging.Inverse
import PointFree.Proofs.Ranking.Composition

/-!
Contract: selecting cells by integers.

An integer names a cell of an array from the front, or from the end if it is negative. A selection
fails where one of the integers names no cell. Otherwise it has, at each place of the array of
integers, the cell that the integer there names, whether it looks its elements up when they are read
or has read them when it was made.
-/

namespace PointFree

variable {H : Type} {calling : Call H} {held : Memory H → Prop}

/-! ### Integers that name cells -/

namespace Cellwise

/-- The integer names a cell from the front or from the end. -/
def NamesCell (length : Nat) (whole : Int) : Prop :=
  -(length : Int) ≤ whole ∧ whole < length

/-- The place of the cell that an integer names. -/
def placeNamed (length : Nat) (whole : Int) : Nat :=
  (if whole < 0 then whole + length else whole).toNat

variable {length : Nat} {whole : Int}

theorem NamesCell.placeNamed_lt (names : NamesCell length whole) :
    placeNamed length whole < length := by
  obtain ⟨low, high⟩ := names
  rw [placeNamed]
  split <;> omega

theorem NamesCell.wrapIndex_eq (names : NamesCell length whole) :
    wrapIndex whole length = .ok (placeNamed length whole) := by
  obtain ⟨low, high⟩ := names
  rw [wrapIndex, placeNamed]
  refine if_neg ?_
  split <;> omega

theorem wrapIndex_of_not_names (astray : ¬NamesCell length whole) :
    wrapIndex whole length = refuse (.indexPastLength whole length) := by
  rw [NamesCell] at astray
  rw [wrapIndex]
  refine if_pos ?_
  split <;> omega

/-- An integer that stops at the ends of its range names the same cell, or none either. -/
theorem namesCell_of_word (word : (length : Int) ≤ integerMax) :
    (NamesCell length (max integerMin (min whole integerMax)) ↔ NamesCell length whole) ∧
      (NamesCell length whole → max integerMin (min whole integerMax) = whole) := by
  have low : integerMin = -9223372036854775808 := rfl
  have high : integerMax = 9223372036854775807 := rfl
  rw [high] at word
  rw [NamesCell, NamesCell, low, high]
  omega

section Elements

variable {indices : ShapedArray} {index : Nat} {value : Value}

theorem wrappedElement_endsWith (reads : (indices.pick index).EndsWith calling held value)
    (isWhole : value.IsWhole whole) (word : (length : Int) ≤ integerMax)
    (names : NamesCell length whole) :
    (wrappedElement indices length index).EndsWith calling held (placeNamed length whole) := by
  refine reads.bind ?_
  rw [isWhole.toInteger_eq, (namesCell_of_word word).2 names]
  change (liftM (wrapIndex whole length) : Action H Nat).EndsWith calling held _
  rw [names.wrapIndex_eq]
  exact Action.endsWith_pure _

theorem wrappedElement_fails (reads : (indices.pick index).EndsWith calling held value)
    (isWhole : value.IsWhole whole) (word : (length : Int) ≤ integerMax)
    (astray : ¬NamesCell length whole) :
    (wrappedElement indices length index).FailsAs calling held .index := by
  refine reads.bind_fails ?_
  rw [isWhole.toInteger_eq]
  change (liftM (wrapIndex (max integerMin (min whole integerMax)) length) :
    Action H Nat).FailsAs calling held _
  rw [wrapIndex_of_not_names (mt (namesCell_of_word word).1.1 astray)]
  exact Action.failsAs_refuse _

end Elements

end Cellwise

namespace ShapedArray

open Cellwise (NamesCell placeNamed)

variable {array indices : ShapedArray} {named : Nat → Int} {values : Nat → Value}

/-- Every element is the integer at its index, whenever it is read. -/
def HasIntegers (calling : Call H) (held : Memory H → Prop) (indices : ShapedArray)
    (named : Nat → Int) : Prop :=
  ∀ index < indices.count, ∃ value,
    (indices.pick index).EndsWith calling held value ∧ value.IsWhole (named index)

theorem HasValues.hasIntegers (reads : indices.HasValues calling held values)
    (are : ∀ index < indices.count, (values index).IsWhole (named index)) :
    indices.HasIntegers calling held named :=
  fun index inside => ⟨_, reads index inside, are index inside⟩

/-- A selection finds the places of the cells and reorders them. -/
theorem select_eq (ranked : array.rank ≠ 0) :
    (Primitive.select.apply (.array array) (some (.array indices)) : Action H Value) = (do
      let places ← collect (Cellwise.wrappedElement indices array.length) indices.count
      Cellwise.reorder array places indices.shape) := by
  have cells : Cellwise.requireCells '⊏' (.array array) = .ok array := if_neg ranked
  change (do
    let items ← Cellwise.requireCells '⊏' (.array array)
    let places ← collect (Cellwise.wrappedElement indices items.length) indices.count
    Cellwise.reorder items places indices.shape : Action H Value) = _
  rw [cells]
  rfl

theorem HasIntegers.places (integers : indices.HasIntegers calling held named)
    (word : (array.length : Int) ≤ integerMax)
    (names : ∀ index < indices.count, NamesCell array.length (named index)) :
    (collect (Cellwise.wrappedElement indices array.length) indices.count).EndsWith calling held
      ((Array.range indices.shape.size).map fun index =>
        placeNamed array.length (named index)) := by
  refine Action.endsWith_collect fun index inside => ?_
  obtain ⟨value, reads, isWhole⟩ := integers index inside
  exact Cellwise.wrappedElement_endsWith reads isWhole word (names index inside)

theorem HasIntegers.select_gives (integers : indices.HasIntegers calling held named)
    (names : ∀ index < indices.count, NamesCell array.length (named index))
    (can : array.CanArrange calling held (fun index => placeNamed array.length (named index))
      indices.shape values)
    (word : (array.length : Int) ≤ integerMax)
    (small : indices.count * array.shape.cellSize ≤ sizeLimit) :
    (Primitive.select.apply (.array array) (some (.array indices))).GivesCopy calling held
      (array.arranged (fun index => placeNamed array.length (named index)) indices.shape) := by
  rw [select_eq can.ranked]
  exact (integers.places word names).bind_gives (can.reorder_gives small)

theorem HasIntegers.select_fails (integers : indices.HasIntegers calling held named)
    (names : ∀ index < indices.count, NamesCell array.length (named index))
    (made : array.IsMade calling) (ranked : array.rank ≠ 0)
    (word : (array.length : Int) ≤ integerMax)
    (large : sizeLimit < indices.count * array.shape.cellSize) :
    (Primitive.select.apply (.array array) (some (.array indices))).FailsAs calling held .shape := by
  rw [select_eq ranked]
  refine (integers.places word names).bind_fails (made.reorder_fails ranked ?_ large)
  exact fun place inside => (names place inside).placeNamed_lt

/-- One integer that names no cell makes the selection fail, whatever the others name. -/
theorem HasIntegers.select_astray (integers : indices.HasIntegers calling held named)
    (ranked : array.rank ≠ 0) (word : (array.length : Int) ≤ integerMax) {index : Nat}
    (inside : index < indices.count) (astray : ¬NamesCell array.length (named index)) :
    (Primitive.select.apply (.array array) (some (.array indices))).FailsAs calling held .index := by
  rw [select_eq ranked]
  have fails {index : Nat} (inside : index < indices.count)
      (astray : ¬NamesCell array.length (named index)) :
      (Cellwise.wrappedElement indices array.length index).FailsAs calling held .index := by
    obtain ⟨value, reads, isWhole⟩ := integers index inside
    exact Cellwise.wrappedElement_fails reads isWhole word astray
  -- Integers before the one astray name cells, or are astray as well and fail alike.
  refine (Action.FailsAs.collect (fun index inside => ?_) inside (fails inside astray)).bind
  by_cases names : NamesCell array.length (named index)
  · obtain ⟨value, reads, isWhole⟩ := integers index inside
    exact .inl ⟨_, Cellwise.wrappedElement_endsWith reads isWhole word names⟩
  · exact .inr (fails inside names)

/-- Selecting by integers that stay the same fails at an integer that names no cell, and otherwise,
within the limit, gives the cells that the integers name: those of a list as they are, those of an
array with more axes if their elements stay the same. -/
theorem IsMade.select_cells (made : array.IsMade calling) (ranked : array.rank ≠ 0)
    (short : array.length ≤ exactLimit + 1) (madeIndices : indices.IsMade calling)
    (integers : indices.HasIntegers calling held named)
    (reads : array.rank ≠ 1 → ∀ index < indices.count, NamesCell array.length (named index) →
      ∀ offset < array.shape.cellSize, ∃ value,
        (array.pick (placeNamed array.length (named index) * array.shape.cellSize + offset)).EndsWith
          calling held value) :
    ((∃ index < indices.count, ¬NamesCell array.length (named index)) →
      (Primitive.select.apply (.array array) (some (.array indices))).FailsAs calling held .index) ∧
    ((∀ index < indices.count, NamesCell array.length (named index)) →
      (sizeLimit < indices.count * array.shape.cellSize →
        (Primitive.select.apply (.array array) (some (.array indices))).FailsAs calling held
          .shape) ∧
      (indices.count * array.shape.cellSize ≤ sizeLimit → ∀ memory, held memory →
        ∃ (result : ShapedArray) (after : Memory H),
          Primitive.select.apply (.array array) (some (.array indices)) calling memory =
            (.ok (.array result), after) ∧
          held after ∧
          (indices.count = 0 → result = ShapedArray.nil) ∧
          (indices.count ≠ 0 → result.shape = indices.shape ++ array.shape.tail) ∧
          ∀ index < indices.count, ∀ offset < array.shape.cellSize,
            (result.pick (index * array.shape.cellSize + offset)).EndsLike calling held
              (array.pick (placeNamed array.length (named index) * array.shape.cellSize +
                offset)))) := by
  have word : (array.length : Int) ≤ integerMax :=
    Int.le_trans (Int.ofNat_le.2 short) (by decide)
  refine ⟨fun ⟨index, inside, astray⟩ => integers.select_astray ranked word inside astray,
    fun names => ⟨fun large => integers.select_fails names made ranked word large,
      fun small memory holds => ?_⟩⟩
  obtain ⟨values, isValue⟩ := @exists_values H calling held array
  have can : array.CanArrange calling held (fun index => placeNamed array.length (named index))
      indices.shape values :=
    { made := made
      ranked := ranked
      below := fun index inside => (names index inside).placeNamed_lt
      empty := fun none => by rw [madeIndices.sound.empty none]; rfl
      exact := fun _ index inside => by
        have below := (names index inside).placeNamed_lt
        omega
      reads := fun larger index inside offset within =>
        isValue _ (reads larger index inside (names index inside) offset within) }
  obtain ⟨result, after, ended, kept, isMade, isCopy⟩ :=
    integers.select_gives names can word small memory holds
  have some := made.cellSize_ne_zero ranked
  have count : result.count = indices.count * array.shape.cellSize :=
    isCopy.count.trans count_arranged
  refine ⟨result, after, ended, kept, fun none => ?_, fun filled => ?_,
    fun index inside offset within => ?_⟩
  · exact isMade.sound.empty (by rw [count, none, Nat.zero_mul])
  · rw [isCopy.shape, (arranged_of_filled filled some).1]
  · have below := lt_of_place_offset inside within
    have alike := isCopy.pick _ (count_arranged.symm ▸ below)
    have there := @elementAt_arranged array
      (fun index => placeNamed array.length (named index)) indices.shape _ below
    rw [place_of_offset within, Nat.mul_add_mod_of_lt within] at there
    rwa [pick, pick, there] at alike

namespace Selected

/-- The last one and the first one. -/
def ends : ShapedArray :=
  .list #[.number (-1.0), .number 0.0]

theorem ends_hasIntegers :
    ends.HasIntegers calling held fun index => [-1, 0].getD index 0 := by
  refine (hasValues_list _).hasIntegers fun index inside => ?_
  obtain rfl | rfl : index = 0 ∨ index = 1 := by
    have small : index < 2 := inside
    omega
  · exact ⟨_, rfl, by decide +kernel⟩
  · exact ⟨_, rfl, by decide +kernel⟩

end Selected

theorem IsMade.select_cells_rows : Composed.grid.IsMade Composed.calls ∧ Composed.grid.rank ≠ 0 ∧
    Composed.grid.length ≤ exactLimit + 1 ∧
    Selected.ends.IsMade Composed.calls ∧
    Selected.ends.HasIntegers Composed.calls (fun _ => True)
      (fun index => [-1, 0].getD index 0) ∧
    Composed.grid.HasValues Composed.calls (fun _ => True)
      (fun index => Composed.numbers.getD index .nil) ∧
    ∃ result after,
      Primitive.select.apply (.array Composed.grid)
        (some (.array Selected.ends)) Composed.calls Astray.store =
          (.ok (.array result), after) ∧
      result.shape = [2, 2] ∧
      (result.pick 1).EndsLike Composed.calls (fun _ => True) (Composed.grid.pick 3) := by
  have integers : Selected.ends.HasIntegers Composed.calls (fun _ => True)
      (fun index => [-1, 0].getD index 0) := Selected.ends_hasIntegers
  have reads : Composed.grid.HasValues Composed.calls (fun _ => True)
      (fun index => Composed.numbers.getD index .nil) := hasValues_stored (Nat.le_refl 4)
  have length : Composed.grid.length ≤ exactLimit + 1 := by decide
  have names : ∀ index < Selected.ends.count,
      NamesCell Composed.grid.length ([-1, 0].getD index 0) := by
    unfold NamesCell
    decide
  obtain ⟨result, after, ended, _, _, shape, element⟩ :=
    ((IsMade.select_cells Composed.grid_made (by decide) length (.list _) integers
      fun _ index inside isName offset within => ⟨_, reads _
        (cell_lt (by decide) isName.placeNamed_lt within)⟩).2 names).2 (by decide)
      Astray.store trivial
  exact ⟨Composed.grid_made, by decide, length, .list _, integers, reads, result, after, ended,
    shape (by decide), element 0 (by decide) 1 (by decide)⟩

/-! ### Elements that do not stay the same, and a list too long for its places -/

/-- The only element of a copy of one cell of a list. -/
theorem pick_single {copy : ShapedArray} {place : Nat} (list : array.rank = 1)
    (isCopy : copy.IsCopyOf calling held (array.arranged (fun _ => place) [1])) :
    (copy.pick 0).EndsLike calling held (array.pick place) := by
  have cell := cellSize_of_list list
  have some : 0 < Shape.size [1] * array.shape.cellSize := by
    rw [cell]
    decide
  have alike := isCopy.pick 0 (by rwa [count_arranged])
  rw [pick, pick, elementAt_arranged some, cell, Nat.mul_one, Nat.zero_mod, Nat.add_zero] at alike
  exact alike

/-- A reordering of a list finds a place by its double. -/
theorem IsMade.reorder_single {place named : Nat} (made : array.IsMade calling)
    (list : array.rank = 1) (inside : place < array.length) (exact : place ≤ exactLimit)
    (same : Value.ofNat named = Value.ofNat place) :
    (Cellwise.reorder array ((Array.range 1).map fun _ => named) [1]).GivesCopy calling held
      (array.arranged (fun _ => place) [1]) := by
  have can : array.CanArrange calling held (fun _ => place) [1] (fun _ => .nil) :=
    { made := made
      ranked := list.trans_ne Nat.one_ne_zero
      below := fun _ _ => inside
      empty := nofun
      exact := fun _ _ _ => exact
      reads := fun larger => absurd list larger }
  have gives := can.reorder_gives (by rw [cellSize_of_list list]; decide)
  have places : Value.ofNat ∘ (fun _ : Nat => named) = Value.ofNat ∘ fun _ => place :=
    funext fun _ => same
  rw [size_singleton, Cellwise.reorder, if_pos list, Array.map_map] at gives
  rw [Cellwise.reorder, if_pos list, Array.map_map, places]
  exact gives

/-- A list of one integer selects a cell of a list by the double of its place. -/
theorem IsMade.select_single {value : Value} {whole : Int} {place : Nat}
    (made : array.IsMade calling) (isList : array.rank = 1)
    (word : (array.length : Int) ≤ integerMax) (isWhole : value.IsWhole whole)
    (names : NamesCell array.length whole) (inside : place < array.length)
    (exact : place ≤ exactLimit)
    (same : Value.ofNat (placeNamed array.length whole) = Value.ofNat place) :
    (Primitive.select.apply (.array array) (some (.list #[value]))).GivesCopy calling held
      (array.arranged (fun _ => place) [1]) := by
  have integers : (ShapedArray.list #[value]).HasIntegers calling held (fun _ => whole) := by
    refine (hasValues_list _).hasIntegers fun index inside => ?_
    obtain rfl : index = 0 := Nat.lt_one_iff.1 inside
    exact isWhole
  rw [Value.list, select_eq (isList.trans_ne Nat.one_ne_zero)]
  exact (integers.places word fun _ _ => names).bind_gives
    (made.reorder_single isList inside exact same)

namespace Selected

/-- A number so many times, and another one behind. -/
def padded (count : Nat) (padding last : Float) : ShapedArray :=
  .list ((Array.replicate count (.number padding)).push (.number last))

variable {count index : Nat} {padding last : Float}

theorem shape_padded : (padded count padding last).shape = [count + 1] := by
  rw [padded, shape_list, Array.size_push, Array.size_replicate]

theorem length_padded : (padded count padding last).length = count + 1 := by
  rw [length, shape_padded]
  rfl

theorem rank_padded : (padded count padding last).rank = 1 := by
  rw [rank, shape_padded]
  rfl

theorem elementAt_padded (inside : index < count) :
    (padded count padding last).elementAt index = .value (.number padding) := by
  rw [padded, elementAt_list (by rw [Array.size_push, Array.size_replicate]; omega),
    Array.getElem_push_lt (by rwa [Array.size_replicate]), Array.getElem_replicate]

theorem elementAt_padded_last :
    (padded count padding last).elementAt count = .value (.number last) := by
  rw [padded, elementAt_list (by rw [Array.size_push, Array.size_replicate]; omega),
    Array.getElem_push, dif_neg (by rw [Array.size_replicate]; omega)]

/-- The last place of a list may be the double of the place before. -/
theorem ofNat_exactLimit : Value.ofNat (exactLimit + 1) = Value.ofNat exactLimit :=
  congrArg Value.number (by decide +kernel)

end Selected

/-- A zip that counts how often it is read has gone on when it is compared with the cells selected
of it, or names other cells when it is selected by once more. The sum of two letters cannot be read.
And the last place of a very long list is no double. -/
theorem IsMade.not_select_cells :
    (Ranked.counted.IsMade Tally.calls ∧
      ((do
        let chosen ← Primitive.select.apply (.array Ranked.counted)
          (some (.list #[.number 0.0, .number 1.0]))
        chosen.same (.array Ranked.counted) : Action (Heap (List Routine)) Bool)
          Tally.calls Tally.store).1 = .ok false) ∧
    (Tally.count.IsMade Tally.calls ∧
      ((do
        let numbers := Value.list #[.number 5.0, .number 6.0, .number 7.0]
        let once ← Primitive.select.apply numbers (some (.array Tally.count))
        let again ← Primitive.select.apply numbers (some (.array Tally.count))
        once.same again : Action (Heap (List Routine)) Bool)
          Tally.calls Tally.store).1 = .ok false) ∧
    (Letters.sum.IsMade Composed.calls ∧
      ((Primitive.select.apply (.array Letters.sum) (some (.list #[.number 0.0])) :
        Action (Heap (List Routine)) Value) Composed.calls Tally.store).1.isOk = false) ∧
    ∃ long : ShapedArray, long.IsMade Composed.calls ∧ long.length = exactLimit + 2 ∧
      ∃ chosen after,
        Primitive.select.apply (.array long) (some (.list #[.number (-1.0)])) Composed.calls
          Tally.store = (.ok (.array chosen), after) ∧
        (chosen.pick 0 Composed.calls after).1 = .ok (.number 1.0) ∧
        (long.pick (exactLimit + 1) Composed.calls after).1 = .ok (.number 2.0) := by
  refine ⟨⟨Ranked.counted_made, Outcome.eq_ok_of_toOption (by decide +kernel)⟩,
    ⟨Tally.count_made, Outcome.eq_ok_of_toOption (by decide +kernel)⟩,
    ⟨Letters.sum_made, by decide +kernel⟩, Selected.padded (exactLimit + 1) 1.0 2.0, .list _,
    Selected.length_padded, ?_⟩
  have length := @Selected.length_padded (exactLimit + 1) 1.0 2.0
  have named : placeNamed (exactLimit + 2) (-1) = exactLimit + 1 := by
    rw [placeNamed, if_pos (by decide)]
    omega
  have gives : (Primitive.select.apply (.array (Selected.padded (exactLimit + 1) 1.0 2.0))
      (some (.list #[.number (-1.0)]))).GivesCopy Composed.calls (fun _ => True)
        ((Selected.padded (exactLimit + 1) 1.0 2.0).arranged (fun _ => exactLimit) [1]) := by
    have isWhole : (Value.number (-1.0)).IsWhole (-1) := ⟨_, rfl, by decide +kernel⟩
    refine IsMade.select_single (.list _) Selected.rank_padded (by rw [length]; decide) isWhole
      (by rw [length]; exact ⟨by omega, by omega⟩) (by rw [length]; omega) (Nat.le_refl _) ?_
    rw [length, named, Selected.ofNat_exactLimit]
  obtain ⟨chosen, after, ended, _, _, isCopy⟩ := gives Tally.store trivial
  refine ⟨chosen, after, ended, ?_, ?_⟩
  · rw [(pick_single Selected.rank_padded isCopy after trivial).1, pick,
      Selected.elementAt_padded (Nat.lt_succ_self _)]
    rfl
  · rw [pick, Selected.elementAt_padded_last]
    rfl

end ShapedArray

end PointFree
