import PointFree.Function.Call
import PointFree.Proofs.Arrangement.Reordering
import PointFree.Proofs.Merging.Inverse
import PointFree.Proofs.Ranking.Composition

/-!
Contract: rotation and reversal.

A move brings the cells of any array into another order, which depends on how many there are alone.
Moves made one after the other are one move, so what holds of the places of the cells holds of the
arrays: rotations add up, a reversal undoes itself and turns a rotation about, and the inverse of a
rotation is the rotation by as much the other way.
-/

namespace PointFree

variable {H : Type} {calling : Call H} {held : Memory H → Prop}

namespace ShapedArray

variable {array copy : ShapedArray}

/-! ### Moves -/

/-- What it takes to move cells about: an array with cells, within the limit; and elements that stay
the same where the cells are larger than elements. -/
structure CanMove (calling : Call H) (held : Memory H → Prop) (array : ShapedArray) : Prop where
  made : array.IsMade calling
  ranked : array.rank ≠ 0
  small : array.count ≤ sizeLimit
  reads : array.rank ≠ 1 → ∃ values, array.HasValues calling held values

/-- The cells of the array in the order in which a source names them. -/
def permuted (array : ShapedArray) (source : Nat → Nat → Nat) : ShapedArray :=
  array.arranged (source array.length) [array.length]

/-- The source names one of the cells at each of their places. -/
def Permutes (source : Nat → Nat → Nat) : Prop :=
  ∀ length place, place < length → source length place < length

variable {source source' : Nat → Nat → Nat}

theorem CanMove.shape_permuted (can : array.CanMove calling held) :
    (array.permuted source).shape = array.shape := by
  by_cases none : array.count = 0
  · rw [can.made.sound.empty none]
    rfl
  · rw [count_eq_length_mul can.ranked] at none
    obtain ⟨several, some⟩ := Nat.mul_ne_zero_iff.1 none
    rw [permuted, (arranged_of_filled (by rwa [size_singleton]) some).1]
    exact shape_eq_cons can.ranked

theorem CanMove.reorder_gives (can : array.CanMove calling held) (permutes : Permutes source) :
    (Cellwise.reorder array ((Array.range array.length).map (source array.length))
      [array.length]).GivesCopy calling held (array.permuted source) := by
  have count := count_eq_length_mul can.ranked
  have small := can.small
  have arranges (values : Nat → Value)
      (reads : array.rank ≠ 1 → array.HasValues calling held values) :
      array.CanArrange calling held (source array.length) [array.length] values :=
    { made := can.made
      ranked := can.ranked
      below := fun place inside => by
        rw [size_singleton] at inside
        exact permutes _ place inside
      empty := fun none => by rw [← size_singleton array.length, none]
      exact := fun list place inside => by
        rw [size_singleton] at inside
        have below := permutes _ place inside
        have few : array.length ≤ array.count := by
          rw [count]
          exact Nat.le_mul_of_pos_right _
            (Nat.pos_of_ne_zero (can.made.cellSize_ne_zero can.ranked))
        have limits : sizeLimit ≤ exactLimit := by decide
        omega
      reads := fun larger place inside offset within => by
        rw [size_singleton] at inside
        exact reads larger _ (cell_lt can.ranked (permutes _ place inside) within) }
  have fits : Shape.size [array.length] * array.shape.cellSize ≤ sizeLimit := by
    rwa [size_singleton, ← count]
  have given (values : Nat → Value)
      (reads : array.rank ≠ 1 → array.HasValues calling held values) :=
    (arranges values reads).reorder_gives fits
  rw [size_singleton] at given
  by_cases list : array.rank = 1
  · exact given (fun _ => .nil) fun larger => absurd list larger
  · obtain ⟨values, reads⟩ := can.reads list
    exact given values fun _ => reads

/-- A copy of the moved array reads as the cells do, wherever they have gone. -/
theorem CanMove.hasValues_copy {values : Nat → Value} (can : array.CanMove calling held)
    (permutes : Permutes source) (reads : array.HasValues calling held values)
    (isCopy : copy.IsCopyOf calling held (array.permuted source)) :
    ∃ moved, copy.HasValues calling held moved := by
  have selected : array.HasSelected calling held (source array.length)
      (Shape.size [array.length]) values := by
    intro place inside offset within
    rw [size_singleton] at inside
    exact reads _ (cell_lt can.ranked (permutes _ place inside) within)
  exact ⟨_, isCopy.hasValues selected.arranged⟩

/-- A copy of an array whose cells have moved can be moved on. -/
theorem CanMove.of_copy (can : array.CanMove calling held) (permutes : Permutes source)
    (made : copy.IsMade calling) (isCopy : copy.IsCopyOf calling held (array.permuted source)) :
    copy.CanMove calling held ∧ copy.length = array.length := by
  have shape : copy.shape = array.shape := isCopy.shape.trans can.shape_permuted
  have rank : copy.rank = array.rank := congrArg List.length shape
  refine ⟨⟨made, rank ▸ can.ranked, ?_, fun larger => ?_⟩, congrArg Shape.leading shape⟩
  · rw [count, shape]
    exact can.small
  · obtain ⟨values, reads⟩ := can.reads (rank ▸ larger)
    exact can.hasValues_copy permutes reads isCopy

/-- Cells that have moved, moved on. -/
theorem CanMove.permuted_copy (can : array.CanMove calling held) (permutes' : Permutes source')
    (isCopy : copy.IsCopyOf calling held (array.permuted source)) :
    (copy.permuted source').IsCopyOf calling held
      (array.permuted fun length => source length ∘ source' length) := by
  have shape : (array.permuted source).shape = array.shape := can.shape_permuted
  have length : copy.length = array.length :=
    congrArg Shape.leading (isCopy.shape.trans shape)
  have ranked : (array.permuted source).rank ≠ 0 := by
    rw [rank, shape]
    exact can.ranked
  have below : ∀ place < Shape.size [array.length], source' array.length place < array.length := by
    intro place inside
    rw [size_singleton] at inside
    exact permutes' _ place inside
  have same : (array.permuted source).length = array.length := congrArg Shape.leading shape
  rw [permuted, length]
  exact (isCopy.arranged ranked (same.symm ▸ below)).trans
    (arranged_arranged (can.made.cellSize_ne_zero can.ranked) below)

/-- The action moves the cells of any array that can be moved to where the source names them. -/
structure Moves (calling : Call H) (held : Memory H → Prop) (move : Value → Action H Value)
    (source : Nat → Nat → Nat) : Prop where
  permutes : Permutes source
  gives : ∀ array : ShapedArray, array.CanMove calling held →
    (move (.array array)).GivesCopy calling held (array.permuted source)

namespace Moves

variable {move move' : Value → Action H Value}

theorem stay : Moves calling held (fun right => pure right) fun _ => id where
  permutes _ _ inside := inside
  gives _ can :=
    (Action.endsWith_pure _).givesCopy can.made (can.made.isCopyOf_arranged can.ranked)

/-- A move after a move is a move. -/
theorem comp (first : Moves calling held move source) (second : Moves calling held move' source') :
    Moves calling held (fun right => do
      let between ← move right
      move' between) fun length => source length ∘ source' length where
  permutes length place inside := first.permutes _ _ (second.permutes _ place inside)
  gives array can := by
    refine (first.gives array can).bind fun copy made isCopy => ?_
    obtain ⟨canMove, _⟩ := can.of_copy first.permutes made isCopy
    exact (second.gives copy canMove).of_copy (can.permuted_copy second.permutes isCopy)

/-- Moves to the same places give arrays that read alike. -/
theorem giveAlike (first : Moves calling held move source)
    (second : Moves calling held move' source')
    (same : ∀ length place, place < length → source length place = source' length place)
    (can : array.CanMove calling held) :
    (move (.array array)).GiveAlike calling held (move' (.array array)) := by
  refine ((first.gives array can).of_copy ?_).giveAlike (second.gives array can)
  refine arranged_congr fun place inside => ?_
  rw [size_singleton] at inside
  exact same _ place inside

end Moves

end ShapedArray

/-! ### Places on a circle -/

namespace Cellwise

/-- Where the cell at a place comes from, if all move a distance toward the front. -/
def turned (distance : Int) (length place : Nat) : Nat :=
  (place + (distance.emod length).toNat) % length

/-- Where the cell at a place comes from, if all change their order. -/
def mirrored (length place : Nat) : Nat :=
  length - 1 - place

theorem turned_permutes (distance : Int) : ShapedArray.Permutes (turned distance) :=
  fun _ _ inside => Nat.mod_lt _ (Nat.zero_lt_of_lt inside)

theorem mirrored_permutes : ShapedArray.Permutes mirrored := by
  intro length _ inside
  rw [mirrored]
  omega

theorem cast_turned {length place : Nat} (distance : Int) (inside : place < length) :
    (turned distance length place : Int) = (place + distance) % length := by
  have some : (length : Int) ≠ 0 := by omega
  have shift : ((distance.emod length).toNat : Int) = distance % length :=
    Int.toNat_of_nonneg (Int.emod_nonneg distance some)
  rw [turned, Int.natCast_emod, Int.natCast_add, shift, Int.add_emod_emod]

/-- Turns add up. -/
theorem turned_turned {length place : Nat} (first second : Int) (inside : place < length) :
    turned first length (turned second length place) = turned (second + first) length place := by
  have between := turned_permutes second length place inside
  have same : (turned first length (turned second length place) : Int) =
      turned (second + first) length place := by
    rw [cast_turned first between, cast_turned second inside, cast_turned _ inside,
      Int.emod_add_emod, Int.add_assoc]
  exact Int.ofNat_inj.1 same

theorem turned_zero {length place : Nat} (inside : place < length) :
    turned 0 length place = place := by
  have same : (turned 0 length place : Int) = place := by
    rw [cast_turned 0 inside, Int.add_zero, Int.emod_eq_of_lt (by omega) (by omega)]
  exact Int.ofNat_inj.1 same

theorem mirrored_mirrored {length place : Nat} (inside : place < length) :
    mirrored length (mirrored length place) = place := by
  rw [mirrored, mirrored]
  omega

/-- Seen in a mirror, a turn goes the other way. -/
theorem turned_mirrored {length place : Nat} (distance : Int) (inside : place < length) :
    turned distance length (mirrored length place) =
      mirrored length (turned (-distance) length place) := by
  have between := mirrored_permutes length place inside
  have other := turned_permutes (-distance) length place inside
  have reflected (place : Nat) (inside : place < length) :
      (mirrored length place : Int) = length - 1 - place := by
    rw [mirrored]
    omega
  have same : (turned distance length (mirrored length place) : Int) =
      mirrored length (turned (-distance) length place) := by
    rw [cast_turned distance between, reflected place inside, reflected _ other,
      cast_turned _ inside]
    -- The two places differ by a multiple of the length, and both are below it.
    have parts := Int.emod_add_mul_ediv (place + -distance) length
    have low := Int.emod_nonneg (place + -distance) (show (length : Int) ≠ 0 by omega)
    have high := Int.emod_lt_of_pos (place + -distance) (show (0 : Int) < length by omega)
    have split : (length : Int) - 1 - place + distance =
        (length - 1 - (place + -distance) % length) +
          length * -((place + -distance) / length) := by
      rw [Int.mul_neg]
      omega
    rw [split, Int.add_mul_emod_self_left, Int.emod_eq_of_lt (by omega) (by omega)]
  exact Int.ofNat_inj.1 same

/-! ### The moves of the primitive -/

open ShapedArray (Moves)

theorem requireCells_eq_ok {array : ShapedArray} (glyph : Char) (ranked : array.rank ≠ 0) :
    requireCells glyph (.array array) = .ok array :=
  if_neg ranked

theorem reverse_moves : Moves calling held reverse mirrored where
  permutes := mirrored_permutes
  gives array can := by
    rw [reverse, requireCells_eq_ok '⌽' can.ranked]
    exact can.reorder_gives mirrored_permutes

theorem rotateBy_moves (distance : Int) :
    Moves calling held (rotateBy distance) (turned distance) where
  permutes := turned_permutes distance
  gives array can := by
    rw [rotateBy, requireCells_eq_ok '⌽' can.ranked]
    change (if array.length = 0 then pure (.array array) else
      reorder array ((Array.range array.length).map (turned distance array.length))
        [array.length] : Action H Value).GivesCopy calling held _
    split
    · next none =>
        have empty : array.count = 0 := by
          rw [ShapedArray.count_eq_length_mul can.ranked, none, Nat.zero_mul]
        rw [can.made.sound.empty empty]
        exact (Action.endsWith_pure _).givesCopy .nil (.refl _)
    · exact can.reorder_gives (turned_permutes distance)

end Cellwise

/-! ### The primitive -/

/-- The function that reverses cells, or rotates them by its left argument. -/
def rotation (stamp : Nat) : Function :=
  .mk stamp (.primitive .reverse)

section Calls

variable [Blocks H] {stamp : Nat} {left : Value} {distance : Int}

theorem call_reverse (right : Value) :
    ((rotation stamp).call right none : Action H Value) = Cellwise.reverse right :=
  rfl

theorem call_rotate (isInteger : left.toInteger = .ok distance) (right : Value) :
    ((rotation stamp).call right (some left) : Action H Value) =
      Cellwise.rotateBy distance right := by
  change (do
    let distance ← left.toInteger
    Cellwise.rotateBy distance right : Action H Value) = _
  rw [isInteger]
  rfl

theorem undo_rotate (isInteger : left.toInteger = .ok distance) (right : Value) :
    ((rotation stamp).undo right (some left) : Action H Value) =
      Cellwise.rotateBy (-distance) right := by
  change (do
    let distance ← left.toInteger
    Cellwise.rotateBy (-distance) right : Action H Value) = _
  rw [isInteger]
  rfl

end Calls

namespace ShapedArray

variable {array : ShapedArray}

/-- The rotations and the reversal of an array act like those of a regular polygon: rotations add
up, the reversal undoes itself and turns rotations about, and the declared inverse of the rotation
by a left argument undoes it. The elements of arrays with more than one axis stay the same while
they are read. -/
theorem IsMade.rotations_act [Blocks H] (made : array.IsMade calling) (ranked : array.rank ≠ 0)
    (small : array.count ≤ sizeLimit)
    (reads : array.rank ≠ 1 → ∃ values, array.HasValues calling held values) (stamp : Nat) :
    (∀ (first second sum : Value) (distance distance' : Int),
      first.toInteger = .ok distance → second.toInteger = .ok distance' →
      sum.toInteger = .ok (distance + distance') →
      (do
        let once ← (rotation stamp).call (.array array) (some second)
        (rotation stamp).call once (some first)).GiveAlike calling held
      ((rotation stamp).call (.array array) (some sum))) ∧
    (do
      let once ← (rotation stamp).call (.array array) none
      (rotation stamp).call once none).GiveAlike calling held (pure (.array array)) ∧
    (∀ (left opposite : Value) (distance : Int),
      left.toInteger = .ok distance → opposite.toInteger = .ok (-distance) →
      (do
        let once ← (rotation stamp).call (.array array) (some left)
        (rotation stamp).call once none).GiveAlike calling held (do
        let once ← (rotation stamp).call (.array array) none
        (rotation stamp).call once (some opposite))) ∧
    ∀ (left : Value) (distance : Int), left.toInteger = .ok distance →
      (do
        let once ← (rotation stamp).call (.array array) (some left)
        (rotation stamp).undo once (some left)).GiveAlike calling held (pure (.array array)) := by
  have can : array.CanMove calling held := ⟨made, ranked, small, reads⟩
  refine ⟨fun first second sum distance distance' isFirst isSecond isSum => ?_, ?_,
    fun left opposite distance isLeft isOpposite => ?_, fun left distance isLeft => ?_⟩
  · simp only [call_rotate isFirst, call_rotate isSecond, call_rotate isSum]
    refine ((Cellwise.rotateBy_moves distance').comp (Cellwise.rotateBy_moves distance)).giveAlike
      (Cellwise.rotateBy_moves (distance + distance')) (fun _ _ inside => ?_) can
    exact Cellwise.turned_turned distance' distance inside
  · simp only [call_reverse]
    exact (Cellwise.reverse_moves.comp Cellwise.reverse_moves).giveAlike .stay
      (fun _ _ inside => Cellwise.mirrored_mirrored inside) can
  · simp only [call_rotate isLeft, call_rotate isOpposite, call_reverse]
    exact ((Cellwise.rotateBy_moves distance).comp Cellwise.reverse_moves).giveAlike
      (Cellwise.reverse_moves.comp (Cellwise.rotateBy_moves (-distance)))
      (fun _ _ inside => Cellwise.turned_mirrored distance inside) can
  · simp only [call_rotate isLeft, undo_rotate isLeft]
    refine ((Cellwise.rotateBy_moves distance).comp
      (Cellwise.rotateBy_moves (-distance))).giveAlike .stay (fun _ _ inside => ?_) can
    exact (Cellwise.turned_turned distance (-distance) inside).trans
      (by rw [Int.add_left_neg, Cellwise.turned_zero inside]; rfl)

theorem IsMade.rotations_act_rows : Composed.grid.IsMade Composed.calls ∧
    Composed.grid.rank ≠ 0 ∧ Composed.grid.count ≤ sizeLimit ∧
    (∃ values, Composed.grid.HasValues Composed.calls (fun _ => True) values) ∧
    (Value.number 3.0).toInteger = .ok 3 ∧ (Value.number (-3.0)).toInteger = .ok (-3) ∧
    (Value.number 0.0).toInteger = .ok (3 + -3) ∧
    (do
      let once ← (rotation 0).call (.array Composed.grid) (some (.number (-3.0)))
      (rotation 0).call once (some (.number 3.0))).GiveAlike Composed.calls (fun _ => True)
      ((rotation 0).call (.array Composed.grid) (some (.number 0.0))) ∧
    (do
      let once ← (rotation 0).call (.array Composed.grid) none
      (rotation 0).call once none).GiveAlike Composed.calls (fun _ => True)
      (pure (.array Composed.grid)) ∧
    (do
      let once ← (rotation 0).call (.array Composed.grid) (some (.number 3.0))
      (rotation 0).call once none).GiveAlike Composed.calls (fun _ => True) (do
      let once ← (rotation 0).call (.array Composed.grid) none
      (rotation 0).call once (some (.number (-3.0)))) ∧
    (do
      let once ← (rotation 0).call (.array Composed.grid) (some (.number 3.0))
      (rotation 0).undo once (some (.number 3.0))).GiveAlike Composed.calls (fun _ => True)
      (pure (.array Composed.grid)) := by
  have three : (Value.number 3.0).toInteger = .ok 3 :=
    Outcome.eq_ok_of_toOption (by decide +kernel)
  have back : (Value.number (-3.0)).toInteger = .ok (-3) :=
    Outcome.eq_ok_of_toOption (by decide +kernel)
  have zero : (Value.number 0.0).toInteger = .ok (3 + -3) :=
    Outcome.eq_ok_of_toOption (by decide +kernel)
  have reads : ∃ values, Composed.grid.HasValues Composed.calls (fun _ => True) values :=
    ⟨_, hasValues_stored (Nat.le_refl 4)⟩
  obtain ⟨adds, reverses, turns, undoes⟩ := IsMade.rotations_act Composed.grid_made (by decide)
    (by decide) (fun _ => reads) 0
  exact ⟨Composed.grid_made, by decide, by decide, reads, three, back, zero,
    adds _ _ _ _ _ three back zero, reverses, turns _ _ _ three back, undoes _ _ three⟩

/-- A zip that counts how often it is read has gone on when it is compared with what two reversals
have made of it. And the sum of two letters, under two axes, cannot be read to be reversed. -/
theorem IsMade.not_rotations_act :
    (Ranked.counted.IsMade Tally.calls ∧ Ranked.counted.count ≤ sizeLimit ∧
      ((do
        let once ← (rotation 0).call (.array Ranked.counted) none
        let twice ← (rotation 0).call once none
        twice.same (.array Ranked.counted) : Action (Heap (List Routine)) Bool)
          Tally.calls Tally.store).1 = .ok false) ∧
    Letters.sum.IsMade Composed.calls ∧ Letters.sum.rank ≠ 0 ∧
      ((do
        let once ← (rotation 0).call (.array Letters.sum) none
        (rotation 0).call once none : Action (Heap (List Routine)) Value)
          Composed.calls Tally.store).1.isOk = false :=
  ⟨⟨Ranked.counted_made, by decide, Outcome.eq_ok_of_toOption (by decide +kernel)⟩,
    Letters.sum_made, by decide, by decide +kernel⟩

end ShapedArray

end PointFree
