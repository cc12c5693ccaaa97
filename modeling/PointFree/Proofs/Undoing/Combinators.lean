import PointFree.Proofs.Arrangement.Rotation
import PointFree.Proofs.Undoing
import PointFree.Proofs.Undoing.Elements
import PointFree.Proofs.Views.Laziness

/-!
Contract: rotation and the combinators as lawful functions.

A move is taken back by the move of every cell to the place it came from. What a move gives is
another array with the same cells, so arrays count as the same here if one is a copy of the other
that can be read and moved like it. Reversal is its own inverse and rotation has the rotation the
other way, so the primitive is lawful in both call forms. Computing under it is not: the inverse
that is declared gives the left argument to the first step again.

One lawful function after the other is lawful, and so is the inverse of one as a function of its
own. A lawful function applied to each element is taken back where the elements of both arguments
can be read and stay the same, and where it declares an inverse: a function that never succeeds is
lawful without one, and applied to each element of an empty array it succeeds all the same.
-/

namespace PointFree

variable {H : Type} {calling : Call H} {held : Memory H → Prop}

/-! ### Values that are copies -/

namespace ShapedArray

variable {array copy original : ShapedArray} {values : Nat → Value}

/-- Of an array whose elements stay the same, the array is a copy in turn. -/
theorem IsCopyOf.symm (isCopy : copy.IsCopyOf calling held original)
    (reads : original.HasValues calling held values) : original.IsCopyOf calling held copy where
  shape := isCopy.shape.symm
  fill := isCopy.fill.symm
  pick index inside := by
    have there : index < original.count := isCopy.count ▸ inside
    exact (reads index there).endsLike (isCopy.hasValues reads index inside)

end ShapedArray

/-- A value that is no array, and itself; or two arrays within the limit, one a copy of the other,
whose elements stay the same. -/
inductive Value.IsCopied (calling : Call H) (held : Memory H → Prop) : Value → Value → Prop where
  | plain {value : Value} : value.isArray = false → IsCopied calling held value value
  | array {array copy : ShapedArray} {values : Nat → Value} :
      array.IsMade calling → copy.IsMade calling → array.count ≤ sizeLimit →
      array.HasValues calling held values → copy.IsCopyOf calling held array →
      IsCopied calling held (.array array) (.array copy)

/-! ### Moves -/

namespace ShapedArray

variable {array copy : ShapedArray} {source source' : Nat → Nat → Nat} {values : Nat → Value}
variable {move move' : Value → Action H Value}

/-- What brings every cell back is a copy of the array. -/
theorem CanMove.permuted_back (can : array.CanMove calling held)
    (reads : array.HasValues calling held values)
    (back : ∀ length place, place < length → source length place = place) :
    (array.permuted source).IsCopyOf calling held array := by
  have permutes : Permutes source := fun length place inside =>
    (back length place inside).symm ▸ inside
  have stays : (array.arranged id [array.length]).IsCopyOf calling held
      (array.permuted source) := by
    refine arranged_congr fun place inside => ?_
    rw [size_singleton] at inside
    exact (back _ place inside).symm
  obtain ⟨moved, readsMoved⟩ := can.hasValues_copy permutes reads (.refl _)
  exact ((can.made.isCopyOf_arranged can.ranked).trans stays).symm readsMoved

/-- A move is taken back by one that moves the cells to where they have been. -/
theorem Moves.takesBack (first : Moves calling held move source)
    (second : Moves calling held move' source')
    (back : ∀ length place, place < length → source length (source' length place) = place)
    (cells : ∀ right memory found after, move right calling memory = (.ok found, after) →
      ∃ array : ShapedArray, right = .array array ∧ array.rank ≠ 0) :
    TakesBack calling held (Value.IsCopied calling held) move move' := by
  intro right isRight memory found after holds ended
  obtain ⟨array, rfl, ranked⟩ := cells right memory found after ended
  cases isRight with
  | plain noArray => cases noArray
  | array made _ small reads _ =>
      have can : array.CanMove calling held := ⟨made, ranked, small, fun _ => ⟨_, reads⟩⟩
      obtain ⟨copy, _, moved, kept, copyMade, isCopy⟩ := first.gives array can memory holds
      cases ended.symm.trans moved
      obtain ⟨values, readsCopy⟩ := can.hasValues_copy first.permutes reads isCopy
      have bounded : copy.count ≤ sizeLimit := by
        rw [isCopy.count, count, can.shape_permuted]
        exact small
      refine ⟨kept, .array copyMade copyMade bounded readsCopy (.refl copy),
        fun found' same => ?_⟩
      cases same with
      | plain noArray => cases noArray
      | @array _ other _ _ otherMade _ _ isOther =>
          have isMoved := isOther.trans isCopy
          obtain ⟨canOther, _⟩ := can.of_copy first.permutes otherMade isMoved
          intro memory holds
          obtain ⟨result, after, ended, kept, resultMade, isResult⟩ :=
            second.gives other canOther memory holds
          have isBack := isResult.trans (can.permuted_copy second.permutes isMoved)
          rw [ended]
          exact ⟨kept, .ok (.array made resultMade small reads
            (isBack.trans (can.permuted_back reads back)))⟩

end ShapedArray

/-! ### The primitive -/

namespace Cellwise

variable {right found : Value} {memory after : Memory H}

theorem exists_of_requireCells {glyph : Char} {items : ShapedArray}
    (requires : requireCells glyph right = .ok items) : right = .array items ∧ items.rank ≠ 0 := by
  cases right with
  | array array =>
      rw [requireCells] at requires
      split at requires
      · cases requires
      · next ranked =>
          cases requires
          exact ⟨rfl, ranked⟩
  | _ => cases requires

theorem exists_of_reverse (ended : reverse right calling memory = (.ok found, after)) :
    ∃ array : ShapedArray, right = .array array ∧ array.rank ≠ 0 := by
  obtain ⟨items, _, requires, _⟩ := Action.bind_eq_ok.1 ended
  exact ⟨items, exists_of_requireCells (congrArg Prod.fst requires)⟩

theorem exists_of_rotateBy {distance : Int}
    (ended : rotateBy distance right calling memory = (.ok found, after)) :
    ∃ array : ShapedArray, right = .array array ∧ array.rank ≠ 0 := by
  obtain ⟨items, _, requires, _⟩ := Action.bind_eq_ok.1 ended
  exact ⟨items, exists_of_requireCells (congrArg Prod.fst requires)⟩

theorem reverse_takesBack :
    TakesBack calling held (Value.IsCopied calling held) reverse reverse :=
  reverse_moves.takesBack reverse_moves (fun _ _ inside => mirrored_mirrored inside)
    fun _ _ _ _ ended => exists_of_reverse ended

theorem rotateBy_takesBack (distance opposite : Int) (back : opposite + distance = 0) :
    TakesBack calling held (Value.IsCopied calling held) (rotateBy distance)
      (rotateBy opposite) := by
  refine (rotateBy_moves distance).takesBack (rotateBy_moves opposite) (fun _ _ inside => ?_)
    fun _ _ _ _ ended => exists_of_rotateBy ended
  rw [turned_turned distance opposite inside, back, turned_zero inside]

end Cellwise

section Calls

variable [Blocks H] {stamp : Nat}

/-- How far a rotation goes in a direction. -/
def Direction.along (direction : Direction) (distance : Int) : Int :=
  match direction with
  | .forward => distance
  | .backward => -distance

theorem Direction.turn_along_add (direction : Direction) (distance : Int) :
    direction.turn.along distance + direction.along distance = 0 := by
  cases direction <;> simp only [Direction.turn, Direction.along] <;> omega

theorem apply_reverse (direction : Direction) (right : Value) :
    ((rotation stamp).apply direction right none : Action H Value) = Cellwise.reverse right := by
  cases direction <;> rfl

theorem apply_rotate (direction : Direction) (right left : Value) :
    ((rotation stamp).apply direction right (some left) : Action H Value) = (do
      let distance ← left.toInteger
      Cellwise.rotateBy (direction.along distance) right) := by
  cases direction <;> rfl

/-- Reversal and rotation are lawful, for what counts as the same if it is a copy. -/
theorem rotation_isLawful (stamp : Nat) :
    (rotation stamp).IsLawful calling held (Value.IsCopied calling held) := by
  intro direction left _
  cases left with
  | none =>
      simp only [apply_reverse]
      exact Cellwise.reverse_takesBack
  | some other =>
      simp only [apply_rotate]
      cases other.toInteger with
      | error failure =>
          intro right _ memory found after _ ended
          cases ended
      | ok distance =>
          exact Cellwise.rotateBy_takesBack _ _ (direction.turn_along_add distance)

end Calls

/-! ### Computing under a rotation -/

namespace Function

open ShapedArray (Composed.calls Tally.store)

/-- Reverses cells under a rotation. -/
def reversing : Function :=
  mk 1 (.under (rotation 0) (rotation 0))

def firstThree : ShapedArray :=
  .list #[.number 1.0, .number 2.0, .number 3.0]

theorem firstThree_isCopied : Value.IsCopied Composed.calls (fun _ => True) (.array firstThree)
    (.array firstThree) :=
  .array (.list _) (.list _) (by decide) (ShapedArray.hasValues_list _) (.refl _)

/-- Whether the first element has come back, after an infix call and what is declared to undo it. -/
def reversed : Action (Heap (List Routine)) Bool := do
  let once ← reversing.apply .forward (.array firstThree) (some (.number 1.0))
  let back ← reversing.apply .backward once (some (.number 1.0))
  let first ← back.toArray.pick 0
  let number ← first.toNumber
  return number == 1.0

/-- Both functions are lawful, and one under the other is not: three numbers, reversed under the
rotation by one, do not come back. -/
theorem not_under_isLawful :
    (rotation 0).IsLawful Composed.calls (fun _ => True)
      (Value.IsCopied Composed.calls fun _ => True) ∧
    ¬reversing.IsLawful Composed.calls (fun _ => True)
      (Value.IsCopied Composed.calls fun _ => True) := by
  refine ⟨rotation_isLawful 0, fun lawful => ?_⟩
  have differs : (reversed Composed.calls Tally.store).1 = .ok false :=
    Outcome.eq_ok_of_toOption (by decide +kernel)
  rcases ended : reversed Composed.calls Tally.store with ⟨_ | _, after⟩
  · rw [ended] at differs
    cases differs
  rw [ended] at differs
  cases differs
  obtain ⟨once, between, called, ended⟩ := Action.bind_eq_ok.1 ended
  obtain ⟨back, later, undone, ended⟩ := Action.bind_eq_ok.1 ended
  have isLeft : ∀ other, some (Value.number 1.0) = some other →
      Value.IsCopied Composed.calls (fun _ => True) other other := by
    intro other same
    cases same
    exact .plain rfl
  obtain ⟨_, isOnce, restore⟩ := lawful .forward (some (.number 1.0)) isLeft _
    firstThree_isCopied _ _ _ trivial called
  obtain ⟨_, isRight, restored⟩ := (restore once isOnce).of_ok trivial undone
  cases isRight
  cases restored with
  | plain noArray => cases noArray
  | array _ _ _ _ isCopy =>
      -- The first element of a copy is one, and one is equal to itself.
      have same := (isCopy.pick 0 (by decide) later trivial).1
      obtain ⟨first, _, read, ended⟩ := Action.bind_eq_ok.1 ended
      cases (congrArg Prod.fst read).symm.trans same
      have equal : ((1.0 : Float) == 1.0) = false := Except.ok.inj (congrArg Prod.fst ended)
      exact absurd equal (by decide +kernel)

end Function

end PointFree

namespace PointFree

open Operation (IsBeside)
open ShapedArray (Composed.calls Tally.store Tally.count Tally.count_made)

variable {H : Type} [Blocks H] {calling : Call H} {held : Memory H → Prop}
variable {alike : Value → Value → Prop}

namespace Function

/-- Whatever counts as the same, one lawful function after the other is lawful, and the inverse of
a lawful function is. A lawful function that declares an inverse, applied to each element of an
array, alone or beside an array whose shape fits under its own, is taken back to an array of the
same shape with the same elements, where the elements are read as values that stay the same. -/
theorem combinators_lawful (calling : Call H) (held : Memory H → Prop)
    (alike : Value → Value → Prop) (stamp : Nat) :
    (∀ outer inner : Function, outer.IsLawful calling held alike →
      inner.IsLawful calling held alike →
      (mk stamp (.atop outer inner)).IsLawful calling held alike) ∧
    (∀ operand : Function, operand.IsLawful calling held alike →
      (mk stamp (.inverse operand)).IsLawful calling held alike) ∧
    ∀ operand : Function, operand.IsLawful calling held alike → operand.hasInverse = true →
      ∀ (direction : Direction) (right : ShapedArray) (left : Option Value)
        (values others : Nat → Value), right.IsMade calling →
      right.Offers calling held alike values →
      IsBeside calling held alike right.shape left others →
      ∀ memory found after, held memory →
        (mk stamp (.each operand)).apply direction (.array right) left calling memory =
          (.ok found, after) →
        held after ∧
          ((mk stamp (.each operand)).apply direction.turn found left).Settles calling held
            (fun values restored => restored.StoresLike alike right.shape values) (some values) :=
  ⟨fun _ _ outerLawful innerLawful => outerLawful.atop innerLawful,
    fun _ lawful => lawful.inverse,
    fun _ lawful inverse _ _ _ _ _ made offers beside _ _ _ holds ended =>
      lawful.each_restores inverse made offers beside holds ended⟩

namespace Turned

def row (first second third : Float) : Value :=
  .list #[.number first, .number second, .number third]

/-- Two rows as elements. -/
def rows : ShapedArray :=
  .list #[row 1.0 2.0 3.0, row 4.0 5.0 6.0]

/-- How far each row is rotated. -/
def distances : Value :=
  .list #[.number 1.0, .number 2.0]

theorem row_isCopied (first second third : Float) :
    Value.IsCopied Composed.calls (fun _ => True) (row first second third)
      (row first second third) :=
  have small : (ShapedArray.list #[.number first, .number second, .number third]).count ≤
      sizeLimit := by
    rw [ShapedArray.count_list]
    exact (by decide : 3 ≤ sizeLimit)
  .array (.list _) (.list _) small (ShapedArray.hasValues_list _) (.refl _)

theorem rows_offer : rows.Offers Composed.calls (fun _ => True)
    (Value.IsCopied Composed.calls fun _ => True)
    (#[row 1.0 2.0 3.0, row 4.0 5.0 6.0].getD · .nil) where
  reads := ShapedArray.hasValues_list _
  same index inside := by
    obtain rfl | rfl : index = 0 ∨ index = 1 := by
      have small : index < 2 := inside
      omega
    · exact row_isCopied 1.0 2.0 3.0
    · exact row_isCopied 4.0 5.0 6.0

theorem distances_beside : IsBeside Composed.calls (fun _ => True)
    (Value.IsCopied Composed.calls fun _ => True) rows.shape (some distances)
    (#[Value.number 1.0, .number 2.0].getD · .nil) := by
  intro other isLeft
  cases isLeft
  refine ⟨⟨ShapedArray.hasValues_list _, fun index inside => ?_⟩, List.suffix_refl _⟩
  obtain rfl | rfl : index = 0 ∨ index = 1 := by
    have small : index < 2 := inside
    omega
  · exact .plain rfl
  · exact .plain rfl

end Turned

theorem combinators_lawful_rows :
    (rotation 0).IsLawful Composed.calls (fun _ => True)
      (Value.IsCopied Composed.calls fun _ => True) ∧
    (mk 1 (.atop (rotation 0) (rotation 0))).IsLawful Composed.calls (fun _ => True)
      (Value.IsCopied Composed.calls fun _ => True) ∧
    (mk 1 (.inverse (rotation 0))).IsLawful Composed.calls (fun _ => True)
      (Value.IsCopied Composed.calls fun _ => True) ∧
    (rotation 0).hasInverse = true ∧ Turned.rows.IsMade Composed.calls ∧
    ∃ found after,
      (mk 1 (.each (rotation 0))).apply .forward (.array Turned.rows) (some Turned.distances)
        Composed.calls Tally.store = (.ok found, after) ∧
      ((mk 1 (.each (rotation 0))).apply .backward found (some Turned.distances)).Settles
        Composed.calls (fun _ => True)
        (fun values restored => restored.StoresLike (Value.IsCopied Composed.calls fun _ => True)
          [2] values)
        (some (#[Turned.row 1.0 2.0 3.0, Turned.row 4.0 5.0 6.0].getD · .nil)) := by
  have lawful : (rotation 0).IsLawful Composed.calls (fun _ => True)
      (Value.IsCopied Composed.calls fun _ => True) := rotation_isLawful 0
  obtain ⟨atop, inverse, each⟩ := combinators_lawful Composed.calls (fun _ => True)
    (Value.IsCopied Composed.calls fun _ => True) 1
  have succeeds : ((mk 1 (.each (rotation 0))).apply .forward (.array Turned.rows)
      (some Turned.distances) Composed.calls Tally.store).1.isOk = true := by
    decide +kernel
  refine ⟨lawful, atop _ _ lawful lawful, inverse _ lawful, rfl, .list _, ?_⟩
  rcases ended : (mk 1 (.each (rotation 0))).apply .forward (.array Turned.rows)
    (some Turned.distances) Composed.calls Tally.store with ⟨failure | found, after⟩
  · rw [ended] at succeeds
    cases succeeds
  · exact ⟨found, after, rfl, (each _ lawful rfl .forward _ _ _ _ (.list _) Turned.rows_offer
      Turned.distances_beside _ _ _ trivial ended).2⟩

/-! ### Elements that do not stay the same, and functions that never succeed -/

theorem identity_isLawful (stamp : Nat) :
    (mk stamp (.primitive .right)).IsLawful calling held alike := by
  intro direction left _ right isRight memory found after holds ended
  have same : found = right ∧ after = memory := by
    cases direction <;> cases left <;> cases ended <;> exact ⟨rfl, rfl⟩
  obtain ⟨rfl, rfl⟩ := same
  refine ⟨holds, isRight, fun found' agrees => ?_⟩
  cases direction <;> cases left <;> exact Action.settles_pure agrees

/-- The conjunction of what it is given alone, which is not defined. -/
def refusing : Function :=
  mk 1 (.atop (mk 0 (.primitive .and)) (mk 0 (.primitive .right)))

theorem refusing_isLawful : refusing.IsLawful calling held alike := by
  intro direction left _ right _ memory found after _ ended
  cases direction <;> cases left <;> cases ended

/-- A zip that counts how often it is read has gone on when it is compared with what the identity,
applied to its element and undone, has made of it. And a function that never succeeds cannot be
undone at no element, where it has been applied. -/
theorem not_combinators_lawful :
    ((mk 0 (.primitive .right)).IsLawful Composed.calls (fun _ => True) Eq ∧
      Tally.count.IsMade Composed.calls ∧
      ((do
        let once ← (mk 1 (.each (mk 0 (.primitive .right)))).apply .forward (.array Tally.count) none
        let back ← (mk 1 (.each (mk 0 (.primitive .right)))).apply .backward once none
        back.same (.array Tally.count) : Action (Heap (List Routine)) Bool)
          Composed.calls Tally.store).1 = .ok false) ∧
    refusing.IsLawful Composed.calls (fun _ => True) Eq ∧
      ((mk 2 (.each refusing)).apply .forward .nil none Composed.calls Tally.store).1.isOk = true ∧
      ((do
        let once ← (mk 2 (.each refusing)).apply .forward .nil none
        (mk 2 (.each refusing)).apply .backward once none : Action (Heap (List Routine)) Value)
          Composed.calls Tally.store).1.isOk = false :=
  ⟨⟨identity_isLawful 0, Tally.count_made, Outcome.eq_ok_of_toOption (by decide +kernel)⟩,
    refusing_isLawful, by decide +kernel, by decide +kernel⟩

end Function

end PointFree
