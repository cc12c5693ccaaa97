import PointFree.Function.Call
import PointFree.Proofs.Position
import PointFree.Proofs.Views.Making

/-!
Contract: combining two arrays under the alignment of their shapes.

Two shapes align when one of them is a suffix of the other, and then the longer one leads. The
element of a zip at a position is made of the element there in the operand that leads and of the
element of the other operand at the last part of the position. An index of the zip finds both: the
place of the last part of a position is what the place of the whole leaves when it is divided by
the size of the shorter shape.
-/

namespace PointFree

/-! ### Alignment -/

namespace Shape

variable {left right shape : Shape}

theorem suffix_iff_drop (short lead : Shape) :
    short <:+ lead ↔ lead.drop (lead.length - short.length) = short := by
  rw [List.suffix_iff_eq_drop, eq_comm]

/-- The longer shape leads, and the other one is a suffix of it. -/
theorem aligned?_eq_some_iff :
    aligned? left right = some shape ↔
      right <:+ left ∧ shape = left ∨ left <:+ right ∧ shape = right := by
  unfold aligned?
  by_cases longer : left.length < right.length
  · have notSuffix : ¬right <:+ left := fun suffix => by
      have := suffix.length_le
      omega
    simp only [longer, if_true, ← suffix_iff_drop, notSuffix, false_and, false_or]
    by_cases suffix : left <:+ right
    · simp [suffix, eq_comm]
    · simp [suffix]
  · simp only [longer, if_false, ← suffix_iff_drop]
    have same : left <:+ right → left = right := fun suffix =>
      suffix.eq_of_length (by have := suffix.length_le; omega)
    by_cases suffix : right <:+ left
    · simp only [suffix, if_true, true_and, Option.some.injEq]
      constructor
      · exact fun isLead => .inl isLead.symm
      · rintro (rfl | ⟨other, rfl⟩)
        · rfl
        · exact same other
    · simp only [suffix, if_false, false_and, false_or, reduceCtorEq, false_iff, not_and]
      intro other
      exact absurd (same other ▸ List.suffix_refl _) suffix

theorem aligned?_comm (left right : Shape) : aligned? left right = aligned? right left := by
  refine Option.ext fun shape => ?_
  rw [aligned?_eq_some_iff, aligned?_eq_some_iff, or_comm]

/-- A shape without axes aligns with every shape. -/
theorem nil_aligned? (shape : Shape) : aligned? [] shape = some shape :=
  aligned?_eq_some_iff.2 (.inr ⟨List.nil_suffix, rfl⟩)

theorem aligned?_nil (shape : Shape) : aligned? shape [] = some shape := by
  rw [aligned?_comm, nil_aligned?]

end Shape

theorem Value.shape_toArray (value : Value) : value.toArray.shape = value.shape := by
  cases value <;> rfl

namespace ShapedArray

variable {H : Type} {calling : Call H} {array left right zipped : ShapedArray}
variable {function : Function}

/-- The array has the shape of the empty one if it has no elements. -/
def IsProper (array : ShapedArray) : Prop :=
  array.count = 0 → array.shape = [0]

theorem isProper_ofView (view : View) (shape : Shape) (fill : Option Value)
    (element : Nat → Element) : (ofView view shape fill element).IsProper := by
  intro none
  rw [count_ofView] at none
  rw [ofView, if_pos none]
  rfl

/-- Under a shape that an array has, a view has that shape, also if it is empty. -/
theorem IsProper.shape_ofView (proper : array.IsProper) (view : View) (fill : Option Value)
    (element : Nat → Element) : (ofView view array.shape fill element).shape = array.shape := by
  unfold ofView
  split
  · next none => exact (proper none).symm
  · rfl

/-- An array that operations have made is the empty one if it has no elements. -/
theorem IsMade.isProper (made : array.IsMade calling) : array.IsProper := by
  intro none
  rw [made.sound.empty none]
  rfl

/-- The array has no more elements than the limit, and is the empty array if it has none. -/
structure IsBounded (array : ShapedArray) : Prop where
  count : array.count ≤ sizeLimit
  empty : array.count = 0 → array.shape = [0]

theorem IsMade.isBounded (made : array.IsMade calling) (small : array.count ≤ sizeLimit) :
    array.IsBounded :=
  ⟨small, made.isProper⟩

theorem IsBounded.measure_eq (bounded : array.IsBounded) :
    measure array.shape = .ok array.count := by
  by_cases none : array.count = 0
  · rw [none, bounded.empty none]
    rfl
  · exact measure_of_size (Nat.pos_of_ne_zero none) bounded.count

/-! ### Elements by position -/

/-- The value at a position. -/
def pickAt (array : ShapedArray) (position : List Nat) : Action H Value :=
  array.pick (array.shape.place position)

/-- What a function makes of the values at two positions, the left one first. -/
def combineAt (function : Function) (left right : ShapedArray)
    (leftPosition rightPosition : List Nat) : Action H Value := do
  let first ← left.pickAt leftPosition
  let second ← right.pickAt rightPosition
  Action.call function second (some first)

/-- A zip has the shape that leads, if an array may have it, and reads both operands at the
index. -/
theorem zip_eq_ok_iff_measure : left.zip right function = .ok zipped ↔
    ∃ shape size, Shape.aligned? left.shape right.shape = some shape ∧ measure shape = .ok size ∧
      zipped = ofView .zip shape none fun index =>
        .combined function (left.elementAt (index % left.count))
          (right.elementAt (index % right.count)) := by
  rw [zip, alignShapes]
  cases isLead : Shape.aligned? left.shape right.shape with
  | none => simp [refuse, Except.bind]
  | some shape =>
      cases measured : measure shape with
      | error failure => simp [Except.bind, build, measured, Except.map]
      | ok size => simp [Except.bind, build, measured, Except.map, eq_comm]

/-- A zip is made of the shape that leads, and reads both operands at the index. -/
theorem zip_eq_ok_iff (leftBounded : left.IsBounded) (rightBounded : right.IsBounded) :
    left.zip right function = .ok zipped ↔
      ∃ shape, Shape.aligned? left.shape right.shape = some shape ∧
        zipped = ofView .zip shape none fun index =>
          .combined function (left.elementAt (index % left.count))
            (right.elementAt (index % right.count)) := by
  have measured {shape : Shape} (isLead : Shape.aligned? left.shape right.shape = some shape) :
      ∃ size, measure shape = .ok size := by
    obtain ⟨_, rfl⟩ | ⟨_, rfl⟩ := Shape.aligned?_eq_some_iff.1 isLead
    · exact ⟨_, leftBounded.measure_eq⟩
    · exact ⟨_, rightBounded.measure_eq⟩
  rw [zip_eq_ok_iff_measure]
  constructor
  · rintro ⟨shape, _, isLead, _, isZip⟩
    exact ⟨shape, isLead, isZip⟩
  · rintro ⟨shape, isLead, isZip⟩
    obtain ⟨size, fits⟩ := measured isLead
    exact ⟨shape, size, isLead, fits, isZip⟩

theorem kind_of_zip {failure : Failure} (refused : left.zip right function = .error failure) :
    failure.kind = .shape := by
  rw [zip, alignShapes] at refused
  cases isLead : Shape.aligned? left.shape right.shape with
  | none =>
      rw [isLead] at refused
      cases refused
      rfl
  | some shape =>
      rw [isLead] at refused
      change build .zip shape none _ = .error failure at refused
      rw [build, measure] at refused
      cases measured : shape.measured? with
      | none =>
          rw [measured] at refused
          cases refused
          rfl
      | some size => simp [measured, Except.map] at refused

/-- Below the size of a zip both operands are read, the left one first. -/
theorem pick_zip {shape : Shape} {index : Nat} (inside : index < shape.size) :
    ((ofView .zip shape none fun index => .combined function (left.elementAt (index % left.count))
      (right.elementAt (index % right.count))).pick index : Action H Value) = (do
        let first ← left.pick (index % left.count)
        let second ← right.pick (index % right.count)
        Action.call function second (some first)) :=
  pick_ofView .zip shape none _ index inside

/-- What is left of a place in the shape that leads is the place of the last part. -/
theorem place_mod {lead : Shape} {outer inner : List Nat} (suffix : array.shape <:+ lead)
    (holds : lead.Holds (outer ++ inner)) (same : inner.length = array.rank) :
    lead.place (outer ++ inner) % array.count = array.shape.place inner := by
  obtain ⟨axes, rfl⟩ := suffix
  obtain ⟨outerHolds, innerHolds⟩ := holds.of_append same
  rw [Shape.place_append (List.Forall₂.length_eq outerHolds), count, Nat.mul_comm,
    Nat.mul_add_mod]
  exact Nat.mod_eq_of_lt innerHolds.place_lt

/-- A zip succeeds exactly when one shape is a suffix of the other, and is refused for the shapes
otherwise. It has the longer shape, reads no operand that is empty, and its element at a position
is made of the element there in the operand that leads and of that of the other operand at the
last part of the position, the left one first. -/
theorem zip_broadcasts (leftBounded : left.IsBounded) (rightBounded : right.IsBounded)
    (function : Function) :
    ((∃ zipped, left.zip right function = .ok zipped) ↔
      right.shape <:+ left.shape ∨ left.shape <:+ right.shape) ∧
    (∀ failure, left.zip right function = .error failure → failure.kind = .shape) ∧
    ∀ zipped, left.zip right function = .ok zipped →
      (∀ index < zipped.count, 0 < left.count ∧ 0 < right.count ∧
        ∃ position, zipped.shape.Holds position ∧ zipped.shape.place position = index) ∧
      (right.shape <:+ left.shape → zipped.shape = left.shape ∧
        ∀ outer inner, inner.length = right.rank → left.shape.Holds (outer ++ inner) →
          (zipped.pickAt (outer ++ inner) : Action H Value) =
            combineAt function left right (outer ++ inner) inner) ∧
      (left.shape <:+ right.shape → zipped.shape = right.shape ∧
        ∀ outer inner, inner.length = left.rank → right.shape.Holds (outer ++ inner) →
          (zipped.pickAt (outer ++ inner) : Action H Value) =
            combineAt function left right inner (outer ++ inner)) := by
  have made {shape : Shape} (isLead : right.shape <:+ left.shape ∧ shape = left.shape ∨
      left.shape <:+ right.shape ∧ shape = right.shape) : left.zip right function = .ok _ :=
    (zip_eq_ok_iff leftBounded rightBounded).2
      ⟨shape, Shape.aligned?_eq_some_iff.2 isLead, rfl⟩
  refine ⟨⟨?_, ?_⟩, fun failure => kind_of_zip, fun zipped zips => ⟨?_, ?_, ?_⟩⟩
  · rintro ⟨zipped, zips⟩
    obtain ⟨shape, isLead, _⟩ := (zip_eq_ok_iff leftBounded rightBounded).1 zips
    exact (Shape.aligned?_eq_some_iff.1 isLead).imp And.left And.left
  · rintro (suffix | suffix)
    · exact ⟨_, made (.inl ⟨suffix, rfl⟩)⟩
    · exact ⟨_, made (.inr ⟨suffix, rfl⟩)⟩
  · intro index inside
    obtain ⟨shape, isLead, rfl⟩ := (zip_eq_ok_iff leftBounded rightBounded).1 zips
    have isAligned : alignShapes left.shape right.shape = .ok shape := by
      rw [alignShapes, isLead]
    have filled := Nat.zero_lt_of_lt (count_ofView .zip shape none _ ▸ inside)
    exact ⟨(aligned_pos isAligned filled).1, (aligned_pos isAligned filled).2,
      Shape.exists_place_eq inside⟩
  · intro suffix
    cases zips.symm.trans (made (.inl ⟨suffix, rfl⟩))
    have shape := IsProper.shape_ofView leftBounded.empty .zip none fun index =>
      .combined function (left.elementAt (index % left.count))
        (right.elementAt (index % right.count))
    refine ⟨shape, fun outer inner same holds => ?_⟩
    rw [pickAt, shape, pick_zip holds.place_lt, place_mod suffix holds same,
      Nat.mod_eq_of_lt (b := left.count) holds.place_lt]
    rfl
  · intro suffix
    cases zips.symm.trans (made (.inr ⟨suffix, rfl⟩))
    have shape := IsProper.shape_ofView rightBounded.empty .zip none fun index =>
      .combined function (left.elementAt (index % left.count))
        (right.elementAt (index % right.count))
    refine ⟨shape, fun outer inner same holds => ?_⟩
    rw [pickAt, shape, pick_zip holds.place_lt, place_mod suffix holds same,
      Nat.mod_eq_of_lt (b := right.count) holds.place_lt]
    rfl

namespace Rows

def row : ShapedArray :=
  .list #[.number 1.0, .number 2.0, .number 3.0]

def table : ShapedArray :=
  .ofView .owned [2, 3] none
    (stored #[.number 10.0, .number 20.0, .number 30.0, .number 40.0, .number 50.0, .number 60.0])

def minus : Function :=
  .mk 0 (.primitive .subtract)

theorem row_isBounded : row.IsBounded :=
  ⟨by decide, by decide⟩

theorem table_isBounded : table.IsBounded :=
  ⟨by decide, by decide⟩

end Rows

/-- The shorter operand is the left one: its row is taken from every row of the table. -/
theorem zip_broadcasts_row : ∃ zipped, Rows.row.zip Rows.table Rows.minus = .ok zipped ∧
    zipped.shape = [2, 3] ∧
    (zipped.pickAt [1, 2] : Action (Heap (List Routine)) Value) =
      combineAt Rows.minus Rows.row Rows.table [2] [1, 2] := by
  obtain ⟨succeeds, _, elements⟩ :=
    zip_broadcasts (H := Heap (List Routine)) Rows.row_isBounded Rows.table_isBounded Rows.minus
  have suffix : Rows.row.shape <:+ Rows.table.shape := ⟨[2], rfl⟩
  obtain ⟨zipped, zips⟩ := succeeds.2 (.inr suffix)
  obtain ⟨shape, element⟩ := (elements zipped zips).2.2 suffix
  refine ⟨zipped, zips, shape, element [1] [2] rfl ?_⟩
  exact .cons (by decide) (.cons (by decide) .nil)

end ShapedArray

end PointFree
