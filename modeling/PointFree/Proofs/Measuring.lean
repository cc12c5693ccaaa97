import Mathlib.Data.Nat.Init
import PointFree.Proofs.Compilation.Lowering
import PointFree.ShapedArray.Views

/-!
Contract: the size of a shape as it is measured.

The axes are multiplied in words, the outermost first, so that the products of the leading axes
decide whether a shape has a size at all. They grow up to the first empty axis and are zero
behind it: a shape is measured exactly, but for one with an empty axis behind others whose
product leaves the word, which is refused although it has no elements.
-/

namespace PointFree

namespace Shape

variable {shape outer inner : Shape} {size : Nat}

/-- No product of leading axes leaves the word. -/
def FitsWord (shape : Shape) : Prop :=
  ∀ count, Shape.size (shape.take count) < wordLimit

theorem foldlM_word {start : Nat} (inside : start < wordLimit) :
    shape.foldlM (fun size axis => if size * axis < wordLimit then some (size * axis) else none)
        start = some size ↔
      (∀ count, start * Shape.size (shape.take count) < wordLimit) ∧
        size = start * shape.size := by
  induction shape generalizing start with
  | nil => simp [size_nil, inside, eq_comm]
  | cons axis rest inductionHypothesis =>
      rw [List.foldlM_cons, ← Nat.and_forall_add_one]
      simp only [List.take_zero, List.take_succ_cons, size_nil, size_cons, Nat.mul_one,
        ← Nat.mul_assoc, inside, true_and]
      by_cases fits : start * axis < wordLimit
      · rw [if_pos fits]
        exact inductionHypothesis fits
      · rw [if_neg fits]
        simp only [Option.bind_eq_bind, Option.bind_none, reduceCtorEq, false_iff, not_and]
        intro fitting
        have first := fitting 0
        simp only [List.take_zero, size_nil, Nat.mul_one] at first
        exact absurd first fits

theorem wordSize?_eq_some_iff :
    shape.wordSize? = some size ↔ shape.FitsWord ∧ size = shape.size := by
  unfold wordSize? FitsWord
  rw [foldlM_word (by decide)]
  simp only [Nat.one_mul]

theorem measured?_eq_some_iff :
    shape.measured? = some size ↔ shape.FitsWord ∧ size = shape.size ∧ size ≤ sizeLimit := by
  unfold measured?
  cases sized : shape.wordSize? with
  | none =>
      simp only [reduceCtorEq, false_iff, not_and]
      intro fits same
      simp [wordSize?_eq_some_iff.2 ⟨fits, same⟩] at sized
  | some found =>
      obtain ⟨fits, rfl⟩ := wordSize?_eq_some_iff.1 sized
      by_cases small : shape.size ≤ sizeLimit
      · simp only [small, if_true, Option.some.injEq, fits, true_and, eq_comm (a := size)]
        exact ⟨fun same => ⟨same, same ▸ small⟩, And.left⟩
      · simp only [small, if_false, reduceCtorEq, fits, true_and, false_iff, not_and]
        rintro rfl
        exact small

/-! ### Empty axes -/

theorem size_eq_zero_iff : shape.size = 0 ↔ 0 ∈ shape := by
  induction shape with
  | nil => simp [size_nil]
  | cons axis rest inductionHypothesis =>
      rw [size_cons, Nat.mul_eq_zero, inductionHypothesis, List.mem_cons, eq_comm]

theorem size_pos (positive : ∀ axis ∈ shape, 0 < axis) : 0 < shape.size := by
  refine Nat.pos_of_ne_zero fun none => ?_
  exact Nat.lt_irrefl 0 (positive 0 (size_eq_zero_iff.1 none))

/-- Where no axis is empty, no product of leading axes is above the size. -/
theorem size_take_le (filled : 0 < shape.size) (count : Nat) :
    Shape.size (shape.take count) ≤ shape.size := by
  have whole : Shape.size (shape.take count) * Shape.size (shape.drop count) = shape.size := by
    rw [← size_append, List.take_append_drop]
  rw [← whole] at filled ⊢
  exact Nat.le_mul_of_pos_right _ (Nat.pos_of_mul_pos_left filled)

theorem fitsWord_iff (filled : 0 < shape.size) : shape.FitsWord ↔ shape.size < wordLimit := by
  constructor
  · intro fits
    simpa only [List.take_length] using fits shape.length
  · intro small count
    exact Nat.lt_of_le_of_lt (size_take_le filled count) small

/-- Axes behind an empty one do not count. -/
theorem fitsWord_append_empty : (outer ++ 0 :: inner).FitsWord ↔ outer.FitsWord := by
  constructor
  · intro fits count
    have front := fits (min count outer.length)
    rwa [List.take_append_of_le_length (Nat.min_le_right ..), ← List.take_eq_take_min] at front
  · intro fits count
    by_cases within : count ≤ outer.length
    · rw [List.take_append_of_le_length within]
      exact fits count
    · obtain ⟨extra, rfl⟩ := Nat.exists_eq_add_of_lt (Nat.lt_of_not_le within)
      have none : Shape.size ((outer ++ 0 :: inner).take (outer.length + extra + 1)) = 0 := by
        rw [Nat.add_assoc, List.take_length_add_append, List.take_succ_cons, size_append, size_cons,
          Nat.zero_mul, Nat.mul_zero]
      rw [none]
      decide

end Shape

namespace ShapedArray

variable {shape outer inner : Shape} {size : Nat}

theorem measure_eq_ok_iff :
    measure shape = .ok size ↔ shape.FitsWord ∧ size = shape.size ∧ size ≤ sizeLimit := by
  rw [← Shape.measured?_eq_some_iff, measure]
  cases shape.measured? <;> simp [refuse]

theorem measure_eq_ok (measured : measure shape = .ok size) : size = shape.size :=
  (measure_eq_ok_iff.1 measured).2.1

theorem size_le_of_measure (measured : measure shape = .ok size) : shape.size ≤ sizeLimit := by
  obtain ⟨-, rfl, small⟩ := measure_eq_ok_iff.1 measured
  exact small

theorem measure_of_size (filled : 0 < shape.size) (small : shape.size ≤ sizeLimit) :
    measure shape = .ok shape.size := by
  have word : shape.size < wordLimit := Nat.lt_of_le_of_lt small (by decide)
  exact measure_eq_ok_iff.2 ⟨(Shape.fitsWord_iff filled).2 word, rfl, small⟩

/-- What is not measured is refused for its size. -/
theorem measure_eq_ok_or_refuse :
    measure shape = .ok shape.size ∨ measure shape = refuse (.shapeTooLarge shape) := by
  cases measured : measure shape with
  | ok size => exact .inl (by rw [measure_eq_ok measured])
  | error failure =>
      rw [measure] at measured
      split at measured
      · cases measured
      · exact .inr measured.symm

/-- The size is the product of the axes if that is within the limit, and is refused if it is not. -/
def MeasuredExactly (shape : Shape) : Prop :=
  measure shape = if shape.size ≤ sizeLimit then .ok shape.size else refuse (.shapeTooLarge shape)

/-- Exactness is lost on shapes with an empty axis only, and only where the axes in front of it leave
the word. -/
theorem measuredExactly_iff : MeasuredExactly shape ↔ 0 < shape.size ∨ shape.FitsWord := by
  unfold MeasuredExactly
  by_cases fits : shape.FitsWord
  · simp only [fits, or_true, iff_true]
    split
    · next small => exact measure_eq_ok_iff.2 ⟨fits, rfl, small⟩
    · next large =>
        rcases measure_eq_ok_or_refuse with measured | refused
        · exact absurd (size_le_of_measure measured) large
        · exact refused
  · have refused : measure shape = refuse (.shapeTooLarge shape) := by
      rcases measure_eq_ok_or_refuse with measured | refused
      · exact absurd (measure_eq_ok_iff.1 measured).1 fits
      · exact refused
    simp only [fits, or_false, refused]
    constructor
    · intro exact
      refine Nat.pos_of_ne_zero fun none => ?_
      simp [none, refuse] at exact
    · intro filled
      have word : wordLimit = 2 ^ 64 := rfl
      have limit : sizeLimit = 2 ^ 24 := rfl
      rw [Shape.fitsWord_iff filled] at fits
      rw [if_neg (by omega)]

/-- A shape with an empty axis and no elements make the empty array, unless the axes in front of the
first empty one leave the word. -/
theorem new_eq_nil_iff (filled : 0 < outer.size) :
    new (outer ++ 0 :: inner) #[] = .ok nil ↔ outer.size < wordLimit := by
  have none : Shape.size (outer ++ 0 :: inner) = 0 :=
    Shape.size_eq_zero_iff.2 (by simp)
  rw [← Shape.fitsWord_iff filled, ← @Shape.fitsWord_append_empty outer inner]
  constructor
  · intro made
    obtain ⟨size, measured, -⟩ := Outcome.bind_eq_ok.1 made
    exact (measure_eq_ok_iff.1 measured).1
  · intro fits
    have measured : measure (outer ++ 0 :: inner) = .ok 0 :=
      measure_eq_ok_iff.2 ⟨fits, none.symm, by decide⟩
    unfold new ShapedArray.filled
    rw [measured]
    simp [Except.bind, ofView, none]

/-- With the empty axis in front, the same axes make the empty array. -/
example : new [2 ^ 40, 2 ^ 40, 0] #[] = refuse (.shapeTooLarge [2 ^ 40, 2 ^ 40, 0]) ∧
    new [0, 2 ^ 40, 2 ^ 40] #[] = .ok nil :=
  ⟨rfl, rfl⟩

end ShapedArray
end PointFree
