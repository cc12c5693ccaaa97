import Mathlib.Data.List.Forall2
import Mathlib.Data.List.Nodup
import PointFree.Shape

/-!
Contract: positions in row-major order.

A position names one index along every axis of a shape. Its place is the row-major index of the
element there: the last axis runs fastest, and a step along any other axis skips all elements of
the axes after it. The places of the positions of a shape are the indices below its size, and
`Shape.indices` lists every position that a shape holds, once, in the order of their places: each
has the digits of its place in the radix of the axes.
-/

namespace PointFree

namespace Shape

/-- The position has an index for every axis, and each is below the length of its axis. -/
def Holds (shape : Shape) (position : List Nat) : Prop :=
  List.Forall₂ (fun index axis => index < axis) position shape

/-- The row-major index of a position. -/
def place : Shape → List Nat → Nat
  | _ :: rest, index :: position => index * Shape.size rest + place rest position
  | _, _ => 0

/-- A number in the mixed radix of the lengths of the axes, one digit for each. -/
def digits : Shape → Nat → List Nat
  | [], _ => []
  | _ :: rest, number => number / Shape.size rest :: digits rest (number % Shape.size rest)

section Places

variable {shape lead short : Shape} {position outer inner : List Nat} {index : Nat}

theorem place_nil (shape : Shape) : shape.place [] = 0 := by
  cases shape <;> rfl

theorem place_cons (axis : Nat) :
    place (axis :: shape) (index :: position) = index * shape.size + place shape position :=
  rfl

theorem Holds.place_lt (holds : shape.Holds position) : shape.place position < shape.size := by
  induction holds with
  | nil => simp [place, size_nil]
  | @cons index axis position rest below _ inductionHypothesis =>
      rw [place_cons, size_cons]
      calc index * Shape.size rest + place rest position
          < index * Shape.size rest + Shape.size rest := by omega
        _ = (index + 1) * Shape.size rest := (Nat.succ_mul ..).symm
        _ ≤ axis * Shape.size rest := Nat.mul_le_mul_right _ below

/-- A position in two groups of axes: the places in the first group are as far apart as the
second group is large. -/
theorem place_append (same : outer.length = lead.length) :
    place (lead ++ short) (outer ++ inner) = place lead outer * short.size + place short inner := by
  induction outer generalizing lead with
  | nil =>
      obtain rfl := List.length_eq_zero_iff.1 same.symm
      simp [place]
  | cons index outer inductionHypothesis =>
      cases lead with
      | nil => simp at same
      | cons axis lead =>
          rw [List.cons_append, List.cons_append, place_cons, place_cons, size_append,
            inductionHypothesis (by simpa using same), Nat.add_mul, Nat.mul_assoc, Nat.add_assoc]

theorem place_of_prefix (same : outer.length = lead.length) :
    place (lead ++ short) outer = place lead outer * short.size := by
  have parts : place (lead ++ short) (outer ++ []) = _ := place_append same
  rwa [List.append_nil, place_nil, Nat.add_zero] at parts

theorem size_pos_of_lt {axis : Nat} (below : index < Shape.size (axis :: shape)) :
    0 < shape.size := by
  rw [size_cons] at below
  exact Nat.pos_of_ne_zero fun empty => by simp [empty] at below

theorem holds_digits (below : index < shape.size) : shape.Holds (shape.digits index) := by
  induction shape generalizing index with
  | nil => exact .nil
  | cons axis rest inductionHypothesis =>
      have filled := size_pos_of_lt below
      rw [size_cons] at below
      exact .cons ((Nat.div_lt_iff_lt_mul filled).2 below)
        (inductionHypothesis (Nat.mod_lt index filled))

theorem place_digits (below : index < shape.size) : shape.place (shape.digits index) = index := by
  induction shape generalizing index with
  | nil => exact (Nat.lt_one_iff.1 below).symm
  | cons axis rest inductionHypothesis =>
      have filled := size_pos_of_lt below
      rw [digits, place_cons, inductionHypothesis (Nat.mod_lt index filled), Nat.mul_comm]
      exact Nat.div_add_mod index (Shape.size rest)

/-- Every index below the size is the place of a position. -/
theorem exists_place_eq (below : index < shape.size) :
    ∃ position, shape.Holds position ∧ shape.place position = index :=
  ⟨shape.digits index, holds_digits below, place_digits below⟩

/-- Of a position that is cut in two, each part is a position of its axes. -/
theorem Holds.of_append (holds : Holds (lead ++ short) (outer ++ inner))
    (same : inner.length = short.length) : lead.Holds outer ∧ short.Holds inner := by
  have lengths := List.Forall₂.length_eq holds
  simp only [List.length_append] at lengths
  have outerLength : outer.length = lead.length := by omega
  constructor
  · have first := List.forall₂_take outer.length holds
    rwa [List.take_left, outerLength, List.take_left] at first
  · have last := List.forall₂_drop outer.length holds
    rwa [List.drop_left, outerLength, List.drop_left] at last

end Places

/-! ### All positions of a shape -/

section Enumeration

variable {shape : Shape} {position : List Nat} {index : Nat}

/-- Blocks of one length, laid end to end. -/
theorem getElem?_flatMap {α β : Type} {items : List α} {block : α → List β} {extent : Nat}
    (lengths : ∀ item ∈ items, (block item).length = extent) (first : Nat) {second : Nat}
    (below : second < extent) : (items.flatMap block)[first * extent + second]? =
      items[first]?.bind fun item => (block item)[second]? := by
  induction items generalizing first with
  | nil => rfl
  | cons item items inductionHypothesis =>
      obtain ⟨here, later⟩ := List.forall_mem_cons.1 lengths
      rw [List.flatMap_cons]
      cases first with
      | zero =>
          rw [Nat.zero_mul, Nat.zero_add, List.getElem?_append_left (by rwa [here])]
          rfl
      | succ first =>
          have further : (first + 1) * extent + second = extent + (first * extent + second) := by
            rw [Nat.succ_mul]
            omega
          rw [further, List.getElem?_append_right (by omega), here, Nat.add_sub_cancel_left]
          exact inductionHypothesis later first

/-- A position stands at its place. -/
theorem Holds.getElem?_indices (holds : shape.Holds position) :
    (indices shape)[shape.place position]? = some position := by
  induction holds with
  | nil => rfl
  | @cons index axis position rest below holds inductionHypothesis =>
      have lengths (index : Nat) (_ : index ∈ List.range axis) :
          ((indices rest).map (index :: ·)).length = Shape.size rest := by
        rw [List.length_map, length_indices]
      rw [indices, place_cons, getElem?_flatMap lengths index (Holds.place_lt holds),
        List.getElem?_range below, Option.bind_some, List.getElem?_map, inductionHypothesis]
      rfl

theorem getElem?_indices : (indices shape)[index]? = some position ↔
    shape.Holds position ∧ shape.place position = index := by
  constructor
  · intro found
    have below : index < shape.size := by
      rw [← length_indices]
      exact (List.getElem?_eq_some_iff.1 found).1
    obtain ⟨other, holds, rfl⟩ := exists_place_eq below
    cases holds.getElem?_indices.symm.trans found
    exact ⟨holds, rfl⟩
  · rintro ⟨holds, rfl⟩
    exact holds.getElem?_indices

theorem mem_indices : position ∈ indices shape ↔ shape.Holds position := by
  rw [List.mem_iff_getElem?]
  constructor
  · rintro ⟨index, found⟩
    exact (getElem?_indices.1 found).1
  · exact fun holds => ⟨_, holds.getElem?_indices⟩

/-- The positions are the numbers below the size, in order. -/
theorem indices_eq_map_digits (shape : Shape) :
    indices shape = (List.range shape.size).map shape.digits := by
  refine List.ext_getElem? fun index => ?_
  by_cases below : index < shape.size
  · rw [List.getElem?_map, List.getElem?_range below, Option.map_some, getElem?_indices]
    exact ⟨holds_digits below, place_digits below⟩
  · rw [List.getElem?_eq_none, List.getElem?_eq_none]
    · rw [List.length_map, List.length_range]
      exact Nat.le_of_not_lt below
    · rw [length_indices]
      exact Nat.le_of_not_lt below

/-- No position is listed twice, as each has its place. -/
theorem nodup_indices (shape : Shape) : (indices shape).Nodup := by
  rw [indices_eq_map_digits]
  refine List.Nodup.map_on (fun first below second below' same => ?_) List.nodup_range
  rw [← place_digits (List.mem_range.1 below), same, place_digits (List.mem_range.1 below')]

theorem indices_append (outer inner : Shape) : indices (outer ++ inner) =
    (indices outer).flatMap fun first => (indices inner).map (first ++ ·) := by
  induction outer with
  | nil => simp [indices]
  | cons axis outer inductionHypothesis =>
      simp only [List.cons_append, indices, inductionHypothesis, List.map_flatMap, List.map_map,
        List.flatMap_assoc, List.flatMap_map]
      rfl

end Enumeration

end Shape

end PointFree
