import PointFree.Function.Call
import PointFree.Proofs.Views
import PointFree.Proofs.Views.Materializing

/-!
Contract: whether the elements of an array are stored cannot be observed.

An array can stand in many places among the arguments of operations. Where its elements are
read without another effect, no operation tells it from the array that stores its elements:
the two uses fail alike, or end with results that read alike, at the same memory. A function
that counts its calls shows why the elements must be read without another effect.
-/

namespace PointFree

open Likeness

namespace ShapedArray

variable {H : Type} {calling : Call H}

/-! ### Where an array can stand -/

/-- The places of an array among the arguments of an operation, with the other arguments. -/
inductive Use where
  | slice (start extent : Nat)
  | selectRank (position : List Nat)
  | gather (indices : ShapedArray)
  | gatherThrough (parent : ShapedArray)
  | reshape (shape : Shape)
  | zipLeft (right : ShapedArray) (function : Function)
  | zipRight (left : ShapedArray) (function : Function)
  | merge (before after : List Value) (fill : Option Value) (outer : Shape)
  | majorCells
  | sameLeft (right : Value)
  | sameRight (left : Value)
  | primitiveRight (primitive : Primitive) (direction : Direction) (left : Option Value)
  | primitiveLeft (primitive : Primitive) (direction : Direction) (right : Value)

/-- A primitive as it is called in a direction. -/
def Use.applied (primitive : Primitive) (direction : Direction) (right : Value)
    (left : Option Value) : Action H (List Value) := do
  let result ← match direction with
    | .forward => primitive.apply right left
    | .backward => primitive.applyInverse right left
  return [result]

/-- The operation with the array in its place. -/
def Use.run (array : ShapedArray) : Use → Action H (List Value)
  | .slice start extent => do
      let result ← array.slice start extent
      return [.array result]
  | .selectRank position => do
      let result ← array.selectRank position
      return [.array result]
  | .gather indices => do
      let result ← ShapedArray.gather array indices
      return [.array result]
  | .gatherThrough parent => do
      let result ← ShapedArray.gather parent array
      return [.array result]
  | .reshape shape => do
      let result ← array.reshape shape
      return [.array result]
  | .zipLeft right function => do
      let result ← array.zip right function
      return [.array result]
  | .zipRight left function => do
      let result ← left.zip array function
      return [.array result]
  | .merge before after fill outer => do
      let result ← ShapedArray.merge (before ++ .array array :: after).toArray fill outer
      return [.array result]
  | .majorCells => do
      let cells ← array.majorCells
      return cells.toList
  | .sameLeft right => do
      let equal ← (Value.array array).same right
      return [.ofBool equal]
  | .sameRight left => do
      let equal ← left.same (.array array)
      return [.ofBool equal]
  | .primitiveRight primitive direction left => applied primitive direction (.array array) left
  | .primitiveLeft primitive direction right =>
      applied primitive direction right (some (.array array))

theorem Use.boxed {action action' : Action H ShapedArray}
    (twins : (under calling).Twins (under calling).Arrays action action') :
    (under calling).Twins (List.Forall₂ (under calling).Values)
      (do
        let result ← action
        return [.array result])
      (do
        let result ← action'
        return [.array result]) :=
  Twins.bind twins fun arrays => Twins.pure (.cons (.array arrays) .nil)

theorem Use.twins_applied (primitive : Primitive) (direction : Direction) {right right' : Value}
    {left left' : Option Value} (rights : (under calling).Values right right')
    (lefts : Option.Rel (under calling).Values left left') :
    (under calling).Twins (List.Forall₂ (under calling).Values)
      (applied primitive direction right left) (applied primitive direction right' left') := by
  have single {action action' : Action H Value}
      (twins : (under calling).Twins (under calling).Values action action') :
      (under calling).Twins (List.Forall₂ (under calling).Values)
        (action >>= fun result => Pure.pure [result])
        (action' >>= fun result => Pure.pure [result]) :=
    Twins.bind twins fun values => Twins.pure (.cons values .nil)
  cases direction with
  | forward => exact single (Twins.apply primitive rights lefts)
  | backward => exact single (Twins.applyInverse primitive rights lefts)

/-- No operation tells an array from one that stands for it. -/
theorem StandsFor.twins {stored array : ShapedArray} (stands : stored.StandsFor calling array)
    (use : Use) :
    (under calling).Twins (List.Forall₂ (under calling).Values) (use.run array)
      (use.run stored) := by
  have arrays := stands.arrays
  have itself (values : List Value) : List.Forall₂ (under calling).Values values values :=
    List.forall₂_same.2 fun value _ => Values.refl value
  have options (option : Option Value) : Option.Rel (under calling).Values option option := by
    cases option with
    | none => exact .none
    | some value => exact .some (Values.refl value)
  cases use with
  | slice start extent => exact Use.boxed (Twins.lift (arrays.slice start extent))
  | selectRank position => exact Use.boxed (Twins.lift (arrays.selectRank position))
  | gather indices => exact Use.boxed (stands.gather indices)
  | gatherThrough parent => exact Use.boxed (stands.gatherThrough parent)
  | reshape shape => exact Use.boxed (Twins.lift (arrays.reshape shape))
  | zipLeft right function => exact Use.boxed (Twins.lift (stands.zip (.refl right) function))
  | zipRight left function =>
      exact Use.boxed (Twins.lift (StandsFor.zip (.refl left) stands function))
  | merge before after fill outer =>
      refine Use.boxed (Arrays.merge ?_ (options fill) outer)
      exact List.rel_append (itself before) (.cons (.array arrays) (itself after))
  | majorCells => exact Twins.bind arrays.majorCells fun rows => Twins.pure rows
  | sameLeft right =>
      exact Twins.bindSame (Values.same (.array arrays) (Values.refl right)) fun _ =>
        Twins.pure (itself _)
  | sameRight left =>
      exact Twins.bindSame (Values.same (Values.refl left) (.array arrays)) fun _ =>
        Twins.pure (itself _)
  | primitiveRight primitive direction left =>
      exact Use.twins_applied primitive direction (.array arrays) (options left)
  | primitiveLeft primitive direction right =>
      exact Use.twins_applied primitive direction (Values.refl right) (.some (.array arrays))

/-- Storing the elements of an array that is made, and whose elements are read without
another effect, succeeds and cannot be observed. -/
theorem IsMade.materialize_unobserved {array : ShapedArray} (made : array.IsMade calling)
    (pure : array.ReadsPurely calling) :
    ∃ stored, (∀ memory, array.materialize calling memory = (.ok stored, memory)) ∧
      stored.shape = array.shape ∧ stored.count = array.count ∧ stored.fill = array.fill ∧
      (∀ index, stored.pick index calling = array.pick index calling) ∧
      ∀ use : Use, (under calling).Twins (List.Forall₂ (under calling).Values)
        (use.run array) (use.run stored) := by
  obtain ⟨stored, materialized, stands⟩ := made.standsFor pure
  exact ⟨stored, materialized, stands.shape, stands.count, stands.fill,
    fun index => (stands.force_elementAt index).symm, stands.twins⟩

/-! ### A zip that pairs its elements -/

namespace Paired

abbrev calls : Call (Heap (List Routine)) :=
  callAt callBudget

def pairing : Function :=
  .mk 0 (.primitive .pair)

def letters : ShapedArray :=
  .list #[.character 'a', .character 'b']

def numbers : ShapedArray :=
  .list #[.number 1.0, .number 2.0]

def pairs : ShapedArray :=
  .ofView .zip [2] none fun index =>
    .combined pairing (letters.elementAt (index % 2)) (numbers.elementAt (index % 2))

theorem pairs_made : pairs.IsMade calls :=
  .zip (.list _) (.list _) (show letters.zip numbers pairing = .ok pairs from rfl)

theorem callAt_pairing {budget : Nat} (positive : 0 < budget) (right left : Value)
    (memory : Store) :
    callAt budget pairing right (some left) memory = (.ok (.list #[left, right]), memory) := by
  obtain ⟨fewer, rfl⟩ := Nat.exists_eq_succ_of_ne_zero (Nat.ne_of_gt positive)
  rfl

theorem pairs_pure : pairs.ReadsPurely calls := by
  have called := callAt_pairing (show 0 < callBudget by decide)
  intro index inside
  obtain rfl | rfl : index = 0 ∨ index = 1 := by
    have small : index < 2 := inside
    omega
  · exact ⟨_, fun memory => called (.number 1.0) (.character 'a') memory⟩
  · exact ⟨_, fun memory => called (.number 2.0) (.character 'b') memory⟩

end Paired

theorem IsMade.materialize_unobserved_pairs :
    Paired.pairs.IsMade Paired.calls ∧ Paired.pairs.ReadsPurely Paired.calls ∧
    ∃ stored, (∀ memory, Paired.pairs.materialize Paired.calls memory = (.ok stored, memory)) ∧
      stored.shape = Paired.pairs.shape ∧ stored.count = Paired.pairs.count ∧
      stored.fill = Paired.pairs.fill ∧
      (∀ index, stored.pick index Paired.calls = Paired.pairs.pick index Paired.calls) ∧
      ∀ use : Use, (under Paired.calls).Twins (List.Forall₂ (under Paired.calls).Values)
        (use.run Paired.pairs) (use.run stored) :=
  ⟨Paired.pairs_made, Paired.pairs_pure,
    IsMade.materialize_unobserved Paired.pairs_made Paired.pairs_pure⟩

/-! ### A zip that counts how often it is read -/

namespace Tally

/-- `{n +↩ 1 ⋄ n}` -/
def routine : Routine :=
  ⟨1, 3, 64, [
    .evaluate (.updateWith (.constant (.number 1.0))
      (.constant (.function (.mk 0 (.primitive .add)))) (.slot 1 3)) none,
    .finish (.load 1 3) none]⟩

/-- The frame that `n ← 0` leaves, with the function that was made in it. -/
def store : Store :=
  ⟨⟨#[⟨#[none, none, none, some (.number 0.0)], none⟩], #[[⟨0, 4, 64, []⟩, routine]]⟩, 2, 0⟩

def function : Function :=
  .mk 1 (.block 0 1 0)

def count : ShapedArray :=
  .ofView .zip [1] none fun index =>
    .combined function ((ShapedArray.list #[.number 0.0]).elementAt (index % 1))
      ((ShapedArray.list #[.number 0.0]).elementAt (index % 1))

abbrev calls : Call (Heap (List Routine)) :=
  callAt callBudget

theorem count_made : count.IsMade calls := by
  have zipped : (ShapedArray.list #[.number 0.0]).zip (.list #[.number 0.0]) function =
    .ok count := rfl
  exact .zip (.list #[.number 0.0]) (.list #[.number 0.0]) zipped

/-- How the comparison of two arrays turns out, once the zip has been stored. -/
def compared (pair : ShapedArray → ShapedArray × ShapedArray) : Option Bool :=
  match (do
      let stored ← count.materialize
      (Value.array (pair stored).1).same (.array (pair stored).2) :
        Action (Heap (List Routine)) Bool) calls store with
  | (.ok equal, _) => some equal
  | _ => none

theorem compared_eq {stored : ShapedArray} {after : Store}
    (materialized : count.materialize calls store = (.ok stored, after))
    (pair : ShapedArray → ShapedArray × ShapedArray) {equal : Bool}
    (ends : compared pair = some equal) :
    ((Value.array (pair stored).1).same (.array (pair stored).2) calls after).1 = .ok equal := by
  rw [compared, Action.bind_of_ok materialized] at ends
  rcases ended : (Value.array (pair stored).1).same (.array (pair stored).2) calls after with
    ⟨failure | found, last⟩
  · rw [ended] at ends
    cases ends
  · rw [ended] at ends
    cases ends
    rfl

end Tally

/-- Every pick of the zip succeeds and gives how often it was read. It was one when the zip
was stored, and is two when the zip is compared with what was stored. -/
theorem IsMade.materialize_observed : Tally.count.IsMade Tally.calls ∧
    ∃ value later stored after,
      Tally.count.pick 0 Tally.calls Tally.store = (.ok value, later) ∧
      Tally.count.materialize Tally.calls Tally.store = (.ok stored, after) ∧
      ((Value.array Tally.count).same (.array stored) Tally.calls after).1 = .ok false ∧
      ((Value.array stored).same (.array stored) Tally.calls after).1 = .ok true := by
  refine ⟨Tally.count_made, ?_⟩
  have picked : (Tally.count.pick 0 Tally.calls Tally.store).1.isOk = true := by
    decide +kernel
  have materialized : (Tally.count.materialize Tally.calls Tally.store).1.isOk = true := by
    decide +kernel
  rcases isPicked : Tally.count.pick 0 Tally.calls Tally.store with ⟨failure | value, later⟩
  · rw [isPicked] at picked
    cases picked
  rcases isStored : Tally.count.materialize Tally.calls Tally.store with ⟨failure | stored, after⟩
  · rw [isStored] at materialized
    cases materialized
  refine ⟨value, later, stored, after, rfl, rfl, ?_, ?_⟩
  · exact Tally.compared_eq isStored (fun stored => (Tally.count, stored)) (by decide +kernel)
  · exact Tally.compared_eq isStored (fun stored => (stored, stored)) (by decide +kernel)

end ShapedArray

end PointFree
